import PortalScript.Main
import PortalScript.Proofs.Template.Matching
import PortalScript.Proofs.Fragment.Prefix
import PortalScript.Proofs.Fragment.Trim
import PortalScript.Proofs.Fragment.Locality
import PortalScript.Proofs.Link.Spelling
import PortalScript.Proofs.Override.Links
import PortalScript.Proofs.Params.Prefix
import PortalScript.Proofs.Params.Resolved
import PortalScript.Proofs.Portal.Prefix
import PortalScript.Proofs.Portal.Resolved
import PortalScript.Proofs.Resolution.Calm
import PortalScript.Proofs.Resolution.Prepare
import PortalScript.Proofs.Resolution.Retry
import PortalScript.Proofs.Value.Kind
import PortalScript.Proofs.Resolution.Step
import PortalScript.Proofs.Resolution.Passes
import PortalScript.Proofs.Resolution.Failures
import PortalScript.Proofs.Resolution.Frame
import PortalScript.Proofs.Fragment.Insert
import PortalScript.Proofs.Portal.Locality
import PortalScript.Proofs.Params.Whole
import PortalScript.Proofs.Portal.Whole
import PortalScript.Proofs.Resolution.Receives
import PortalScript.Proofs.Text.Numeral
import PortalScript.Proofs.Resolution.Mounted
import PortalScript.Proofs.Fixture.Perform
import PortalScript.Proofs.Resolution.Reports
import PortalScript.Proofs.Resolution.Actions
import PortalScript.Proofs.Mount.Grammar
import PortalScript.Proofs.Mount.Stripping
import PortalScript.Proofs.Resolution.Plain
import PortalScript.Proofs.Resolution.Closed
import PortalScript.Proofs.Resolution.Elapsed
import PortalScript.Proofs.Resolution.Agree
import PortalScript.Proofs.Resolution.Repeat
import PortalScript.Proofs.Mount.Addressable
import PortalScript.Proofs.Placeholder.Replace
import PortalScript.Proofs.Resolution.Literal
import PortalScript.Proofs.Template.Runs
import PortalScript.Proofs.Override.Order
import PortalScript.Proofs.Template.Pieces
import PortalScript.Proofs.Override.Markers
import PortalScript.Proofs.Turn.Counting
import PortalScript.Proofs.Fixture.Handle
import PortalScript.Proofs.Resolution.Aim
import PortalScript.Proofs.Link.Grammar
import PortalScript.Proofs.Portal.Spelling
import PortalScript.Proofs.Library.Sections
import PortalScript.Proofs.Library.Numbering
import PortalScript.Proofs.Fixture.Atomic
import PortalScript.Proofs.Cli.Overrides
import PortalScript.Proofs.Placeholder.Division
import PortalScript.Proofs.Mount.Lines
import PortalScript.Proofs.Text.Slice
import PortalScript.Proofs.Template.Splice
import PortalScript.Proofs.Template.Flatten
import PortalScript.Proofs.Fragment.Operations
import PortalScript.Proofs.Params.Extent
