import PortalScript.Cli.Report

/-! # The command

Reads the files that the arguments name, prints the report, and exits with its code. -/

namespace PortalScript.Cli

def readFile (path : String) : IO (Except ReadError String) := do
  try return (Source.bytes (← IO.FS.readBinFile path)).read
  catch
    | .noFileOrDirectory .. => return .error .missing
    | .inappropriateType .. => return .error .directory
    | e => return .error (.other (toString e))

def readStandard : IO (Except ReadError String) := do
  return (Source.bytes (← (← IO.getStdin).readBinToEnd)).read

def Command.inputs (c : Command) : IO Inputs := do
  let files ← c.paths.mapM fun path => return (path, ← readFile path)
  let standard ← if c.readsStandard then readStandard else pure (.ok "")
  return ⟨fun path => (Table.lookup path files).getD (.error .missing), standard⟩

end PortalScript.Cli

open PortalScript.Cli in
def main (args : List String) : IO UInt32 := do
  match Command.parse args with
  | .error .help =>
    IO.println Command.usage
    return 0
  | .error (.refused e) =>
    IO.eprintln s!"error: {e.message}"
    return 2
  | .ok command =>
    let report := command.report (← command.inputs)
    report.notices.forM fun notice => IO.eprintln notice.text
    IO.print report.output
    return report.exitCode.toUInt32
