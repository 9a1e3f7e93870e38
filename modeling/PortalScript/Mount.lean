import PortalScript.Text.Blank
import PortalScript.Text.Split

/-! # Mount directives

A line `#> mount['alias'] from 'source'` mounts the conversation `source` under `alias`. The
directive fills its line, trailing blanks aside; a line that only starts like one is text. -/

namespace PortalScript

/-- A request to mount a conversation as the conduit of an alias. -/
structure Mount where
  conduit : String
  source : String
deriving Repr, DecidableEq

namespace Mount

def readLine? (line : List Char) : Option Mount := do
  let rest ← Text.after? "#>".toList line
  let rest ← Text.after? "mount['".toList (Text.trimLeft rest)
  let (conduit, rest) ← Text.cutAt? ['\''] rest
  let rest ← Text.after? [']'] rest
  let rest ← Text.after? "from".toList (Text.trimLeft rest)
  let rest ← Text.after? ['\''] (Text.trimLeft rest)
  let (source, rest) ← Text.cutAt? ['\''] rest
  if Text.allBlank rest then some ⟨.ofList conduit, .ofList source⟩ else none

def ofLine? (line : String) : Option Mount := readLine? line.toList

/-- The directives of a script in order, and the script without their lines, trimmed. A script
without directives stays as it is. -/
def extract (script : String) : List Mount × String :=
  let lines := Text.splitOn '\n' script.toList
  match lines.filterMap readLine? with
  | [] => ([], script)
  | mounts =>
    let kept := lines.filter fun line => (readLine? line).isNone
    (mounts, .ofList (Text.trim (Text.joinWith '\n' kept)))

end Mount

end PortalScript
