import PortalScript.Text.Blank
import PortalScript.Text.Numeral
import PortalScript.Text.Split

/-! # The prompt library

A prompt file holds a preview and a template body between markers. Entries are numbered by place:
first the base texts, readable or not, then the imports. -/

namespace PortalScript

/-- An entry of the library: its id, the preview, and the template body. -/
structure PromptEntry where
  id : String
  markdown : String
  instructions : String
deriving Repr, DecidableEq

namespace Prompt

def beforeMarker : String := "~~####PROMPT_BEFORE####~~"
def instructionsMarker : String := "~~####SYSTEM_INSTRUCTIONS####~~"
def afterMarker : String := "~~####PROMPT_AFTER####~~"

/-- The id of the entry at a place counted from 0. -/
def idAt (place : Nat) : String := "SI-" ++ Text.padded 3 (place + 1)

/-- The text between the first `opening` and the next `closing`, trimmed. -/
def between? (opening closing : String) (text : List Char) : Option String := do
  let (_, rest) ← Text.cutAt? opening.toList text
  let (inner, _) ← Text.cutAt? closing.toList rest
  return .ofList (Text.trim inner)

def instructions? (text : String) : Option String :=
  between? instructionsMarker afterMarker text.toList

/-- Reads a prompt file; only the preview may be missing. -/
def parse? (text : String) (place : Nat) : Option PromptEntry :=
  (instructions? text).map fun body =>
    ⟨idAt place, (between? beforeMarker instructionsMarker text.toList).getD "", body⟩

end Prompt

structure Library where
  base : List PromptEntry := []
  imported : List PromptEntry := []
  /-- How many base texts there were, read or not; imports are numbered after them. -/
  baseLength : Nat := 0
deriving Repr, DecidableEq

namespace Library

/-- The base entries of the texts from place `n` on. -/
def readFrom (n : Nat) : List String → List PromptEntry
  | [] => []
  | text :: rest => (Prompt.parse? text n).toList ++ readFrom (n + 1) rest

/-- The library of base texts. A text that cannot be read is left out and still takes its id. -/
def ofTexts (texts : List String) : Library := ⟨readFrom 0 texts, [], texts.length⟩

def entries (l : Library) : List PromptEntry := l.base ++ l.imported

def size (l : Library) : Nat := l.base.length + l.imported.length

def nextId (l : Library) : String := Prompt.idAt (l.baseLength + l.imported.length)

/-- The entry that importing a text adds: its template body, or the text as it is if it has none. -/
def entryOf (l : Library) (text : String) : PromptEntry :=
  ⟨l.nextId, "", (Prompt.instructions? text).getD text⟩

def importText (l : Library) (text : String) : Library :=
  { l with imported := l.imported ++ [l.entryOf text] }

def get? (l : Library) (id : String) : Option PromptEntry := l.entries.find? (·.id = id)

def template? (l : Library) (id : String) : Option String := (l.get? id).map (·.instructions)

end Library

end PortalScript
