import PortalScript.Json.Token

/-! # Reading JSON

`Json.parse?` reads a text that is one value. The tokens are read one by one against a stack of the
arrays and objects that are still open, so no depth of nesting is too deep for it. -/

namespace PortalScript.Json

/-- An array or object that is still open, its parts so far in reverse. -/
inductive Frame
  | array (reversed : List Json)
  | object (reversed : List (Option String × Json)) (key : Option String)
deriving Inhabited

/-- What may come next, inside the frames given. -/
inductive Reading
  | value (frames : List Frame)
  | firstItem (frames : List Frame)
  | firstKey (frames : List Frame)
  | key (reversed : List (Option String × Json)) (frames : List Frame)
  | colon (reversed : List (Option String × Json)) (key : Option String) (frames : List Frame)
  | after (value : Json) (frames : List Frame)

namespace Reading

/-- Reads the first token of a value. -/
def begin? (frames : List Frame) : Token → Option Reading
  | .scalar v => some (after v frames)
  | .beginArray => some (firstItem frames)
  | .beginObject => some (firstKey frames)
  | _ => none

def name? (reversed : List (Option String × Json)) (frames : List Frame) : Token → Option Reading
  | .scalar (.string text) => some (colon reversed text frames)
  | _ => none

def step : Reading → Token → Option Reading
  | value frames, t => begin? frames t
  | firstItem frames, .endArray => some (after (.array []) frames)
  | firstItem frames, t => begin? (.array [] :: frames) t
  | firstKey frames, .endObject => some (after (.object []) frames)
  | firstKey frames, t => name? [] frames t
  | key reversed frames, t => name? reversed frames t
  | colon reversed k frames, .colon => some (value (.object reversed k :: frames))
  | after v (.array vs :: frames), .comma => some (value (.array (v :: vs) :: frames))
  | after v (.array vs :: frames), .endArray => some (after (.array (v :: vs).reverse) frames)
  | after v (.object ms k :: frames), .comma => some (key ((k, v) :: ms) frames)
  | after v (.object ms k :: frames), .endObject => some (after (.object ((k, v) :: ms).reverse) frames)
  | _, _ => none

/-- Reads tokens to their end, which must be that of a value. -/
def run : Reading → List Token → Option Json
  | after v [], [] => some v
  | _, [] => none
  | r, t :: ts =>
    match step r t with
    | none => none
    | some r => run r ts

end Reading

/-- Reads a text that is one value, blanks around it aside. -/
def parse? (text : String) : Option Json := (tokens? text).bind (Reading.run (.value []))

end PortalScript.Json
