import PortalScript.Json

/-! # Tokens of JSON text

The text is read one character at a time: `Lexer.step` takes the mode the reader is in to the next
one and gives the tokens that the character completes. -/

namespace PortalScript.Json

inductive Token
  | beginArray
  | endArray
  | beginObject
  | endObject
  | colon
  | comma
  /-- A value without parts: a word, a number or a string. -/
  | scalar (value : Json)
deriving Repr, Inhabited

namespace Lexer

/-- A string literal read so far: its characters, the latest first, whether they are its text, and
the leading half of a surrogate pair whose other half is still to come. -/
structure Literal where
  reversed : List Char := []
  sound : Bool := true
  half : Option Nat := none

namespace Literal

/-- Gives up a surrogate half that stayed alone. -/
def settle (l : Literal) : Literal :=
  match l.half with
  | none => l
  | some _ => { l with sound := false, half := none }

def push (l : Literal) (c : Char) : Literal :=
  let l := l.settle
  { l with reversed := c :: l.reversed }

/-- Adds the UTF-16 unit of an escape. -/
def pushUnit (l : Literal) (unit : Nat) : Literal :=
  if 0xD800 ≤ unit && unit < 0xDC00 then { l.settle with half := some unit }
  else if 0xDC00 ≤ unit && unit < 0xE000 then
    match l.half with
    | some high =>
      let c := Char.ofNat (0x10000 + (high - 0xD800) * 0x400 + (unit - 0xDC00))
      { l with reversed := c :: l.reversed, half := none }
    | none => { l with sound := false }
  else l.push (Char.ofNat unit)

def value (l : Literal) : Json :=
  let l := l.settle
  .string (if l.sound then some (.ofList l.reversed.reverse) else none)

end Literal

inductive Mode
  | between
  | word (reversed : List Char)
  | number (reversed : List Char)
  | text (literal : Literal)
  | escape (literal : Literal)
  | unit (literal : Literal) (digits : Nat) (value : Nat)

/-- Drops a nonempty run of digits. -/
def digits? (cs : List Char) : Option (List Char) :=
  if cs.head?.any Char.isDigit then some (cs.dropWhile Char.isDigit) else none

/-- Whether the text is an exponent or nothing. -/
def isExponent : List Char → Bool
  | [] => true
  | e :: cs =>
    (e = 'e' || e = 'E') &&
      match cs with
      | '+' :: ds => digits? ds = some []
      | '-' :: ds => digits? ds = some []
      | ds => digits? ds = some []

/-- Whether the text is a number: no leading zeros, and digits on both sides of a point. -/
def isNumber (cs : List Char) : Bool :=
  let cs := match cs with
    | '-' :: rest => rest
    | _ => cs
  let whole := match cs with
    | '0' :: rest => some rest
    | _ => digits? cs
  match whole with
  | none => false
  | some ('.' :: rest) =>
    match digits? rest with
    | none => false
    | some rest => isExponent rest
  | some rest => isExponent rest

def wordToken (reversed : List Char) : Option Token :=
  let word := String.ofList reversed.reverse
  if word = "null" then some (.scalar .null)
  else if word = "true" then some (.scalar (.bool true))
  else if word = "false" then some (.scalar (.bool false))
  else none

/-- The token of a run of characters that numbers are made of. -/
def numberToken (reversed : List Char) : Option Token :=
  if isNumber reversed.reverse then some (.scalar (.number (.ofList reversed.reverse))) else none

/-- Reads a character between tokens. -/
def start (c : Char) : Option (List Token × Mode) :=
  if c = ' ' || c = '\t' || c = '\n' || c = '\r' then some ([], .between)
  else if c = '[' then some ([.beginArray], .between)
  else if c = ']' then some ([.endArray], .between)
  else if c = '{' then some ([.beginObject], .between)
  else if c = '}' then some ([.endObject], .between)
  else if c = ':' then some ([.colon], .between)
  else if c = ',' then some ([.comma], .between)
  else if c = '"' then some ([], .text {})
  else if c.isAlpha then some ([], .word [c])
  else if c.isDigit || c = '-' then some ([], .number [c])
  else none

/-- Reads a character behind a token that the character may not belong to. -/
def startAfter (token : Option Token) (c : Char) : Option (List Token × Mode) := do
  let token ← token
  let (tokens, mode) ← start c
  return (token :: tokens, mode)

/-- The character that a letter behind a backslash stands for. -/
def unescape? (c : Char) : Option Char :=
  if c = '"' || c = '\\' || c = '/' then some c
  else if c = 'b' then some (Char.ofNat 8)
  else if c = 'f' then some (Char.ofNat 12)
  else if c = 'n' then some '\n'
  else if c = 'r' then some '\r'
  else if c = 't' then some '\t'
  else none

def hexValue? (c : Char) : Option Nat :=
  if c.isDigit then some (c.toNat - 48)
  else if 'a' ≤ c ∧ c ≤ 'f' then some (c.toNat - 87)
  else if 'A' ≤ c ∧ c ≤ 'F' then some (c.toNat - 55)
  else none

/-- Reads a character: the tokens it completes and the mode behind it. -/
def step (mode : Mode) (c : Char) : Option (List Token × Mode) :=
  match mode with
  | .between => start c
  | .word cs => if c.isAlpha then some ([], .word (c :: cs)) else startAfter (wordToken cs) c
  | .number cs =>
    if c.isDigit || c = '+' || c = '-' || c = '.' || c = 'e' || c = 'E' then
      some ([], .number (c :: cs))
    else startAfter (numberToken cs) c
  | .text l =>
    if c = '"' then some ([.scalar l.value], .between)
    else if c = '\\' then some ([], .escape l)
    else if c.toNat < 32 then none
    else some ([], .text (l.push c))
  | .escape l =>
    if c = 'u' then some ([], .unit l 0 0) else (unescape? c).map fun c => ([], .text (l.push c))
  | .unit l n v =>
    (hexValue? c).map fun d =>
      if n = 3 then ([], .text (l.pushUnit (16 * v + d))) else ([], .unit l (n + 1) (16 * v + d))

/-- The token that the end of the text completes. -/
def finish : Mode → Option (List Token)
  | .between => some []
  | .word cs => (wordToken cs).map ([·])
  | .number cs => (numberToken cs).map ([·])
  | _ => none

/-- Reads on from a mode; the tokens read before come in reverse. -/
def run (mode : Mode) (reversed : List Token) : List Char → Option (List Token)
  | [] => (finish mode).map fun tokens => reversed.reverse ++ tokens
  | c :: cs =>
    match step mode c with
    | none => none
    | some (tokens, mode) => run mode (tokens.reverse ++ reversed) cs

end Lexer

def tokens? (text : String) : Option (List Token) := Lexer.run .between [] text.toList

end PortalScript.Json
