/-! # Decimal numerals

`ofDigits?` reads a numeral of ASCII digits and `readNat?` one that a plus sign may precede; both
refuse a value above a limit. `padded` writes a number with leading zeros. -/

namespace PortalScript.Text

def digitsValue (cs : List Char) : Nat :=
  cs.foldl (fun n c => 10 * n + (c.toNat - '0'.toNat)) 0

/-- Whether the text is a nonempty run of ASCII digits. -/
def isNumeral (cs : List Char) : Bool := !cs.isEmpty && cs.all Char.isDigit

/-- The value of a numeral that is at most `limit`. -/
def ofDigits? (limit : Nat) (cs : List Char) : Option Nat :=
  if isNumeral cs && digitsValue cs ≤ limit then some (digitsValue cs) else none

/-- The value of a numeral that is at most `limit` and may carry a plus sign. -/
def readNat? (limit : Nat) : List Char → Option Nat
  | '+' :: cs => ofDigits? limit cs
  | cs => ofDigits? limit cs

def maxWord32 : Nat := 0xFFFFFFFF

def maxWord64 : Nat := 0xFFFFFFFFFFFFFFFF

/-- The decimal numeral of `n` with leading zeros up to `width` digits. -/
def padded (width n : Nat) : String :=
  let digits := toString n
  .ofList (.replicate (width - digits.length) '0') ++ digits

end PortalScript.Text
