import PortalScript.Json
import PortalScript.Text.Numeral

/-! # The magnitude of numbers

A number that is held back is kept in double precision, by rounding twice: its digits, as many as
fit 64 bits, are rounded, and their product with the rounded power of ten is rounded again. The
number is refused if that gives no finite double (`isFinite`). -/

namespace PortalScript.Json

/-- The nearest whole number that 53 bits and a power of two can express. Of two that are equally
near it is the one with an even last bit. -/
def roundToDouble (n : Nat) : Nat :=
  let unit := Nat.pow 2 (n.log2 - 52)
  let q := n / unit
  let r := n % unit
  if unit < 2 * r || (unit = 2 * r && q % 2 = 1) then (q + 1) * unit else q * unit

/-- The least whole number that is rounded beyond the largest finite double. -/
def doubleLimit : Nat := Nat.pow 2 1024 - Nat.pow 2 970

/-- Puts digits behind the digits of `n` as long as the number fits 64 bits; also answers the digits
that were left over. -/
def appendDigits (n : Nat) : List Char → Nat × List Char
  | [] => (n, [])
  | c :: cs =>
    let m := 10 * n + (c.toNat - '0'.toNat)
    if m ≤ Text.maxWord64 then appendDigits m cs else (n, c :: cs)

/-- The digits of a number that count, and the power of ten by which they are scaled. Digits of the
whole part that are left over count as zeros, those of the fraction not at all. -/
def scaled (whole fraction : List Char) (exponent : Int) : Nat × Int :=
  let (n, zeros) := appendDigits 0 whole
  let (n, rest) := appendDigits n fraction
  (n, exponent + zeros.length - (fraction.length - rest.length))

/-- Whether digits times a power of ten are finite in double precision. -/
def isFiniteScaled (digits : Nat) (power : Int) : Bool :=
  digits = 0 || power < 0 ||
    (power ≤ 308 && roundToDouble digits * roundToDouble (Nat.pow 10 power.toNat) < doubleLimit)

/-- Whether a number is finite in double precision. -/
def isFinite (lexeme : String) : Bool :=
  let cs := lexeme.toList.dropWhile (· = '-')
  let whole := cs.takeWhile Char.isDigit
  let rest := cs.dropWhile Char.isDigit
  let fraction := if rest.head? = some '.' then (rest.drop 1).takeWhile Char.isDigit else []
  let exponent := (rest.dropWhile fun c => c ≠ 'e' && c ≠ 'E').drop 1
  let size : Int := Text.digitsValue (exponent.filter Char.isDigit)
  let (digits, power) := scaled whole fraction (if exponent.head? = some '-' then -size else size)
  isFiniteScaled digits power

end PortalScript.Json
