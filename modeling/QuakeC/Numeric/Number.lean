import QuakeC.Numeric.Shortest

/-!
# Numbers and their text

Offsets and header words reach the library as numbers of unknown make: mostly integers read from an
image, but a caller may also hand in a fraction, an infinity or a NaN.  A `Number` keeps an integer
as an integer and everything else as a `Double`.

`Double.text` writes a double with the fewest digits that read back, positionally from `1e-6` up to
below `1e21` and with an exponent outside; both zeros are `0`.
-/

set_option autoImplicit false

namespace QuakeC

namespace Decimal

/-- The digits with trailing zeros removed. -/
def significant (d : Decimal) : List Char :=
  ((Nat.toDigits 10 d.digits).reverse.dropWhile (· == '0')).reverse

/-- The number of digits that stand before the decimal point. -/
def pointPlace (d : Decimal) : Int := ((Nat.toDigits 10 d.digits).length : Int) + d.exponent

/-- Positional notation when the point falls within the first 21 digits or fewer than six zeros
stand between the point and the first digit; otherwise one digit, the rest as a fraction, and a
signed exponent. -/
def text (d : Decimal) : String :=
  let digits := d.significant
  let place := d.pointPlace
  if 0 < place ∧ place ≤ 21 then
    if digits.length ≤ place.toNat then
      String.ofList (digits ++ List.replicate (place.toNat - digits.length) '0')
    else String.ofList (digits.take place.toNat ++ '.' :: digits.drop place.toNat)
  else if -6 < place ∧ place ≤ 0 then
    String.ofList ('0' :: '.' :: List.replicate (-place).toNat '0' ++ digits)
  else
    let fraction := digits.drop 1
    let mantissa := digits.take 1 ++ (if fraction.isEmpty then [] else '.' :: fraction)
    let sign := if place ≤ 0 then "e-" else "e+"
    String.ofList mantissa ++ sign ++ toString (place - 1).natAbs

end Decimal

namespace Double

/-- The text of a number; the sign of zero does not show. -/
def text (x : Double) : String :=
  let sign := if x.isNegative then "-" else ""
  match x.magnitude with
  | .nan => "NaN"
  | .infinite => sign ++ "Infinity"
  | .finite m q => if m = 0 then "0" else sign ++ (Decimal.Target.of m q).shortest.text

end Double

/-- A number handed to a lookup or written to a header. -/
inductive Number where
  | int (n : Int)
  | double (x : Double)
  deriving DecidableEq, Repr

namespace Number

/-- The greatest integer up to which every integer is a double of its own. -/
def safeLimit : Int := 0x1fffffffffffff

/-- A double as a number: an integer whenever it is one that no rounding can have produced.
Negative zero stays a double, since its sign would be lost. -/
def ofDouble (x : Double) : Number :=
  match x.toInt? with
  | some n => if n.natAbs ≤ safeLimit ∧ x.isNegativeZero = false then .int n else .double x
  | none => .double x

/-- The integer that a number is, if it is one. -/
def toInt? : Number → Option Int
  | .int n => some n
  | .double x => x.toInt?

/-- The integer left when the fraction is cut off. -/
def truncate? : Number → Option Int
  | .int n => some n
  | .double x => x.truncate?

/-- The 32-bit word of a number: cut off at the point and taken modulo `2 ^ 32`.  NaN and the
infinities give zero. -/
def word (x : Number) : Nat := (x.truncate?.getD 0 % 0x100000000).toNat

def text : Number → String
  | .int n => toString n
  | .double x => x.text

end Number

end QuakeC
