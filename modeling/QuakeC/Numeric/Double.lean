/-!
# Double-precision numbers

A `Double` is a 64-bit pattern: a sign, eleven exponent bits and fifty-two fraction bits.  Every
question about it is answered from those fields in exact integer arithmetic:

* `magnitude` — not a number, infinite, or `m * 2 ^ q`;
* `truncate?` — the integer left when the fraction is cut off;
* `toInt?` — the integer that the number is, if it is one;
* `ofSingle` — the double with the value of a 32-bit single-precision pattern.
-/

set_option autoImplicit false

namespace QuakeC

/-- A double-precision number, held as its bits. -/
structure Double where
  bits : UInt64
  deriving DecidableEq, Repr

namespace Double

/-- The absolute value of a number: none, unbounded, or exactly `m * 2 ^ q`. -/
inductive Magnitude where
  | nan
  | infinite
  | finite (m : Nat) (q : Int)
  deriving DecidableEq, Repr

/-- The highest bit, which is the sign. -/
def signBit : Nat := 0x8000000000000000

/-- The bit above the fraction, which normal numbers have without showing it. -/
def leadingBit : Nat := 0x10000000000000

/-- The pattern with the given sign, exponent field and fraction field. -/
def ofFields (negative : Bool) (exponent fraction : Nat) : Double :=
  ⟨UInt64.ofNat ((if negative then signBit else 0) + exponent * leadingBit + fraction)⟩

/-- Whether the sign bit is set; it is for negative zero too. -/
def isNegative (x : Double) : Bool := decide (signBit ≤ x.bits.toNat)

def exponentField (x : Double) : Nat := x.bits.toNat / leadingBit % 2048

def fractionField (x : Double) : Nat := x.bits.toNat % leadingBit

/-- The all-ones exponent marks infinities and NaNs, the zero exponent the subnormal numbers. -/
def magnitude (x : Double) : Magnitude :=
  if x.exponentField = 2047 then
    if x.fractionField = 0 then .infinite else .nan
  else if x.exponentField = 0 then .finite x.fractionField (-1074)
  else .finite (leadingBit + x.fractionField) ((x.exponentField : Int) - 1075)

/-- `n` with the sign of `x`. -/
def withSign (x : Double) (n : Nat) : Int := if x.isNegative then -(n : Int) else n

/-- The integer between `x` and zero that is nearest to `x`; NaN and the infinities have none. -/
def truncate? (x : Double) : Option Int :=
  match x.magnitude with
  | .finite m q => some (x.withSign (m * Nat.pow 2 q.toNat / Nat.pow 2 (-q).toNat))
  | _ => none

/-- The integer equal to `x`, if there is one; both zeros are `0`. -/
def toInt? (x : Double) : Option Int :=
  match x.magnitude with
  | .finite m q =>
    if m * Nat.pow 2 q.toNat % Nat.pow 2 (-q).toNat = 0 then
      some (x.withSign (m * Nat.pow 2 q.toNat / Nat.pow 2 (-q).toNat))
    else none
  | _ => none

/-- Whether `x` is the zero with the sign bit set. -/
def isNegativeZero (x : Double) : Bool := x.bits.toNat == signBit

def nan : Double := ofFields false 2047 0x8000000000000

/-- The double equal to the single-precision number with the given bits.  Every single is
representable: a subnormal one, `f * 2 ^ (-149)`, becomes normal by moving its leading bit to the
implicit place.  All NaN patterns give the one `nan`. -/
def ofSingle (bits : UInt32) : Double :=
  let negative := decide (0x80000000 ≤ bits.toNat)
  let e := bits.toNat / 0x800000 % 256
  let f := bits.toNat % 0x800000
  if e = 255 then
    if f = 0 then ofFields negative 2047 0 else nan
  else if e = 0 then
    if f = 0 then ofFields negative 0 0
    else
      let k := Nat.log2 f
      ofFields negative (k + 874) ((f - Nat.pow 2 k) * Nat.pow 2 (52 - k))
  else ofFields negative (e + 896) (f * 0x20000000)

end Double

end QuakeC
