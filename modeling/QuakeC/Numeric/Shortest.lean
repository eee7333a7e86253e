import QuakeC.Numeric.Double

/-!
# The fewest digits that read back

A decimal identifies a double when the double is the nearest one to it.  The decimals that do so
for `m * 2 ^ q` form an interval that reaches half way to each neighbour and holds its ends exactly
when `m` is even.  `shortest` looks for the coarsest decimal grid with a point in that interval: on
the grid of one significant digit, then of two, and so on, it tries the two grid points next to the
number.  All comparisons are between natural numbers.
-/

set_option autoImplicit false

namespace QuakeC

/-- The number `digits * 10 ^ exponent`. -/
structure Decimal where
  digits : Nat
  exponent : Int
  deriving DecidableEq, Repr

namespace Decimal

/-- A positive double `m * 2 ^ q` with the room below it: `closeBelow` says that the next smaller
double is only half as far away as the next greater one. -/
structure Target where
  m : Nat
  q : Int
  closeBelow : Bool

namespace Target

/-- `m * 2 ^ q` as a double: the gap narrows below a power of two, save at the least exponent. -/
def of (m : Nat) (q : Int) : Target := ⟨m, q, m == Double.leadingBit && decide (-1074 < q)⟩

/-- Quarter steps from zero to the number and to the two ends of its interval, in units of
`2 ^ (q - 2)`. -/
def centre (t : Target) : Nat := 4 * t.m

def lower (t : Target) : Nat := if t.closeBelow then 4 * t.m - 1 else 4 * t.m - 2

def upper (t : Target) : Nat := 4 * t.m + 2

/-- The factor that takes quarter steps to a common unit with the grid `10 ^ e`. -/
def stepScale (t : Target) (e : Int) : Nat :=
  Nat.pow 2 (t.q - 2).toNat * Nat.pow 10 (-e).toNat

/-- The factor that takes points of the grid `10 ^ e` to that common unit. -/
def gridScale (t : Target) (e : Int) : Nat :=
  Nat.pow 2 (2 - t.q).toNat * Nat.pow 10 e.toNat

/-- Whether `d` is nearer to this double than to any other, the even one winning a tie. -/
def isReadAs (t : Target) (d : Decimal) : Bool :=
  let point := d.digits * t.gridScale d.exponent
  let low := t.lower * t.stepScale d.exponent
  let high := t.upper * t.stepScale d.exponent
  if t.m % 2 = 0 then decide (low ≤ point ∧ point ≤ high) else decide (low < point ∧ point < high)

/-- The number of digits before the decimal point; zero or negative below `1`. -/
def pointPlace (t : Target) : Int :=
  let whole := t.m * Nat.pow 2 t.q.toNat / Nat.pow 2 (-t.q).toNat
  if whole ≠ 0 then ((Nat.toDigits 10 whole).length : Int)
  else
    match (List.range 330).find? fun j =>
      decide (Nat.pow 2 (-t.q).toNat ≤ t.m * Nat.pow 10 (j + 1)) with
    | some j => -(j : Int)
    | none => -330

/-- The better of the two grid points next to the number, if one of them reads back: the nearer
one, and of two equally near ones the even one. -/
def onGrid? (t : Target) (e : Int) : Option Decimal :=
  let value := t.centre * t.stepScale e
  let unit := t.gridScale e
  let below : Decimal := ⟨value / unit, e⟩
  let above : Decimal := ⟨value / unit + 1, e⟩
  let twice := 2 * (value % unit)
  match t.isReadAs below, t.isReadAs above with
  | true, false => some below
  | false, true => some above
  | true, true =>
    if twice < unit then some below
    else if unit < twice then some above
    else if below.digits % 2 = 0 then some below else some above
  | false, false => none

/-- The exact value, which every double has. -/
def exact (t : Target) : Decimal :=
  ⟨t.m * Nat.pow 2 t.q.toNat * Nat.pow 5 (-t.q).toNat, -((-t.q).toNat : Int)⟩

/-- The decimal with the fewest digits that reads back, nearest to the number among those. -/
def shortest (t : Target) : Decimal :=
  ((List.range 17).findSome? fun k => t.onGrid? (t.pointPlace - (k + 1 : Nat))).getD t.exact

end Target

end Decimal

end QuakeC
