import QuakeC.Numeric.Double

/-!
# Bytes and fields

A natural number as a given number of bytes, the least significant one first, and back; bits that do
not fit are dropped.

Fields are the fixed-width values that records are made of: integers of one, two or four bytes,
unsigned or in two's complement, and single-precision numbers.  All are little-endian.
-/

set_option autoImplicit false

namespace QuakeC

/-! ## Bytes -/

/-- The bytes of a file or of a part of one. -/
abbrev Bytes := Array UInt8

namespace LittleEndian

/-- The natural number with the given bytes. -/
def toNat : List UInt8 → Nat
  | [] => 0
  | b :: bs => b.toNat + 256 * toNat bs

/-- The lowest `width` bytes of `n`. -/
def ofNat : (width n : Nat) → List UInt8
  | 0, _ => []
  | width + 1, n => UInt8.ofNat (n % 256) :: ofNat width (n / 256)

end LittleEndian

namespace Bytes

/-- The index that a signed position stands for in a sequence of `size` bytes: a negative one counts
from the end, and none lies before the start. -/
def index (size : Nat) (position : Int) : Nat :=
  if position < 0 then (size + position).toNat else position.toNat

/-- The bytes from `start` up to but not including `stop`.  Positions past the end stop there, and
nothing lies between a position and an earlier one. -/
def slice (bytes : Bytes) (start stop : Int) : Bytes :=
  bytes.extract (index bytes.size start) (index bytes.size stop)

end Bytes

/-! ## Fields -/

/-- The integer fields, by sign and number of bits. -/
inductive IntKind where
  | u8
  | i8
  | u16
  | i16
  | u32
  | i32
  deriving DecidableEq, Repr

namespace IntKind

/-- The number of bytes. -/
def size : IntKind → Nat
  | u8 | i8 => 1
  | u16 | i16 => 2
  | u32 | i32 => 4

def isSigned : IntKind → Bool
  | i8 | i16 | i32 => true
  | u8 | u16 | u32 => false

/-- The number of values of the kind. -/
def modulus : IntKind → Nat
  | u8 | i8 => 0x100
  | u16 | i16 => 0x10000
  | u32 | i32 => 0x100000000

/-- The values of the kind: `0` up to the modulus, or from half of it below zero. -/
def InRange (k : IntKind) (v : Int) : Prop :=
  if k.isSigned then -(k.modulus : Int) ≤ 2 * v ∧ 2 * v < k.modulus else 0 ≤ v ∧ v < k.modulus

instance (k : IntKind) (v : Int) : Decidable (k.InRange v) := by
  unfold InRange; infer_instance

/-- The value of a field's bytes. -/
def decode (k : IntKind) (bytes : List UInt8) : Int :=
  let n := LittleEndian.toNat bytes
  if k.isSigned ∧ k.modulus ≤ 2 * n then (n : Int) - k.modulus else n

/-- The bytes of a value, taken modulo the number of values of the kind. -/
def encode (k : IntKind) (v : Int) : List UInt8 :=
  LittleEndian.ofNat k.size (v % k.modulus).toNat

/-- The value of the field that starts at byte `i` of a record. -/
def fieldAt (k : IntKind) (record : List UInt8) (i : Nat) : Int :=
  k.decode ((record.drop i).take k.size)

end IntKind

/-- The kinds of field. -/
inductive FieldKind where
  | int (k : IntKind)
  | f32
  deriving DecidableEq, Repr

/-- The value of a field. -/
inductive Datum where
  | int (n : Int)
  | float (x : Double)
  deriving DecidableEq, Repr

/-- The integer at a place of a row of values; zero where no integer stands. -/
def Datum.intAt (row : List Datum) (i : Nat) : Int :=
  match row[i]? with
  | some (.int n) => n
  | _ => 0

namespace FieldKind

/-- The number of bytes. -/
def size : FieldKind → Nat
  | .int k => k.size
  | .f32 => 4

/-- The value of a field's bytes. -/
def decode (kind : FieldKind) (bytes : List UInt8) : Datum :=
  match kind with
  | .int k => .int (k.decode bytes)
  | .f32 => .float (Double.ofSingle (UInt32.ofNat (LittleEndian.toNat bytes)))

/-- The number of bytes of a run of fields, by the sizes of their kinds. -/
def totalSize (kinds : List FieldKind) : Nat := kinds.foldr (fun kind n => kind.size + n) 0

/-- The values of a run of fields that follow one another without gaps. -/
def decodeAll : List FieldKind → List UInt8 → List Datum
  | [], _ => []
  | kind :: kinds, bytes =>
    kind.decode (bytes.take kind.size) :: decodeAll kinds (bytes.drop kind.size)

end FieldKind

end QuakeC
