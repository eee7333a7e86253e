import QuakeC.Bytes.Field
import QuakeC.Error

/-!
# Reading with a cursor

A cursor stands at a position in a byte sequence and knows the name of the region that is being
read, which a failed read reports.  A position may be any integer, but nothing can be read before
the start or past the end.

A `Reader` is a computation that moves a cursor.  When it fails, the cursor stays where the failed
read found it.
-/

set_option autoImplicit false

namespace QuakeC

/-- A position in a byte sequence. -/
structure Cursor where
  bytes : Bytes
  position : Int := 0
  /-- What is being read. -/
  region : String := "header"

namespace Cursor

/-- The number of bytes from the position to the end. -/
def remaining (c : Cursor) : Int := max 0 ((c.bytes.size : Int) - c.position)

/-- Whether `n` bytes can be read. -/
def fits (c : Cursor) (n : Int) : Bool :=
  decide (0 ≤ c.position) && decide (c.position + n ≤ c.bytes.size)

/-- The report of a refused read of `n` bytes. -/
def shortfall (c : Cursor) (n : Int) : Error := .truncated c.region c.position n c.remaining

end Cursor

/-- A computation that reads from a cursor. -/
abbrev Reader (α : Type) := EStateM Error Cursor α

namespace Reader

/-- The current position. -/
def position : Reader Int := do return (← get).position

/-- The name of the region being read. -/
def region : Reader String := do return (← get).region

def seek (position : Int) : Reader Unit := modify fun c => { c with position }

def enter (region : String) : Reader Unit := modify fun c => { c with region }

/-- Nothing, unless fewer than `n` bytes can be read. -/
def ensure (n : Int) : Reader Unit := do
  let c ← get
  if c.fits n then return () else throw (c.shortfall n)

/-- The next `n` bytes.  A count below zero moves the cursor back and gives what `Bytes.slice` finds
between the old and the new position. -/
def bytes (n : Int) : Reader Bytes := do
  ensure n
  let c ← get
  set { c with position := c.position + n }
  return c.bytes.slice c.position (c.position + n)

/-! ## Fields

Each kind of field is read by itself and checks for itself that its bytes are there.  How many they
are is written into the read and not taken from the table of sizes. -/

/-- The next `width` bytes as a natural number. -/
def unsigned (width : Nat) : Reader Nat := return LittleEndian.toNat (← bytes width).toList

/-- The next `width` bytes in two's complement: the upper half of the numbers below `modulus` stands
for negative ones. -/
def signed (width modulus : Nat) : Reader Int := do
  let n ← unsigned width
  return if modulus ≤ 2 * n then (n : Int) - modulus else n

/-- The single-precision number in the next four bytes. -/
def single : Reader Double := return Double.ofSingle (UInt32.ofNat (← unsigned 4))

/-- The value of one field. -/
def field : FieldKind → Reader Datum
  | .int .u8 => return .int (← unsigned 1)
  | .int .i8 => return .int (← signed 1 0x100)
  | .int .u16 => return .int (← unsigned 2)
  | .int .i16 => return .int (← signed 2 0x10000)
  | .int .u32 => return .int (← unsigned 4)
  | .int .i32 => return .int (← signed 4 0x100000000)
  | .f32 => return .float (← single)

/-- The values of a run of fields, all of which have to fit before the first is read. -/
def fields (kinds : List FieldKind) : Reader (List Datum) := do
  ensure (FieldKind.totalSize kinds)
  kinds.mapM field

/-! ## Repeated reads -/

/-- What `many` has read so far, the latest first, goes before the next `n` results. -/
def manyOnto {α : Type} (read : Reader α) : Nat → List α → Reader (List α)
  | 0, reversed => return reversed.reverse
  | n + 1, reversed => do
    let x ← read
    manyOnto read n (x :: reversed)

/-- The results of reading `n` times.  The first failure ends the reading. -/
def many {α : Type} (read : Reader α) (n : Nat) : Reader (List α) := manyOnto read n []

end Reader

end QuakeC
