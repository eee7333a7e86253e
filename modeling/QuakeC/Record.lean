import QuakeC.Bytes.Cursor
import QuakeC.Opcode
import QuakeC.ValueType

/-!
# Records

The three kinds of fixed-size record in an image.  Each has a list of `fields` and with it a `size`,
a reader that checks what it reads, and an encoder that writes the bytes back.

* A statement is an opcode and three signed operands.
* A definition packs a type and a flag into its first sixteen bits, then holds the offset of the
  defined value and the offset of the name.
* A function holds seven words and eight bytes of parameter sizes, of which as many count as the
  last word says.  The words and the sizes are read separately.

Records hold offsets only.  What stands at an offset is looked up in the string table and in the
globals.
-/

set_option autoImplicit false

namespace QuakeC

/-- An instruction with its operands. -/
structure Statement where
  op : Opcode
  a : Int
  b : Int
  c : Int
  deriving DecidableEq, Repr

/-- A named global value or a named field of entities. -/
structure Definition where
  type : ValueType
  /-- Whether the value is kept in saved games. -/
  saveGlobal : Bool
  ofs : Int
  sName : Int
  deriving DecidableEq, Repr

/-- A function: where its body starts, its frame, its name and file, and the sizes of its
parameters. -/
structure FunctionRecord where
  /-- The first statement of the body; zero or a negative number marks a built-in. -/
  firstStatement : Int
  parmStart : Int
  locals : Int
  profile : Int
  sName : Int
  sFile : Int
  parmSize : List Nat
  deriving DecidableEq, Repr

namespace Statement

/-- The opcode and the operands. -/
def fields : List FieldKind := [.int .u16, .int .i16, .int .i16, .int .i16]

def size : Nat := FieldKind.totalSize fields

/-- The statement at the cursor. -/
def read : Reader Statement := do
  let start ← Reader.position
  let row ← Reader.fields fields
  let code := Datum.intAt row 0
  match Opcode.ofCode? code with
  | some op =>
    return { op, a := Datum.intAt row 1, b := Datum.intAt row 2, c := Datum.intAt row 3 }
  | none => throw (.invalidEnum .opcode code (← Reader.region) start)

def encode (s : Statement) : List UInt8 :=
  IntKind.u16.encode s.op.code ++ IntKind.i16.encode s.a ++ IntKind.i16.encode s.b ++
    IntKind.i16.encode s.c

end Statement

namespace Definition

/-- The type with its flag, the offset of the value and the offset of the name, which is signed. -/
def fields : List FieldKind := [.int .u16, .int .u16, .int .i32]

def size : Nat := FieldKind.totalSize fields

/-- The flag in the highest bit of the first word. -/
def saveBit : Int := 0x8000

/-- The definition at the cursor. -/
def read : Reader Definition := do
  let start ← Reader.position
  let row ← Reader.fields fields
  let packed := Datum.intAt row 0
  match ValueType.ofStored? (packed % saveBit) with
  | some type =>
    return {
      type
      saveGlobal := decide (saveBit ≤ packed)
      ofs := Datum.intAt row 1
      sName := Datum.intAt row 2 }
  | none => throw (.invalidEnum .valueType (packed % saveBit) (← Reader.region) start)

def encode (d : Definition) : List UInt8 :=
  IntKind.u16.encode (d.type.code % saveBit + if d.saveGlobal then saveBit else 0) ++
    IntKind.u16.encode d.ofs ++ IntKind.i32.encode d.sName

end Definition

namespace FunctionRecord

/-- The seven words: the first statement is signed, the others are not. -/
def fields : List FieldKind :=
  [.int .i32, .int .u32, .int .u32, .int .u32, .int .u32, .int .u32, .int .u32]

/-- The greatest number of parameters, and the number of bytes for their sizes. -/
def maxParms : Nat := 8

def size : Nat := FieldKind.totalSize fields + maxParms

/-- What is wrong with a record that declares too many parameters. -/
def tooManyParms (count : Int) : String := s!"num_parms {count} exceeds {maxParms}"

/-- The function at the cursor. -/
def read : Reader FunctionRecord := do
  let start ← Reader.position
  let row ← Reader.fields fields
  let sizes := (← Reader.bytes maxParms).toList
  let parmCount := Datum.intAt row 6
  if parmCount ≤ maxParms then
    return {
      firstStatement := Datum.intAt row 0
      parmStart := Datum.intAt row 1
      locals := Datum.intAt row 2
      profile := Datum.intAt row 3
      sName := Datum.intAt row 4
      sFile := Datum.intAt row 5
      parmSize := (sizes.take parmCount.toNat).map UInt8.toNat }
  else throw (.invalidRecord (← Reader.region) start (tooManyParms parmCount))

/-- The bytes of a function; unused parameter sizes are zero. -/
def encode (f : FunctionRecord) : List UInt8 :=
  IntKind.i32.encode f.firstStatement ++ IntKind.u32.encode f.parmStart ++
    IntKind.u32.encode f.locals ++ IntKind.u32.encode f.profile ++ IntKind.u32.encode f.sName ++
    IntKind.u32.encode f.sFile ++ IntKind.u32.encode f.parmSize.length ++
    ((f.parmSize.map UInt8.ofNat) ++ List.replicate maxParms 0).take maxParms

/-- A function without a body of its own, provided by the engine. -/
def isBuiltin (f : FunctionRecord) : Bool := decide (f.firstStatement ≤ 0)

/-- The number under which the engine provides a built-in. -/
def builtinNumber? (f : FunctionRecord) : Option Nat :=
  if f.isBuiltin then some f.firstStatement.natAbs else none

end FunctionRecord

end QuakeC
