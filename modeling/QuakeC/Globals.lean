import QuakeC.Record
import QuakeC.StringTable

/-!
# Global values

The globals are bytes without a type of their own: the same four bytes are a number, the offset of a
string or the index of a function, depending on the definition that names them.  `Globals.read`
interprets them at a type.  A type that has no values in the globals gives `unhandledType` without
looking at the offset.
-/

set_option autoImplicit false

namespace QuakeC

/-- What the globals hold at an offset, seen at a type. -/
inductive GlobalValue where
  | string (text : Text)
  | float (x : Double)
  | vector (x y z : Double)
  | entity (number : Int)
  | function (index : Int) (record : FunctionRecord)
  /-- An index past the last function. -/
  | functionOutOfRange (index : Int)
  | unhandledType (type : ValueType)
  deriving DecidableEq, Repr

namespace GlobalValue

/-- The text of a value, functions by index only. -/
def text : GlobalValue → Text
  | string text => text.quote
  | float x => x.text
  | vector x y z => s!"({x.text}, {y.text}, {z.text})"
  | entity number => s!"entity {number}"
  | function index _ => s!"function {index}"
  | functionOutOfRange index => s!"<invalid function {index}>"
  | unhandledType type => s!"<unhandled type {type.name}>"

/-- The text of a value, functions by index and name. -/
def textNamed (nameOf : FunctionRecord → Except Error Text) (v : GlobalValue) :
    Except Error Text :=
  match v with
  | function _ record => do
    let name ← nameOf record
    return v.text ++ " " ++ name
  | _ => .ok v.text

end GlobalValue

/-- The bytes of the globals. -/
structure Globals where
  bytes : Bytes
  deriving DecidableEq, Repr

namespace Globals

/-- The number of bytes. -/
def length (g : Globals) : Nat := g.bytes.size

/-- The `size` bytes at an offset, which has to be an integer with all of them inside. -/
def chunk (g : Globals) (offset : Number) (size : Nat) : Except Error (List UInt8) :=
  match offset.toInt? with
  | some i =>
    if 0 ≤ i ∧ i + size ≤ g.length then .ok (g.bytes.extract i.toNat (i.toNat + size)).toList
    else .error (.badOffset .globals offset size g.length)
  | none => .error (.badOffset .globals offset size g.length)

/-- The single-precision number with the given bytes. -/
def single (bytes : List UInt8) : Double :=
  Double.ofSingle (UInt32.ofNat (LittleEndian.toNat bytes))

/-- The 32-bit word at an offset. -/
def word (g : Globals) (offset : Number) : Except Error Nat :=
  return LittleEndian.toNat (← g.chunk offset 4)

def float (g : Globals) (offset : Number) : Except Error Double :=
  return single (← g.chunk offset 4)

/-- Three numbers that follow one another. -/
def vector (g : Globals) (offset : Number) : Except Error (Double × Double × Double) := do
  let bytes ← g.chunk offset 12
  return (single (bytes.take 4), single ((bytes.drop 4).take 4), single (bytes.drop 8))

/-- The value at an offset, seen at a type: strings live in `strings`, functions in `functions`. -/
def read (g : Globals) (lib : CharsetLibrary) (strings : StringTable)
    (functions : List FunctionRecord) (offset : Number) (type : ValueType) :
    Except Error GlobalValue :=
  match type with
  | .string => return .string (← strings.resolve lib (.int (← g.word offset)))
  | .float => return .float (← g.float offset)
  | .vector => do
    let (x, y, z) ← g.vector offset
    return .vector x y z
  | .entity => return .entity (← g.word offset)
  | .function => do
    let index ← g.word offset
    match functions[index]? with
    | some record => return .function index record
    | none => return .functionOutOfRange index
  | _ => return .unhandledType type

end Globals

end QuakeC
