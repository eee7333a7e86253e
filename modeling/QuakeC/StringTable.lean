import QuakeC.Bytes.Field
import QuakeC.Charset

/-!
# The string table

A string table is a run of bytes in which every zero byte ends a string.  Strings are addressed by
byte offset, and an offset may point into the middle of one: `resolve` reads from there to the next
zero byte or to the end of the table.

`entries` are the strings that start at the beginning of the table or right after a zero byte;
`listing` writes one line for each of them.

A table knows the name of its charset.  Which decoder that is, and whether there is one, is for the
charset library to say when a string is looked up.
-/

set_option autoImplicit false

namespace QuakeC

/-- The least index from `i` on at which a zero byte stands, or the number of bytes. -/
def Bytes.zeroFrom (bytes : Bytes) (i : Nat) : Nat :=
  if h : i < bytes.size then if bytes[i] = 0 then i else Bytes.zeroFrom bytes (i + 1)
  else bytes.size
termination_by bytes.size - i

/-- Strings separated by zero bytes, in the charset of the given name. -/
structure StringTable where
  bytes : Bytes
  charsetName : Text := Charset.defaultName
  deriving DecidableEq, Repr

namespace StringTable

/-- The number of bytes. -/
def length (t : StringTable) : Nat := t.bytes.size

def decode (t : StringTable) (lib : CharsetLibrary) (bytes : List UInt8) : Except Error Text :=
  lib.decode t.charsetName bytes

/-- The index that an offset stands for: it has to be an integer inside the table. -/
def index (t : StringTable) (offset : Number) : Except Error Nat :=
  match offset.toInt? with
  | some i =>
    if 0 ≤ i ∧ i < t.length then .ok i.toNat else .error (.badOffset .strings offset 1 t.length)
  | none => .error (.badOffset .strings offset 1 t.length)

/-- The bytes from `i` to the next zero byte. -/
def run (t : StringTable) (i : Nat) : List UInt8 :=
  (t.bytes.extract i (t.bytes.zeroFrom i)).toList

/-- The text at an offset. -/
def resolve (t : StringTable) (lib : CharsetLibrary) (offset : Number) : Except Error Text := do
  let i ← t.index offset
  t.decode lib (t.run i)

/-- Each piece with the offset at which it starts, one separator after the end of the last. -/
def placed (start : Nat) : List (List UInt8) → List (Nat × List UInt8)
  | [] => []
  | piece :: pieces => (start, piece) :: placed (start + piece.length + 1) pieces

/-- The strings of the table with their offsets.  A zero byte at the very end starts no string. -/
def entries (t : StringTable) : List (Nat × List UInt8) :=
  (placed 0 (Text.splitWhere (· == 0) t.bytes.toList)).filter fun entry =>
    decide (entry.1 < t.length)

/-- The line of one string: its offset, a tab, its text. -/
def entryLine (t : StringTable) (lib : CharsetLibrary) (entry : Nat × List UInt8) :
    Except Error Text := do
  let text ← t.decode lib entry.2
  return s!"{entry.1}\t" ++ text

/-- The lines of all strings in one text.  A string may itself hold line feeds. -/
def listing (t : StringTable) (lib : CharsetLibrary) : Except Error Text := do
  return Text.joinLines (← t.entries.mapM (t.entryLine lib))

end StringTable

end QuakeC
