import QuakeC.Bytes.Cursor

/-!
# The header of an image

An image starts with fourteen 32-bit words: a version, a checksum, and for each of six lumps the
byte offset at which it starts and a count.  The count is in bytes for the strings and the globals
and in records for the others.

`Header.read` takes the words eight bytes at a time, so a header that is cut off fails at a multiple
of eight.  It does not look at where the lumps lie.  `Header.encode` writes the words back.
-/

set_option autoImplicit false

namespace QuakeC

/-- The parts of an image, in the order in which the header lists them. -/
inductive LumpName where
  | statements
  | globalDefs
  | fieldDefs
  | functions
  | strings
  | globals
  deriving DecidableEq, Repr

namespace LumpName

/-- The lumps in header order. -/
def all : List LumpName := [.statements, .globalDefs, .fieldDefs, .functions, .strings, .globals]

/-- The name that errors report as the region of a failed read. -/
def label : LumpName → String
  | statements => "statements"
  | globalDefs => "globalDefs"
  | fieldDefs => "fieldDefs"
  | functions => "functions"
  | strings => "strings"
  | globals => "globals"

end LumpName

/-- Where a lump starts and how much it holds. -/
structure Lump (α : Type) where
  offset : α
  count : α
  deriving DecidableEq, Repr

/-- One lump for each name. -/
structure LumpTable (α : Type) where
  statements : Lump α
  globalDefs : Lump α
  fieldDefs : Lump α
  functions : Lump α
  strings : Lump α
  globals : Lump α
  deriving DecidableEq, Repr

/-- A header over words of type `α`: natural numbers when read from an image, any numbers when a
caller asks for one to be written. -/
structure Header (α : Type) where
  version : α
  crc : α
  lumps : LumpTable α
  deriving DecidableEq, Repr

variable {α β : Type}

def Lump.map (f : α → β) (lump : Lump α) : Lump β := ⟨f lump.offset, f lump.count⟩

namespace LumpTable

/-- The lump of the given name. -/
def get (t : LumpTable α) : LumpName → Lump α
  | .statements => t.statements
  | .globalDefs => t.globalDefs
  | .fieldDefs => t.fieldDefs
  | .functions => t.functions
  | .strings => t.strings
  | .globals => t.globals

def map (f : α → β) (t : LumpTable α) : LumpTable β where
  statements := t.statements.map f
  globalDefs := t.globalDefs.map f
  fieldDefs := t.fieldDefs.map f
  functions := t.functions.map f
  strings := t.strings.map f
  globals := t.globals.map f

end LumpTable

namespace Header

/-- The number of bytes of a header. -/
def size : Nat := 8 + 8 * LumpName.all.length

def map (f : α → β) (h : Header α) : Header β := ⟨f h.version, f h.crc, h.lumps.map f⟩

/-- The fields of a pair of words. -/
def pairFields : List FieldKind := [.int .u32, .int .u32]

/-- Two 32-bit words. -/
def readPair : Reader (Nat × Nat) := do
  let row ← Reader.fields pairFields
  return ((Datum.intAt row 0).toNat, (Datum.intAt row 1).toNat)

def readLump : Reader (Lump Nat) := do
  let (offset, count) ← readPair
  return ⟨offset, count⟩

/-- The header at the cursor. -/
def read : Reader (Header Nat) := do
  Reader.enter "header"
  let (version, crc) ← readPair
  let statements ← readLump
  let globalDefs ← readLump
  let fieldDefs ← readLump
  let functions ← readLump
  let strings ← readLump
  let globals ← readLump
  let lumps := { statements, globalDefs, fieldDefs, functions, strings, globals }
  return { version, crc, lumps }

/-- The bytes of a lump's two words. -/
def encodeLump (lump : Lump Nat) : List UInt8 :=
  LittleEndian.ofNat 4 lump.offset ++ LittleEndian.ofNat 4 lump.count

/-- The bytes of a header, every word modulo `2 ^ 32`. -/
def encode (h : Header Nat) : List UInt8 :=
  LittleEndian.ofNat 4 h.version ++ LittleEndian.ofNat 4 h.crc ++
    LumpName.all.flatMap fun name => encodeLump (h.lumps.get name)

/-- The bytes of a header given by arbitrary numbers, each reduced to its word. -/
def encodeNumbers (h : Header Number) : List UInt8 := encode (h.map Number.word)

end Header

end QuakeC
