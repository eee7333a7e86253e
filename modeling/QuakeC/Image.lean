import QuakeC.Program

/-!
# Writing an image

`Image.encode` lays the parts of a program out as an image: the header, and after it the six lumps
in header order without gaps.
-/

set_option autoImplicit false

namespace QuakeC

/-- What an image is written from. -/
structure Image where
  version : Nat
  crc : Nat
  statements : List Statement := []
  globalDefs : List Definition := []
  fieldDefs : List Definition := []
  functions : List FunctionRecord := []
  strings : Bytes := #[]
  globals : Bytes := #[]
  deriving DecidableEq, Repr

namespace Image

/-- The bytes of one lump. -/
def lumpBytes (image : Image) : LumpName → List UInt8
  | .statements => image.statements.flatMap Statement.encode
  | .globalDefs => image.globalDefs.flatMap Definition.encode
  | .fieldDefs => image.fieldDefs.flatMap Definition.encode
  | .functions => image.functions.flatMap FunctionRecord.encode
  | .strings => image.strings.toList
  | .globals => image.globals.toList

/-- The count of one lump: records, or bytes for the strings and the globals. -/
def lumpCount (image : Image) : LumpName → Nat
  | .statements => image.statements.length
  | .globalDefs => image.globalDefs.length
  | .fieldDefs => image.fieldDefs.length
  | .functions => image.functions.length
  | .strings => image.strings.size
  | .globals => image.globals.size

/-- Where a lump starts: after the header and the lumps before it. -/
def lumpOffset (image : Image) (name : LumpName) : Nat :=
  Header.size + ((LumpName.all.takeWhile (· ≠ name)).flatMap image.lumpBytes).length

def lump (image : Image) (name : LumpName) : Lump Nat :=
  ⟨image.lumpOffset name, image.lumpCount name⟩

def header (image : Image) : Header Nat where
  version := image.version
  crc := image.crc
  lumps := {
    statements := image.lump .statements
    globalDefs := image.lump .globalDefs
    fieldDefs := image.lump .fieldDefs
    functions := image.lump .functions
    strings := image.lump .strings
    globals := image.lump .globals }

/-- The bytes of the image. -/
def encode (image : Image) : Bytes :=
  (image.header.encode ++ LumpName.all.flatMap image.lumpBytes).toArray

/-- What is needed to write a program again. -/
def ofProgram (p : Program) : Image where
  version := p.header.version
  crc := p.header.crc
  statements := p.statements
  globalDefs := p.globalDefs
  fieldDefs := p.fieldDefs
  functions := p.functions
  strings := p.strings.bytes
  globals := p.globals.bytes

end Image

end QuakeC
