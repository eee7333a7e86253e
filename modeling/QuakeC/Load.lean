import QuakeC.Program

/-!
# Loading an image

`Program.load` decodes an image in a fixed order: the header, the bytes of the string table, the
encoding setting, the bytes of the globals, the functions, the statements, the global definitions,
the field definitions.  The first failure ends the load.

All parts are read with one cursor, which stays where each read leaves it; a lump is entered by
seeking to its start.

Along the way the load leaves a `Trace`: log events at the start, after the header and at the end,
and the percentages reached.  The trace survives a failure.
-/

set_option autoImplicit false

namespace QuakeC

/-- What the log says about a load. -/
inductive LoadEvent where
  | started (size : Nat)
  | headerRead (version crc : Nat)
  | finished (functions statements globals fields : Nat)
  deriving DecidableEq, Repr

namespace LoadEvent

/-- Lower-case hexadecimal digits, at least four of them. -/
def hexWord (n : Nat) : String :=
  let digits := Nat.toDigits 16 n
  String.ofList (List.replicate (4 - digits.length) '0' ++ digits)

/-- The line of an event, given the milliseconds that the load has taken. -/
def line (elapsed : Nat) : LoadEvent → String
  | started size => s!"[PROGS] load start: {size} bytes"
  | headerRead version crc => s!"[PROGS] version={version} crc=0x{hexWord crc}"
  | finished functions statements globals fields =>
    s!"[PROGS] load done in {elapsed}ms: {functions} functions, " ++
      s!"{statements} statements, {globals} globals, " ++
      s!"{fields} fields"

end LoadEvent

/-- What a load has reported so far, in order. -/
structure Trace where
  log : List LoadEvent := []
  progress : List Nat := []
  deriving DecidableEq, Repr

/-- What a load carries along: the cursor that everything is read with, and the reports so far. -/
structure LoadState where
  cursor : Cursor
  trace : Trace := {}

/-- A load in progress. -/
abbrev Loader (α : Type) := EStateM Error LoadState α

namespace Loader

/-- Adds to the trace. -/
def report (update : Trace → Trace) : Loader Unit :=
  modify fun s => { s with trace := update s.trace }

def log (event : LoadEvent) : Loader Unit := report fun t => { t with log := t.log ++ [event] }

def reach (percent : Nat) : Loader Unit :=
  report fun t => { t with progress := t.progress ++ [percent] }

def ofExcept {α : Type} : Except Error α → Loader α
  | .ok a => return a
  | .error e => throw e

/-- The result of a reader that starts where the cursor stands. -/
def decode {α : Type} (read : Reader α) : Loader α := do
  let s ← get
  match read.run s.cursor with
  | .ok a cursor => do
    set { s with cursor }
    return a
  | .error e cursor => do
    set { s with cursor }
    throw e

/-- The result of a reader on the lump of the given name, which it is told the count of. -/
def lump {α : Type} (lumps : LumpTable Nat) (name : LumpName) (read : (count : Nat) → Reader α) :
    Loader α :=
  decode do
    Reader.enter name.label
    Reader.seek (lumps.get name).offset
    read (lumps.get name).count

end Loader

namespace Program

/-- The load as a computation that moves the cursor over the image and leaves a trace. -/
def loader (lib : CharsetLibrary) (image : Bytes) (option environment : Option Text) :
    Loader Program := do
  Loader.log (.started image.size)
  let header ← Loader.decode Header.read
  Loader.log (.headerRead header.version header.crc)
  Loader.reach 10
  let stringBytes ← Loader.lump header.lumps .strings fun count => Reader.bytes count
  let charsetName ← Loader.ofExcept (Charset.nameOfSetting lib option environment)
  let globalBytes ← Loader.lump header.lumps .globals fun count => Reader.bytes count
  Loader.reach 30
  let functions ← Loader.lump header.lumps .functions (Reader.many FunctionRecord.read)
  Loader.reach 50
  let statements ← Loader.lump header.lumps .statements (Reader.many Statement.read)
  Loader.reach 80
  let globalDefs ← Loader.lump header.lumps .globalDefs (Reader.many Definition.read)
  let fieldDefs ← Loader.lump header.lumps .fieldDefs (Reader.many Definition.read)
  Loader.reach 100
  Loader.log
    (.finished functions.length statements.length globalDefs.length fieldDefs.length)
  return {
    header
    strings := ⟨stringBytes, charsetName⟩
    globals := ⟨globalBytes⟩
    functions, statements, globalDefs, fieldDefs }

/-- Decodes an image.  The strings are read in the charset that the option or the environment sets,
as far as the library has it. -/
def load (lib : CharsetLibrary) (image : Bytes) (option environment : Option Text) :
    Except Error Program × Trace :=
  match (loader lib image option environment).run { cursor := { bytes := image } } with
  | .ok p s => (.ok p, s.trace)
  | .error e s => (.error e, s.trace)

end Program

end QuakeC
