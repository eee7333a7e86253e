import QuakeC.Globals
import QuakeC.Header

/-!
# Decoded programs

A `Program` is what an image holds once it is decoded.  Its records carry offsets; names, files and
values are looked up here, and each lookup can fail on its own.

* `entryPoints` maps statement numbers to the functions whose bodies start there.  When several
  functions start at the same statement the first one counts.
* `findFunction?` and `findGlobal?` search by name.  A record whose name cannot be resolved does not
  match; any other failure ends the search.
-/

set_option autoImplicit false

namespace QuakeC

/-- The contents of an image. -/
structure Program where
  header : Header Nat
  strings : StringTable
  globals : Globals
  functions : List FunctionRecord
  statements : List Statement
  globalDefs : List Definition
  fieldDefs : List Definition
  deriving DecidableEq, Repr

/-- A statement at which the body of a function starts. -/
structure EntryPoint where
  statement : Int
  /-- The place of the function in the function table. -/
  index : Nat
  function : FunctionRecord
  deriving DecidableEq, Repr

/-- The entry points of numbered functions: none for a built-in, and only the first of those that
start at the same statement. -/
def EntryPoint.ofFunctions : List (FunctionRecord × Nat) → List EntryPoint
  | [] => []
  | (f, i) :: rest =>
    if f.isBuiltin then ofFunctions rest
    else ⟨f.firstStatement, i, f⟩ :: (ofFunctions rest).filter fun e =>
      decide (e.statement ≠ f.firstStatement)

/-- The place, counted from `i`, of the first record with the given name.  Records whose names lie
outside the string table are passed over. -/
def searchFrom {α : Type} (nameOf : α → Except Error Text) (name : Text) (i : Nat) :
    List α → Except Error (Option Nat)
  | [] => .ok none
  | record :: rest =>
    match nameOf record with
    | .ok found => if found = name then .ok (some i) else searchFrom nameOf name (i + 1) rest
    | .error e => if e.isBadOffset then searchFrom nameOf name (i + 1) rest else .error e

namespace Program

variable (p : Program) (lib : CharsetLibrary)

def readString (offset : Number) : Except Error Text := p.strings.resolve lib offset

def readGlobal (offset : Number) (type : ValueType) : Except Error GlobalValue :=
  p.globals.read lib p.strings p.functions offset type

def functionName (f : FunctionRecord) : Except Error Text := p.readString lib (.int f.sName)

def functionFile (f : FunctionRecord) : Except Error Text := p.readString lib (.int f.sFile)

def definitionName (d : Definition) : Except Error Text := p.readString lib (.int d.sName)

def definitionValue (d : Definition) : Except Error GlobalValue :=
  p.readGlobal lib (.int d.ofs) d.type

/-- Where the bodies of the functions start. -/
def entryPoints : List EntryPoint := EntryPoint.ofFunctions p.functions.zipIdx

/-- The place of the first function with the given name. -/
def findFunction? (name : Text) : Except Error (Option Nat) :=
  searchFrom (p.functionName lib) name 0 p.functions

/-- The place of the first global definition with the given name. -/
def findGlobal? (name : Text) : Except Error (Option Nat) :=
  searchFrom (p.definitionName lib) name 0 p.globalDefs

end Program

end QuakeC
