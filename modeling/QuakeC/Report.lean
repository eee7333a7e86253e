import QuakeC.Listing
import QuakeC.Program

/-!
# The report on a program

A report has up to five sections, always in this order:

* functions — the name and the file of each;
* statements — their listing, with a marker `// file : name` before each entry point;
* globals — each definition as `(TYPE, name, offset, value)`;
* fields — each definition as `(TYPE, name, offset)`;
* strings — the listing of the string table.

A lookup that falls outside its table leaves its message in angle brackets and the report goes on.
Any other failure ends the report.
-/

set_option autoImplicit false

namespace QuakeC

/-- The sections that a report shows. -/
structure Sections where
  functions : Bool := true
  statements : Bool := true
  globals : Bool := true
  fields : Bool := false
  strings : Bool := false
  deriving DecidableEq, Repr

namespace Report

/-- The message of a bad offset, in angle brackets, in place of the text that was looked up. -/
def orPlaceholder : Except Error Text → Except Error Text
  | .ok text => .ok text
  | .error e => if e.isBadOffset then .ok ("<" ++ e.message ++ ">") else .error e

variable (lib : CharsetLibrary) (p : Program)

def functionName (f : FunctionRecord) : Except Error Text := orPlaceholder (p.functionName lib f)

def functionFile (f : FunctionRecord) : Except Error Text := orPlaceholder (p.functionFile lib f)

def definitionName (d : Definition) : Except Error Text := orPlaceholder (p.definitionName lib d)

/-- The text of a definition's value; a function is shown with its name. -/
def definitionValue (d : Definition) : Except Error Text :=
  orPlaceholder do
    let value ← p.definitionValue lib d
    value.textNamed (functionName lib p)

def functionLine (f : FunctionRecord) : Except Error Text := do
  let name ← functionName lib p f
  let file ← functionFile lib p f
  return name ++ " " ++ file

/-- The line before the first statement of a function. -/
def marker (f : FunctionRecord) : Except Error Text := do
  let file ← functionFile lib p f
  let name ← functionName lib p f
  return "// " ++ file ++ " : " ++ name

/-- A statement with its number, after the marker of the function that starts there, if any. -/
def statementLines (entries : List EntryPoint) (numbered : Statement × Nat) :
    Except Error (List Text) :=
  match entries.find? fun e => e.statement == (numbered.2 : Int) with
  | some entry => do
    let line ← marker lib p entry.function
    return [line, numbered.1.text]
  | none => .ok [numbered.1.text]

def globalLine (d : Definition) : Except Error Text := do
  let value ← definitionValue lib p d
  let name ← definitionName lib p d
  return s!"({d.type.name}, " ++ name ++ s!", {d.ofs}, " ++ value ++ ")"

def fieldLine (d : Definition) : Except Error Text := do
  let name ← definitionName lib p d
  return s!"({d.type.name}, " ++ name ++ s!", {d.ofs})"

def functionSection : Except Error (List Text) := p.functions.mapM (functionLine lib p)

def statementSection : Except Error (List Text) := do
  let groups ← p.statements.zipIdx.mapM (statementLines lib p p.entryPoints)
  return groups.flatten

def globalSection : Except Error (List Text) := p.globalDefs.mapM (globalLine lib p)

def fieldSection : Except Error (List Text) := p.fieldDefs.mapM (fieldLine lib p)

/-- The lines of the string listing; an empty table has none. -/
def stringSection : Except Error (List Text) :=
  if p.strings.length = 0 then .ok []
  else do
    let text ← p.strings.listing lib
    return text.lines

end Report

/-- The lines of a report. -/
def Program.report (p : Program) (lib : CharsetLibrary) (wanted : Sections) :
    Except Error (List Text) := do
  let functions ← if wanted.functions then Report.functionSection lib p else pure []
  let statements ← if wanted.statements then Report.statementSection lib p else pure []
  let globals ← if wanted.globals then Report.globalSection lib p else pure []
  let fields ← if wanted.fields then Report.fieldSection lib p else pure []
  let strings ← if wanted.strings then Report.stringSection lib p else pure []
  return functions ++ statements ++ globals ++ fields ++ strings

end QuakeC
