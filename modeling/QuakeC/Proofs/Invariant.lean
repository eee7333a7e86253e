import Mathlib
import QuakeC.Proofs.Acceptance
import QuakeC.Proofs.Encoding
import QuakeC.Proofs.Markers
import QuakeC.Proofs.StatementText

/-!
# What holds of every loaded program

Whatever bytes a program was loaded from, its lists are as long as the header says, its records hold
values in range, and its entry points are functions of its own.  What is printed of it therefore
names instructions and types that exist, and a function value is a function of the program.

* `Program.Invariant` — the representation invariant.
* `Program.invariant_of_load` — a load establishes it.
* `Statement.checkedText_eq`, `Statement.undefined_not_isInfix_text` — the texts of statements name
  opcodes and types that have names.
* `Report.ShowsGlobal`, `Report.ShowsField` — the lines of definitions, with their types by name.
* `Program.load_establishes_invariant` — the invariant and what follows from it.
-/

set_option autoImplicit false

namespace QuakeC

/-! ## The invariant -/

/-- The parameter sizes of the function record at `p`: as many bytes behind its seven words as the
last of them says. -/
def Bytes.parmSizesAt (image : Bytes) (p : Nat) : List Nat :=
  (List.range (image.u32At (p + 24))).map fun i => image.u8At (p + 28 + i)

/-- The representation invariant of a program that was loaded from an image. -/
structure Program.Invariant (p : Program) (image : Bytes) : Prop where
  length_functions : p.functions.length = p.header.lumps.functions.count
  length_statements : p.statements.length = p.header.lumps.statements.count
  length_globalDefs : p.globalDefs.length = p.header.lumps.globalDefs.count
  length_fieldDefs : p.fieldDefs.length = p.header.lumps.fieldDefs.count
  length_strings : p.strings.length = p.header.lumps.strings.count
  length_globals : p.globals.length = p.header.lumps.globals.count
  functions : ∀ f ∈ p.functions, f.InRange
  statements : ∀ s ∈ p.statements, s.InRange
  globalDefs : ∀ d ∈ p.globalDefs, d.InRange
  fieldDefs : ∀ d ∈ p.fieldDefs, d.InRange
  parmSizes : ∀ i f, p.functions[i]? = some f →
    f.parmSize = image.parmSizesAt (p.header.lumps.functions.offset + i * FunctionRecord.size)
  entryPoints : ∀ e ∈ p.entryPoints, p.functions[e.index]? = some e.function

theorem FunctionRecord.parmSize_value_chunk (image : Bytes) (p : Nat)
    (hvalid : format.Valid (image.chunk p 36)) :
    (format.value (image.chunk p 36)).parmSize = image.parmSizesAt p := by
  have hcount : (image.chunk p 36).u32At 24 = image.u32At (p + 24) :=
    Bytes.u32At_chunk image (by decide)
  have hle : image.u32At (p + 24) ≤ 8 := hcount ▸ hvalid
  simp only [format, Bytes.parmSizesAt, hcount]
  apply List.map_congr_left
  intro i hi
  have hi' := List.mem_range.mp hi
  rw [Bytes.u8At_chunk image (by omega), Nat.add_assoc]

namespace Program

variable {lib : CharsetLibrary} {p : Program} {image : Bytes} {option environment : Option Text}

/-- **A load establishes the invariant.** -/
theorem invariant_of_load (hload : (load lib image option environment).1 = .ok p) :
    p.Invariant image := by
  obtain ⟨h, name, -, rfl⟩ := load_eq_ok_iff.mp hload
  exact {
    length_functions := RecordFormat.length_values _ _
    length_statements := RecordFormat.length_values _ _
    length_globalDefs := RecordFormat.length_values _ _
    length_fieldDefs := RecordFormat.length_values _ _
    length_strings := Bytes.size_chunk_of_le (h .strings)
    length_globals := Bytes.size_chunk_of_le (h .globals)
    functions := FunctionRecord.writtenBy.inRange_of_mem_values (h .functions)
    statements := Statement.writtenBy.inRange_of_mem_values (h .statements)
    globalDefs := Definition.writtenBy.inRange_of_mem_values (h .globalDefs)
    fieldDefs := Definition.writtenBy.inRange_of_mem_values (h .fieldDefs)
    parmSizes := by
      intro i f hf
      have hlists : FunctionRecord.format.Lists image (image.lump .functions)
        (contents image name).functions := RecordFormat.values_lists
      have hi := (List.getElem?_eq_some_iff.mp hf).1
      rw [hlists.length_eq] at hi
      obtain rfl := Option.some.inj (hf.symm.trans (hlists.value_eq i hi))
      exact FunctionRecord.parmSize_value_chunk image _ (h .functions i hi).2
    entryPoints := fun e he => (mem_entryPoints_iff.mp he).function }

end Program

/-! ## The texts of statements -/

namespace ValueType

/-- The names of the types that a definition may have. -/
def storedNames : List String :=
  ["VOID", "STRING", "FLOAT", "VECTOR", "ENTITY", "FIELD", "FUNCTION", "POINTER"]

theorem isSome_name? : ∀ t ∈ stored, t.name?.isSome = true := by decide

theorem name_mem_storedNames : ∀ t ∈ stored, t.name ∈ storedNames := by decide

/-- The types that have values in the globals. -/
def valued : List ValueType := [.string, .float, .vector, .entity, .function]

end ValueType

namespace Text

/-- The letters of a text. -/
def letters (s : String) : List Char := s.toList.filter Char.isAlpha

theorem letters_append (s t : String) : letters (s ++ t) = letters s ++ letters t := by
  rw [letters, String.toList_append, List.filter_append]
  rfl

theorem letters_repr (n : Int) : letters n.repr = [] := by
  rw [letters, List.filter_eq_nil_iff]
  intro c hc
  rcases isDigit_or_eq_of_mem_repr hc with hdigit | rfl
  · simp only [Char.isDigit, Char.isAlpha, Char.isUpper, Char.isLower, Bool.and_eq_true,
      Bool.or_eq_true, decide_eq_true_eq, ge_iff_le, UInt32.le_iff_toNat_le] at hdigit ⊢
    have h9 : '9'.val.toNat = 57 := rfl
    have hA : 'A'.val.toNat = 65 := rfl
    have ha : 'a'.val.toNat = 97 := rfl
    omega
  · decide

end Text

/-- The letters that a statement shows for its opcode. -/
def Opcode.letters (op : Opcode) : List Char :=
  match op.shape with
  | .binary symbol result left right =>
    Text.letters result.keyword ++ Text.letters left.keyword ++ Text.letters symbol ++
      Text.letters right.keyword
  | .store type => Text.letters type.keyword ++ Text.letters type.keyword
  | .raw => Text.letters op.mnemonic

namespace Statement

theorem letters_address (type : ValueType) (operand : Int) :
    Text.letters (address type operand) = Text.letters type.keyword := by
  have hopen : Text.letters "*(" = [] := by decide
  have hclose : Text.letters " *)" = [] := by decide
  simp only [address, toString, Text.letters_append, Text.letters_repr, hopen, hclose,
    List.nil_append, List.append_nil]

/-- The letters in the text of a statement depend on its opcode alone. -/
theorem letters_text (s : Statement) : Text.letters s.text = s.op.letters := by
  have hblank : Text.letters " " = [] := by decide
  have hequals : Text.letters " = " = [] := by decide
  have hopen : Text.letters "(" = [] := by decide
  have hcomma : Text.letters ", " = [] := by decide
  have hclose : Text.letters ")" = [] := by decide
  cases hshape : s.op.shape with
  | binary symbol result left right =>
    simp only [text, Opcode.letters, hshape, toString, Text.letters_append, letters_address, hblank,
      hequals, List.append_nil]
  | store type =>
    simp only [text, Opcode.letters, hshape, toString, Text.letters_append, letters_address,
      hequals, List.append_nil]
  | raw =>
    simp only [text, Opcode.letters, hshape, rawText, toString, Text.letters_append,
      Text.letters_repr, hopen, hcomma, hclose, List.append_nil, List.nil_append]

/-- No statement shows both letters. -/
theorem no_u_and_d : ∀ op ∈ Opcode.known, ¬ ('u' ∈ op.letters ∧ 'd' ∈ op.letters) := by
  decide +kernel

/-- **The word for what has no name occurs in no statement.** -/
theorem undefined_not_isInfix_text {s : Statement} (hs : s.op ∈ Opcode.known) :
    ¬ "undefined".toList <:+: s.text.toList := by
  intro hpart
  have hletter : ∀ c ∈ "undefined".toList, c.isAlpha = true → c ∈ s.op.letters := by
    intro c hc halpha
    rw [← letters_text]
    exact List.mem_filter.mpr ⟨hpart.subset hc, halpha⟩
  exact no_u_and_d s.op hs
    ⟨hletter 'u' (by decide) (by decide), hletter 'd' (by decide) (by decide)⟩

/-- A typed address whose keyword is looked up by the number of the type. -/
def checkedAddress (type : ValueType) (operand : Int) : Except Error String := do
  let keyword ← ValueType.keywordOfNumber (.int type.code)
  return s!"*({keyword} *){operand}"

/-- The text of a statement with every keyword looked up: a type without a name is an error. -/
def checkedText (s : Statement) : Except Error String :=
  match s.op.shape with
  | .binary symbol result left right => do
    let target ← checkedAddress result s.c
    let first ← checkedAddress left s.a
    let second ← checkedAddress right s.b
    return s!"{target} = {first} {symbol} {second}"
  | .store type => do
    let target ← checkedAddress type s.b
    let source ← checkedAddress type s.a
    return s!"{target} = {source}"
  | .raw => return s.rawText

theorem checkedAddress_eq {type : ValueType} (h : type ∈ ValueType.stored) (operand : Int) :
    checkedAddress type operand = .ok (address type operand) := by
  obtain ⟨-, -, hcode⟩ := ValueType.code_of_mem_stored type h
  obtain ⟨name, hname⟩ := Option.isSome_iff_exists.mp (ValueType.isSome_name? type h)
  have hkeyword : ValueType.keywordOfNumber (.int type.code) = .ok type.keyword := by
    simp only [ValueType.keywordOfNumber, Number.toInt?, Option.bind_some, hcode, hname,
      Option.map_some]
  rw [checkedAddress, hkeyword]
  rfl

/-- **No statement asks for the name of a type that has none.** -/
theorem checkedText_eq (s : Statement) : s.checkedText = .ok s.text := by
  have haddress : ∀ t ∈ s.op.shape.types, ∀ n, checkedAddress t n = .ok (address t n) :=
    fun t ht => checkedAddress_eq (s.op.types_stored t ht)
  cases hshape : s.op.shape with
  | binary symbol result left right =>
    simp only [hshape, Shape.types, List.forall_mem_cons] at haddress
    obtain ⟨hresult, hleft, hright, -⟩ := haddress
    simp only [checkedText, text, hshape, hresult, hleft, hright]
    rfl
  | store type =>
    have htype := haddress type (by simp [hshape, Shape.types])
    simp only [checkedText, text, hshape, htype]
    rfl
  | raw =>
    simp only [checkedText, text, hshape]
    rfl

end Statement

/-! ## The lines of definitions -/

namespace Report

variable (lib : CharsetLibrary) (p : Program) (d : Definition)

/-- The start of a line about a definition: its type, by one of eight names, its own name or what
stands in its place, and its offset. -/
def NamesType (start : Text) : Prop :=
  d.type.name ∈ ValueType.storedNames ∧ ∃ name : Text, p.strings.Shows lib d.sName name ∧
    start = s!"({d.type.name}, " ++ name ++ s!", {d.ofs}"

/-- The line of a global.  In place of a value, a type without values is named once more. -/
def ShowsGlobal (line : Text) : Prop :=
  ∃ start value : Text, NamesType lib p d start ∧ line = start ++ ", " ++ value ++ ")" ∧
    (d.type ∉ ValueType.valued → value = Text.ofString s!"<unhandled type {d.type.name}>")

/-- The line of a field. -/
def ShowsField (line : Text) : Prop :=
  ∃ start : Text, NamesType lib p d start ∧ line = start ++ ")"

variable {lib p d} {line : Text}

/-- What stands in the place of a value when the type has none. -/
theorem definitionValue_of_not_valued (h : d.type ∉ ValueType.valued) :
    definitionValue lib p d = .ok (Text.ofString s!"<unhandled type {d.type.name}>") := by
  have hread : p.definitionValue lib d = .ok (.unhandledType d.type) := by
    rw [Program.definitionValue, Program.readGlobal]
    revert h
    cases d.type with
    | string | float | vector | entity | function => exact fun h => absurd (by decide) h
    | bad | void | field | pointer | unknown n => exact fun _ => rfl
  rw [definitionValue, hread]
  rfl

theorem namesType_of_definitionName (hd : d.InRange) {name : Text}
    (hname : definitionName lib p d = .ok name) :
    NamesType lib p d (s!"({d.type.name}, " ++ name ++ s!", {d.ofs}") :=
  ⟨ValueType.name_mem_storedNames d.type hd.type, name,
    orPlaceholder_resolve_eq_ok_iff.mp hname, rfl⟩

theorem showsGlobal_of_globalLine (hd : d.InRange) (h : globalLine lib p d = .ok line) :
    ShowsGlobal lib p d line := by
  obtain ⟨value, hvalue, hrest⟩ := bind_eq_ok_iff.mp h
  obtain ⟨name, hname, hline⟩ := bind_eq_ok_iff.mp hrest
  obtain rfl := Except.ok.inj hline
  refine ⟨_, value, namesType_of_definitionName hd hname, ?_, ?_⟩
  · simp only [toString, Text.ofString_append, List.append_assoc]
  · intro hnone
    rw [definitionValue_of_not_valued hnone] at hvalue
    exact (Except.ok.inj hvalue).symm

theorem showsField_of_fieldLine (hd : d.InRange) (h : fieldLine lib p d = .ok line) :
    ShowsField lib p d line := by
  obtain ⟨name, hname, hline⟩ := bind_eq_ok_iff.mp h
  obtain rfl := Except.ok.inj hline
  refine ⟨_, namesType_of_definitionName hd hname, ?_⟩
  simp only [toString, Text.ofString_append, List.append_assoc]

end Report

/-! ## Function values -/

/-- A function value is the function at its own index. -/
theorem Globals.getElem?_of_read {g : Globals} {lib : CharsetLibrary} {strings : StringTable}
    {functions : List FunctionRecord} {offset : Number} {type : ValueType} {index : Int}
    {f : FunctionRecord}
    (h : g.read lib strings functions offset type = .ok (.function index f)) :
    ∃ i : Nat, index = i ∧ functions[i]? = some f := by
  cases type with
  | function =>
    obtain ⟨i, -, hi⟩ := bind_eq_ok_iff.mp h
    cases hf : functions[i]? with
    | none =>
      rw [hf] at hi
      cases hi
    | some record =>
      rw [hf] at hi
      obtain ⟨rfl, rfl⟩ := GlobalValue.function.inj (Except.ok.inj hi)
      exact ⟨i, rfl, hf⟩
  | string =>
    obtain ⟨n, -, hn⟩ := bind_eq_ok_iff.mp h
    obtain ⟨text, -, htext⟩ := bind_eq_ok_iff.mp hn
    cases htext
  | float | vector | entity =>
    obtain ⟨x, -, hx⟩ := bind_eq_ok_iff.mp h
    cases hx
  | bad | void | field | pointer | unknown n => cases h

/-! ## Loaded programs -/

/-- What is shown of a program has a name, and its function values are functions of its own. -/
structure Program.ShowsNames (lib : CharsetLibrary) (p : Program) : Prop where
  /-- No statement shows the word that stands for an opcode without a name. -/
  opcode : ∀ s ∈ p.statements, ¬ "undefined".toList <:+: s.text.toList
  /-- Every type in a statement has a keyword. -/
  keyword : ∀ s ∈ p.statements, s.checkedText = .ok s.text
  /-- Every type in the line of a definition has a name. -/
  globalLine : ∀ d ∈ p.globalDefs, ∀ line,
    Report.globalLine lib p d = .ok line → Report.ShowsGlobal lib p d line
  fieldLine : ∀ d ∈ p.fieldDefs, ∀ line,
    Report.fieldLine lib p d = .ok line → Report.ShowsField lib p d line
  functionValue : ∀ offset type index f, p.readGlobal lib offset type = .ok (.function index f) →
    ∃ i : Nat, index = i ∧ p.functions[i]? = some f

namespace Program

variable {p : Program} {image : Bytes}

theorem Invariant.showsNames (h : p.Invariant image) (lib : CharsetLibrary) : p.ShowsNames lib where
  opcode s hs := Statement.undefined_not_isInfix_text (h.statements s hs).op
  keyword s _ := s.checkedText_eq
  globalLine d hd _ hline := Report.showsGlobal_of_globalLine (h.globalDefs d hd) hline
  fieldLine d hd _ hline := Report.showsField_of_fieldLine (h.fieldDefs d hd) hline
  functionValue _ _ _ _ hvalue := Globals.getElem?_of_read hvalue

/-- **Every loaded program satisfies the representation invariant**, whatever the bytes of the image
are, and so all that is shown of it has a name. -/
theorem load_establishes_invariant (lib : CharsetLibrary) (image : Bytes)
    (option environment : Option Text) (p : Program)
    (hload : (load lib image option environment).1 = .ok p) :
    p.Invariant image ∧ p.ShowsNames lib := by
  have hinvariant := invariant_of_load hload
  exact ⟨hinvariant, hinvariant.showsNames lib⟩

theorem load_establishes_invariant_tangled :
    (contents tangled "ascii").Invariant tangled ∧
      (contents tangled "ascii").ShowsNames .standard :=
  load_establishes_invariant .standard tangled none none _ (load_tangled rfl)

end Program

end QuakeC
