import QuakeC.Report
import QuakeC.Proofs.CharsetNames
import QuakeC.Proofs.Stages
import QuakeC.Proofs.StringEntries

/-!
# The lines of a report

A report fails only where decoding a string does: every offset that lies outside its table leaves a
placeholder.  When all strings can be decoded, each section has the lines that its records call for,
whatever the records hold and whichever other sections are shown.

* `Section.render`, `Section.lineCount` — the lines of a section, and how many there have to be.
* `Section.render_failsOnly` — a section fails with an error of the charset or not at all.
* `Section.length_render` — no section loses a line.
* `report_complete` — the report on a program that was loaded.
-/

set_option autoImplicit false

namespace QuakeC

/-! ## Lines that fail -/

namespace Report

variable (lib : CharsetLibrary) (p : Program)

/-- A placeholder stands for every offset outside its table, so that only the charset is left. -/
theorem orPlaceholder_failsOnly {lib : CharsetLibrary} {t : StringTable}
    {x : Except Error Text}
    (hx : FailsOnly (t.Refuses lib) x) : FailsOnly (t.FailsWith lib) (orPlaceholder x) := by
  cases x with
  | ok text => exact .ok text
  | error e =>
    by_cases hoffset : e.isBadOffset = true
    · rw [orPlaceholder, if_pos hoffset]
      exact .ok _
    · rw [orPlaceholder, if_neg hoffset]
      exact .error ((hx e rfl).resolve_left hoffset)

theorem functionName_failsOnly (f : FunctionRecord) :
    FailsOnly (p.strings.FailsWith lib) (functionName lib p f) :=
  orPlaceholder_failsOnly (p.strings.resolve_failsOnly lib _)

theorem functionFile_failsOnly (f : FunctionRecord) :
    FailsOnly (p.strings.FailsWith lib) (functionFile lib p f) :=
  orPlaceholder_failsOnly (p.strings.resolve_failsOnly lib _)

theorem definitionName_failsOnly (d : Definition) :
    FailsOnly (p.strings.FailsWith lib) (definitionName lib p d) :=
  orPlaceholder_failsOnly (p.strings.resolve_failsOnly lib _)

/-- The name of a function is looked up inside the text of a value, with a placeholder of its
own. -/
theorem definitionValue_failsOnly (d : Definition) :
    FailsOnly (p.strings.FailsWith lib) (definitionValue lib p d) := by
  refine orPlaceholder_failsOnly ((p.globals.read_failsOnly lib p.strings p.functions _ _).bind ?_)
  intro value
  cases value with
  | function index record =>
    exact ((functionName_failsOnly lib p record).mono fun _ => .inr).bind fun _ => .pure _
  | string _ | float _ | vector _ _ _ | entity _ | functionOutOfRange _ | unhandledType _ =>
    exact .ok _

theorem functionLine_failsOnly (f : FunctionRecord) :
    FailsOnly (p.strings.FailsWith lib) (functionLine lib p f) :=
  (functionName_failsOnly lib p f).bind fun _ =>
    (functionFile_failsOnly lib p f).bind fun _ => .pure _

theorem marker_failsOnly (f : FunctionRecord) :
    FailsOnly (p.strings.FailsWith lib) (marker lib p f) :=
  (functionFile_failsOnly lib p f).bind fun _ =>
    (functionName_failsOnly lib p f).bind fun _ => .pure _

theorem statementLines_failsOnly (entries : List EntryPoint) (numbered : Statement × Nat) :
    FailsOnly (p.strings.FailsWith lib) (statementLines lib p entries numbered) := by
  unfold statementLines
  split
  · exact (marker_failsOnly lib p _).bind fun _ => .pure _
  · exact .ok _

theorem globalLine_failsOnly (d : Definition) :
    FailsOnly (p.strings.FailsWith lib) (globalLine lib p d) :=
  (definitionValue_failsOnly lib p d).bind fun _ =>
    (definitionName_failsOnly lib p d).bind fun _ => .pure _

theorem fieldLine_failsOnly (d : Definition) :
    FailsOnly (p.strings.FailsWith lib) (fieldLine lib p d) :=
  (definitionName_failsOnly lib p d).bind fun _ => .pure _

end Report

/-! ## Sections -/

/-- The sections of a report. -/
inductive Section where
  | functions
  | statements
  | globals
  | fields
  | strings
  deriving DecidableEq, Repr

/-- The sections in the order of a report. -/
def Section.all : List Section := [.functions, .statements, .globals, .fields, .strings]

/-- Whether a section is wanted. -/
def Sections.shows (wanted : Sections) : Section → Bool
  | .functions => wanted.functions
  | .statements => wanted.statements
  | .globals => wanted.globals
  | .fields => wanted.fields
  | .strings => wanted.strings

namespace Section

/-- The lines of a section. -/
def render (lib : CharsetLibrary) (p : Program) : Section → Except Error (List Text)
  | functions => Report.functionSection lib p
  | statements => Report.statementSection lib p
  | globals => Report.globalSection lib p
  | fields => Report.fieldSection lib p
  | strings => Report.stringSection lib p

/-- How many lines a section has to have: one for each record, one for each statement at which a
function starts, and for a string table that is not empty one for each string and for each line feed
in a string. -/
def lineCount (lib : CharsetLibrary) (p : Program) : Section → Nat
  | functions => p.functions.length
  | statements => p.statements.length +
      (List.range p.statements.length).countP fun v : Nat =>
        decide (0 < v) && p.functions.any fun f => f.firstStatement == (v : Int)
  | globals => p.globalDefs.length
  | fields => p.fieldDefs.length
  | strings =>
    if p.strings.length = 0 then 0
    else 1 + p.strings.bytes.toList.dropLast.count 0 +
      (p.strings.starts.flatMap (p.strings.textAt lib)).count Text.lineFeed

/-- **A section fails with an error of the charset or not at all.** -/
theorem render_failsOnly (s : Section) (lib : CharsetLibrary) (p : Program) :
    FailsOnly (p.strings.FailsWith lib) (s.render lib p) := by
  cases s with
  | functions => exact .mapM (Report.functionLine_failsOnly lib p) _
  | statements =>
    exact (FailsOnly.mapM (Report.statementLines_failsOnly lib p _) _).bind fun _ => .pure _
  | globals => exact .mapM (Report.globalLine_failsOnly lib p) _
  | fields => exact .mapM (Report.fieldLine_failsOnly lib p) _
  | strings =>
    simp only [render, Report.stringSection]
    split
    · exact .ok _
    · exact (p.strings.listing_failsOnly lib).bind fun _ => .pure _

end Section

/-! ## How many lines -/

/-- A function starts at a statement exactly when the number of the statement is positive and is
some function's first. -/
theorem EntryPoint.exists_mem_ofFunctions_iff {fs : List (FunctionRecord × Nat)} {v : Int} :
    (∃ entry ∈ ofFunctions fs, entry.statement = v) ↔
      0 < v ∧ ∃ f ∈ fs.map Prod.fst, f.firstStatement = v := by
  induction fs with
  | nil => simp [ofFunctions]
  | cons head rest ih =>
    obtain ⟨f, i⟩ := head
    unfold ofFunctions
    split
    · rename_i hbuiltin
      have hle : f.firstStatement ≤ 0 := by simpa [FunctionRecord.isBuiltin] using hbuiltin
      simp only [ih, List.map_cons, List.mem_cons, exists_eq_or_imp]
      constructor
      · rintro ⟨hpos, hrest⟩
        exact ⟨hpos, .inr hrest⟩
      · rintro ⟨hpos, hf | hrest⟩
        · omega
        · exact ⟨hpos, hrest⟩
    · rename_i hbuiltin
      have hlt : 0 < f.firstStatement := by simpa [FunctionRecord.isBuiltin] using hbuiltin
      simp only [List.map_cons, List.mem_cons, exists_eq_or_imp]
      constructor
      · rintro (hf | ⟨entry, hentry, hv⟩)
        · exact ⟨by omega, .inl hf⟩
        · obtain ⟨hpos, hrest⟩ := ih.mp ⟨entry, (List.mem_filter.mp hentry).1, hv⟩
          exact ⟨hpos, .inr hrest⟩
      · rintro ⟨hpos, hf | hrest⟩
        · exact .inl hf
        · by_cases hv : f.firstStatement = v
          · exact .inl hv
          · obtain ⟨entry, hentry, hentryv⟩ := ih.mpr ⟨hpos, hrest⟩
            refine .inr ⟨entry, List.mem_filter.mpr ⟨hentry, ?_⟩, hentryv⟩
            simpa [hentryv] using fun h => hv h.symm

namespace Report

variable {lib : CharsetLibrary} {p : Program}

/-- Every statement has its line, and a marker if a function starts there. -/
theorem length_flatten_statementLines {entries : List EntryPoint} {xs : List (Statement × Nat)}
    {groups : List (List Text)} (h : xs.map (statementLines lib p entries) = groups.map .ok) :
    groups.flatten.length = xs.length +
      xs.countP fun x => (entries.find? fun entry => entry.statement == (x.2 : Int)).isSome := by
  induction xs generalizing groups with
  | nil =>
    cases groups with
    | nil => rfl
    | cons group groups => cases h
  | cons x xs ih =>
    cases groups with
    | nil => cases h
    | cons group groups =>
      obtain ⟨hgroup, hgroups⟩ := List.cons.inj h
      rw [List.flatten_cons, List.length_append, ih hgroups, List.countP_cons, List.length_cons]
      unfold statementLines at hgroup
      split at hgroup
      · rename_i entry hentry
        obtain ⟨line, -, hlines⟩ := bind_eq_ok_iff.mp hgroup
        obtain rfl := Except.ok.inj hlines
        simp [hentry]
        omega
      · rename_i hnone
        obtain rfl := Except.ok.inj hgroup
        simp [hnone]
        omega

theorem isSome_find?_entryPoints (p : Program) (v : Nat) :
    (p.entryPoints.find? fun entry => entry.statement == (v : Int)).isSome =
      (decide (0 < v) && p.functions.any fun f => f.firstStatement == (v : Int)) := by
  rw [Bool.eq_iff_iff, List.find?_isSome]
  simp only [beq_iff_eq, Bool.and_eq_true, decide_eq_true_eq, List.any_eq_true]
  rw [Program.entryPoints, EntryPoint.exists_mem_ofFunctions_iff, List.zipIdx_map_fst]
  exact and_congr_left' Int.natCast_pos

end Report

namespace Section

/-- **No section loses a line.** -/
theorem length_render {lib : CharsetLibrary} {p : Program} {s : Section} {lines : List Text}
    (h : s.render lib p = .ok lines) : lines.length = s.lineCount lib p := by
  cases s with
  | functions | globals | fields => exact length_of_mapM h
  | statements =>
    obtain ⟨groups, hgroups, hflatten⟩ := bind_eq_ok_iff.mp h
    obtain rfl := Except.ok.inj hflatten
    have hnumbers : p.statements.zipIdx.map Prod.snd = List.range p.statements.length := by
      rw [List.zipIdx_map_snd, List.range_eq_range']
    rw [Report.length_flatten_statementLines (mapM_eq_ok_iff.mp hgroups), List.length_zipIdx,
      lineCount, ← hnumbers, List.countP_map]
    congr 2
    funext numbered
    exact Report.isSome_find?_entryPoints p numbered.2
  | strings =>
    simp only [render, Report.stringSection] at h
    simp only [lineCount]
    split at h
    · rename_i hempty
      obtain rfl := Except.ok.inj h
      rw [if_pos hempty]
      rfl
    · rename_i hne
      obtain ⟨text, htext, hlines⟩ := bind_eq_ok_iff.mp h
      obtain rfl := Except.ok.inj hlines
      rw [if_neg hne, StringTable.length_lines_of_listing hne htext]

end Section

/-! ## The whole report -/

/-- What a section adds to a report. -/
def Sections.part (wanted : Sections) (lib : CharsetLibrary) (p : Program) (s : Section) :
    Except Error (List Text) :=
  if wanted.shows s then s.render lib p else pure []

/-- How many lines a report has to have. -/
def Sections.lineCount (wanted : Sections) (lib : CharsetLibrary) (p : Program) : Nat :=
  (Section.all.filter wanted.shows).foldr (fun s n => s.lineCount lib p + n) 0

namespace Program

variable (lib : CharsetLibrary) (p : Program) (wanted : Sections)

theorem report_eq_bind :
    p.report lib wanted =
      wanted.part lib p .functions >>= fun functions =>
      wanted.part lib p .statements >>= fun statements =>
      wanted.part lib p .globals >>= fun globals =>
      wanted.part lib p .fields >>= fun fields =>
      wanted.part lib p .strings >>= fun strings =>
      pure (functions ++ statements ++ globals ++ fields ++ strings) := by
  obtain ⟨functions, statements, globals, fields, strings⟩ := wanted
  cases functions <;> cases statements <;> cases globals <;> cases fields <;> cases strings <;> rfl

/-- **A report fails with an error of the charset or not at all.** -/
theorem report_failsOnly : FailsOnly (p.strings.FailsWith lib) (p.report lib wanted) := by
  have hpart : ∀ s, FailsOnly (p.strings.FailsWith lib) (wanted.part lib p s) := by
    intro s
    unfold Sections.part
    split
    · exact s.render_failsOnly lib p
    · exact .pure _
  rw [report_eq_bind]
  exact (hpart _).bind fun _ => (hpart _).bind fun _ => (hpart _).bind fun _ =>
    (hpart _).bind fun _ => (hpart _).bind fun _ => .pure _

variable {lib p}

/-- A report is its sections one after another. -/
theorem report_eq {lines : Section → List Text}
    (h : ∀ s : Section, s.render lib p = .ok (lines s)) :
    p.report lib wanted = .ok ((Section.all.filter wanted.shows).flatMap lines) := by
  have hpart : ∀ s, wanted.part lib p s = .ok (if wanted.shows s then lines s else []) := by
    intro s
    rw [Sections.part, h s]
    split <;> rfl
  have hlines : ∀ sections : List Section, (sections.filter wanted.shows).flatMap lines =
      sections.flatMap fun s => if wanted.shows s then lines s else [] := by
    intro sections
    induction sections with
    | nil => rfl
    | cons s sections ih =>
      rw [List.filter_cons, List.flatMap_cons, ← ih]
      split <;> simp
  rw [report_eq_bind]
  simp only [hpart, bind, Except.bind, hlines]
  simp [Section.all, pure, Except.pure]

theorem length_flatMap_lines {lines : Section → List Text}
    (h : ∀ s : Section, (lines s).length = s.lineCount lib p) (sections : List Section) :
    (sections.flatMap lines).length = sections.foldr (fun s n => s.lineCount lib p + n) 0 := by
  induction sections with
  | nil => rfl
  | cons s sections ih => rw [List.flatMap_cons, List.length_append, h s, ih, List.foldr_cons]

/-- The charset that a load has chosen is registered. -/
theorem exists_decoder_of_load {image : Bytes} {option environment : Option Text}
    (hload : (load lib image option environment).1 = .ok p) :
    ∃ decoder, lib.ofName? p.strings.charsetName = some decoder := by
  obtain ⟨-, name, hname, rfl⟩ := load_eq_ok_iff.mp hload
  exact Charset.ofName?_of_nameOfSetting hname

/-- A standard charset that a load has chosen decodes everything unless it has no decoder. -/
theorem total_iff_of_load {image : Bytes} {option environment : Option Text}
    (hload : (load .standard image option environment).1 = .ok p) :
    p.strings.Total .standard ↔
      Charset.ofKey? (Charset.lookupKey p.strings.charsetName) ≠ some .undecodable := by
  obtain ⟨decoder, hdecoder⟩ := exists_decoder_of_load hload
  obtain ⟨charset, hcharset, -⟩ := Option.map_eq_some_iff.mp hdecoder
  rw [StringTable.total_iff_of_ofKey? hcharset, hcharset, ne_eq, ne_eq, Option.some.injEq]

/-- **The report on a loaded program is complete.**  If the charset of the program decodes
everything, then no offset and no index, whatever the records hold, makes a report fail: each
section has lines of its own, as many as it has to have, and every report consists of the lines of
the sections that are wanted, in their order.  A standard charset decodes everything unless it is
the one without a decoder. -/
theorem report_complete (lib : CharsetLibrary) (image : Bytes) (option environment : Option Text)
    (p : Program) (hload : (load lib image option environment).1 = .ok p) :
    (lib = .standard → (p.strings.Total lib ↔
      Charset.ofKey? (Charset.lookupKey p.strings.charsetName) ≠ some .undecodable)) ∧
    (p.strings.Total lib → ∃ lines : Section → List Text,
      (∀ s, (lines s).length = s.lineCount lib p) ∧
      ∀ wanted, p.report lib wanted = .ok ((Section.all.filter wanted.shows).flatMap lines) ∧
        ((Section.all.filter wanted.shows).flatMap lines).length = wanted.lineCount lib p) := by
  refine ⟨?_, fun htotal => ?_⟩
  · rintro rfl
    exact total_iff_of_load hload
  · have hrender : ∀ s : Section, ∃ lines, s.render lib p = .ok lines :=
      fun s => htotal.exists_ok (s.render_failsOnly lib p)
    have hlines := fun s => Classical.choose_spec (hrender s)
    have hlength := fun s => Section.length_render (hlines s)
    refine ⟨fun s => Classical.choose (hrender s), hlength, ?_⟩
    intro wanted
    exact ⟨report_eq wanted hlines, length_flatMap_lines hlength _⟩

/-- One function, which starts at the second of two statements and whose name lies outside the
strings.  Version and checksum are also the strings, one of them a line feed, and a definition whose
name lies outside too; the checksum is the value of that definition and names no function. -/
def tangled : Bytes :=
  #[6, 0, 0, 0, 10, 0, 0, 0, 60, 0, 0, 0, 2, 0, 0, 0, 0, 0, 0, 0, 1, 0, 0, 0,
    0, 0, 0, 0, 1, 0, 0, 0, 56, 0, 0, 0, 1, 0, 0, 0, 0, 0, 0, 0, 8, 0, 0, 0,
    4, 0, 0, 0, 4, 0, 0, 0, 1, 0, 0, 0, 0, 0, 0, 0, 0, 0, 0, 0, 0, 0, 0, 0,
    99, 0, 0, 0, 4, 0, 0, 0, 0, 0, 0, 0, 0, 0, 0, 0, 0, 0, 0, 0]

theorem load_tangled {option : Option Text} {name : Text}
    (hname : Charset.nameOfSetting lib option none = .ok name) :
    (load lib tangled option none).1 = .ok (contents tangled name) := by
  have hdec : ∀ s : Stage, s.Decodes lib tangled option none := by
    intro s
    cases s with
    | charset => exact ⟨name, hname⟩
    | header | strings | globals | functions | statements | globalDefs | fieldDefs =>
      dsimp only [Stage.Decodes]
      decide
  exact load_eq_ok_iff.mpr ⟨hdec, name, hname, rfl⟩

/-- Of the thirteen lines one is for the function, three are for the statements, one each for the
definitions, and seven for the strings. -/
theorem report_complete_tangled :
    ∃ lines,
      (contents tangled "ascii").report .standard ⟨true, true, true, true, true⟩ = .ok lines ∧
      lines.length = 13 := by
  obtain ⟨hiff, htotal⟩ := report_complete .standard tangled none none _ (load_tangled rfl)
  have hname : Charset.ofKey? (Charset.lookupKey "ascii") ≠ some .undecodable := by decide +kernel
  obtain ⟨lines, -, hreport⟩ := htotal ((hiff rfl).mpr hname)
  obtain ⟨hok, hlength⟩ := hreport ⟨true, true, true, true, true⟩
  have hcount : Sections.lineCount ⟨true, true, true, true, true⟩ .standard
      (contents tangled "ascii") = 13 := by
    decide +kernel
  exact ⟨_, hok, hlength.trans hcount⟩

end Program

end QuakeC
