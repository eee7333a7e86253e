import QuakeC.Load
import QuakeC.Proofs.Formats

/-!
# The stages of a load

A load goes through eight stages in a fixed order.  Each stage can be decoded or not, which is said
here without a cursor and without the stages before it: where its lump lies is read off the header
words of the image.  The stages share one cursor; `Loader.run_lump` says that where one of them has
left it makes no difference to the next.

* `Stage.Decodes`, `Stage.Reports` — what a stage needs, and what it reports when it fails.
* `Program.contents` — what the image holds, lump by lump.
* `load_of_forall_decodes` — when every stage can be decoded, the load gives the contents.
* `load_of_failsFirst` — otherwise it gives the report of the first stage that cannot, and leaves
  the trace of the stages before it.
-/

set_option autoImplicit false

namespace QuakeC

variable {α : Type}

/-- The lump of the given name, as the header at the start of the image places it. -/
def Bytes.lump (image : Bytes) (name : LumpName) : Lump Nat :=
  (Header.wordsAt image 0).lumps.get name

/-- Every record of the lump can be decoded. -/
def RecordFormat.DecodesLump (f : RecordFormat α) (image : Bytes) (lump : Lump Nat) : Prop :=
  ∀ i < lump.count, f.Decodable image (lump.offset + i * f.size)

instance (f : RecordFormat α) (image : Bytes) (lump : Lump Nat) :
    Decidable (f.DecodesLump image lump) :=
  inferInstanceAs (Decidable (∀ i < lump.count, f.Decodable image (lump.offset + i * f.size)))

/-- The error is the report of the first record of the lump that cannot be decoded. -/
def RecordFormat.ReportsLump (f : RecordFormat α) (image : Bytes) (region : String)
    (lump : Lump Nat) (e : Error) : Prop :=
  ∃ i < lump.count, (∀ j < i, f.Decodable image (lump.offset + j * f.size)) ∧
    ¬ f.Decodable image (lump.offset + i * f.size) ∧
    e = f.failure image region (lump.offset + i * f.size)

theorem RecordFormat.exists_reportsLump {f : RecordFormat α} {image : Bytes} {lump : Lump Nat}
    (h : ¬ f.DecodesLump image lump) (region : String) :
    ∃ e, f.ReportsLump image region lump e := by
  rcases f.forall_decodable_or_first image lump.offset lump.count with hall | ⟨i, hi, hbefore, hbad⟩
  · exact absurd hall h
  · exact ⟨_, i, hi, hbefore, hbad, rfl⟩

/-- The steps of a load, in their order. -/
inductive Stage where
  | header
  | strings
  | charset
  | globals
  | functions
  | statements
  | globalDefs
  | fieldDefs
  deriving DecidableEq, Repr

namespace Stage

/-- The stages in the order in which they are decoded. -/
def all : List Stage :=
  [.header, .strings, .charset, .globals, .functions, .statements, .globalDefs, .fieldDefs]

/-- The stages before the given one. -/
def earlier (s : Stage) : List Stage := all.takeWhile (· ≠ s)

variable (lib : CharsetLibrary) (image : Bytes) (option environment : Option Text)

/-- What a stage needs, apart from the stages before it. -/
def Decodes : Stage → Prop
  | header => 56 ≤ image.size
  | strings => (image.lump .strings).offset + (image.lump .strings).count ≤ image.size
  | charset => ∃ name, Charset.nameOfSetting lib option environment = .ok name
  | globals => (image.lump .globals).offset + (image.lump .globals).count ≤ image.size
  | functions => FunctionRecord.format.DecodesLump image (image.lump .functions)
  | statements => Statement.format.DecodesLump image (image.lump .statements)
  | globalDefs => Definition.format.DecodesLump image (image.lump .globalDefs)
  | fieldDefs => Definition.format.DecodesLump image (image.lump .fieldDefs)

/-- The report of a lump of bytes that does not fit. -/
def bytesShortfall (region : String) (lump : Lump Nat) : Error :=
  .truncated region lump.offset lump.count (max 0 ((image.size : Int) - lump.offset))

/-- What a stage that cannot be decoded reports. -/
def Reports : Stage → Error → Prop
  | header, e =>
    e = .truncated "header" (8 * (image.size / 8) : Nat) 8 (image.size % 8 : Nat)
  | strings, e => e = bytesShortfall image "strings" (image.lump .strings)
  | charset, e => e = .unknownEncoding (Charset.chosenSetting option environment)
  | globals, e => e = bytesShortfall image "globals" (image.lump .globals)
  | functions, e =>
    FunctionRecord.format.ReportsLump image "functions" (image.lump .functions) e
  | statements, e => Statement.format.ReportsLump image "statements" (image.lump .statements) e
  | globalDefs, e => Definition.format.ReportsLump image "globalDefs" (image.lump .globalDefs) e
  | fieldDefs, e => Definition.format.ReportsLump image "fieldDefs" (image.lump .fieldDefs) e

/-- The stage is the first that cannot be decoded. -/
def FailsFirst (s : Stage) : Prop :=
  (∀ t ∈ s.earlier, t.Decodes lib image option environment) ∧
    ¬ s.Decodes lib image option environment

/-- What a load that fails in the given stage has reported by then. -/
def trace : Stage → Trace
  | header => { log := [.started image.size] }
  | strings | charset | globals => afterHeader [10]
  | functions => afterHeader [10, 30]
  | statements => afterHeader [10, 30, 50]
  | globalDefs | fieldDefs => afterHeader [10, 30, 50, 80]
where
  /-- The log once the header is read. -/
  afterHeader (progress : List Nat) : Trace := {
    log := [.started image.size,
      .headerRead (Header.wordsAt image 0).version (Header.wordsAt image 0).crc]
    progress }

end Stage

namespace Program

/-- What the image holds, each lump where the header places it. -/
def contents (image : Bytes) (charsetName : Text) : Program where
  header := Header.wordsAt image 0
  strings := ⟨image.chunk (image.lump .strings).offset (image.lump .strings).count, charsetName⟩
  globals := ⟨image.chunk (image.lump .globals).offset (image.lump .globals).count⟩
  functions := FunctionRecord.format.values image (image.lump .functions).offset
    (image.lump .functions).count
  statements := Statement.format.values image (image.lump .statements).offset
    (image.lump .statements).count
  globalDefs := Definition.format.values image (image.lump .globalDefs).offset
    (image.lump .globalDefs).count
  fieldDefs := Definition.format.values image (image.lump .fieldDefs).offset
    (image.lump .fieldDefs).count

/-- What a load that succeeds has reported. -/
def finishedTrace (image : Bytes) : Trace where
  log := [.started image.size,
    .headerRead (Header.wordsAt image 0).version (Header.wordsAt image 0).crc,
    .finished (image.lump .functions).count (image.lump .statements).count
      (image.lump .globalDefs).count (image.lump .fieldDefs).count]
  progress := [10, 30, 50, 80, 100]

end Program

/-! ## Running a loader -/

namespace Loader

theorem run_log (event : LoadEvent) (c : Cursor) (t : Trace) :
    (log event).run ⟨c, t⟩ = .ok () ⟨c, { t with log := t.log ++ [event] }⟩ := rfl

theorem run_reach (percent : Nat) (c : Cursor) (t : Trace) :
    (reach percent).run ⟨c, t⟩ = .ok () ⟨c, { t with progress := t.progress ++ [percent] }⟩ := rfl

theorem run_ofExcept (x : Except Error α) (s : LoadState) :
    (ofExcept x).run s =
      match x with
      | .ok a => .ok a s
      | .error e => .error e s := by
  cases x <;> rfl

theorem run_decode (read : Reader α) (c : Cursor) (t : Trace) :
    (decode read).run ⟨c, t⟩ =
      match read.outcome c with
      | .ok a => .ok a ⟨read.cursorAfter c, t⟩
      | .error e => .error e ⟨read.cursorAfter c, t⟩ := by
  simp only [decode, Reader.outcome, Reader.cursorAfter, EStateM.run_bind, EStateM.run_get]
  cases read.run c <;> rfl

/-- A lump is read at its offset, in the region of its name: of the cursor that an earlier read has
left, only the bytes matter. -/
theorem run_lump (lumps : LumpTable Nat) (name : LumpName) (read : Nat → Reader α) (c : Cursor)
    (t : Trace) :
    (lump lumps name read).run ⟨c, t⟩ =
      match (read (lumps.get name).count).outcome
          ⟨c.bytes, (lumps.get name).offset, name.label⟩ with
      | .ok a => .ok a ⟨(read (lumps.get name).count).cursorAfter
          ⟨c.bytes, (lumps.get name).offset, name.label⟩, t⟩
      | .error e => .error e ⟨(read (lumps.get name).count).cursorAfter
          ⟨c.bytes, (lumps.get name).offset, name.label⟩, t⟩ := by
  rw [lump, run_decode]
  rfl

end Loader

/-! ## What each stage gives -/

namespace Stage

variable {lib : CharsetLibrary} {image : Bytes} {option environment : Option Text} {e : Error}

theorem get_lumps (name : LumpName) :
    (Header.wordsAt image 0).lumps.get name = image.lump name := rfl

theorem outcome_header (h : header.Decodes lib image option environment) :
    Header.read.outcome ⟨image, (0 : Nat), "header"⟩ = .ok (Header.wordsAt image 0) :=
  Header.outcome_read_eq_ok.mpr ⟨by simpa [Decodes] using h, rfl⟩

/-- A header that is read leaves the cursor over the image. -/
theorem bytes_cursorAfter_header (h : header.Decodes lib image option environment) :
    (Header.read.cursorAfter ⟨image, (0 : Nat), "header"⟩).bytes = image := by
  rw [Reader.cursorAfter_of_run_ok
    (Header.run_read_of_le (show 0 + 56 ≤ image.size by simpa [Decodes] using h) "header")]

theorem outcome_strings (h : strings.Decodes lib image option environment) :
    (Reader.bytes (image.lump .strings).count).outcome
      ⟨image, (image.lump .strings).offset, "strings"⟩ =
      .ok (image.chunk (image.lump .strings).offset (image.lump .strings).count) :=
  Reader.outcome_bytes_eq_ok.mpr ⟨h, rfl⟩

theorem outcome_globals (h : globals.Decodes lib image option environment) :
    (Reader.bytes (image.lump .globals).count).outcome
      ⟨image, (image.lump .globals).offset, "globals"⟩ =
      .ok (image.chunk (image.lump .globals).offset (image.lump .globals).count) :=
  Reader.outcome_bytes_eq_ok.mpr ⟨h, rfl⟩

theorem outcome_records {f : RecordFormat α} {read : Reader α} (hread : f.ReadBy read)
    {lump : Lump Nat} (h : f.DecodesLump image lump) (region : String) :
    (Reader.many read lump.count).outcome ⟨image, lump.offset, region⟩ =
      .ok (f.values image lump.offset lump.count) :=
  (RecordFormat.outcome_many_eq_ok hread).mpr ⟨h, rfl⟩

theorem outcome_header_error (h : ¬ header.Decodes lib image option environment)
    (he : header.Reports image option environment e) :
    Header.read.outcome ⟨image, (0 : Nat), "header"⟩ = .error e := by
  have hsize : image.size < 0 + 56 := by
    simp only [Decodes] at h
    omega
  rw [Header.outcome_read_eq_error]
  refine ⟨hsize, ?_⟩
  simpa [Header.shortfall, Reports] using he

theorem outcome_bytes_error {region : String} {lump : Lump Nat}
    (h : ¬ lump.offset + lump.count ≤ image.size) (he : e = bytesShortfall image region lump) :
    (Reader.bytes lump.count).outcome ⟨image, lump.offset, region⟩ = .error e :=
  Reader.outcome_bytes_eq_error.mpr ⟨by omega, he⟩

theorem outcome_records_error {f : RecordFormat α} {read : Reader α} (hread : f.ReadBy read)
    {lump : Lump Nat} {region : String} (he : f.ReportsLump image region lump e) :
    (Reader.many read lump.count).outcome ⟨image, lump.offset, region⟩ = .error e :=
  (RecordFormat.outcome_many_eq_error hread).mpr he

/-- A setting is refused for one reason only. -/
theorem nameOfSetting_error (h : ¬ charset.Decodes lib image option environment)
    (he : charset.Reports image option environment e) :
    Charset.nameOfSetting lib option environment = .error e := by
  simp only [Reports] at he
  subst he
  cases hname : Charset.nameOfSetting lib option environment with
  | ok name => exact absurd ⟨name, hname⟩ h
  | error e =>
    simp only [Charset.nameOfSetting] at hname
    split at hname
    · cases hname
    split at hname
    · cases hname
    split at hname
    · cases hname
    · exact hname.symm

/-! ## The first stage that fails -/

theorem mem_all (s : Stage) : s ∈ all := by cases s <;> decide

/-- Either all stages of a list have a property or there is a first that does not. -/
theorem forall_or_first_not (P : Stage → Prop) : ∀ l : List Stage,
    (∀ s ∈ l, P s) ∨ ∃ s, (∀ t ∈ l.takeWhile (· ≠ s), P t) ∧ ¬ P s
  | [] => .inl fun _ hs => by cases hs
  | a :: l => by
    by_cases ha : P a
    · rcases forall_or_first_not P l with hl | ⟨s, hbefore, hs⟩
      · exact .inl (List.forall_mem_cons.mpr ⟨ha, hl⟩)
      · have hne : a ≠ s := fun h => hs (h ▸ ha)
        refine .inr ⟨s, ?_, hs⟩
        rw [List.takeWhile_cons_of_pos (by simpa using hne)]
        exact List.forall_mem_cons.mpr ⟨ha, hbefore⟩
    · refine .inr ⟨a, ?_, ha⟩
      rw [List.takeWhile_cons_of_neg (by simp)]
      exact fun _ hs => by cases hs

/-- Every image either decodes throughout or fails first in some stage. -/
theorem forall_decodes_or_failsFirst (lib : CharsetLibrary) (image : Bytes)
    (option environment : Option Text) :
    (∀ s : Stage, s.Decodes lib image option environment) ∨
      ∃ s : Stage, s.FailsFirst lib image option environment := by
  rcases forall_or_first_not (Decodes lib image option environment) all with h | ⟨s, hbefore, hs⟩
  · exact .inl fun s => h s (mem_all s)
  · exact .inr ⟨s, hbefore, hs⟩

/-- A stage that cannot be decoded has something to report. -/
theorem exists_reports {s : Stage} (h : ¬ s.Decodes lib image option environment) :
    ∃ e, s.Reports image option environment e := by
  cases s with
  | header | strings | charset | globals => exact ⟨_, rfl⟩
  | functions | statements | globalDefs | fieldDefs => exact RecordFormat.exists_reportsLump h _

end Stage

namespace Program

variable {lib : CharsetLibrary} {image : Bytes} {option environment : Option Text}

/-- The part of a load that decodes the records. -/
def recordLoader (image : Bytes) (strings : StringTable) (globals : Globals) : Loader Program := do
  let header := Header.wordsAt image 0
  Loader.reach 30
  let functions ← Loader.lump header.lumps .functions (Reader.many FunctionRecord.read)
  Loader.reach 50
  let statements ← Loader.lump header.lumps .statements (Reader.many Statement.read)
  Loader.reach 80
  let globalDefs ← Loader.lump header.lumps .globalDefs (Reader.many Definition.read)
  let fieldDefs ← Loader.lump header.lumps .fieldDefs (Reader.many Definition.read)
  Loader.reach 100
  Loader.log
    (.finished functions.length statements.length globalDefs.length fieldDefs.length)
  return { header, strings, globals, functions, statements, globalDefs, fieldDefs }

/-- The cursor of a load before its first read. -/
theorem initial_cursor (image : Bytes) :
    ({ bytes := image } : Cursor) = ⟨image, (0 : Nat), "header"⟩ := rfl

/-- Once the first four stages are decoded, the records remain, and the cursor is still over the
image. -/
theorem run_loader {charsetName : Text}
    (hheader : Stage.header.Decodes lib image option environment)
    (hstrings : Stage.strings.Decodes lib image option environment)
    (hname : Charset.nameOfSetting lib option environment = .ok charsetName)
    (hglobals : Stage.globals.Decodes lib image option environment) :
    ∃ c : Cursor, c.bytes = image ∧
      (loader lib image option environment).run { cursor := { bytes := image } } =
        (recordLoader image (contents image charsetName).strings
          (contents image charsetName).globals).run ⟨c, Stage.globals.trace image⟩ := by
  refine ⟨(Reader.bytes (image.lump .globals).count).cursorAfter
    ⟨image, (image.lump .globals).offset, "globals"⟩, Reader.bytes_cursorAfter_bytes .., ?_⟩
  simp only [loader, recordLoader, EStateM.run_bind, Loader.run_log, initial_cursor,
    Loader.run_decode, Stage.outcome_header hheader, Stage.bytes_cursorAfter_header hheader,
    Loader.run_reach, Loader.run_lump, Stage.get_lumps, LumpName.label,
    Stage.outcome_strings hstrings, Reader.bytes_cursorAfter_bytes, Loader.run_ofExcept, hname,
    Stage.outcome_globals hglobals]
  rfl

/-- **A load of which every stage can be decoded gives the contents of the image.** -/
theorem load_of_forall_decodes {charsetName : Text}
    (h : ∀ s : Stage, s.Decodes lib image option environment)
    (hname : Charset.nameOfSetting lib option environment = .ok charsetName) :
    load lib image option environment =
      (.ok (contents image charsetName), finishedTrace image) := by
  have hfunctions := Stage.outcome_records FunctionRecord.readBy (h .functions) "functions"
  have hstatements := Stage.outcome_records Statement.readBy (h .statements) "statements"
  have hglobalDefs := Stage.outcome_records Definition.readBy (h .globalDefs) "globalDefs"
  have hfieldDefs := Stage.outcome_records Definition.readBy (h .fieldDefs) "fieldDefs"
  obtain ⟨c, hc, hrun⟩ := run_loader (h .header) (h .strings) hname (h .globals)
  rw [load, hrun]
  simp only [recordLoader, EStateM.run_bind, Loader.run_reach, Loader.run_lump, Stage.get_lumps,
    LumpName.label, hc, hfunctions, RecordFormat.bytes_cursorAfter_many FunctionRecord.readBy,
    hstatements, RecordFormat.bytes_cursorAfter_many Statement.readBy, hglobalDefs,
    RecordFormat.bytes_cursorAfter_many Definition.readBy, hfieldDefs, Loader.run_log,
    EStateM.run_pure, RecordFormat.length_values]
  rfl

/-- A load fails with the report of the first stage that cannot be decoded: the stages up to the
globals. -/
theorem load_of_failsFirst_bytes {s : Stage} {e : Error}
    (hs : s = .header ∨ s = .strings ∨ s = .charset ∨ s = .globals)
    (h : s.FailsFirst lib image option environment) (he : s.Reports image option environment e) :
    load lib image option environment = (.error e, s.trace image) := by
  obtain ⟨hearlier, hbad⟩ := h
  rw [load, loader]
  simp only [EStateM.run_bind, Loader.run_log, initial_cursor, Loader.run_decode]
  rcases hs with rfl | rfl | rfl | rfl
  · rw [Stage.outcome_header_error hbad he]
    rfl
  · have hheader := hearlier .header (by decide)
    rw [Stage.outcome_header hheader]
    simp only [Loader.run_log, Loader.run_reach, Loader.run_lump,
      Stage.bytes_cursorAfter_header hheader, Stage.get_lumps, LumpName.label,
      Stage.outcome_bytes_error hbad he]
    rfl
  · have hheader := hearlier .header (by decide)
    rw [Stage.outcome_header hheader]
    simp only [Loader.run_log, Loader.run_reach, Loader.run_lump,
      Stage.bytes_cursorAfter_header hheader, Stage.get_lumps, LumpName.label,
      Stage.outcome_strings (hearlier .strings (by decide)),
      Loader.run_ofExcept, Stage.nameOfSetting_error hbad he]
    rfl
  · have hheader := hearlier .header (by decide)
    obtain ⟨name, hname⟩ := hearlier .charset (by decide)
    rw [Stage.outcome_header hheader]
    simp only [Loader.run_log, Loader.run_reach, Loader.run_lump,
      Stage.bytes_cursorAfter_header hheader, Stage.get_lumps, LumpName.label,
      Stage.outcome_strings (hearlier .strings (by decide)),
      Reader.bytes_cursorAfter_bytes, Loader.run_ofExcept, hname,
      Stage.outcome_bytes_error hbad he]
    rfl

/-- A load that fails behind the globals first gets to the records. -/
theorem exists_run_loader {s : Stage} (h : s.FailsFirst lib image option environment)
    (hs : .globals ∈ s.earlier) :
    ∃ name, ∃ c : Cursor, c.bytes = image ∧
      (loader lib image option environment).run { cursor := { bytes := image } } =
        (recordLoader image (contents image name).strings (contents image name).globals).run
          ⟨c, Stage.globals.trace image⟩ := by
  have hearlier : ∀ t ∈ Stage.globals.earlier, t ∈ s.earlier := by
    cases s <;> revert hs <;> decide
  obtain ⟨name, hname⟩ := h.1 .charset (hearlier .charset (by decide))
  exact ⟨name, run_loader (h.1 .header (hearlier .header (by decide)))
    (h.1 .strings (hearlier .strings (by decide))) hname (h.1 .globals hs)⟩

/-- **A load fails with the report of the first stage that cannot be decoded.** -/
theorem load_of_failsFirst {s : Stage} {e : Error}
    (h : s.FailsFirst lib image option environment) (he : s.Reports image option environment e) :
    load lib image option environment = (.error e, s.trace image) := by
  cases s with
  | header | strings | charset | globals => exact load_of_failsFirst_bytes (by decide) h he
  | functions =>
    obtain ⟨name, c, hc, hrun⟩ := exists_run_loader h (by decide)
    rw [load, hrun]
    simp only [recordLoader, EStateM.run_bind, Loader.run_reach, Loader.run_lump, Stage.get_lumps,
      LumpName.label, hc, Stage.outcome_records_error FunctionRecord.readBy he]
    rfl
  | statements =>
    obtain ⟨name, c, hc, hrun⟩ := exists_run_loader h (by decide)
    have hfunctions :=
      Stage.outcome_records FunctionRecord.readBy (h.1 .functions (by decide)) "functions"
    rw [load, hrun]
    simp only [recordLoader, EStateM.run_bind, Loader.run_reach, Loader.run_lump, Stage.get_lumps,
      LumpName.label, hc, hfunctions, RecordFormat.bytes_cursorAfter_many FunctionRecord.readBy,
      Stage.outcome_records_error Statement.readBy he]
    rfl
  | globalDefs =>
    obtain ⟨name, c, hc, hrun⟩ := exists_run_loader h (by decide)
    have hfunctions :=
      Stage.outcome_records FunctionRecord.readBy (h.1 .functions (by decide)) "functions"
    have hstatements :=
      Stage.outcome_records Statement.readBy (h.1 .statements (by decide)) "statements"
    rw [load, hrun]
    simp only [recordLoader, EStateM.run_bind, Loader.run_reach, Loader.run_lump, Stage.get_lumps,
      LumpName.label, hc, hfunctions, RecordFormat.bytes_cursorAfter_many FunctionRecord.readBy,
      hstatements, RecordFormat.bytes_cursorAfter_many Statement.readBy,
      Stage.outcome_records_error Definition.readBy he]
    rfl
  | fieldDefs =>
    obtain ⟨name, c, hc, hrun⟩ := exists_run_loader h (by decide)
    have hfunctions :=
      Stage.outcome_records FunctionRecord.readBy (h.1 .functions (by decide)) "functions"
    have hstatements :=
      Stage.outcome_records Statement.readBy (h.1 .statements (by decide)) "statements"
    have hglobalDefs :=
      Stage.outcome_records Definition.readBy (h.1 .globalDefs (by decide)) "globalDefs"
    rw [load, hrun]
    simp only [recordLoader, EStateM.run_bind, Loader.run_reach, Loader.run_lump, Stage.get_lumps,
      LumpName.label, hc, hfunctions, RecordFormat.bytes_cursorAfter_many FunctionRecord.readBy,
      hstatements, RecordFormat.bytes_cursorAfter_many Statement.readBy, hglobalDefs,
      RecordFormat.bytes_cursorAfter_many Definition.readBy,
      Stage.outcome_records_error Definition.readBy he]
    rfl

/-- **A load succeeds exactly when every stage can be decoded**, and then gives the contents. -/
theorem load_eq_ok_iff {p : Program} :
    (load lib image option environment).1 = .ok p ↔
      (∀ s : Stage, s.Decodes lib image option environment) ∧
        ∃ name, Charset.nameOfSetting lib option environment = .ok name ∧
          p = contents image name := by
  constructor
  · intro hp
    rcases Stage.forall_decodes_or_failsFirst lib image option environment with h | ⟨s, hs⟩
    · obtain ⟨name, hname⟩ := h .charset
      rw [load_of_forall_decodes h hname] at hp
      exact ⟨h, name, hname, (Except.ok.inj hp).symm⟩
    · obtain ⟨e, he⟩ := Stage.exists_reports hs.2
      rw [load_of_failsFirst hs he] at hp
      cases hp
  · rintro ⟨h, name, hname, rfl⟩
    rw [load_of_forall_decodes h hname]

/-- **A load fails exactly with the report of the first stage that cannot be decoded.** -/
theorem load_eq_error_iff {e : Error} :
    (load lib image option environment).1 = .error e ↔
      ∃ s : Stage, s.FailsFirst lib image option environment ∧
        s.Reports image option environment e := by
  constructor
  · intro he
    rcases Stage.forall_decodes_or_failsFirst lib image option environment with h | ⟨s, hs⟩
    · obtain ⟨name, hname⟩ := h .charset
      rw [load_of_forall_decodes h hname] at he
      cases he
    · obtain ⟨e', he'⟩ := Stage.exists_reports hs.2
      rw [load_of_failsFirst hs he'] at he
      exact ⟨s, hs, Except.error.inj he ▸ he'⟩
  · rintro ⟨s, hs, he⟩
    rw [load_of_failsFirst hs he]

end Program

end QuakeC
