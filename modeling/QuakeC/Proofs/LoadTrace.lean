import QuakeC.Proofs.FirstFailure

/-!
# What the trace of a load tells

A load reports how far it has come: a line in the log at the start, after the header and at the end,
and percentages in between.  The trace is what the stages before the first failure leave, so that
the stage of a failure can be read off the error, and off the trace how far it had come.

* `Program.logLines` — the lines of a load that gets to the end.
* `Stage.reached`, `Stage.lineCount` — what of them, and of the percentages, is there when a stage
  fails.
* `Error.stage?` — the stage that an error names.
* `Stage.stage?_of_reports` — what a stage reports names that stage.
* `Program.load_trace_tells_stage` — the traces of all loads.
-/

set_option autoImplicit false

namespace QuakeC

/-- The stage that decodes the region of the given name. -/
def Stage.ofRegion? : String → Option Stage
  | "header" => some .header
  | "strings" => some .strings
  | "globals" => some .globals
  | "functions" => some .functions
  | "statements" => some .statements
  | "globalDefs" => some .globalDefs
  | "fieldDefs" => some .fieldDefs
  | _ => none

/-- The stage that an error names: by its region, or by its cause when the encoding setting is at
fault. -/
def Error.stage? : Error → Option Stage
  | .truncated region .. | .invalidEnum _ _ region _ | .invalidRecord region .. =>
    Stage.ofRegion? region
  | .unknownEncoding _ => some .charset
  | _ => none

/-- The lines in the log of a load that gets to the end, after the given milliseconds: the size of
the image, then version and checksum, then the counts of records that the header declares. -/
def Program.logLines (size : Nat) (header : Header Nat) (elapsed : Nat) : List String :=
  let lumps := header.lumps
  [s!"[PROGS] load start: {size} bytes",
    s!"[PROGS] version={header.version} crc=0x{LoadEvent.hexWord header.crc}",
    s!"[PROGS] load done in {elapsed}ms: {lumps.functions.count} functions, " ++
      s!"{lumps.statements.count} statements, {lumps.globalDefs.count} globals, " ++
      s!"{lumps.fieldDefs.count} fields"]

/-- The percentages that a load has reached when a stage fails. -/
def Stage.reached : Stage → List Nat
  | header => []
  | strings | charset | globals => [10]
  | functions => [10, 30]
  | statements => [10, 30, 50]
  | globalDefs | fieldDefs => [10, 30, 50, 80]

/-- The number of lines in the log when a stage fails. -/
def Stage.lineCount : Stage → Nat
  | header => 1
  | _ => 2

/-- What a format reports names the region when what it reports about invalid bytes does. -/
theorem RecordFormat.stage?_of_reportsLump {α : Type} {f : RecordFormat α}
    (hfault : ∀ c region p, (f.fault c region p).stage? = Stage.ofRegion? region) {image : Bytes}
    {region : String} {lump : Lump Nat} {e : Error} (h : f.ReportsLump image region lump e) :
    e.stage? = Stage.ofRegion? region := by
  obtain ⟨i, -, -, -, rfl⟩ := h
  unfold failure
  split
  · exact hfault _ _ _
  · split
    · rfl
    · rfl

namespace Stage

variable {lib : CharsetLibrary} {image : Bytes} {option environment : Option Text} {s : Stage}
  {e : Error}

/-- **The report of a stage names the stage.** -/
theorem stage?_of_reports (h : s.Reports image option environment e) : e.stage? = some s := by
  cases s with
  | header | strings | charset | globals =>
    obtain rfl := h
    rfl
  | functions | statements | globalDefs | fieldDefs =>
    exact RecordFormat.stage?_of_reportsLump (fun _ _ _ => rfl) h

/-! ## Traces of failed loads -/

variable (image s)

theorem progress_trace : (s.trace image).progress = s.reached := by
  cases s with
  | header | strings | charset | globals | functions | statements | globalDefs | fieldDefs => rfl

theorem log_trace : (s.trace image).log = (Program.finishedTrace image).log.take s.lineCount := by
  cases s with
  | header | strings | charset | globals | functions | statements | globalDefs | fieldDefs => rfl

/-- A load that fails never gets to the end. -/
theorem reached_isPrefix :
    s.reached <+: [10, 30, 50, 80, 100] ∧ s.reached ≠ [10, 30, 50, 80, 100] := by
  cases s with
  | header | strings | charset | globals | functions | statements | globalDefs | fieldDefs => decide

theorem lineCount_lt : s.lineCount < 3 := by
  cases s with
  | header | strings | charset | globals | functions | statements | globalDefs | fieldDefs => decide

end Stage

namespace Program

variable {lib : CharsetLibrary} {image : Bytes} {option environment : Option Text}

theorem lines_finishedTrace (image : Bytes) (elapsed : Nat) :
    (finishedTrace image).log.map (LoadEvent.line elapsed) =
      logLines image.size (Header.wordsAt image 0) elapsed := by
  rfl

theorem lines_trace (s : Stage) (image : Bytes) (elapsed : Nat) :
    (s.trace image).log.map (LoadEvent.line elapsed) =
      (logLines image.size (Header.wordsAt image 0) elapsed).take s.lineCount := by
  rw [s.log_trace, List.map_take, lines_finishedTrace]

/-- A stage is the first that fails exactly when the load ends with an error that names it. -/
theorem failsFirst_iff {s : Stage} :
    s.FailsFirst lib image option environment ↔
      ∃ e, e.stage? = some s ∧ (load lib image option environment).1 = .error e := by
  constructor
  · intro hs
    obtain ⟨e, he⟩ := Stage.exists_reports hs.2
    exact ⟨e, Stage.stage?_of_reports he, load_eq_error_iff.mpr ⟨s, hs, he⟩⟩
  · rintro ⟨e, hstage, hload⟩
    obtain ⟨s', hs', he⟩ := load_eq_error_iff.mp hload
    rw [Stage.stage?_of_reports he] at hstage
    exact Option.some.inj hstage ▸ hs'

/-- And then the load has left the trace of the stage. -/
theorem trace_of_failsFirst {s : Stage} (hs : s.FailsFirst lib image option environment) :
    (load lib image option environment).2 = s.trace image := by
  obtain ⟨e, he⟩ := Stage.exists_reports hs.2
  rw [load_of_failsFirst hs he]

/-- A load succeeds with the full trace or fails with the trace of a stage. -/
theorem load_cases (lib : CharsetLibrary) (image : Bytes) (option environment : Option Text) :
    (∃ p, load lib image option environment = (.ok p, finishedTrace image)) ∨
      ∃ (s : Stage) (e : Error),
        load lib image option environment = (.error e, s.trace image) := by
  rcases Stage.forall_decodes_or_failsFirst lib image option environment with h | ⟨s, hs⟩
  · obtain ⟨name, hname⟩ := h .charset
    exact .inl ⟨_, load_of_forall_decodes h hname⟩
  · obtain ⟨e, he⟩ := Stage.exists_reports hs.2
    exact .inr ⟨s, e, load_of_failsFirst hs he⟩

/-- The percentages and the log of every load are those of a load that succeeds, up to some
point. -/
theorem trace_isPrefix (lib : CharsetLibrary) (image : Bytes) (option environment : Option Text)
    (elapsed : Nat) :
    (load lib image option environment).2.progress <+: [10, 30, 50, 80, 100] ∧
      (load lib image option environment).2.log.map (LoadEvent.line elapsed) <+:
        logLines image.size (Header.wordsAt image 0) elapsed := by
  obtain ⟨p, hload⟩ | ⟨s, e, hload⟩ := load_cases lib image option environment
  · rw [hload, lines_finishedTrace]
    exact ⟨List.prefix_rfl, List.prefix_rfl⟩
  · rw [hload, s.progress_trace, lines_trace]
    exact ⟨s.reached_isPrefix.1, List.take_prefix _ _⟩

theorem lines_of_load {p : Program} (h : (load lib image option environment).1 = .ok p)
    (elapsed : Nat) :
    (load lib image option environment).2.log.map (LoadEvent.line elapsed) =
      logLines image.size p.header elapsed := by
  obtain ⟨hdecodes, name, hname, rfl⟩ := load_eq_ok_iff.mp h
  rw [load_of_forall_decodes hdecodes hname, lines_finishedTrace]
  rfl

/-- A load that gets to the end of its trace succeeds, and no other does. -/
theorem exists_ok_iff (lib : CharsetLibrary) (image : Bytes) (option environment : Option Text) :
    ((∃ p, (load lib image option environment).1 = .ok p) ↔
      (load lib image option environment).2.progress = [10, 30, 50, 80, 100]) ∧
    ((∃ p, (load lib image option environment).1 = .ok p) ↔
      (load lib image option environment).2.log.length = 3) := by
  obtain ⟨p, hload⟩ | ⟨s, e, hload⟩ := load_cases lib image option environment
  · rw [hload]
    exact ⟨iff_of_true ⟨p, rfl⟩ rfl, iff_of_true ⟨p, rfl⟩ rfl⟩
  · rw [hload, s.progress_trace, s.log_trace, List.length_take]
    have hlt := s.lineCount_lt
    exact ⟨iff_of_false nofun s.reached_isPrefix.2, iff_of_false nofun (by omega)⟩

/-- **The trace of a load tells exactly how far it got.**  Percentages and log lines are those of a
load that succeeds, up to some point.  A stage is the first that fails exactly when the load ends
with an error that names the stage; every failure has such a stage, and leaves the percentages and
the number of lines that belong to it.  All percentages, and all three lines, are reported exactly
when the load succeeds, and then the last line carries the counts of records that the header
declares. -/
theorem load_trace_tells_stage (lib : CharsetLibrary) (image : Bytes)
    (option environment : Option Text) (elapsed : Nat) :
    let outcome := (load lib image option environment).1
    let progress := (load lib image option environment).2.progress
    let lines := (load lib image option environment).2.log.map (LoadEvent.line elapsed)
    let allLines := logLines image.size (Header.wordsAt image 0) elapsed
    (progress <+: [10, 30, 50, 80, 100] ∧ lines <+: allLines) ∧
    (∀ s : Stage, s.FailsFirst lib image option environment ↔
      ∃ e, e.stage? = some s ∧ outcome = .error e) ∧
    (∀ s : Stage, s.FailsFirst lib image option environment →
      progress = s.reached ∧ lines = allLines.take s.lineCount) ∧
    (∀ e, outcome = .error e → ∃ s : Stage, s.FailsFirst lib image option environment) ∧
    ((∃ p, outcome = .ok p) ↔ progress = [10, 30, 50, 80, 100]) ∧
    ((∃ p, outcome = .ok p) ↔ lines.length = 3) ∧
    ∀ p, outcome = .ok p → lines = logLines image.size p.header elapsed := by
  obtain ⟨hprogress, hlog⟩ := exists_ok_iff lib image option environment
  refine ⟨trace_isPrefix lib image option environment elapsed, fun s => failsFirst_iff, ?_, ?_,
    hprogress, ?_, fun p hp => lines_of_load hp elapsed⟩
  · intro s hs
    rw [trace_of_failsFirst hs]
    exact ⟨s.progress_trace image, lines_trace s image elapsed⟩
  · intro e he
    obtain ⟨s, hs, -⟩ := load_eq_error_iff.mp he
    exact ⟨s, hs⟩
  · rw [List.length_map]
    exact hlog

/-- The one string byte that is not there is missed after the header: at ten percent, with two lines
in the log. -/
theorem load_trace_tells_missing_strings :
    (load .standard (shortStrings 0 0) none none).2.progress = [10] ∧
      (load .standard (shortStrings 0 0) none none).2.log.map (LoadEvent.line 3) =
        ["[PROGS] load start: 56 bytes", "[PROGS] version=6 crc=0x0000"] := by
  obtain ⟨-, -, hfails, -⟩ := load_trace_tells_stage .standard (shortStrings 0 0) none none 3
  obtain ⟨hprogress, hlines⟩ := hfails .strings (shortStrings_failsFirst _ 0 0 none none)
  rw [hprogress, hlines]
  exact ⟨rfl, by decide⟩

end Program

end QuakeC
