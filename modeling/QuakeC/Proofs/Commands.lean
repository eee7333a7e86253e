import QuakeC.CommandLine.Run
import QuakeC.Proofs.ReportLines

/-!
# How commands end

A command on a file that is there ends in one of three ways: it prints all it has to print, it
reports that the image is unreadable, or it passes an error on that does not lie in the image.  In
the last two cases it prints nothing.

* `Program.load_error_cases`, `Program.decoderFails_of_load` — where errors come from: a load fails
  because of the image or because of the encoding setting, and what is printed afterwards fails only
  where the decoder of the charset does.
* `Invocation.arises_iff`, `Invocation.run_all_or_nothing` — the three endings, of which each run
  has exactly one.
* `terminated_lines` — the lines of a text, each followed by a line feed, are the text followed by
  one.
* `Invocation.strings_agrees_with_dump` — the two commands that list the strings show the same.
-/

set_option autoImplicit false

namespace QuakeC

/-! ## Where errors come from -/

/-- What a format reports lies in the image when what it reports about invalid bytes does. -/
theorem RecordFormat.inImage_of_reportsLump {α : Type} {f : RecordFormat α}
    (hfault : ∀ c region p, (f.fault c region p).inImage = true) {image : Bytes} {region : String}
    {lump : Lump Nat} {e : Error} (h : f.ReportsLump image region lump e) : e.inImage = true := by
  obtain ⟨i, -, -, -, rfl⟩ := h
  unfold failure
  split
  · exact hfault _ _ _
  · split
    · rfl
    · rfl

namespace Program

variable {lib : CharsetLibrary} {image : Bytes} {option environment : Option Text} {p : Program}
  {e : Error}

/-- A load fails because of the image or because of the encoding setting. -/
theorem load_error_cases (h : (load lib image option environment).1 = .error e) :
    e.inImage = true ∨ e = .unknownEncoding (Charset.chosenSetting option environment) := by
  obtain ⟨s, -, hreports⟩ := load_eq_error_iff.mp h
  cases s with
  | header | strings | globals =>
    obtain rfl := hreports
    exact .inl rfl
  | charset => exact .inr hreports
  | functions | statements | globalDefs | fieldDefs =>
    exact .inl (RecordFormat.inImage_of_reportsLump (fun _ _ _ => rfl) hreports)

/-- The error is a fault of the decoder that is registered for the strings of a program. -/
def DecoderFails (lib : CharsetLibrary) (p : Program) (e : Error) : Prop :=
  ∃ decoder bytes fault, lib.ofName? p.strings.charsetName = some decoder ∧
    decoder bytes = .error fault ∧ e = .decoder fault

/-- A charset that a load has chosen fails only where its decoder does. -/
theorem decoderFails_of_load (hload : (load lib image option environment).1 = .ok p)
    (h : p.strings.FailsWith lib e) : p.DecoderFails lib e := by
  obtain ⟨decoder, hdecoder⟩ := exists_decoder_of_load hload
  obtain ⟨bytes, hbytes⟩ := h
  obtain ⟨fault, hfault, he⟩ := (CharsetLibrary.decode_eq_error_iff hdecoder).mp hbytes
  exact ⟨decoder, bytes, fault, hdecoder, hfault, he⟩

end Program

namespace CommandLine

/-! ## What commands print -/

namespace Command

/-- What a command prints about a program: the lines of a report, or the string listing in one
piece, and nothing for an empty table. -/
def Prints (lib : CharsetLibrary) (p : Program) (out : List Text) : Command → Prop
  | dump sections _ => p.report lib sections = .ok out
  | strings => (p.strings.length = 0 ∧ out = []) ∨
      (p.strings.length ≠ 0 ∧ ∃ text, p.strings.listing lib = .ok text ∧ out = [text])

/-- What ends a command that cannot print all it has to. -/
def Fails (lib : CharsetLibrary) (p : Program) (e : Error) : Command → Prop
  | dump sections _ => p.report lib sections = .error e
  | strings => p.strings.length ≠ 0 ∧ p.strings.listing lib = .error e

variable {lib : CharsetLibrary} {p : Program} {command : Command}

theorem print_eq_ok_iff {out : List Text} :
    command.print lib p = .ok out ↔ command.Prints lib p out := by
  cases command with
  | dump sections verbose => exact Iff.rfl
  | strings =>
    unfold print Prints
    by_cases hempty : p.strings.length = 0
    · simp [hempty, eq_comm]
    · simp only [hempty, ↓reduceIte, bind_eq_ok_iff, pure, Except.pure, Except.ok.injEq, false_and,
        ne_eq, not_false_eq_true, true_and, false_or]
      exact exists_congr fun text => and_congr_right fun _ => eq_comm

theorem print_eq_error_iff {e : Error} :
    command.print lib p = .error e ↔ command.Fails lib p e := by
  cases command with
  | dump sections verbose => exact Iff.rfl
  | strings =>
    unfold print Fails
    by_cases hempty : p.strings.length = 0
    · simp [hempty]
    · simp [hempty, bind_eq_error_iff, pure, Except.pure]

theorem print_failsOnly (lib : CharsetLibrary) (p : Program) (command : Command) :
    FailsOnly (p.strings.FailsWith lib) (command.print lib p) := by
  cases command with
  | dump sections verbose => exact p.report_failsOnly lib sections
  | strings =>
    by_cases hempty : p.strings.length = 0
    · simp only [print, hempty, ↓reduceIte]
      exact .ok _
    · simp only [print, hempty, ↓reduceIte]
      exact (p.strings.listing_failsOnly lib).bind fun _ => .pure _

end Command

/-! ## The three endings -/

/-- How a command ends. -/
inductive Ending where
  /-- Everything was printed. -/
  | printed (out : List Text)
  /-- The image could not be loaded. -/
  | unreadable (e : Error)
  /-- An error that does not lie in the image ended the command. -/
  | failed (e : Error)

namespace Ending

variable (inv : Invocation) (lib : CharsetLibrary) (environment : Option Text) (image : Bytes)

/-- When a command ends in the given way. -/
def Arises : Ending → Prop
  | printed out => ∃ p, (Program.load lib image inv.encoding environment).1 = .ok p ∧
      inv.command.Prints lib p out
  | unreadable e =>
    (Program.load lib image inv.encoding environment).1 = .error e ∧ e.inImage = true
  | failed e =>
    ((Program.load lib image inv.encoding environment).1 = .error e ∧
      e = .unknownEncoding (Charset.chosenSetting inv.encoding environment)) ∨
    ∃ p, (Program.load lib image inv.encoding environment).1 = .ok p ∧ inv.command.Fails lib p e ∧
      p.DecoderFails lib e

/-- What a command that ends in the given way shows. -/
def ShownBy (o : Outcome) : Ending → Prop
  | printed out => o.out = out ∧ o.codes = [] ∧ o.failure = none
  | unreadable e => o.out = [] ∧ o.codes = [1] ∧ o.failure = none ∧
      ∃ earlier last, o.log = earlier ++ [last] ∧
        (∀ elapsed, last.text elapsed = s!"[PROGS] unreadable: {inv.file}: " ++ e.message) ∧
        (∀ file message, .unreadable file message ∉ earlier) ∧
        (inv.command.isVerbose = false → earlier = [])
  | failed e => o.out = [] ∧ o.codes = [] ∧ o.failure = some e

end Ending

/-- Two outcomes that differ in the log at most. -/
structure Outcome.SameButLog (o o' : Outcome) : Prop where
  out_eq : o.out = o'.out
  codes_eq : o.codes = o'.codes
  failure_eq : o.failure = o'.failure

namespace Invocation

variable (inv : Invocation) (lib : CharsetLibrary) (environment : Option Text) (image : Bytes)

/-- What the log says before the command ends. -/
def loadLog : List LogLine :=
  if inv.command.isVerbose then
    .opening inv.file :: (Program.load lib image inv.encoding environment).2.log.map LogLine.loading
  else []

theorem unreadable_notMem_loadLog (file : String) (message : Text) :
    .unreadable file message ∉ inv.loadLog lib environment image := by
  unfold loadLog
  split
  · simp
  · exact List.not_mem_nil

/-- How a command on an image ends. -/
def ending : Ending :=
  match (Program.load lib image inv.encoding environment).1 with
  | .error e => if e.inImage then .unreadable e else .failed e
  | .ok p =>
    match inv.command.print lib p with
    | .ok out => .printed out
    | .error e => .failed e

/-- An ending and what the log says before it make the outcome. -/
theorem run_ok_eq :
    inv.run lib environment (.ok image) =
      match inv.ending lib environment image with
      | .printed out => { out, log := inv.loadLog lib environment image }
      | .unreadable e =>
        { log := inv.loadLog lib environment image ++ [.unreadable inv.file e.message]
          codes := [1] }
      | .failed e => { log := inv.loadLog lib environment image, failure := some e } := by
  change (match (Program.load lib image inv.encoding environment).1 with
    | .error e =>
      if e.inImage then
        { log := inv.loadLog lib environment image ++ [.unreadable inv.file e.message]
          codes := [1] }
      else { log := inv.loadLog lib environment image, failure := some e }
    | .ok p =>
      match inv.command.print lib p with
      | .ok out => { out, log := inv.loadLog lib environment image }
      | .error e => { log := inv.loadLog lib environment image, failure := some e } : Outcome) = _
  unfold ending
  cases (Program.load lib image inv.encoding environment).1 with
  | error e => cases himage : e.inImage <;> simp [himage]
  | ok p => cases hprint : inv.command.print lib p <;> simp [hprint]

theorem ending_shownBy :
    (inv.ending lib environment image).ShownBy inv (inv.run lib environment (.ok image)) := by
  rw [run_ok_eq]
  cases inv.ending lib environment image with
  | printed out => exact ⟨rfl, rfl, rfl⟩
  | unreadable e =>
    have hone := inv.unreadable_notMem_loadLog lib environment image
    refine ⟨rfl, rfl, rfl, _, _, rfl, fun _ => rfl, hone, ?_⟩
    intro hquiet
    simp [loadLog, hquiet]
  | failed e => exact ⟨rfl, rfl, rfl⟩

variable {inv lib environment image}

/-- An ending arises when it is the ending that the command has. -/
theorem arises_iff {ending : Ending} :
    ending.Arises inv lib environment image ↔ ending = inv.ending lib environment image := by
  unfold Invocation.ending
  cases hload : (Program.load lib image inv.encoding environment).1 with
  | error e =>
    have hcases := Program.load_error_cases hload
    cases ending with
    | printed out =>
      simp only [Ending.Arises, hload]
      grind
    | unreadable e' =>
      simp only [Ending.Arises, hload]
      grind
    | failed e' =>
      -- an error of the setting does not lie in the image, so `hcases` decides between the two
      have hsetting : (Error.unknownEncoding
          (Charset.chosenSetting inv.encoding environment)).inImage = false := rfl
      simp only [Ending.Arises, hload]
      grind
  | ok p =>
    cases ending with
    | printed out =>
      simp only [Ending.Arises, hload, Except.ok.injEq, exists_eq_left', ← Command.print_eq_ok_iff]
      grind
    | unreadable e' =>
      simp only [Ending.Arises, hload]
      grind
    | failed e' =>
      simp only [Ending.Arises, hload, Except.ok.injEq, exists_eq_left',
        ← Command.print_eq_error_iff]
      have hfault : inv.command.print lib p = .error e' → p.DecoderFails lib e' := fun hprint =>
        Program.decoderFails_of_load hload (inv.command.print_failsOnly lib p e' hprint)
      grind

/-- What a command passes on does not lie in the image. -/
theorem inImage_of_failure {e : Error}
    (h : (inv.run lib environment (.ok image)).failure = some e) : e.inImage = false := by
  have harises := arises_iff.mpr (Eq.refl (inv.ending lib environment image))
  have hshown := inv.ending_shownBy lib environment image
  revert harises hshown
  cases inv.ending lib environment image with
  | printed out =>
    rintro - ⟨-, -, hnone⟩
    cases hnone.symm.trans h
  | unreadable e' =>
    rintro - ⟨-, -, hnone, -⟩
    cases hnone.symm.trans h
  | failed e' =>
    rintro harises ⟨-, -, hsome⟩
    obtain rfl : e' = e := Option.some.inj (hsome.symm.trans h)
    obtain ⟨-, rfl⟩ | ⟨p, -, -, decoder, bytes, fault, -, -, rfl⟩ := harises
    · rfl
    · rfl

variable (inv lib environment image)

/-- Logging how a load goes on leaves the ending as it is. -/
theorem dump_sameButLog (sections : Sections) (verbose verbose' : Bool) :
    Outcome.SameButLog
      ({ inv with command := .dump sections verbose }.run lib environment (.ok image))
      ({ inv with command := .dump sections verbose' }.run lib environment (.ok image)) := by
  let quiet : Invocation := { inv with command := .dump sections verbose }
  let loud : Invocation := { inv with command := .dump sections verbose' }
  have hending : quiet.ending lib environment image = loud.ending lib environment image := rfl
  rw [run_ok_eq quiet, run_ok_eq loud, hending]
  cases loud.ending lib environment image with
  | printed out => exact ⟨rfl, rfl, rfl⟩
  | unreadable e => exact ⟨rfl, rfl, rfl⟩
  | failed e => exact ⟨rfl, rfl, rfl⟩

/-- **A command prints all it has to or nothing.**  On a file that is there it prints everything,
reports that the image is unreadable, or passes an error on that does not lie in the image: one of
the three.  Logging the load changes the log alone. -/
theorem run_all_or_nothing :
    (∃ ending : Ending, ending.Arises inv lib environment image ∧
      ending.ShownBy inv (inv.run lib environment (.ok image)) ∧
      ∀ other : Ending, other.Arises inv lib environment image → other = ending) ∧
    (∀ e, (inv.run lib environment (.ok image)).failure = some e → e.inImage = false) ∧
    ∀ sections verbose verbose', Outcome.SameButLog
      ({ inv with command := .dump sections verbose }.run lib environment (.ok image))
      ({ inv with command := .dump sections verbose' }.run lib environment (.ok image)) :=
  ⟨⟨inv.ending lib environment image, arises_iff.mpr rfl, inv.ending_shownBy lib environment image,
    fun _ => arises_iff.mp⟩, fun _ => inImage_of_failure, inv.dump_sameButLog lib environment image⟩

theorem nameOfSetting_constructor :
    Charset.nameOfSetting .standard (some "constructor") none = .ok "constructor" :=
  toOption_eq_some_iff.mp (by decide +kernel)

theorem ofKey?_constructor :
    Charset.ofKey? (Charset.lookupKey "constructor") = some .undecodable := by
  decide +kernel

open Program in
theorem strings_fails_tangled :
    Command.strings.Fails .standard (contents tangled "constructor")
      (.decoder Charset.noDecoder) := by
  have hnone : ((contents tangled "constructor").strings.listing .standard).toOption = none := by
    decide +kernel
  refine ⟨by decide, ?_⟩
  cases hlisting : (contents tangled "constructor").strings.listing .standard with
  | ok text => rw [hlisting] at hnone; cases hnone
  | error e =>
    obtain ⟨bytes, hbytes⟩ := StringTable.listing_failsOnly _ _ e hlisting
    obtain ⟨fault, hfault, rfl⟩ :=
      (CharsetLibrary.decode_eq_error_iff (Charset.ofName?_standard ofKey?_constructor)).mp hbytes
    rw [(Charset.decode_eq_error_iff.mp hfault).2]

/-- The string listing of an empty file logs one line, and that of an image that loads ends without
output when its charset has no decoder. -/
theorem run_all_or_nothing_strings :
    ((Invocation.mk .strings "progs.dat" none).run .standard none (.ok #[])).log.map
          (LogLine.text 0) =
        ["[PROGS] unreadable: progs.dat: truncated input in header at offset 0: " ++
          "need 8 byte(s), 0 available"] ∧
      ((Invocation.mk .strings "progs.dat" (some "constructor")).run .standard none
        (.ok Program.tangled)).failure = some (.decoder Charset.noDecoder) := by
  constructor
  · obtain ⟨⟨ending, -, hshown, hunique⟩, -⟩ :=
      run_all_or_nothing (.mk .strings "progs.dat" none) .standard none #[]
    obtain rfl := hunique (.unreadable (.truncated "header" 0 8 0)) ⟨rfl, rfl⟩
    obtain ⟨-, -, -, earlier, last, hlog, htext, -, hquiet⟩ := hshown
    rw [hlog, hquiet rfl, List.nil_append, List.map_singleton, htext]
    decide +kernel
  · obtain ⟨⟨ending, -, hshown, hunique⟩, -⟩ :=
      run_all_or_nothing (.mk .strings "progs.dat" (some "constructor")) .standard none
        Program.tangled
    obtain rfl := hunique (.failed (.decoder Charset.noDecoder))
      (.inr ⟨_, Program.load_tangled nameOfSetting_constructor, strings_fails_tangled, _, [], _,
        Charset.ofName?_standard ofKey?_constructor, rfl, rfl⟩)
    exact hshown.2.2

end Invocation

/-! ## Two string listings -/

theorem terminated_cons (l : Text) (ls : List Text) :
    Text.terminated (l :: ls) = l ++ Text.lineFeed :: Text.terminated ls := by
  rw [Text.terminated, List.flatMap_cons, List.append_assoc, Text.terminated]
  rfl

/-- Lines that are each followed by a line feed are the lines joined and one line feed more. -/
theorem terminated_eq_joinLines {ls : List Text} (h : ls ≠ []) :
    Text.terminated ls = Text.joinLines ls ++ [Text.lineFeed] := by
  induction ls with
  | nil => exact absurd rfl h
  | cons l ls ih =>
    rw [terminated_cons]
    by_cases hls : ls = []
    · subst hls
      simp [Text.joinLines, Text.terminated]
    · rw [Text.joinLines_cons hls, ih hls]
      simp

theorem terminated_lines (t : Text) : Text.terminated t.lines = t ++ [Text.lineFeed] := by
  rw [terminated_eq_joinLines t.lines_ne_nil, Text.joinLines_lines]

/-- Two outcomes that show the same, however their texts are cut into lines. -/
structure Outcome.SameTexts (o o' : Outcome) : Prop where
  text_eq : Text.terminated o.out = Text.terminated o'.out
  log_eq : o.log = o'.log
  codes_eq : o.codes = o'.codes
  failure_eq : o.failure = o'.failure

theorem Outcome.SameTexts.ofOutcome_eq {o o' : Outcome} (h : o.SameTexts o') (elapsed : Nat) :
    Exit.ofOutcome elapsed o = Exit.ofOutcome elapsed o' := by
  simp only [Exit.ofOutcome, h.text_eq, h.log_eq, h.codes_eq, h.failure_eq]

/-- A report of the strings and of nothing else. -/
def onlyStrings : Sections := ⟨false, false, false, false, true⟩

theorem report_onlyStrings (lib : CharsetLibrary) (p : Program) :
    p.report lib onlyStrings = Report.stringSection lib p := by
  rw [Program.report_eq_bind]
  change (Report.stringSection lib p >>= fun strings => Except.ok strings) = _
  cases Report.stringSection lib p <;> rfl

namespace Invocation

/-- The listing in one piece and the report of its lines end alike, but for the way in which the
text is cut. -/
theorem ending_strings_eq_or (lib : CharsetLibrary) (file : String)
    (encoding environment : Option Text)
    (image : Bytes) :
    (Invocation.mk .strings file encoding).ending lib environment image =
        (Invocation.mk (.dump onlyStrings false) file encoding).ending lib environment image ∨
      ∃ text,
        (Invocation.mk .strings file encoding).ending lib environment image = .printed [text] ∧
        (Invocation.mk (.dump onlyStrings false) file encoding).ending lib environment image =
          .printed text.lines := by
  unfold ending
  cases (Program.load lib image encoding environment).1 with
  | error e => exact .inl rfl
  | ok p =>
    simp only [Command.print, report_onlyStrings, Report.stringSection]
    by_cases hempty : p.strings.length = 0
    · simp only [hempty, ↓reduceIte, true_or]
    · simp only [hempty, ↓reduceIte]
      cases p.strings.listing lib with
      | error e => exact .inl rfl
      | ok text => exact .inr ⟨text, rfl, rfl⟩

theorem run_strings_sameTexts (lib : CharsetLibrary) (file : String)
    (encoding environment : Option Text)
    (contents : Except Error Bytes) :
    ((Invocation.mk .strings file encoding).run lib environment contents).SameTexts
      ((Invocation.mk (.dump onlyStrings false) file encoding).run lib environment contents) := by
  cases contents with
  | error e => exact ⟨rfl, rfl, rfl, rfl⟩
  | ok image =>
    rw [run_ok_eq, run_ok_eq]
    obtain hsame | ⟨text, hlisted, hdumped⟩ :=
      ending_strings_eq_or lib file encoding environment image
    · rw [hsame]
      cases (Invocation.mk (.dump onlyStrings false) file encoding).ending lib environment
        image with
      | printed out | unreadable e | failed e => exact ⟨rfl, rfl, rfl, rfl⟩
    · rw [hlisted, hdumped]
      have htext : Text.terminated [text] = Text.terminated text.lines := by
        rw [terminated_lines, terminated_cons]
        rfl
      exact ⟨htext, rfl, rfl, rfl⟩

/-- **The string listing and the report of the strings alone cannot be told apart.**  They write the
same text, log the same and end alike, whatever reading the file gave, and so do their processes. -/
theorem strings_agrees_with_dump (lib : CharsetLibrary) (file : String)
    (encoding environment : Option Text)
    (contents : Except Error Bytes) :
    let listed := (Invocation.mk .strings file encoding).run lib environment contents
    let dumped :=
      (Invocation.mk (.dump onlyStrings false) file encoding).run lib environment contents
    (Text.terminated listed.out = Text.terminated dumped.out ∧ listed.log = dumped.log ∧
      listed.codes = dumped.codes ∧ listed.failure = dumped.failure) ∧
    ∀ elapsed, Exit.ofOutcome elapsed listed = Exit.ofOutcome elapsed dumped := by
  have hsame := run_strings_sameTexts lib file encoding environment contents
  exact ⟨⟨hsame.text_eq, hsame.log_eq, hsame.codes_eq, hsame.failure_eq⟩, hsame.ofOutcome_eq⟩

end Invocation

end CommandLine

end QuakeC
