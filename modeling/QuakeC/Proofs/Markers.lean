import QuakeC.Proofs.ReportLines

/-!
# Entry points and their markers

The entry points of a program are the positive statement numbers at which functions start, each with
the first function of the table that starts there.  The listing of the statements has a marker right
before the statement of every entry point, and nowhere else.

* `StartsFirst` — a function is the first of a table to start at a statement.
* `EntryPoint.mem_ofFunctions_zipIdx_iff` — the entry points are these functions.
* `StringTable.Shows`, `Report.Marks` — what a marker has to say: the decoded string at each of the
  two offsets of its function, or that the offset lies outside.
* `Marked` — the listing of statements from a number on, line by line.
* `Marked.exists_marker`, `Marked.marker_place` — where markers stand, and where they do not.
* `Program.markers_at_entry_points` — both for a whole report of the statements.
-/

set_option autoImplicit false

namespace QuakeC

/-! ## Entry points -/

/-- The `i`-th function of a table is the first that starts at the statement `v`, and it has a body
of its own there. -/
structure StartsFirst (functions : List FunctionRecord) (v : Int) (i : Nat) (f : FunctionRecord) :
    Prop where
  positive : 0 < v
  function : functions[i]? = some f
  starts : f.firstStatement = v
  first : ∀ j < i, ∀ g, functions[j]? = some g → g.firstStatement ≠ v

namespace StartsFirst

variable {fs : List FunctionRecord} {f g : FunctionRecord} {v : Int} {i j : Nat}

theorem cons_zero_iff : StartsFirst (f :: fs) v 0 g ↔ 0 < v ∧ f = g ∧ f.firstStatement = v := by
  constructor
  · intro h
    obtain rfl : f = g := Option.some.inj h.function
    exact ⟨h.positive, rfl, h.starts⟩
  · rintro ⟨hpos, rfl, hv⟩
    exact ⟨hpos, rfl, hv, fun j hj => absurd hj (Nat.not_lt_zero j)⟩

theorem cons_succ_iff :
    StartsFirst (f :: fs) v (i + 1) g ↔ f.firstStatement ≠ v ∧ StartsFirst fs v i g := by
  constructor
  · intro h
    refine ⟨h.first 0 (Nat.succ_pos i) f rfl, h.positive, h.function, h.starts, ?_⟩
    intro j hj g' hg'
    exact h.first (j + 1) (Nat.succ_lt_succ hj) g' hg'
  · rintro ⟨hf, h⟩
    refine ⟨h.positive, h.function, h.starts, ?_⟩
    intro j hj g' hg'
    cases j with
    | zero =>
      obtain rfl : f = g' := Option.some.inj hg'
      exact hf
    | succ j => exact h.first j (Nat.lt_of_succ_lt_succ hj) g' hg'

/-- At most one function is the first. -/
theorem unique (hf : StartsFirst fs v i f) (hg : StartsFirst fs v j g) : f = g := by
  rcases Nat.lt_trichotomy i j with hij | rfl | hij
  · exact absurd hf.starts (hg.first i hij f hf.function)
  · exact Option.some.inj (hf.function.symm.trans hg.function)
  · exact absurd hg.starts (hf.first j hij g hg.function)

end StartsFirst

namespace EntryPoint

theorem statement_pos {fs : List (FunctionRecord × Nat)} {e : EntryPoint}
    (h : e ∈ ofFunctions fs) : 0 < e.statement :=
  (exists_mem_ofFunctions_iff.mp ⟨e, h, rfl⟩).1

/-- A function is an entry point unless it is a built-in, and takes the place of all later ones that
start at the same statement. -/
theorem mem_ofFunctions_cons_iff {f : FunctionRecord} {k : Nat} {fs : List (FunctionRecord × Nat)}
    {e : EntryPoint} :
    e ∈ ofFunctions ((f, k) :: fs) ↔
      (0 < f.firstStatement ∧ e = ⟨f.firstStatement, k, f⟩) ∨
        (f.firstStatement ≠ e.statement ∧ e ∈ ofFunctions fs) := by
  rw [ofFunctions]
  by_cases hbuiltin : f.isBuiltin = true
  · have hle : f.firstStatement ≤ 0 := by simpa [FunctionRecord.isBuiltin] using hbuiltin
    rw [if_pos hbuiltin]
    constructor
    · intro he
      have hpos := statement_pos he
      exact .inr ⟨by omega, he⟩
    · rintro (⟨hpos, -⟩ | ⟨-, he⟩)
      · omega
      · exact he
  · have hpos : 0 < f.firstStatement := by simpa [FunctionRecord.isBuiltin] using hbuiltin
    rw [if_neg hbuiltin, List.mem_cons, List.mem_filter, decide_eq_true_eq]
    simp only [hpos, true_and]
    exact or_congr_right (and_comm.trans (and_congr_left' ne_comm))

/-- **The entry points of numbered functions are the functions that start first.** -/
theorem mem_ofFunctions_zipIdx_iff {fs : List FunctionRecord} {k : Nat} {e : EntryPoint} :
    e ∈ ofFunctions (fs.zipIdx k) ↔
      ∃ i, e.index = k + i ∧ StartsFirst fs e.statement i e.function := by
  induction fs generalizing k with
  | nil =>
    constructor
    · intro h
      cases h
    · rintro ⟨i, -, h⟩
      cases h.function
  | cons f fs ih =>
    rw [List.zipIdx_cons, mem_ofFunctions_cons_iff, ih]
    constructor
    · rintro (⟨hpos, rfl⟩ | ⟨hne, i, hi, h⟩)
      · exact ⟨0, rfl, StartsFirst.cons_zero_iff.mpr ⟨hpos, rfl, rfl⟩⟩
      · exact ⟨i + 1, by omega, StartsFirst.cons_succ_iff.mpr ⟨hne, h⟩⟩
    · rintro ⟨i, hi, h⟩
      cases i with
      | zero =>
        obtain ⟨hpos, hfunction, hstatement⟩ := StartsFirst.cons_zero_iff.mp h
        obtain ⟨statement, index, function⟩ := e
        obtain rfl : index = k := hi
        obtain rfl : f = function := hfunction
        obtain rfl : f.firstStatement = statement := hstatement
        exact .inl ⟨hpos, rfl⟩
      | succ i =>
        obtain ⟨hne, h⟩ := StartsFirst.cons_succ_iff.mp h
        exact .inr ⟨hne, i, by omega, h⟩

/-- No two entry points share a statement. -/
theorem nodup_statements (fs : List (FunctionRecord × Nat)) :
    ((ofFunctions fs).map statement).Nodup := by
  induction fs with
  | nil => exact List.nodup_nil
  | cons head fs ih =>
    obtain ⟨f, k⟩ := head
    unfold ofFunctions
    split
    · exact ih
    · rw [List.map_cons, List.nodup_cons]
      constructor
      · intro hmem
        obtain ⟨e, he, hstatement⟩ := List.mem_map.mp hmem
        have hne := (List.mem_filter.mp he).2
        exact absurd hstatement (of_decide_eq_true hne)
      · exact (List.filter_sublist.map statement).nodup ih

end EntryPoint

namespace Program

theorem mem_entryPoints_iff {p : Program} {e : EntryPoint} :
    e ∈ p.entryPoints ↔ StartsFirst p.functions e.statement e.index e.function := by
  rw [entryPoints, EntryPoint.mem_ofFunctions_zipIdx_iff]
  simp only [Nat.zero_add, exists_eq_left']

end Program

/-! ## Markers -/

/-- The text stands for the string at an offset: it is what the bytes from there to the next zero
byte decode to, or, where the table has no byte at the offset, says so in angle brackets. -/
def StringTable.Shows (t : StringTable) (lib : CharsetLibrary) (offset : Int) (text : Text) :
    Prop :=
  t.Names lib offset text ∨
    (¬ t.Inside offset ∧ text = Text.ofString
      s!"<bad offset {offset} in strings (read of 1 byte(s), table length {t.length})>")

namespace Report

/-- The line starts with the two strokes of a marker. -/
def isMarker (line : Text) : Bool := (Text.ofString "//").isPrefixOf line

/-- How many of the lines show a statement. -/
def statementsIn (lines : List Text) : Nat := lines.countP fun line => !isMarker line

/-- The line is the marker of a function: the strings at its two offsets, that of the file first, or
what stands in their place. -/
def Marks (lib : CharsetLibrary) (p : Program) (f : FunctionRecord) (line : Text) : Prop :=
  ∃ file name : Text, p.strings.Shows lib f.sFile file ∧ p.strings.Shows lib f.sName name ∧
    line = "// " ++ file ++ " : " ++ name

theorem placeholder_badOffset (offset : Int) (length : Nat) :
    "<" ++ (Error.badOffset .strings (.int offset) 1 length).message ++ ">" = Text.ofString
      s!"<bad offset {offset} in strings (read of 1 byte(s), table length {length})>" := by
  rw [Error.message, ← Text.ofString_append, ← Text.ofString_append]
  apply congrArg Text.ofString
  apply String.toList_injective
  have hone : (Nat.repr 1).toList = ['1'] := rfl
  simp [Number.text, Table.label, toString, hone]

/-- **A name in the report is the string at its offset, or what stands in its place.** -/
theorem orPlaceholder_resolve_eq_ok_iff {t : StringTable} {lib : CharsetLibrary} {offset : Int}
    {text : Text} :
    orPlaceholder (t.resolve lib (.int offset)) = .ok text ↔ t.Shows lib offset text := by
  by_cases hinside : t.Inside offset
  · have hshows : t.Shows lib offset text ↔ t.Names lib offset text :=
      or_iff_left fun houtside => houtside.1 hinside
    rw [hshows, ← t.resolve_int_eq_ok_iff lib, t.resolve_int lib, if_pos hinside]
    cases hdecode : t.decode lib (t.bytesAt offset) with
    | ok found => rfl
    | error e =>
      rw [orPlaceholder, StringTable.isBadOffset_of_decode hdecode]
      rfl
  · have hshows : t.Shows lib offset text ↔ text = Text.ofString
        s!"<bad offset {offset} in strings (read of 1 byte(s), table length {t.length})>" :=
      (or_iff_right fun hnames => hinside hnames.1).trans (and_iff_right hinside)
    rw [hshows, ← placeholder_badOffset, t.resolve_int lib, if_neg hinside]
    exact ⟨fun h => (Except.ok.inj h).symm, fun h => congrArg Except.ok h.symm⟩

variable {lib : CharsetLibrary} {p : Program} {f : FunctionRecord} {line line' : Text}

theorem marker_eq_ok_iff : marker lib p f = .ok line ↔ Marks lib p f line := by
  unfold marker Marks
  simp only [bind_eq_ok_iff, ← orPlaceholder_resolve_eq_ok_iff, exists_and_left]
  refine exists_congr fun file => and_congr_right fun _ => exists_congr fun name =>
    and_congr_right fun _ => ?_
  exact ⟨fun h => (Except.ok.inj h).symm, fun h => congrArg Except.ok h.symm⟩

theorem Marks.unique (h : Marks lib p f line) (h' : Marks lib p f line') : line = line' := by
  rw [← marker_eq_ok_iff] at h h'
  exact Except.ok.inj (h.symm.trans h')

theorem Marks.isMarker (h : Marks lib p f line) : isMarker line = true := by
  obtain ⟨file, name, -, -, rfl⟩ := h
  rfl

/-- The text of a statement starts with an asterisk or with a parenthesis. -/
theorem exists_text_eq_cons (s : Statement) :
    ∃ c rest, s.text.toList = c :: rest ∧ (c = '*' ∨ c = '(') := by
  unfold Statement.text
  split
  · simp [Statement.address, toString]
  · simp [Statement.address, toString]
  · simp [Statement.rawText, toString]

/-- No statement looks like a marker, whatever its opcode and its operands are. -/
theorem isMarker_text (s : Statement) : isMarker s.text = false := by
  obtain ⟨c, rest, htext, rfl | rfl⟩ := exists_text_eq_cons s
  · rw [Text.ofString_eq_cons htext (by decide)]
    rfl
  · rw [Text.ofString_eq_cons htext (by decide)]
    rfl

theorem statementsIn_cons_text (s : Statement) (lines : List Text) :
    statementsIn (Text.ofString s.text :: lines) = statementsIn lines + 1 :=
  List.countP_cons_of_pos (by rw [isMarker_text]; rfl)

theorem statementsIn_cons_marker (h : isMarker line = true) (lines : List Text) :
    statementsIn (line :: lines) = statementsIn lines :=
  List.countP_cons_of_neg (by rw [h]; decide)

/-- What the listing shows for one statement: its text, after a marker if a function starts
there. -/
theorem statementLines_eq_ok {s : Statement} {n : Nat} {group : List Text}
    (h : statementLines lib p p.entryPoints (s, n) = .ok group) :
    (∃ i f line, StartsFirst p.functions n i f ∧ Marks lib p f line ∧
        group = [line, Text.ofString s.text]) ∨
      ((∀ i f, ¬ StartsFirst p.functions n i f) ∧ group = [Text.ofString s.text]) := by
  unfold statementLines at h
  split at h
  · rename_i e he
    obtain ⟨line, hline, hgroup⟩ := bind_eq_ok_iff.mp h
    have hstatement : e.statement = n := by simpa using List.find?_some he
    have hfirst := Program.mem_entryPoints_iff.mp (List.mem_of_find?_eq_some he)
    rw [hstatement] at hfirst
    exact .inl ⟨_, _, line, hfirst, marker_eq_ok_iff.mp hline, (Except.ok.inj hgroup).symm⟩
  · rename_i hnone
    refine .inr ⟨?_, (Except.ok.inj h).symm⟩
    intro i f hfirst
    have hmem : ⟨n, i, f⟩ ∈ p.entryPoints := Program.mem_entryPoints_iff.mpr hfirst
    exact absurd (List.find?_eq_none.mp hnone _ hmem) (by simp)

end Report

/-! ## The listing line by line -/

open Report

/-- The lines of statements from number `n` on: the text of each, and right before it the marker of
the function that starts there first, if there is one. -/
inductive Marked (lib : CharsetLibrary) (p : Program) : Nat → List Statement → List Text → Prop
  | nil (n : Nat) : Marked lib p n [] []
  | plain {n : Nat} {s : Statement} {ss : List Statement} {lines : List Text}
      (hnone : ∀ i f, ¬ StartsFirst p.functions n i f) (hrest : Marked lib p (n + 1) ss lines) :
      Marked lib p n (s :: ss) (Text.ofString s.text :: lines)
  | entry {n : Nat} {s : Statement} {ss : List Statement} {lines : List Text} {i : Nat}
      {f : FunctionRecord} {line : Text} (hfirst : StartsFirst p.functions n i f)
      (hmarks : Marks lib p f line) (hrest : Marked lib p (n + 1) ss lines) :
      Marked lib p n (s :: ss) (line :: Text.ofString s.text :: lines)

namespace Marked

variable {lib : CharsetLibrary} {p : Program} {n : Nat} {ss : List Statement} {lines : List Text}

theorem of_map_statementLines {groups : List (List Text)}
    (h : (ss.zipIdx n).map (statementLines lib p p.entryPoints) = groups.map .ok) :
    Marked lib p n ss groups.flatten := by
  induction ss generalizing n groups with
  | nil =>
    cases groups with
    | nil => exact nil n
    | cons group groups => cases h
  | cons s ss ih =>
    cases groups with
    | nil => cases h
    | cons group groups =>
      obtain ⟨hgroup, hgroups⟩ := List.cons.inj h
      rw [List.flatten_cons]
      obtain ⟨i, f, line, hfirst, hmarks, rfl⟩ | ⟨hnone, rfl⟩ := statementLines_eq_ok hgroup
      · exact entry hfirst hmarks (ih hgroups)
      · exact plain hnone (ih hgroups)

/-- **Without its markers the listing is the texts of the statements.** -/
theorem filter_eq (h : Marked lib p n ss lines) :
    lines.filter (fun line => !isMarker line) = ss.map fun s => Text.ofString s.text := by
  induction h with
  | nil n => rfl
  | plain hnone hrest ih =>
    rw [List.filter_cons_of_pos (by rw [isMarker_text]; rfl), ih, List.map_cons]
  | entry hfirst hmarks hrest ih =>
    rw [List.filter_cons_of_neg (by rw [hmarks.isMarker]; decide),
      List.filter_cons_of_pos (by rw [isMarker_text]; rfl), ih, List.map_cons]

/-- **A function that starts first at one of the statements has its marker right before it.** -/
theorem exists_marker (h : Marked lib p n ss lines) {m i : Nat} {s : Statement} {f : FunctionRecord}
    {line : Text} (hs : ss[m]? = some s) (hfirst : StartsFirst p.functions (n + m : Nat) i f)
    (hmarks : Marks lib p f line) :
    ∃ before after, lines = before ++ line :: Text.ofString s.text :: after ∧
      statementsIn before = m := by
  induction h generalizing m with
  | nil n => cases hs
  | @plain n s' ss lines hnone hrest ih =>
    cases m with
    | zero => exact absurd hfirst (hnone i f)
    | succ m =>
      obtain ⟨before, after, rfl, hm⟩ := ih hs (by rwa [Nat.add_right_comm n 1 m])
      exact ⟨Text.ofString s'.text :: before, after, rfl, by rw [statementsIn_cons_text, hm]⟩
  | @entry n s' ss lines i' f' line' hfirst' hmarks' hrest ih =>
    cases m with
    | zero =>
      obtain rfl := hfirst.unique hfirst'
      obtain rfl := hmarks.unique hmarks'
      obtain rfl : s' = s := Option.some.inj hs
      exact ⟨[], lines, rfl, rfl⟩
    | succ m =>
      obtain ⟨before, after, rfl, hm⟩ := ih hs (by rwa [Nat.add_right_comm n 1 m])
      refine ⟨line' :: Text.ofString s'.text :: before, after, rfl, ?_⟩
      rw [statementsIn_cons_marker hmarks'.isMarker, statementsIn_cons_text, hm]

/-- **A marker stands right before a statement at which its function starts first.** -/
theorem marker_place (h : Marked lib p n ss lines) {before after : List Text} {line : Text}
    (hlines : lines = before ++ line :: after) (hline : isMarker line = true) :
    ∃ s rest i f, ss[statementsIn before]? = some s ∧ after = Text.ofString s.text :: rest ∧
      StartsFirst p.functions (n + statementsIn before : Nat) i f ∧ Marks lib p f line := by
  induction h generalizing before with
  | nil n => cases before <;> cases hlines
  | @plain n s ss lines hnone hrest ih =>
    cases before with
    | nil =>
      obtain ⟨rfl, -⟩ := List.cons.inj hlines
      rw [isMarker_text] at hline
      cases hline
    | cons first before =>
      obtain ⟨rfl, hrest⟩ := List.cons.inj hlines
      obtain ⟨s', rest, i, f, hs', hafter, hfirst, hmarks⟩ := ih hrest
      rw [statementsIn_cons_text, ← Nat.add_assoc, Nat.add_right_comm]
      exact ⟨s', rest, i, f, hs', hafter, hfirst, hmarks⟩
  | @entry n s ss lines i f line' hfirst hmarks hrest ih =>
    -- the marker itself, the text behind it, or a later line
    rcases before with _ | ⟨first, _ | ⟨second, before⟩⟩
    · obtain ⟨rfl, rfl⟩ := List.cons.inj hlines
      exact ⟨s, lines, i, f, rfl, rfl, hfirst, hmarks⟩
    · obtain ⟨-, htext⟩ := List.cons.inj hlines
      obtain ⟨rfl, -⟩ := List.cons.inj htext
      rw [isMarker_text] at hline
      cases hline
    · obtain ⟨rfl, htext⟩ := List.cons.inj hlines
      obtain ⟨rfl, hrest⟩ := List.cons.inj htext
      obtain ⟨s', rest, i', f', hs', hafter, hfirst', hmarks'⟩ := ih hrest
      rw [statementsIn_cons_marker hmarks.isMarker, statementsIn_cons_text, ← Nat.add_assoc,
        Nat.add_right_comm]
      exact ⟨s', rest, i', f', hs', hafter, hfirst', hmarks'⟩

end Marked

/-! ## The report of the statements -/

/-- A report of the statements and of nothing else. -/
def onlyStatements : Sections := ⟨false, true, false, false, false⟩

theorem report_onlyStatements (lib : CharsetLibrary) (p : Program) :
    p.report lib onlyStatements = statementSection lib p := by
  rw [Program.report_eq_bind]
  change (statementSection lib p >>= fun statements =>
    Except.ok ([] ++ statements ++ [] ++ [] ++ [])) = _
  cases statementSection lib p <;> simp [bind, Except.bind]

/-- The marker `line` stands right before statement number `n`. -/
def MarkedAt (p : Program) (lines : List Text) (n : Nat) (line : Text) : Prop :=
  isMarker line = true ∧ ∃ before s after, p.statements[n]? = some s ∧
    lines = before ++ line :: Text.ofString s.text :: after ∧ statementsIn before = n

/-- The lines list the statements and show where functions start. -/
structure ShowsEntryPoints (lib : CharsetLibrary) (p : Program) (lines : List Text) : Prop where
  /-- Without its markers the listing is the texts of the statements. -/
  statements : lines.filter (fun line => !isMarker line) =
    p.statements.map fun s => Text.ofString s.text
  /-- The statements of entry points are marked with their functions, and no others are. -/
  marked_iff : ∀ n line, MarkedAt p lines n line ↔
    n < p.statements.length ∧ ∃ e ∈ p.entryPoints, e.statement = n ∧ Marks lib p e.function line
  /-- Every marker stands right before a statement. -/
  markedAt : ∀ before line after, lines = before ++ line :: after → isMarker line = true →
    MarkedAt p lines (statementsIn before) line
  /-- No two markers stand together. -/
  apart : ∀ before line line' after, lines = before ++ line :: line' :: after →
    isMarker line = true → isMarker line' = false
  /-- The first statement has no marker. -/
  not_markedAt_zero : ∀ line, ¬ MarkedAt p lines 0 line

namespace Marked

variable {lib : CharsetLibrary} {p : Program} {lines : List Text}

theorem markedAt_iff (h : Marked lib p 0 p.statements lines) (n : Nat) (line : Text) :
    MarkedAt p lines n line ↔
      n < p.statements.length ∧
        ∃ e ∈ p.entryPoints, e.statement = n ∧ Marks lib p e.function line := by
  constructor
  · rintro ⟨hline, before, s, after, hs, hlines, rfl⟩
    obtain ⟨-, -, i, f, -, -, hfirst, hmarks⟩ := h.marker_place hlines hline
    rw [Nat.zero_add] at hfirst
    have hentry := Program.mem_entryPoints_iff (e := ⟨_, i, f⟩).mpr hfirst
    exact ⟨(List.getElem?_eq_some_iff.mp hs).1, _, hentry, rfl, hmarks⟩
  · rintro ⟨hn, e, he, hen, hmarks⟩
    have hfirst := Program.mem_entryPoints_iff.mp he
    rw [hen, ← Nat.zero_add n] at hfirst
    have hs := List.getElem?_eq_getElem hn
    obtain ⟨before, after, hlines, hbefore⟩ := h.exists_marker hs hfirst hmarks
    exact ⟨hmarks.isMarker, before, _, after, hs, hlines, hbefore⟩

theorem showsEntryPoints (h : Marked lib p 0 p.statements lines) :
    ShowsEntryPoints lib p lines where
  statements := h.filter_eq
  marked_iff := h.markedAt_iff
  markedAt := by
    intro before line after hlines hline
    obtain ⟨s, rest, -, -, hs, rfl, -, -⟩ := h.marker_place hlines hline
    exact ⟨hline, before, s, rest, hs, hlines, rfl⟩
  apart := by
    intro before line line' after hlines hline
    obtain ⟨s, rest, -, -, -, hafter, -, -⟩ := h.marker_place hlines hline
    obtain ⟨rfl, -⟩ := List.cons.inj hafter
    exact isMarker_text s
  not_markedAt_zero := by
    intro line hzero
    obtain ⟨-, e, he, hen, -⟩ := (h.markedAt_iff 0 line).mp hzero
    have hpos := (Program.mem_entryPoints_iff.mp he).positive
    rw [hen] at hpos
    exact absurd hpos (by decide)

end Marked

namespace Program

/-- **Entry points and their markers.**  The statement numbers of the entry points are the positive
numbers at which functions start, each once and with the first function of the table that starts
there.  If all strings can be decoded, the report of the statements alone succeeds, and its markers
are those of the entry points inside the program, each right before its statement and with the two
strings of its function, or with a placeholder for the one whose offset lies outside. -/
theorem markers_at_entry_points (lib : CharsetLibrary) (p : Program) :
    ((∀ v, (∃ e ∈ p.entryPoints, e.statement = v) ↔
        0 < v ∧ ∃ f ∈ p.functions, f.firstStatement = v) ∧
      (p.entryPoints.map EntryPoint.statement).Nodup ∧
      ∀ e ∈ p.entryPoints, StartsFirst p.functions e.statement e.index e.function) ∧
    (p.strings.Total lib →
      ∃ lines, p.report lib onlyStatements = .ok lines ∧ ShowsEntryPoints lib p lines) := by
  refine ⟨⟨?_, EntryPoint.nodup_statements _, fun e he => mem_entryPoints_iff.mp he⟩, ?_⟩
  · intro v
    rw [entryPoints, EntryPoint.exists_mem_ofFunctions_iff, List.zipIdx_map_fst]
  · intro htotal
    obtain ⟨lines, hlines⟩ := htotal.exists_ok (p.report_failsOnly lib onlyStatements)
    refine ⟨lines, hlines, ?_⟩
    rw [report_onlyStatements] at hlines
    obtain ⟨groups, hgroups, hflatten⟩ := bind_eq_ok_iff.mp hlines
    obtain rfl := Except.ok.inj hflatten
    exact (Marked.of_map_statementLines (mapM_eq_ok_iff.mp hgroups)).showsEntryPoints

theorem total_tangled : (contents tangled "ascii").strings.Total .standard := by
  have hload : (load .standard tangled none none).1 = .ok (contents tangled "ascii") :=
    load_tangled rfl
  have hkey : Charset.ofKey? (Charset.lookupKey "ascii") ≠ some .undecodable := by decide +kernel
  exact (total_iff_of_load hload).mpr hkey

/-- The marker of the function of `tangled`: its file is a line feed, its name lies outside. -/
def tangledMarker : Text :=
  "// \n : <bad offset 99 in strings (read of 1 byte(s), table length 8)>"

theorem entryPoints_tangled : (contents tangled "ascii").entryPoints =
    [⟨1, 0, ⟨1, 0, 0, 0, 99, 4, []⟩⟩] := by
  decide +kernel

theorem marks_tangled :
    Marks .standard (contents tangled "ascii") ⟨1, 0, 0, 0, 99, 4, []⟩ tangledMarker := by
  exact ⟨"\n", _, .inl (by decide +kernel), .inr ⟨by decide, rfl⟩, by decide +kernel⟩

/-- The only marker stands before the second statement. -/
theorem markers_at_entry_points_tangled :
    ∃ lines, (contents tangled "ascii").report .standard onlyStatements = .ok lines ∧
      MarkedAt (contents tangled "ascii") lines 1
        "// \n : <bad offset 99 in strings (read of 1 byte(s), table length 8)>" ∧
      ∀ n line, MarkedAt (contents tangled "ascii") lines n line →
        n = 1 ∧ line = tangledMarker := by
  obtain ⟨-, hreport⟩ := markers_at_entry_points .standard (contents tangled "ascii")
  obtain ⟨lines, hlines, hshows⟩ := hreport total_tangled
  have hentry : ⟨1, 0, ⟨1, 0, 0, 0, 99, 4, []⟩⟩ ∈ (contents tangled "ascii").entryPoints := by
    rw [entryPoints_tangled]
    exact List.mem_singleton_self _
  refine ⟨lines, hlines, (hshows.marked_iff 1 _).mpr ⟨by decide, _, hentry, rfl, marks_tangled⟩, ?_⟩
  intro n line hmarked
  obtain ⟨-, e, he, hstatement, hmarks⟩ := (hshows.marked_iff n line).mp hmarked
  rw [entryPoints_tangled, List.mem_singleton] at he
  subst he
  exact ⟨Int.ofNat.inj hstatement.symm, hmarks.unique marks_tangled⟩

end Program

end QuakeC
