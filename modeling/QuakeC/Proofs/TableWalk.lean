import QuakeC.Proofs.StringEntries

/-!
# The walk through a string table

A listing can be made by walking: look up the string at the current offset like any other string,
write its line, and go on behind the zero byte that ends it.  The walk ends at the end of the table,
is the listing, and passes over every byte of the table once.

* `StringTable.walk`, `StringTable.listing_eq_walk` — the walk, and that it makes the listing.
* `StringTable.entriesFrom_of_lt` — one step of the walk.
* `StringTable.intercalate_entriesFrom` — the strings that a walk finds, joined by zero bytes, are
  the bytes it has passed.
* `StringTable.listing_covers_table` — what a listing consists of.
-/

set_option autoImplicit false

namespace QuakeC

/-! ## The next zero byte -/

namespace Bytes

variable (bytes : Bytes)

theorem le_zeroFrom {i : Nat} (h : i ≤ bytes.size) : i ≤ bytes.zeroFrom i := by
  rw [zeroFrom_eq bytes h]
  omega

/-- Where the search stops before the end, it has found a zero byte. -/
theorem getElem?_zeroFrom {i : Nat} (h : bytes.zeroFrom i < bytes.size) :
    bytes[bytes.zeroFrom i]? = some 0 := by
  fun_induction zeroFrom bytes i with
  | case1 i hi hzero => simp [hi, hzero]
  | case2 i hi hne ih => exact ih h
  | case3 i hi => omega

theorem drop_zeroFrom {i : Nat} (h : bytes.zeroFrom i < bytes.size) :
    bytes.toList.drop (bytes.zeroFrom i) = 0 :: bytes.toList.drop (bytes.zeroFrom i + 1) := by
  have hzero := getElem?_zeroFrom bytes h
  rw [← Array.getElem?_toList] at hzero
  obtain ⟨hlt, hget⟩ := List.getElem?_eq_some_iff.mp hzero
  rw [List.drop_eq_getElem_cons hlt, hget]

end Bytes

namespace StringTable

/-- One string of a listing: the offset at which it starts, its bytes and its text. -/
structure Listed where
  start : Nat
  segment : List UInt8
  text : Text

/-- The line of a string. -/
def Listed.line (s : Listed) : Text := s!"{s.start}\t" ++ s.text

variable (t : StringTable) (lib : CharsetLibrary)

/-- The strings from `start` on, found one after the other. -/
def walk (start : Nat) : Except Error (List Listed) :=
  if start < t.length then do
    let text ← t.resolve lib (.int start)
    let rest ← walk (t.bytes.zeroFrom start + 1)
    return ⟨start, t.run start, text⟩ :: rest
  else return []
termination_by t.length - start
decreasing_by
  have hle := Bytes.le_zeroFrom t.bytes (i := start) (by simp only [length] at *; omega)
  omega

/-! ## One step -/

theorem zeroFrom_eq_add_length_run {i : Nat} (h : i ≤ t.length) :
    t.bytes.zeroFrom i = i + (t.run i).length := by
  rw [run_eq_takeWhile, Bytes.zeroFrom_eq t.bytes h]

theorem zero_notMem_run (i : Nat) : 0 ∉ t.run i := by
  intro hmem
  rw [run_eq_takeWhile] at hmem
  have hall := List.all_eq_true.mp List.all_takeWhile 0 hmem
  simp at hall

theorem drop_eq_nil {i : Nat} (h : t.length ≤ i) : t.bytes.toList.drop i = [] :=
  List.drop_of_length_le (by simpa [length] using h)

/-- The bytes from an offset on are the string there and what stands from its end on. -/
theorem drop_eq_run_append {i : Nat} (h : i ≤ t.length) :
    t.bytes.toList.drop i = t.run i ++ t.bytes.toList.drop (t.bytes.zeroFrom i) := by
  have hprefix : t.run i <+: t.bytes.toList.drop i := by
    rw [run_eq_takeWhile]
    exact List.takeWhile_prefix _
  rw [t.zeroFrom_eq_add_length_run h, ← List.drop_drop]
  exact (List.prefix_iff_eq_append.mp hprefix).symm

/-- The strings of the rest of the table from `start` on. -/
def entriesFrom (start : Nat) : List (Nat × List UInt8) :=
  (placed start (Text.splitWhere (· == 0) (t.bytes.toList.drop start))).filter fun entry =>
    decide (entry.1 < t.length)

theorem entriesFrom_zero : t.entriesFrom 0 = t.entries := rfl

theorem entriesFrom_of_le {start : Nat} (h : t.length ≤ start) : t.entriesFrom start = [] := by
  rw [entriesFrom, t.drop_eq_nil h, Text.splitWhere_nil, placed, placed,
    List.filter_cons_of_neg (by simpa using h), List.filter_nil]

/-- **One step of the walk**: the string at its place, and the strings behind the zero byte that
ends it. -/
theorem entriesFrom_of_lt {start : Nat} (h : start < t.length) :
    t.entriesFrom start = (start, t.run start) :: t.entriesFrom (t.bytes.zeroFrom start + 1) := by
  have hrun : ∀ b ∈ t.run start, (b == 0) = false := by
    intro b hb
    have hne : b ≠ 0 := fun hzero => t.zero_notMem_run start (hzero ▸ hb)
    simpa using hne
  rw [entriesFrom, t.drop_eq_run_append (Nat.le_of_lt h), Text.splitWhere_eq_splitOnP]
  by_cases hzero : t.bytes.zeroFrom start < t.length
  · rw [Bytes.drop_zeroFrom t.bytes hzero, List.splitOnP_append_cons _ _ (by decide),
      List.splitOnP_eq_singleton hrun, List.singleton_append, placed,
      List.filter_cons_of_pos (by simpa using h), ← t.zeroFrom_eq_add_length_run (Nat.le_of_lt h),
      entriesFrom, Text.splitWhere_eq_splitOnP]
  · rw [t.drop_eq_nil (by omega), List.append_nil, List.splitOnP_eq_singleton hrun, placed, placed,
      List.filter_cons_of_pos (by simpa using h), List.filter_nil,
      t.entriesFrom_of_le (by omega)]

/-! ## The whole walk -/

/-- The string of an entry with its text. -/
def withText (entry : Nat × List UInt8) : Except Error Listed := do
  let text ← t.decode lib entry.2
  return ⟨entry.1, entry.2, text⟩

theorem walk_eq (start : Nat) :
    t.walk lib start = (t.entriesFrom start).mapM (t.withText lib) := by
  fun_induction walk t lib start with
  | case1 start h ih =>
    rw [t.entriesFrom_of_lt h, List.mapM_cons, ih, t.resolve_natCast lib h, withText]
    cases t.decode lib (t.run start) <;> rfl
  | case2 start h =>
    rw [t.entriesFrom_of_le (by omega), List.mapM_nil]

/-- The lines of the strings are those of the listing. -/
theorem mapM_entryLine (entries : List (Nat × List UInt8)) :
    entries.mapM (t.entryLine lib) =
      (entries.mapM (t.withText lib)).map (List.map Listed.line) := by
  induction entries with
  | nil => rfl
  | cons entry entries ih =>
    rw [List.mapM_cons, List.mapM_cons, ih, entryLine, withText]
    cases t.decode lib entry.2 with
    | error e => rfl
    | ok text => cases entries.mapM (t.withText lib) <;> rfl

/-- **The walk makes the listing**, also where it fails. -/
theorem listing_eq_walk :
    t.listing lib = (t.walk lib 0).map fun strings => Text.joinLines (strings.map Listed.line) := by
  rw [listing, t.walk_eq lib, entriesFrom_zero, mapM_entryLine]
  cases t.entries.mapM (t.withText lib) <;> rfl

/-- A zero byte at the very end, which ends a string and starts none. -/
def finalZero (bytes : List UInt8) : List UInt8 := if bytes.getLast? = some 0 then [0] else []

theorem finalZero_of_notMem {bytes : List UInt8} (h : 0 ∉ bytes) : finalZero bytes = [] :=
  if_neg fun hlast => h (List.mem_of_getLast? hlast)

theorem finalZero_append_zero_cons (bytes rest : List UInt8) :
    finalZero (bytes ++ 0 :: rest) = if rest = [] then [0] else finalZero rest := by
  cases rest with
  | nil => simp [finalZero]
  | cons b rest => simp [finalZero, List.getLast?_append, List.getLast?_cons_cons]

/-- **No byte is lost and none is found twice**: the strings that stand from an offset on, joined by
zero bytes, are the bytes from there on, up to a zero byte at the very end. -/
theorem intercalate_entriesFrom (start : Nat) :
    List.intercalate [0] ((t.entriesFrom start).map Prod.snd) ++
      finalZero (t.bytes.toList.drop start) = t.bytes.toList.drop start := by
  induction start using walk.induct t with
  | case2 start h =>
    rw [t.entriesFrom_of_le (by omega), t.drop_eq_nil (by omega)]
    rfl
  | case1 start h ih =>
    rw [t.entriesFrom_of_lt h, List.map_cons, t.drop_eq_run_append (Nat.le_of_lt h)]
    by_cases hzero : t.bytes.zeroFrom start < t.length
    · rw [Bytes.drop_zeroFrom t.bytes hzero, finalZero_append_zero_cons]
      by_cases hnext : t.bytes.zeroFrom start + 1 < t.length
      · -- another string follows
        have hrest : t.bytes.toList.drop (t.bytes.zeroFrom start + 1) ≠ [] := by
          simpa [length] using hnext
        have hentries :
            (t.entriesFrom (t.bytes.zeroFrom start + 1)).map Prod.snd ≠ [] := by
          rw [t.entriesFrom_of_lt hnext]
          simp
        rw [if_neg hrest, List.intercalate_cons_of_ne_nil hentries, List.append_assoc, ih]
        simp
      · -- the zero byte is the last byte
        have hrest : t.bytes.toList.drop (t.bytes.zeroFrom start + 1) = [] :=
          t.drop_eq_nil (by omega)
        rw [t.entriesFrom_of_le (by omega), if_pos hrest, hrest]
        simp
    · -- the string runs to the end
      rw [t.entriesFrom_of_le (by omega), t.drop_eq_nil (by omega), List.append_nil,
        finalZero_of_notMem (t.zero_notMem_run start)]
      simp

/-! ## What a listing consists of -/

variable {t lib}

theorem listing_of_walk {strings : List Listed} (h : t.walk lib 0 = .ok strings) :
    t.listing lib = .ok (Text.joinLines (strings.map Listed.line)) := by
  rw [t.listing_eq_walk, h]
  rfl

theorem withText_eq_ok {entry : Nat × List UInt8} {s : Listed} (h : t.withText lib entry = .ok s) :
    entry = (s.start, s.segment) ∧ t.decode lib s.segment = .ok s.text := by
  obtain ⟨text, htext, hs⟩ := bind_eq_ok_iff.mp h
  cases hs
  exact ⟨rfl, htext⟩

/-- What a walk has found are the entries of the table with their texts. -/
theorem of_mapM_withText {entries : List (Nat × List UInt8)} {strings : List Listed}
    (h : entries.mapM (t.withText lib) = .ok strings) :
    entries = strings.map (fun s => (s.start, s.segment)) ∧
      ∀ s ∈ strings, t.decode lib s.segment = .ok s.text := by
  have hmap := mapM_eq_ok_iff.mp h
  clear h
  induction strings generalizing entries with
  | nil =>
    refine ⟨?_, nofun⟩
    simpa using hmap
  | cons s strings ih =>
    cases entries with
    | nil => cases hmap
    | cons entry entries =>
      obtain ⟨hentry, hentries⟩ := List.cons.inj hmap
      obtain ⟨rfl, htext⟩ := withText_eq_ok hentry
      obtain ⟨hrest, htexts⟩ := ih hentries
      refine ⟨?_, List.forall_mem_cons.mpr ⟨htext, htexts⟩⟩
      rw [List.map_cons, ← hrest]

variable (t lib)

/-- The strings are those of the whole table, in their order. -/
structure Covers (strings : List Listed) : Prop where
  /-- Each string starts behind the one before it. -/
  increasing : strings.Pairwise fun s s' => s.start < s'.start
  /-- A string starts at the beginning and behind each zero byte, as long as a byte is left. -/
  starts : ∀ i, (∃ s ∈ strings, s.start = i) ↔
    i < t.length ∧ (i = 0 ∨ ∃ j, i = j + 1 ∧ t.bytes[j]? = some 0)
  /-- Its bytes hold no zero byte; behind them comes one, or nothing. -/
  segment : ∀ s ∈ strings, 0 ∉ s.segment ∧
    ∃ rest, t.bytes.toList.drop s.start = s.segment ++ rest ∧ ∀ b ∈ rest.head?, b = 0
  /-- Its text is that of its bytes and what a lookup at its start gives. -/
  text : ∀ s ∈ strings, t.decode lib s.segment = .ok s.text ∧
    t.resolve lib (.int s.start) = .ok s.text
  /-- Joined by zero bytes, the strings are the table again, up to a zero byte at its end. -/
  joined : List.intercalate [0] (strings.map Listed.segment) ++ finalZero t.bytes.toList =
    t.bytes.toList

variable {t lib}

/-- Behind a string comes a zero byte or nothing. -/
theorem head?_drop_zeroFrom (i : Nat) :
    ∀ b ∈ (t.bytes.toList.drop (t.bytes.zeroFrom i)).head?, b = 0 := by
  intro b hb
  rw [List.head?_drop, Array.getElem?_toList] at hb
  by_cases hlt : t.bytes.zeroFrom i < t.bytes.size
  · rw [Bytes.getElem?_zeroFrom t.bytes hlt] at hb
    exact (Option.some.inj hb).symm
  · rw [Array.getElem?_eq_none (Nat.le_of_not_lt hlt)] at hb
    cases hb

theorem covers_of_walk {strings : List Listed} (h : t.walk lib 0 = .ok strings) :
    t.Covers lib strings := by
  rw [t.walk_eq lib, entriesFrom_zero] at h
  obtain ⟨hentries, htexts⟩ := of_mapM_withText h
  have hpairs : t.starts.map (fun i => (i, t.run i)) =
      strings.map fun s => (s.start, s.segment) := t.entries_eq ▸ hentries
  have hstarts : strings.map Listed.start = t.starts := by
    simpa [Function.comp_def] using (congrArg (List.map Prod.fst) hpairs).symm
  have hstring : ∀ s ∈ strings, s.start < t.length ∧ s.segment = t.run s.start := by
    intro s hs
    have hmem : (s.start, s.segment) ∈ t.starts.map fun i => (i, t.run i) :=
      hpairs ▸ List.mem_map_of_mem hs
    obtain ⟨i, hi, heq⟩ := List.mem_map.mp hmem
    obtain ⟨rfl, hrun⟩ := Prod.mk.inj heq
    exact ⟨(t.mem_starts.mp hi).1, hrun.symm⟩
  refine ⟨?_, ?_, ?_, ?_, ?_⟩
  · rw [← List.pairwise_map (f := Listed.start) (R := (· < ·)), hstarts]
    exact List.pairwise_lt_range.filter _
  · intro i
    have hmem : (∃ s ∈ strings, s.start = i) ↔ i ∈ t.starts := by
      rw [← hstarts, List.mem_map]
    rw [hmem, t.mem_starts]
    cases i with
    | zero => simp
    | succ i => simp
  · intro s hs
    obtain ⟨hlt, hsegment⟩ := hstring s hs
    rw [hsegment]
    exact ⟨t.zero_notMem_run s.start, _, t.drop_eq_run_append (Nat.le_of_lt hlt),
      head?_drop_zeroFrom s.start⟩
  · intro s hs
    obtain ⟨hlt, hsegment⟩ := hstring s hs
    refine ⟨htexts s hs, ?_⟩
    rw [t.resolve_natCast lib hlt, ← hsegment, htexts s hs]
  · have hjoined := t.intercalate_entriesFrom 0
    rw [entriesFrom_zero, hentries, List.map_map, List.drop_zero] at hjoined
    exact hjoined

/-- With a charset that decodes everything the walk comes to its end. -/
theorem Total.exists_walk (ht : t.Total lib) : ∃ strings, t.walk lib 0 = .ok strings := by
  rw [t.walk_eq lib]
  exact ht.exists_ok (.mapM (fun _ => (t.decode_failsOnly lib _).bind fun _ => .pure _) _)

/-- **A listing goes through the whole table.**  With a charset that decodes everything, whichever
library it is from, the walk from the beginning comes to its end without a refused lookup, the
listing is made of the lines of the strings that it has found, and these make up the table: their
starts increase and are all the starts there are, their bytes reach from one zero byte to the next,
and joined by zero bytes they are the table. -/
theorem listing_covers_table (lib : CharsetLibrary) (t : StringTable) (ht : t.Total lib) :
    ∃ strings, t.walk lib 0 = .ok strings ∧
      t.listing lib = .ok (Text.joinLines (strings.map Listed.line)) ∧ t.Covers lib strings := by
  obtain ⟨strings, hwalk⟩ := ht.exists_walk
  exact ⟨strings, hwalk, listing_of_walk hwalk, covers_of_walk hwalk⟩

/-- Six bytes with two zero bytes side by side and one at the end. -/
def adjacentZeros : StringTable := ⟨#[109, 0, 0, 112, 113, 0], "ascii"⟩

/-- A string starts behind each of the first two zero bytes and none behind the last. -/
theorem listing_covers_adjacentZeros :
    adjacentZeros.Total .standard ∧ ∃ strings : List Listed,
      adjacentZeros.listing .standard = .ok (Text.joinLines (strings.map Listed.line)) ∧
      (∃ s ∈ strings, s.start = 2) ∧ (∃ s ∈ strings, s.start = 3) ∧
      (¬ ∃ s ∈ strings, s.start = 6) ∧
      List.intercalate [0] (strings.map Listed.segment) = [109, 0, 0, 112, 113] := by
  have hkey : Charset.ofKey? (Charset.lookupKey adjacentZeros.charsetName) = some .ascii := by
    decide +kernel
  have htotal : adjacentZeros.Total .standard := (total_iff_of_ofKey? hkey).mpr (by decide)
  obtain ⟨strings, -, hlisting, hcovers⟩ :=
    listing_covers_table .standard adjacentZeros htotal
  refine ⟨htotal, strings, hlisting, ?_, ?_, ?_, ?_⟩
  · exact (hcovers.starts 2).mpr ⟨by decide, .inr ⟨1, rfl, by decide⟩⟩
  · exact (hcovers.starts 3).mpr ⟨by decide, .inr ⟨2, rfl, by decide⟩⟩
  · exact fun h => absurd ((hcovers.starts 6).mp h).1 (by decide)
  · exact List.append_cancel_right hcovers.joined

end StringTable

end QuakeC
