import Mathlib
import QuakeC.Proofs.NumberValues
import QuakeC.Proofs.TableWalk

/-!
# Offsets into a listing

An offset may point into the middle of a string.  Under a charset of one unit per byte, what is
looked up there is the end of one string of the listing: the one that starts at the offset or
before it and does not end before it.  Every offset inside the table lies in exactly one string, if
the zero byte that ends a string counts as its last place.

* `StringTable.run_eq_drop_run` — a lookup inside a string reads the rest of it.
* `StringTable.filter_entriesFrom` — the string that an offset lies in.
* `StringTable.resolve_eq`, `StringTable.resolve_eq_badOffset` — which numbers are offsets.
* `StringTable.ReadsBytewise` — the library decodes the strings of a table byte by byte.
* `StringTable.resolve_agrees_with_listing` — lookups against the listing.
-/

set_option autoImplicit false

namespace QuakeC.StringTable

variable (t : StringTable) (lib : CharsetLibrary)

/-! ## Which numbers are offsets -/

theorem resolve_eq {o : Number} {i : ℕ} (ho : o.value? = some (i : ℚ)) (hi : i < t.length) :
    t.resolve lib o = t.decode lib (t.run i) :=
  t.resolve_of_toInt? lib (Number.toInt?_eq_natCast_iff.mpr ho) hi

/-- A number that is no offset into the table is refused as such. -/
theorem resolve_eq_badOffset {o : Number} (h : ¬ ∃ i < t.length, o.value? = some (i : ℚ)) :
    t.resolve lib o = .error (.badOffset .strings o 1 t.length) := by
  have hindex : t.index o = .error (.badOffset .strings o 1 t.length) := by
    unfold index
    split
    · rename_i n hn
      rw [if_neg]
      rintro ⟨hnonneg, hlt⟩
      obtain ⟨i, rfl⟩ := Int.eq_ofNat_of_zero_le hnonneg
      exact h ⟨i, by omega, Number.toInt?_eq_natCast_iff.mp hn⟩
    · rfl
  simp only [resolve, hindex, bind, Except.bind]

/-! ## The string that an offset lies in -/

/-- What is read inside a string, or at its end, is the rest of the string. -/
theorem run_eq_drop_run {start i : ℕ} (hstart : start ≤ i) (hi : i ≤ t.bytes.zeroFrom start)
    (hlength : start ≤ t.length) : t.run i = (t.run start).drop (i - start) := by
  have hend := t.zeroFrom_eq_add_length_run hlength
  have hdrop : t.bytes.toList.drop i =
      (t.run start).drop (i - start) ++ t.bytes.toList.drop (t.bytes.zeroFrom start) := by
    rw [← List.drop_append_of_le_length (by omega), ← t.drop_eq_run_append hlength, List.drop_drop]
    congr 1
    omega
  have hrest : (t.bytes.toList.drop (t.bytes.zeroFrom start)).takeWhile (· != 0) = [] := by
    have hhead := head?_drop_zeroFrom (t := t) start
    cases hcons : t.bytes.toList.drop (t.bytes.zeroFrom start) with
    | nil => rfl
    | cons b rest =>
      rw [hcons] at hhead
      simp [hhead b rfl]
  rw [t.run_eq_takeWhile, hdrop, List.takeWhile_append_of_pos, hrest, List.append_nil]
  intro b hb
  have hne : b ≠ 0 := fun hzero => t.zero_notMem_run start (hzero ▸ List.mem_of_mem_drop hb)
  simpa using hne

/-- The offset lies between the start of a string and the place behind its last byte. -/
def holds (i : ℕ) (entry : ℕ × List UInt8) : Bool :=
  decide (entry.1 ≤ i ∧ i ≤ entry.1 + entry.2.length)

theorem le_of_mem_entriesFrom {start : ℕ} {entry : ℕ × List UInt8}
    (h : entry ∈ t.entriesFrom start) : start ≤ entry.1 := by
  induction start using walk.induct t with
  | case2 start hle =>
    rw [t.entriesFrom_of_le (by omega)] at h
    cases h
  | case1 start hlt ih =>
    rw [t.entriesFrom_of_lt hlt, List.mem_cons] at h
    rcases h with rfl | h
    · exact le_rfl
    · have hnext := ih h
      have hle := Bytes.le_zeroFrom t.bytes (Nat.le_of_lt hlt)
      omega

/-- **Every offset from `start` on lies in exactly one of the strings from there on**, and what is
read at the offset is the rest of that string. -/
theorem filter_entriesFrom {start i : ℕ} (hstart : start ≤ i) (hi : i < t.length) :
    ∃ entry, (t.entriesFrom start).filter (holds i) = [entry] ∧
      t.run i = entry.2.drop (i - entry.1) := by
  induction start using walk.induct t with
  | case2 start hle => omega
  | case1 start hlt ih =>
    have hend := t.zeroFrom_eq_add_length_run (Nat.le_of_lt hlt)
    rw [t.entriesFrom_of_lt hlt]
    by_cases hle : i ≤ t.bytes.zeroFrom start
    · -- the strings behind this one start too late
      have hrest : (t.entriesFrom (t.bytes.zeroFrom start + 1)).filter (holds i) = [] := by
        rw [List.filter_eq_nil_iff]
        intro entry hentry
        have hlate := t.le_of_mem_entriesFrom hentry
        simp only [holds, decide_eq_true_eq]
        omega
      refine ⟨(start, t.run start), ?_, t.run_eq_drop_run hstart hle (Nat.le_of_lt hlt)⟩
      rw [List.filter_cons_of_pos, hrest]
      simp only [holds, decide_eq_true_eq]
      omega
    · rw [List.filter_cons_of_neg]
      · exact ih (by omega)
      · simp only [holds, decide_eq_true_eq]
        omega

/-- Nothing is read at an offset exactly when a zero byte stands there. -/
theorem run_eq_nil_iff {i : ℕ} (hi : i < t.length) : t.run i = [] ↔ t.bytes[i]? = some 0 := by
  have hi' : i < t.bytes.toList.length := by simpa [length] using hi
  rw [run_eq_takeWhile, List.drop_eq_getElem_cons hi', ← Array.getElem?_toList,
    List.getElem?_eq_getElem hi']
  simp [List.takeWhile_cons]

/-! ## Lookups against the listing -/

/-- The library reads each byte of the strings of the table as one unit. -/
def ReadsBytewise : Prop :=
  ∃ unit : UInt8 → UInt16, ∀ bytes, t.decode lib bytes = .ok (bytes.map unit)

/-- The offset lies between the start of a listed string and the place behind its last unit. -/
def Listed.holds (i : ℕ) (s : Listed) : Bool :=
  decide (s.start ≤ i ∧ i ≤ s.start + s.text.length)

variable {t lib}

/-- Four of the standard charsets have a unit for each byte. -/
theorem readsBytewise_standard {charset : Charset}
    (hkey : Charset.ofKey? (Charset.lookupKey t.charsetName) = some charset)
    (hcharset : charset ∈ [Charset.ascii, .latin1, .cp1252, .cp437]) :
    t.ReadsBytewise .standard := by
  have hunit : ∃ unit, charset.byteUnit? = some unit := by
    simp only [List.mem_cons, List.not_mem_nil, or_false] at hcharset
    rcases hcharset with rfl | rfl | rfl | rfl <;> exact ⟨_, rfl⟩
  obtain ⟨unit, hunit⟩ := hunit
  exact ⟨unit, decode_of_byteUnit? hkey hunit⟩

/-- The listed string that an offset lies in, and what is read there. -/
theorem filter_listed {unit : UInt8 → UInt16}
    (hunit : ∀ bytes, t.decode lib bytes = .ok (bytes.map unit)) {strings : List Listed}
    (hwalk : t.walk lib 0 = .ok strings) {i : ℕ} (hi : i < t.length) :
    ∃ s, strings.filter (Listed.holds i) = [s] ∧
      t.decode lib (t.run i) = .ok (s.text.drop (i - s.start)) := by
  rw [t.walk_eq lib] at hwalk
  obtain ⟨hentries, htexts⟩ := of_mapM_withText hwalk
  have htext : ∀ s ∈ strings, s.text = s.segment.map unit := by
    intro s hs
    have hdecode := htexts s hs
    rw [hunit] at hdecode
    exact (Except.ok.inj hdecode).symm
  obtain ⟨entry, hfilter, hrun⟩ := t.filter_entriesFrom (Nat.zero_le i) hi
  -- one unit per byte: a listed string holds the offsets that its bytes hold
  have hholds : ∀ s ∈ strings, Listed.holds i s = holds i (s.start, s.segment) := by
    intro s hs
    simp [Listed.holds, holds, htext s hs]
  rw [hentries, List.filter_map] at hfilter
  obtain ⟨s, hs, hentry⟩ := List.map_eq_singleton_iff.mp hfilter
  have hfound : strings.filter (Listed.holds i) = [s] := by
    rw [← hs]
    exact List.filter_congr hholds
  have hmem : s ∈ strings := (List.mem_filter.mp (hfound ▸ List.mem_singleton_self s)).1
  refine ⟨s, hfound, ?_⟩
  rw [hunit, hrun, ← hentry, htext s hmem, List.map_drop]

/-- **Lookups agree with the listing.**  Under a charset of one unit per byte, as four of the
standard ones are, a lookup is refused exactly when its offset is no integer inside the table.
Every other offset lies in exactly one string of the listing, from its start to the place behind its
last unit, and the lookup gives that string without the units before the offset; so it gives the
empty text exactly at the zero bytes. -/
theorem resolve_agrees_with_listing :
    (∀ (t : StringTable) (charset : Charset),
      Charset.ofKey? (Charset.lookupKey t.charsetName) = some charset →
      charset ∈ [Charset.ascii, .latin1, .cp1252, .cp437] → t.ReadsBytewise .standard) ∧
    ∀ (lib : CharsetLibrary) (t : StringTable), t.ReadsBytewise lib →
      (∀ o : Number, t.resolve lib o = .error (.badOffset .strings o 1 t.length) ↔
        ¬ ∃ i < t.length, o.value? = some (i : ℚ)) ∧
      ∃ strings, t.walk lib 0 = .ok strings ∧
        t.listing lib = .ok (Text.joinLines (strings.map Listed.line)) ∧
        ∀ (o : Number) (i : ℕ), o.value? = some (i : ℚ) → i < t.length →
          ∃ s, strings.filter (Listed.holds i) = [s] ∧
            t.resolve lib o = .ok (s.text.drop (i - s.start)) ∧
            (t.resolve lib o = .ok [] ↔ t.bytes[i]? = some 0) := by
  refine ⟨fun t charset => readsBytewise_standard, ?_⟩
  rintro lib t ⟨unit, hunit⟩
  have hok : ∀ (o : Number) (i : ℕ), o.value? = some (i : ℚ) → i < t.length →
      t.resolve lib o = .ok ((t.run i).map unit) := by
    intro o i ho hi
    rw [t.resolve_eq lib ho hi, hunit]
  have htotal : t.Total lib := fun bytes => ⟨_, hunit bytes⟩
  obtain ⟨strings, hwalk⟩ := htotal.exists_walk
  refine ⟨?_, strings, hwalk, listing_of_walk hwalk, ?_⟩
  · intro o
    refine ⟨?_, t.resolve_eq_badOffset lib⟩
    rintro herror ⟨i, hi, ho⟩
    rw [hok o i ho hi] at herror
    cases herror
  · intro o i ho hi
    obtain ⟨s, hfilter, hdecode⟩ := filter_listed hunit hwalk hi
    refine ⟨s, hfilter, ?_, ?_⟩
    · rw [t.resolve_eq lib ho hi, hdecode]
    · rw [hok o i ho hi, Except.ok.injEq, ← t.run_eq_nil_iff hi]
      simp

/-- Two strings, the second without a zero byte behind it. -/
def unterminated : StringTable := ⟨#[102, 111, 111, 0, 98, 97, 114], "ascii"⟩

/-- One and a half. -/
def oneAndHalf : Number := .double ⟨0x3FF8000000000000⟩

theorem ofKey?_unterminated :
    Charset.ofKey? (Charset.lookupKey unterminated.charsetName) = some .ascii := by
  decide +kernel

theorem walk_unterminated :
    unterminated.walk .standard 0 =
      .ok [⟨0, [102, 111, 111], "foo"⟩, ⟨4, [98, 97, 114], "bar"⟩] := by
  have hdecode := decode_of_byteUnit? ofKey?_unterminated (show _ = some Charset.asciiUnit from rfl)
  have hentries : unterminated.entries = [(0, [102, 111, 111]), (4, [98, 97, 114])] := by decide
  rw [walk_eq, entriesFrom_zero, hentries]
  simp only [List.mapM_cons, List.mapM_nil, withText, hdecode]
  rfl

/-- One and a half is no offset, and neither is the length of the table.  The offset of the zero
byte gives the empty text.  Offset 5 lies in the string `bar`, which starts at 4, and gives its
end. -/
theorem resolve_agrees_with_listing_unterminated :
    unterminated.resolve .standard oneAndHalf = .error (.badOffset .strings oneAndHalf 1 7) ∧
      unterminated.resolve .standard (.int 7) = .error (.badOffset .strings (.int 7) 1 7) ∧
      unterminated.resolve .standard (.int 3) = .ok [] ∧
      ∃ strings : List Listed,
        unterminated.listing .standard = .ok (Text.joinLines (strings.map Listed.line)) ∧
        ∃ s, strings.filter (Listed.holds 5) = [s] ∧ s.start = 4 ∧ s.text = "bar" ∧
          unterminated.resolve .standard (.int 5) = .ok "ar" := by
  obtain ⟨hbytewise, hagrees⟩ := resolve_agrees_with_listing
  obtain ⟨hrefused, strings, hwalk, hlisting, hfound⟩ := hagrees .standard unterminated
    (hbytewise unterminated .ascii ofKey?_unterminated (by decide))
  refine ⟨?_, ?_, ?_, strings, hlisting, ?_⟩
  · refine (hrefused oneAndHalf).mpr ?_
    rintro ⟨i, -, hvalue⟩
    have hint : oneAndHalf.toInt? = some (i : ℤ) :=
      Number.toInt?_eq_some_iff.mpr (by simpa using hvalue)
    have hnone : oneAndHalf.toInt? = none := by decide
    rw [hnone] at hint
    cases hint
  · refine (hrefused (.int 7)).mpr ?_
    rintro ⟨i, hi, hvalue⟩
    have hlength : unterminated.length = 7 := by decide
    have hseven : (7 : ℚ) = i := by simpa [Number.value?] using hvalue
    have hseven : 7 = i := by exact_mod_cast hseven
    omega
  · obtain ⟨-, -, -, hempty⟩ := hfound (.int 3) 3 (by simp [Number.value?]) (by decide)
    exact hempty.mpr (by decide)
  · obtain ⟨s, hs, hresolve, -⟩ := hfound (.int 5) 5 (by simp [Number.value?]) (by decide)
    obtain rfl := Except.ok.inj (hwalk.symm.trans walk_unterminated)
    obtain rfl : (⟨4, [98, 97, 114], "bar"⟩ : Listed) = s := List.singleton_inj.mp hs
    exact ⟨_, hs, rfl, rfl, hresolve⟩

end QuakeC.StringTable
