import QuakeC.Proofs.FieldRuns
import QuakeC.Proofs.LoadTrace

/-!
# When a read is refused

A read is refused when the place where it would end does not lie inside the bytes.  What a refused
read reports as available is counted from the place where it starts and is never negative.  The two
agree with one exception: behind the end, even a read of no bytes is refused, with nothing needed
and nothing available.

* `Cursor.not_fits_iff` — which reads do not fit.
* `Reader.truncates_bytes_iff`, `Reader.truncates_fields_iff` — which reads are refused.
* `Error.FallsShort` — a short read with fewer bytes available than needed; `Stage.fallsShort_or` —
  what a stage of a load reports is one, unless it reads an empty lump of bytes behind the end.
* `Reader.refused_iff_too_few_or_past_end` — reads and loads together.
-/

set_option autoImplicit false

namespace QuakeC

variable {α : Type}

/-! ## Single reads -/

namespace Cursor

/-- The cursor moved to a position. -/
def movedTo (c : Cursor) (position : Int) : Cursor := { c with position }

/-- The cursor stands behind the end of its bytes. -/
def PastEnd (c : Cursor) : Prop := (c.bytes.size : Int) < c.position

theorem pastEnd_movedTo_iff {c : Cursor} {p : Nat} : (c.movedTo p).PastEnd ↔ c.bytes.size < p :=
  Int.ofNat_lt

/-- What does not fit is more than remains, or nothing at all behind the end. -/
theorem not_fits_iff {c : Cursor} (h : 0 ≤ c.position) (n : Nat) :
    ¬ c.fits n = true ↔ c.remaining < n ∨ (n = 0 ∧ c.PastEnd) := by
  rw [fits_iff, remaining, PastEnd]
  omega

end Cursor

namespace Reader

/-- The reader ends with the report of a short read. -/
def Truncates (read : Reader α) (c : Cursor) : Prop :=
  ∃ region position needed available c',
    read.run c = .error (.truncated region position needed available) c'

variable {c : Cursor}

theorem truncates_bytes_iff (h : 0 ≤ c.position) (n : Nat) :
    (bytes n).Truncates c ↔ c.remaining < n ∨ (n = 0 ∧ c.PastEnd) := by
  rw [← Cursor.not_fits_iff h]
  constructor
  · rintro ⟨_, _, _, _, _, hrun⟩ hfits
    obtain ⟨chunk, hok, -⟩ := run_bytes_of_fits hfits
    cases hok.symm.trans hrun
  · intro hfits
    exact ⟨_, _, _, _, _, run_bytes_of_not_fits hfits⟩

theorem truncates_fields_iff (h : 0 ≤ c.position) (kinds : List FieldKind) :
    (fields kinds).Truncates c ↔
      c.remaining < FieldKind.totalSize kinds ∨
        (FieldKind.totalSize kinds = 0 ∧ c.PastEnd) := by
  rw [← Cursor.not_fits_iff h]
  constructor
  · rintro ⟨_, _, _, _, _, hrun⟩ hfits
    cases (run_fields_of_fits hfits).symm.trans hrun
  · intro hfits
    exact ⟨_, _, _, _, _, run_fields_of_not_fits hfits⟩

end Reader

/-! ## Reports of short reads -/

/-- If the error reports a short read, then it reports fewer bytes than were needed. -/
def Error.FallsShort : Error → Prop
  | .truncated _ _ needed available => available < needed
  | _ => True

/-- A record that is not there is reported with too few bytes, since some are read first. -/
theorem RecordFormat.failure_fallsShort {f : RecordFormat α} (hhead : 0 < f.head)
    (hfault : ∀ c region p, (f.fault c region p).FallsShort) (image : Bytes) (region : String)
    (p : Nat) : (f.failure image region p).FallsShort := by
  unfold failure
  split
  · exact hfault _ _ _
  · split
    · simp only [Error.FallsShort]
      omega
    · simp only [Error.FallsShort]
      omega

namespace Stage

variable {lib : CharsetLibrary} {image : Bytes} {option environment : Option Text} {s : Stage}
  {e : Error}

/-- The lump is one of the two that are read as bytes, holds none, and lies behind the end. -/
def EmptyPastEnd (image : Bytes) (name : LumpName) : Prop :=
  (name = .strings ∨ name = .globals) ∧ (image.lump name).count = 0 ∧
    image.size < (image.lump name).offset

theorem bytesShortfall_fallsShort_or {name : LumpName} (hbytes : name = .strings ∨ name = .globals)
    (h : ¬ (image.lump name).offset + (image.lump name).count ≤ image.size) :
    (bytesShortfall image name.label (image.lump name)).FallsShort ∨
      (EmptyPastEnd image name ∧ bytesShortfall image name.label (image.lump name) =
        .truncated name.label (image.lump name).offset 0 0) := by
  by_cases hcount : (image.lump name).count = 0
  · have hpast : image.size < (image.lump name).offset := by omega
    have havailable : max 0 ((image.size : Int) - (image.lump name).offset) = 0 := by omega
    refine .inr ⟨⟨hbytes, hcount, hpast⟩, ?_⟩
    rw [bytesShortfall, hcount, havailable]
    rfl
  · left
    simp only [bytesShortfall, Error.FallsShort]
    omega

/-- **A stage that cannot be decoded reports too few bytes**, if it reports a short read, or it
reads a lump of no bytes behind the end. -/
theorem fallsShort_or (h : ¬ s.Decodes lib image option environment)
    (he : s.Reports image option environment e) :
    e.FallsShort ∨ ∃ name, EmptyPastEnd image name ∧
      e = .truncated name.label (image.lump name).offset 0 0 := by
  cases s with
  | header =>
    obtain rfl := he
    left
    simp only [Error.FallsShort]
    omega
  | strings =>
    obtain rfl := he
    exact (bytesShortfall_fallsShort_or (.inl rfl) h).imp_right fun hempty => ⟨.strings, hempty⟩
  | globals =>
    obtain rfl := he
    exact (bytesShortfall_fallsShort_or (.inr rfl) h).imp_right fun hempty => ⟨.globals, hempty⟩
  | charset =>
    obtain rfl := he
    exact .inl trivial
  | functions | statements | globalDefs | fieldDefs =>
    -- a record is only read if there is one, and then its first read is of some bytes
    obtain ⟨i, -, -, -, rfl⟩ := he
    refine .inl (RecordFormat.failure_fallsShort ?_ ?_ image _ _)
    · decide
    · exact fun _ _ _ => trivial

/-- A stage of which the lump is empty can be decoded unless the lump is one of bytes that lies
behind the end: no record is read of any other. -/
theorem emptyPastEnd_of_not_decodes {name : LumpName} (hname : s.lump? = some name)
    (hcount : (image.lump name).count = 0) (h : ¬ s.Decodes lib image option environment) :
    EmptyPastEnd image name := by
  have hpast : ¬ (image.lump name).offset + (image.lump name).count ≤ image.size →
      image.size < (image.lump name).offset := by omega
  cases s with
  | header | charset => cases hname
  | strings =>
    cases hname
    exact ⟨.inl rfl, hcount, hpast h⟩
  | globals =>
    cases hname
    exact ⟨.inr rfl, hcount, hpast h⟩
  | functions | statements | globalDefs | fieldDefs =>
    cases hname
    refine absurd ?_ h
    intro i hi
    omega

end Stage

namespace Reader

/-- **A read is refused when too few bytes remain, and behind the end.**  A read of `n` bytes, or of
fields of `n` bytes in all, from a position that is not negative is refused exactly when fewer than
`n` bytes remain or `n` is zero and the position lies behind the end.  So every short read that a
load reports has fewer bytes available than needed, unless it is one of no bytes for the strings or
the globals; and an empty lump makes a load fail only if it is one of these two and lies behind the
end, where neither of them, empty or not, ever lets a load succeed. -/
theorem refused_iff_too_few_or_past_end (lib : CharsetLibrary) (c : Cursor) (p : Nat)
    (image : Bytes) (option environment : Option Text) :
    (∀ n : Nat, (do seek p; bytes n).Truncates c ↔
      (c.movedTo p).remaining < n ∨ (n = 0 ∧ c.bytes.size < p)) ∧
    (∀ kinds, (do seek p; fields kinds).Truncates c ↔
      (c.movedTo p).remaining < FieldKind.totalSize kinds ∨
        (FieldKind.totalSize kinds = 0 ∧ c.bytes.size < p)) ∧
    (∀ region position needed available,
      (Program.load lib image option environment).1 =
        .error (.truncated region position needed available) →
      available < needed ∨ (needed = 0 ∧ available = 0 ∧ image.size < position ∧
        (region = "strings" ∨ region = "globals"))) ∧
    (∀ e s name, (Program.load lib image option environment).1 = .error e →
      e.stage? = some s → s.lump? = some name → (image.lump name).count = 0 →
        (name = .strings ∨ name = .globals) ∧ image.size < (image.lump name).offset) ∧
    ∀ name, (name = .strings ∨ name = .globals) → image.size < (image.lump name).offset →
      ∃ e, (Program.load lib image option environment).1 = .error e := by
  refine ⟨?_, ?_, ?_, ?_, ?_⟩
  · intro n
    rw [← Cursor.pastEnd_movedTo_iff, ← truncates_bytes_iff (Int.natCast_nonneg p) n]
    exact Iff.rfl
  · intro kinds
    rw [← Cursor.pastEnd_movedTo_iff, ← truncates_fields_iff (Int.natCast_nonneg p) kinds]
    exact Iff.rfl
  · intro region position needed available hload
    obtain ⟨s, hfirst, hreports⟩ := Program.load_eq_error_iff.mp hload
    rcases Stage.fallsShort_or hfirst.2 hreports with hshort | ⟨name, ⟨hname, -, hpast⟩, heq⟩
    · exact .inl hshort
    · obtain ⟨rfl, rfl, rfl, rfl⟩ := Error.truncated.inj heq
      refine .inr ⟨rfl, rfl, Int.ofNat_lt.mpr hpast, ?_⟩
      rcases hname with rfl | rfl
      · exact .inl rfl
      · exact .inr rfl
  · intro e s name hload hstage hname hcount
    obtain ⟨s', hfirst, hreports⟩ := Program.load_eq_error_iff.mp hload
    obtain rfl : s' = s := Option.some.inj ((Stage.stage?_of_reports hreports).symm.trans hstage)
    obtain ⟨hbytes, -, hpast⟩ := Stage.emptyPastEnd_of_not_decodes hname hcount hfirst.2
    exact ⟨hbytes, hpast⟩
  · intro name hname hpast
    obtain ⟨p, hload⟩ | ⟨s, e, hload⟩ := Program.load_cases lib image option environment
    · obtain ⟨hdecodes, -⟩ := Program.load_eq_ok_iff.mp (congrArg Prod.fst hload)
      have hstrings := hdecodes .strings
      have hglobals := hdecodes .globals
      simp only [Stage.Decodes] at hstrings hglobals
      rcases hname with rfl | rfl
      · omega
      · omega
    · exact ⟨e, congrArg Prod.fst hload⟩

/-- A header alone, with an empty lump of strings one byte behind it. -/
def strayStrings : Bytes :=
  #[6, 0, 0, 0, 0, 0, 0, 0, 0, 0, 0, 0, 0, 0, 0, 0, 0, 0, 0, 0, 0, 0, 0, 0,
    0, 0, 0, 0, 0, 0, 0, 0, 0, 0, 0, 0, 0, 0, 0, 0, 57, 0, 0, 0, 0, 0, 0, 0,
    0, 0, 0, 0, 0, 0, 0, 0]

theorem load_strayStrings :
    (Program.load .standard strayStrings none none).1 = .error (.truncated "strings" 57 0 0) := by
  refine Program.load_eq_error_iff.mpr ⟨.strings, ⟨?_, ?_⟩, rfl⟩
  · intro t ht
    obtain rfl := List.mem_singleton.mp (show t ∈ [Stage.header] from ht)
    exact Nat.le_refl 56
  · exact (by decide : ¬ 57 + 0 ≤ 56)

/-- A read of nothing is refused behind the last byte but not at the end, and the load fails at the
empty strings, which lie behind it. -/
theorem refused_iff_too_few_or_past_end_strayStrings :
    (do seek 57; bytes 0).Truncates { bytes := strayStrings } ∧
      ¬ (do seek 56; bytes 0).Truncates { bytes := strayStrings } ∧
      (∃ e, (Program.load .standard strayStrings none none).1 = .error e) ∧
      strayStrings.size < (strayStrings.lump .strings).offset ∧
      ((0 : Int) < 0 ∨ strayStrings.size < (57 : Int)) := by
  obtain ⟨hbehind, -, hreport, hempty, hfails⟩ :=
    refused_iff_too_few_or_past_end .standard { bytes := strayStrings } 57 strayStrings none none
  obtain ⟨hend, -⟩ :=
    refused_iff_too_few_or_past_end .standard { bytes := strayStrings } 56 strayStrings none none
  refine ⟨?_, ?_, hfails .strings (.inl rfl) (by decide), ?_, ?_⟩
  · exact (hbehind 0).mpr (.inr ⟨rfl, by decide⟩)
  · exact mt (hend 0).mp (by decide)
  · exact (hempty _ .strings .strings load_strayStrings rfl rfl (by decide)).2
  · exact (hreport _ _ _ _ load_strayStrings).imp_right fun h => h.2.2.1

/-- The empty strings are reported as a short read that needs nothing. -/
theorem strayStrings_not_fallsShort :
    (strayStrings.lump .strings).count = 0 ∧
      ∃ e, (Program.load .standard strayStrings none none).1 = .error e ∧ ¬ e.FallsShort :=
  ⟨by decide, _, load_strayStrings, Int.lt_irrefl 0⟩

end Reader

end QuakeC
