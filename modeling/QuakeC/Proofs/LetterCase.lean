import Mathlib.Data.List.Forall2
import QuakeC.Proofs.Blanks

/-!
# Letter case and names

What lower case does to a name, code point by code point: a name in lower case stays as it is, no
blank comes to stand at an end where there was none, no name becomes one of those that are
recognised by their upper-case form, and the case of the letters of ASCII makes no difference.

* `Text.lowerAt_cases` — what one code point becomes; the other results are read off these cases.
* `Text.points_lower` — lower case works on code points: it joins no halves of pairs.
* `Text.lower_lower` — a text in lower case stays as it is.  No lower-case form in the table of
  capital letters is itself in the table, which is checked run against run.
* `Text.trimmed_lower` — lower case makes no blanks.
* `Text.isSpelling_of_lower` — what is a spelling in lower case was one before.
* `Text.lower_asciiLower`, `Text.isSpelling_asciiLower`, `Text.trim_asciiLower` — ASCII letters in
  either case.
-/

set_option autoImplicit false

namespace QuakeC.Text

/-! ## The table of capital letters -/

/-- No lower-case form of the run `r` is a member of the run `q`: the forms lie before `q`, behind
it, or between its steps. -/
def CaseRun.avoids (r q : CaseRun) : Bool :=
  Nat.blt (r.last + r.shift).toNat q.first || Nat.blt q.last (r.first + r.shift).toNat ||
    (Nat.beq q.step 2 && (Nat.beq r.step 2 || Nat.beq r.first r.last) &&
      Nat.ble (-r.shift).toNat r.first && Nat.beq (((r.first + r.shift).toNat + q.first) % 2) 1)

theorem CaseRun.not_covers_of_avoids {r q : CaseRun} {n : Nat} (havoids : r.avoids q = true)
    (hn : r.covers n = true) : q.covers (n + r.shift).toNat = false := by
  simp only [covers, Bool.and_eq_true, decide_eq_true_eq, beq_iff_eq] at hn
  obtain ⟨⟨hfirst, hlast⟩, hstep⟩ := hn
  simp only [avoids, Bool.or_eq_true, Bool.and_eq_true, Nat.blt_eq, Nat.ble_eq, Nat.beq_eq]
    at havoids
  rcases havoids with (hbefore | hbehind) | ⟨⟨⟨hq, hr⟩, hshift⟩, hodd⟩
  · have hlt : (n + r.shift).toNat < q.first := by omega
    simp [covers, Nat.not_le.mpr hlt]
  · have hlt : q.last < (n + r.shift).toNat := by omega
    simp [covers, Nat.not_le.mpr hlt]
  · -- both runs go in steps of two and start at places of different parity
    have heven : (n - r.first) % 2 = 0 := by
      rcases hr with hr | hr
      · rwa [hr] at hstep
      · omega
    by_cases hle : q.first ≤ (n + r.shift).toNat
    · have hne : ((n + r.shift).toNat - q.first) % q.step ≠ 0 := by
        rw [hq]
        omega
      simp [covers, hne]
    · simp [covers, hle]

/-- A table of runs none of which holds a lower-case form. -/
def avoidedBy (r : CaseRun) (runs : List CaseRun) : Bool := runs.all r.avoids

theorem not_covers_of_avoidedBy {r q : CaseRun} {runs : List CaseRun} {n : Nat}
    (havoided : avoidedBy r runs = true) (hn : r.covers n = true) (hq : q ∈ runs) :
    q.covers (n + r.shift).toNat = false :=
  CaseRun.not_covers_of_avoids (List.all_eq_true.mp havoided q hq) hn

/-- The code point is its own lower-case form. -/
def IsSmall (n : Nat) : Prop := n ≠ 0x130 ∧ ∀ q ∈ capitals, q.covers n = false

instance (n : Nat) : Decidable (IsSmall n) := inferInstanceAs (Decidable (_ ∧ _))

/-- The table of capital letters holds none of its lower-case forms, nor the dotted capital I. -/
theorem capitals_avoid :
    (capitals.all fun r => avoidedBy r (⟨0x130, 0x130, 1, 0⟩ :: capitals)) = true := by
  decide +kernel

theorem isSmall_shift {r : CaseRun} (hr : r ∈ capitals) {n : Nat} (hn : r.covers n = true) :
    IsSmall (n + r.shift).toNat := by
  have havoided := List.all_eq_true.mp capitals_avoid r hr
  refine ⟨fun heq => ?_, fun q hq => not_covers_of_avoidedBy havoided hn (by simp [hq])⟩
  have hnot := not_covers_of_avoidedBy havoided hn (List.mem_cons_self ..)
  rw [heq] at hnot
  exact absurd hnot (by decide)

theorem lowerPoint_of_isSmall {n : Nat} (h : IsSmall n) : lowerPoint n = [n] := by
  have hnone : capitals.find? (·.covers n) = none :=
    List.find?_eq_none.mpr fun q hq => by simp [h.2 q hq]
  rw [lowerPoint, if_neg h.1, hnone]

/-- A capital sigma is in the table, so it is not among the code points that stay as they are. -/
theorem ne_sigma_of_isSmall {n : Nat} (h : IsSmall n) : n ≠ 0x3A3 := by
  rintro rfl
  obtain ⟨q, hq, hcovers⟩ : ∃ q ∈ capitals, q.covers 0x3A3 = true := by decide
  rw [h.2 q hq] at hcovers
  cases hcovers

/-! ## One code point between its neighbours -/

/-- The lower-case form of a code point, given those before it, the nearest one first, and behind
it. -/
def lowerAt (before : List Nat) (n : Nat) (rest : List Nat) : List Nat :=
  if n = 0x3A3 then [if meetsCased before && !meetsCased rest then 0x3C2 else 0x3C3]
  else lowerPoint n

theorem lowerFrom_cons (before : List Nat) (n : Nat) (rest : List Nat) :
    lowerFrom before (n :: rest) = lowerAt before n rest ++ lowerFrom (n :: before) rest := rfl

/-- A capital sigma has two forms, the dotted capital I becomes two code points, a capital letter of
the table is moved, and any other code point stays. -/
theorem lowerAt_cases (before : List Nat) (n : Nat) (rest : List Nat) :
    (∃ m ∈ [0x3C2, 0x3C3], lowerAt before n rest = [m]) ∨
    lowerAt before n rest = [0x69, 0x307] ∨
    (∃ r ∈ capitals, r.covers n = true ∧ lowerAt before n rest = [(n + r.shift).toNat]) ∨
    (IsSmall n ∧ lowerAt before n rest = [n]) := by
  by_cases hsigma : n = 0x3A3
  · refine .inl ⟨_, ?_, by rw [lowerAt, if_pos hsigma]⟩
    split
    · decide
    · decide
  · rw [lowerAt, if_neg hsigma, lowerPoint]
    by_cases hdotted : n = 0x130
    · exact .inr (.inl (if_pos hdotted))
    · rw [if_neg hdotted]
      cases hfind : capitals.find? (·.covers n) with
      | none =>
        refine .inr (.inr (.inr ⟨⟨hdotted, fun q hq => ?_⟩, rfl⟩))
        simpa using List.find?_eq_none.mp hfind q hq
      | some r =>
        have hcovers : r.covers n = true := by simpa using List.find?_some hfind
        exact .inr (.inr (.inl ⟨r, List.mem_of_find?_eq_some hfind, hcovers, rfl⟩))

theorem lowerAt_ne_nil (before : List Nat) (n : Nat) (rest : List Nat) :
    lowerAt before n rest ≠ [] := by
  rcases lowerAt_cases before n rest with ⟨m, -, h⟩ | h | ⟨r, -, -, h⟩ | ⟨-, h⟩ <;> simp [h]

theorem lowerFrom_eq_nil_iff {before ps : List Nat} : lowerFrom before ps = [] ↔ ps = [] := by
  cases ps with
  | nil => simp [lowerFrom]
  | cons n rest => simp [lowerFrom_cons, lowerAt_ne_nil]

theorem isSmall_of_mem_lowerFrom {before ps : List Nat} {m : Nat}
    (h : m ∈ lowerFrom before ps) : IsSmall m := by
  induction ps generalizing before with
  | nil => cases h
  | cons n rest ih =>
    rw [lowerFrom_cons, List.mem_append] at h
    rcases h with h | h
    · rcases lowerAt_cases before n rest with ⟨k, hk, hat⟩ | hat | ⟨r, hr, hcovers, hat⟩ | ⟨hn, hat⟩
      · have hforms : ∀ k ∈ [0x3C2, 0x3C3], IsSmall k := by decide +kernel
        rw [hat, List.mem_singleton] at h
        exact h ▸ hforms k hk
      · have hforms : ∀ k ∈ [0x69, 0x307], IsSmall k := by decide +kernel
        exact hforms m (hat ▸ h)
      · rw [hat, List.mem_singleton] at h
        exact h ▸ isSmall_shift hr hcovers
      · rw [hat, List.mem_singleton] at h
        exact h ▸ hn
    · exact ih h

theorem lowerFrom_of_forall_isSmall {before ps : List Nat} (h : ∀ n ∈ ps, IsSmall n) :
    lowerFrom before ps = ps := by
  induction ps generalizing before with
  | nil => rfl
  | cons n rest ih =>
    obtain ⟨hn, hrest⟩ := List.forall_mem_cons.mp h
    rw [lowerFrom_cons, lowerAt, if_neg (ne_sigma_of_isSmall hn), lowerPoint_of_isSmall hn,
      ih hrest]
    rfl

/-! ## Whole texts -/

/-- No lower-case form in the table is half of a pair or out of range. -/
theorem capitals_keep_apart :
    (capitals.all fun r => avoidedBy r [⟨0xD800, 0xDFFF, 1, 0⟩] &&
      Nat.blt (r.last + r.shift).toNat 0x110000) = true := by
  decide +kernel

/-- What a code point becomes is in range, and half of a pair only if the code point is it
itself. -/
theorem mem_lowerAt {before rest : List Nat} {n m : Nat} (hn : n < 0x110000)
    (hm : m ∈ lowerAt before n rest) : m < 0x110000 ∧ (HighPoint m ∨ LowPoint m → m = n) := by
  have hforms : ∀ k ∈ [0x3C2, 0x3C3, 0x69, 0x307], k < 0xD800 := by decide
  have hsmall : m < 0xD800 → m < 0x110000 ∧ (HighPoint m ∨ LowPoint m → m = n) := by
    unfold HighPoint LowPoint
    omega
  rcases lowerAt_cases before n rest with ⟨k, hk, h⟩ | h | ⟨r, hr, hcovers, h⟩ | ⟨-, h⟩
  · rw [h, List.mem_singleton] at hm
    exact hsmall (hm ▸ hforms k (List.mem_append_left [0x69, 0x307] hk))
  · exact hsmall (hforms m (List.mem_append_right [0x3C2, 0x3C3] (h ▸ hm)))
  · rw [h, List.mem_singleton] at hm
    have happart := List.all_eq_true.mp capitals_keep_apart r hr
    rw [Bool.and_eq_true, Nat.blt_eq] at happart
    have hnot := not_covers_of_avoidedBy happart.1 hcovers (List.mem_singleton_self _)
    simp only [CaseRun.covers, Bool.and_eq_true, decide_eq_true_eq] at hcovers
    simp only [CaseRun.covers, ← hm, Nat.mod_one, beq_self_eq_true, Bool.and_true,
      Bool.and_eq_false_iff, decide_eq_false_iff_not] at hnot
    unfold HighPoint LowPoint
    omega
  · rw [h, List.mem_singleton] at hm
    rw [hm]
    exact ⟨hn, fun _ => rfl⟩

/-- A text in lower case starts with the second half of a pair only if the text does. -/
theorem head_lowerFrom {before ps : List Nat} (h : ∀ n ∈ ps, n < 0x110000) :
    ∀ m ∈ (lowerFrom before ps).head?, LowPoint m → m ∈ ps.head? := by
  intro m hm hlow
  cases ps with
  | nil => cases hm
  | cons n rest =>
    rw [lowerFrom_cons, List.head?_append, Option.mem_def, Option.or_eq_some_iff] at hm
    rcases hm with hm | ⟨hnone, -⟩
    · rw [(mem_lowerAt (h n (by simp)) (List.mem_of_head? hm)).2 (.inr hlow)]
      rfl
    · exact absurd (List.head?_eq_none_iff.mp hnone) (lowerAt_ne_nil _ _ _)

/-- **Lower case joins no halves of pairs.** -/
theorem separated_lowerFrom {before ps : List Nat} (h : Separated ps) :
    Separated (lowerFrom before ps) := by
  induction ps generalizing before with
  | nil => exact ⟨nofun, .nil⟩
  | cons n rest ih =>
    obtain ⟨hn, hlt⟩ := List.forall_mem_cons.mp h.lt
    obtain ⟨hnext, hchain⟩ := List.isChain_cons.mp h.isChain
    have hrest : Separated (lowerFrom (n :: before) rest) := ih ⟨hlt, hchain⟩
    have hat : (lowerAt before n rest).IsChain fun m k => ¬ (HighPoint m ∧ LowPoint k) := by
      rcases lowerAt_cases before n rest with ⟨m, -, h⟩ | h | ⟨r, -, -, h⟩ | ⟨-, h⟩
      · exact h ▸ .singleton _
      · rw [h]
        refine List.isChain_pair.mpr fun hpair => absurd hpair.2 ?_
        unfold LowPoint
        decide
      · exact h ▸ .singleton _
      · exact h ▸ .singleton _
    rw [lowerFrom_cons]
    refine ⟨List.forall_mem_append.mpr ⟨fun m hm => (mem_lowerAt hn hm).1, hrest.lt⟩, ?_⟩
    refine List.isChain_append.mpr ⟨hat, hrest.isChain, ?_⟩
    rintro m hm k hk ⟨hhigh, hlow⟩
    have hm := (mem_lowerAt hn (List.mem_of_getLast? hm)).2 (.inl hhigh)
    exact hnext k (head_lowerFrom hlt k hk hlow) ⟨hm ▸ hhigh, hlow⟩

/-- **The code points of a text in lower case.** -/
theorem points_lower (t : Text) : points (lower t) = lowerFrom [] (points t) :=
  points_ofPoints (separated_lowerFrom (separated_points t))

/-- **A text in lower case stays as it is.** -/
theorem lower_lower (t : Text) : lower (lower t) = lower t := by
  have hsmall : lowerFrom [] (lowerFrom [] (points t)) = lowerFrom [] (points t) :=
    lowerFrom_of_forall_isSmall fun n hn => isSmall_of_mem_lowerFrom hn
  rw [lower, points_lower, hsmall, lower]

theorem pointUnits_ne_nil (n : Nat) : pointUnits n ≠ [] := by
  unfold pointUnits
  split <;> simp

theorem ofPoints_eq_nil_iff {ps : List Nat} : ofPoints ps = [] ↔ ps = [] := by
  cases ps with
  | nil => simp [ofPoints]
  | cons n ps => simp [ofPoints, pointUnits_ne_nil]

theorem lower_eq_nil_iff {t : Text} : lower t = [] ↔ t = [] := by
  rw [lower, ofPoints_eq_nil_iff, lowerFrom_eq_nil_iff, ← ofPoints_eq_nil_iff, ofPoints_points]

/-! ## Blanks -/

theorem isBlank_eq_false_of_le {n : Nat} (h : 0xD800 ≤ n ∧ n ≠ 0xFEFF) : isBlank n = false := by
  simp only [isBlank, Bool.or_eq_false_iff, Bool.and_eq_false_iff, decide_eq_false_iff_not,
    beq_eq_false_iff_ne]
  omega

/-- The first and the last unit of a code point are blank when the code point is. -/
theorem isBlankUnit_pointUnits {n : Nat} (h : n < 0x110000) :
    (∃ u, (pointUnits n).head? = some u ∧ isBlankUnit u = isBlank n) ∧
      ∃ u, (pointUnits n).getLast? = some u ∧ isBlankUnit u = isBlank n := by
  by_cases hsmall : n < 0x10000
  · have hunit : isBlankUnit (UInt16.ofNat n) = isBlank n := by
      rw [isBlankUnit, toNat_ofNat_of_lt hsmall]
    rw [pointUnits, if_pos hsmall]
    exact ⟨⟨_, rfl, hunit⟩, ⟨_, rfl, hunit⟩⟩
  · obtain ⟨u, v, hunits, hu, hv, -⟩ := pointUnits_of_le (by omega) h
    rw [isHigh_iff, HighPoint] at hu
    rw [isLow_iff, LowPoint] at hv
    have hn : isBlank n = false := isBlank_eq_false_of_le (by omega)
    have hu' : isBlank u.toNat = false := isBlank_eq_false_of_le (by omega)
    have hv' : isBlank v.toNat = false := isBlank_eq_false_of_le (by omega)
    rw [hunits, hn]
    exact ⟨⟨u, rfl, hu'⟩, ⟨v, rfl, hv'⟩⟩

/-- **Whether blanks stand at the ends of a text shows in its code points.** -/
theorem trimmed_ofPoints_iff {ps : List Nat} (h : ∀ n ∈ ps, n < 0x110000) :
    Trimmed (ofPoints ps) ↔
      (∀ n ∈ ps.head?, isBlank n = false) ∧ ∀ n ∈ ps.getLast?, isBlank n = false := by
  have hhead : (∀ u ∈ (ofPoints ps).head?, isBlankUnit u = false) ↔
      ∀ n ∈ ps.head?, isBlank n = false := by
    cases ps with
    | nil => simp [ofPoints]
    | cons n ps =>
      obtain ⟨u, hu, hblank⟩ := (isBlankUnit_pointUnits (h n (by simp))).1
      simp [ofPoints, hu, hblank]
  have hlast : (∀ u ∈ (ofPoints ps).getLast?, isBlankUnit u = false) ↔
      ∀ n ∈ ps.getLast?, isBlank n = false := by
    rcases List.eq_nil_or_concat ps with rfl | ⟨ps, n, rfl⟩
    · simp [ofPoints]
    · obtain ⟨u, hu, hblank⟩ := (isBlankUnit_pointUnits (h n (by simp))).2
      simp [ofPoints, hu, hblank]
  exact ⟨fun ht => ⟨hhead.mp ht.head, hlast.mp ht.last⟩,
    fun hn => ⟨hhead.mpr hn.1, hlast.mpr hn.2⟩⟩

/-- The blank code points, in runs. -/
def blankRuns : List CaseRun :=
  [⟨0x9, 0xD, 1, 0⟩, ⟨0x20, 0x20, 1, 0⟩, ⟨0xA0, 0xA0, 1, 0⟩, ⟨0x1680, 0x1680, 1, 0⟩,
    ⟨0x2000, 0x200A, 1, 0⟩, ⟨0x2028, 0x2029, 1, 0⟩, ⟨0x202F, 0x202F, 1, 0⟩,
    ⟨0x205F, 0x205F, 1, 0⟩, ⟨0x3000, 0x3000, 1, 0⟩, ⟨0xFEFF, 0xFEFF, 1, 0⟩]

theorem exists_covers_of_isBlank {n : Nat} (h : isBlank n = true) :
    ∃ q ∈ blankRuns, q.covers n = true := by
  simp only [isBlank, Bool.or_eq_true, Bool.and_eq_true, decide_eq_true_eq, beq_iff_eq] at h
  simp only [blankRuns, CaseRun.covers, List.exists_mem_cons_iff, Bool.and_eq_true,
    decide_eq_true_eq, beq_iff_eq, Nat.mod_one, and_true]
  omega

/-- No lower-case form in the table is a blank. -/
theorem capitals_avoid_blanks : (capitals.all (avoidedBy · blankRuns)) = true := by
  decide +kernel

theorem isBlank_of_mem_lowerAt {before rest : List Nat} {n m : Nat} (hn : isBlank n = false)
    (hm : m ∈ lowerAt before n rest) : isBlank m = false := by
  rcases lowerAt_cases before n rest with ⟨k, hk, h⟩ | h | ⟨r, hr, hcovers, h⟩ | ⟨-, h⟩
  · have hforms : ∀ k ∈ [0x3C2, 0x3C3], isBlank k = false := by decide
    rw [h, List.mem_singleton] at hm
    rw [hm, hforms k hk]
  · have hforms : ∀ k ∈ [0x69, 0x307], isBlank k = false := by decide
    exact hforms m (h ▸ hm)
  · rw [h, List.mem_singleton] at hm
    rw [← Bool.not_eq_true]
    intro hblank
    obtain ⟨q, hq, hcovered⟩ := exists_covers_of_isBlank hblank
    rw [hm, not_covers_of_avoidedBy (List.all_eq_true.mp capitals_avoid_blanks r hr) hcovers hq]
      at hcovered
    cases hcovered
  · rw [h, List.mem_singleton] at hm
    rw [hm, hn]

/-- The first code point of a text in lower case comes from the first of the text. -/
theorem isBlank_head_lowerFrom {before ps : List Nat}
    (h : ∀ n ∈ ps.head?, isBlank n = false) :
    ∀ m ∈ (lowerFrom before ps).head?, isBlank m = false := by
  intro m hm
  cases ps with
  | nil => cases hm
  | cons n rest =>
    rw [lowerFrom_cons, List.head?_append, Option.mem_def, Option.or_eq_some_iff] at hm
    rcases hm with hm | ⟨hnone, -⟩
    · exact isBlank_of_mem_lowerAt (h n rfl) (List.mem_of_head? hm)
    · exact absurd (List.head?_eq_none_iff.mp hnone) (lowerAt_ne_nil _ _ _)

/-- The last code point of a text in lower case comes from the last of the text. -/
theorem isBlank_last_lowerFrom {before ps : List Nat}
    (h : ∀ n ∈ ps.getLast?, isBlank n = false) :
    ∀ m ∈ (lowerFrom before ps).getLast?, isBlank m = false := by
  induction ps generalizing before with
  | nil => nofun
  | cons n rest ih =>
    intro m hm
    rw [lowerFrom_cons, List.getLast?_append] at hm
    by_cases hrest : rest = []
    · subst hrest
      exact isBlank_of_mem_lowerAt (h n rfl) (List.mem_of_getLast? hm)
    · have hlast : (lowerFrom (n :: before) rest).getLast? = some m := by
        cases hlower : (lowerFrom (n :: before) rest).getLast? with
        | none => exact absurd (lowerFrom_eq_nil_iff.mp (List.getLast?_eq_none_iff.mp hlower)) hrest
        | some m' => rwa [hlower] at hm
      apply ih _ m hlast
      intro k hk
      apply h k
      rw [List.getLast?_cons, Option.mem_def.mp hk]
      rfl

/-- **Lower case makes no blanks at the ends.** -/
theorem trimmed_lower {t : Text} (h : Trimmed t) : Trimmed (lower t) := by
  rw [← ofPoints_points t, trimmed_ofPoints_iff (separated_points t).lt] at h
  rw [lower, trimmed_ofPoints_iff (separated_lowerFrom (separated_points t)).lt]
  exact ⟨isBlank_head_lowerFrom h.1, isBlank_last_lowerFrom h.2⟩

/-! ## The letters of ASCII -/

/-- The code points of the capital letters of ASCII. -/
def asciiCapitals : CaseRun := ⟨0x41, 0x5A, 1, 32⟩

/-- The lower-case form of a letter of ASCII; any other code point stays. -/
def lowerLetter (n : Nat) : Nat := if 0x41 ≤ n ∧ n ≤ 0x5A then n + 32 else n

def lowerLetterUnit (u : UInt16) : UInt16 := UInt16.ofNat (lowerLetter u.toNat)

/-- The text with the letters of ASCII, and no others, in lower case. -/
def asciiLower (t : Text) : Text := t.map lowerLetterUnit

/-- What is the same for the 26 pairs of letters does not tell the cases apart. -/
theorem apply_lowerLetter {β : Type} {f : Nat → β} (h : ∀ k < 26, f (97 + k) = f (65 + k))
    (n : Nat) : f (lowerLetter n) = f n := by
  unfold lowerLetter
  split
  · have hletter := h (n - 65) (by omega)
    rwa [show 97 + (n - 65) = n + 32 by omega, show 65 + (n - 65) = n by omega] at hletter
  · rfl

theorem toNat_lowerLetterUnit (u : UInt16) : (lowerLetterUnit u).toNat = lowerLetter u.toNat := by
  have hlt := toNat_lt u
  rw [lowerLetterUnit, toNat_ofNat_of_lt]
  unfold lowerLetter
  split <;> omega

theorem lowerLetter_of_le {n : Nat} (h : 0x5A < n) : lowerLetter n = n :=
  if_neg (by omega)

theorem lowerLetterUnit_of_le {u : UInt16} (h : 0x5A < u.toNat) : lowerLetterUnit u = u := by
  rw [lowerLetterUnit, lowerLetter_of_le h, UInt16.ofNat_toNat]

/-- The halves of pairs are no letters of ASCII. -/
theorem points_asciiLower (t : Text) : points (asciiLower t) = (points t).map lowerLetter := by
  fun_induction points t with
  | case1 => rfl
  | case2 u => simp [asciiLower, points, toNat_lowerLetterUnit]
  | case3 u v rest hpair ih =>
    rw [Bool.and_eq_true] at hpair
    have hlarge := (pairPoint_bounds hpair.1 hpair.2).1
    obtain ⟨hu, hv⟩ := And.intro (isHigh_iff.mp hpair.1) (isLow_iff.mp hpair.2)
    unfold HighPoint at hu
    unfold LowPoint at hv
    have hunits : asciiLower (u :: v :: rest) = u :: v :: asciiLower rest := by
      rw [asciiLower, List.map_cons, List.map_cons, lowerLetterUnit_of_le (by omega),
        lowerLetterUnit_of_le (by omega), asciiLower]
    rw [hunits, points_pair hpair.1 hpair.2, ih, List.map_cons, lowerLetter_of_le (by omega)]
  | case4 u v rest hpair ih =>
    rw [Bool.and_eq_true, isHigh_iff, isLow_iff, HighPoint, LowPoint] at hpair
    have hnopair : ∀ w ∈ (asciiLower (v :: rest)).head?,
        ¬ (HighPoint (lowerLetterUnit u).toNat ∧ LowPoint w.toNat) := by
      rintro w hw ⟨hhigh, hlow⟩
      obtain rfl : lowerLetterUnit v = w := Option.some.inj hw
      rw [toNat_lowerLetterUnit] at hhigh hlow
      unfold HighPoint lowerLetter at hhigh
      unfold LowPoint lowerLetter at hlow
      split at hhigh <;> split at hlow <;> omega
    rw [List.map_cons, ← ih, ← toNat_lowerLetterUnit]
    exact points_cons hnopair

theorem isBlankUnit_lowerLetterUnit (u : UInt16) :
    isBlankUnit (lowerLetterUnit u) = isBlankUnit u := by
  rw [isBlankUnit, toNat_lowerLetterUnit]
  exact apply_lowerLetter (by decide) u.toNat

theorem lowerPoint_lowerLetter (n : Nat) : lowerPoint (lowerLetter n) = lowerPoint n :=
  apply_lowerLetter (by decide +kernel) n

theorem isCased_lowerLetter (n : Nat) : inRanges cased (lowerLetter n) = inRanges cased n :=
  apply_lowerLetter (by decide +kernel) n

/-- The code points that are passed over are no letters of ASCII. -/
theorem caseIgnorable_misses_letters :
    (caseIgnorable.all fun r => decide (r.2 < 0x41) || decide (0x7A < r.1) ||
      (decide (0x5A < r.1) && decide (r.2 < 0x61))) = true := by
  decide +kernel

theorem isIgnorable_letter {n : Nat} (h : 0x41 ≤ n ∧ n ≤ 0x5A ∨ 0x61 ≤ n ∧ n ≤ 0x7A) :
    inRanges caseIgnorable n = false := by
  rw [inRanges, List.any_eq_false]
  intro r hr
  have hmisses := List.all_eq_true.mp caseIgnorable_misses_letters r hr
  simp only [Bool.or_eq_true, Bool.and_eq_true, decide_eq_true_eq] at hmisses ⊢
  omega

theorem isIgnorable_lowerLetter (n : Nat) :
    inRanges caseIgnorable (lowerLetter n) = inRanges caseIgnorable n := by
  apply apply_lowerLetter
  intro k hk
  rw [isIgnorable_letter (by omega), isIgnorable_letter (by omega)]

theorem isSigma_lowerLetter (n : Nat) : lowerLetter n = 0x3A3 ↔ n = 0x3A3 :=
  decide_eq_decide.mp (apply_lowerLetter (f := fun n => decide (n = 0x3A3)) (by decide) n)

theorem isCapitalOf_lowerLetter (capital n : Nat) :
    isCapitalOf capital (lowerLetter n) = isCapitalOf capital n := by
  have hupper : upperAscii (lowerLetter n) = upperAscii n := apply_lowerLetter (by decide) n
  have hdotless : (lowerLetter n == 0x131) = (n == 0x131) :=
    apply_lowerLetter (f := fun n => n == 0x131) (by decide) n
  have hlong : (lowerLetter n == 0x17F) = (n == 0x17F) :=
    apply_lowerLetter (f := fun n => n == 0x17F) (by decide) n
  rw [isCapitalOf, hupper, hdotless, hlong, isCapitalOf]

theorem meetsCased_map_lowerLetter (ps : List Nat) :
    meetsCased (ps.map lowerLetter) = meetsCased ps := by
  have hignorable : inRanges caseIgnorable ∘ lowerLetter = inRanges caseIgnorable :=
    funext isIgnorable_lowerLetter
  rw [meetsCased, List.dropWhile_map, hignorable, meetsCased]
  cases ps.dropWhile (inRanges caseIgnorable) with
  | nil => rfl
  | cons n rest => exact isCased_lowerLetter n

theorem lowerFrom_map_lowerLetter (before ps : List Nat) :
    lowerFrom (before.map lowerLetter) (ps.map lowerLetter) = lowerFrom before ps := by
  induction ps generalizing before with
  | nil => rfl
  | cons n rest ih =>
    have hrest := ih (n :: before)
    rw [List.map_cons] at hrest ⊢
    rw [lowerFrom_cons, lowerFrom_cons, hrest, lowerAt, lowerAt, meetsCased_map_lowerLetter,
      meetsCased_map_lowerLetter, lowerPoint_lowerLetter]
    simp only [isSigma_lowerLetter]

/-- **Lower case does not depend on the case of the letters of ASCII**, also where it looks at the
neighbours of a sigma. -/
theorem lower_asciiLower (t : Text) : lower (asciiLower t) = lower t := by
  rw [lower, points_asciiLower]
  exact congrArg ofPoints (lowerFrom_map_lowerLetter [] (points t))

theorem trim_asciiLower (t : Text) : trim (asciiLower t) = asciiLower (trim t) := by
  have hblank : isBlankUnit ∘ lowerLetterUnit = isBlankUnit := funext isBlankUnit_lowerLetterUnit
  simp only [trim, asciiLower, List.dropWhile_map, hblank, ← List.map_reverse]

theorem asciiLower_eq_nil_iff {t : Text} : asciiLower t = [] ↔ t = [] := List.map_eq_nil_iff

/-! ## Names that are recognised by their upper-case form -/

/-- Each unit of the word is the capital form of a code point. -/
def Spells (word : Text) (ps : List Nat) : Prop :=
  List.Forall₂ (fun capital n => isCapitalOf capital.toNat n = true) word ps

theorem isSpelling_iff {word t : Text} :
    isSpelling word t = true ↔ Spells word (t.map UInt16.toNat) := by
  rw [isSpelling, Bool.and_eq_true, beq_iff_eq, List.all_eq_true, Spells,
    List.forall₂_map_right_iff, List.forall₂_iff_zip]
  exact and_congr_right' ⟨fun h capital u hmem => h (capital, u) hmem, fun h p hp => h hp⟩

theorem isSpelling_asciiLower (word t : Text) :
    isSpelling word (asciiLower t) = isSpelling word t := by
  have hunit : UInt16.toNat ∘ lowerLetterUnit = lowerLetter ∘ UInt16.toNat :=
    funext toNat_lowerLetterUnit
  rw [Bool.eq_iff_iff, isSpelling_iff, isSpelling_iff, asciiLower, List.map_map, hunit,
    ← List.map_map, Spells, Spells, List.forall₂_map_right_iff]
  simp only [isCapitalOf_lowerLetter]

/-- The letters and digits of the names that are recognised by their upper-case form. -/
def spelled : Text := "ASCIILATIN1UTF8"

/-- The code points that may have the capital as their upper-case form. -/
def sources (capital : Nat) : List Nat := [capital, capital + 32, 0x131, 0x17F]

theorem mem_sources {capital n : Nat} (h : isCapitalOf capital n = true) : n ∈ sources capital := by
  simp only [isCapitalOf, upperAscii, Bool.or_eq_true, Bool.and_eq_true, beq_iff_eq] at h
  simp only [sources, List.mem_cons, List.not_mem_nil, or_false]
  split at h <;> omega

theorem lt_of_isCapitalOf {capital : UInt16} {n : Nat} (hspelled : capital ∈ spelled)
    (h : isCapitalOf capital.toNat n = true) : n < 0x180 := by
  have hcapitals : (spelled.all fun capital =>
      (sources capital.toNat).all fun n => decide (n < 0x180)) = true := by decide +kernel
  have hsources := List.all_eq_true.mp hcapitals capital hspelled
  exact of_decide_eq_true (List.all_eq_true.mp hsources n (mem_sources h))

/-- **Whether a text is a spelling shows in its code points.** -/
theorem spells_ofPoints_iff {word : Text} {ps : List Nat} (hspelled : ∀ c ∈ word, c ∈ spelled)
    (h : ∀ n ∈ ps, n < 0x110000) :
    Spells word ((ofPoints ps).map UInt16.toNat) ↔ Spells word ps := by
  induction ps generalizing word with
  | nil => exact Iff.rfl
  | cons n ps ih =>
    obtain ⟨hn, hps⟩ := List.forall_mem_cons.mp h
    by_cases hsmall : n < 0x10000
    · rw [ofPoints, List.flatMap_cons, pointUnits, if_pos hsmall, List.singleton_append,
        List.map_cons, toNat_ofNat_of_lt hsmall, Spells, Spells, List.forall₂_cons_right_iff,
        List.forall₂_cons_right_iff]
      refine exists_congr fun capital => exists_congr fun others => and_congr_right fun _ => ?_
      refine and_congr_left fun hword => ih (fun c hc => hspelled c ?_) hps
      rw [hword]
      exact List.mem_cons_of_mem _ hc
    · -- neither the code point nor the first half of its pair can be spelled
      obtain ⟨u, v, hunits, hu, -⟩ := pointUnits_of_le (by omega) hn
      rw [isHigh_iff, HighPoint] at hu
      have hnot : ∀ m, 0x180 ≤ m → ∀ ms, ¬ Spells word (m :: ms) := by
        intro m hm ms hspells
        obtain ⟨capital, others, hcapital, -, rfl⟩ := List.forall₂_cons_right_iff.mp hspells
        have hlt := lt_of_isCapitalOf (hspelled capital (by simp)) hcapital
        omega
      rw [ofPoints, List.flatMap_cons, hunits]
      exact iff_of_false (hnot _ (by omega) _) (hnot _ (by omega) _)

/-- Apart from the capital letters of ASCII, no code point has a lower-case form that is spelled. -/
theorem capitals_avoid_spelled :
    (capitals.all fun r => decide (r = asciiCapitals) ||
      spelled.all fun capital => (sources capital.toNat).all fun n => r.avoids ⟨n, n, 1, 0⟩) =
      true := by
  decide +kernel

/-- The code point in lower case is the second of the two forms of a letter of ASCII. -/
theorem add_shift_asciiCapitals {n : Nat} (h : asciiCapitals.covers n = true) :
    (n + asciiCapitals.shift).toNat = lowerLetter n := by
  rw [CaseRun.covers, Bool.and_eq_true, Bool.and_eq_true, decide_eq_true_eq, decide_eq_true_eq] at h
  have hletter : 0x41 ≤ n ∧ n ≤ 0x5A := h.1
  rw [lowerLetter, if_pos hletter, show asciiCapitals.shift = 32 from rfl]
  omega

/-- A code point that is spelled in lower case is spelled before. -/
theorem isCapitalOf_of_lowerAt {before rest : List Nat} {capital : UInt16} {n m : Nat}
    (hspelled : capital ∈ spelled) (hm : lowerAt before n rest = [m])
    (h : isCapitalOf capital.toNat m = true) : isCapitalOf capital.toNat n = true := by
  rcases lowerAt_cases before n rest with ⟨k, hk, heq⟩ | heq | ⟨r, hr, hcovers, heq⟩ | ⟨-, heq⟩
  · have hforms : ∀ k ∈ [0x3C2, 0x3C3], 0x180 ≤ k := by decide
    obtain rfl : k = m := List.singleton_inj.mp (heq.symm.trans hm)
    exact absurd (lt_of_isCapitalOf hspelled h) (Nat.not_lt.mpr (hforms k hk))
  · cases heq.symm.trans hm
  · obtain rfl : (n + r.shift).toNat = m := List.singleton_inj.mp (heq.symm.trans hm)
    have hr := List.all_eq_true.mp capitals_avoid_spelled r hr
    rw [Bool.or_eq_true, decide_eq_true_eq] at hr
    rcases hr with rfl | havoids
    · rwa [add_shift_asciiCapitals hcovers, isCapitalOf_lowerLetter] at h
    · have havoids := List.all_eq_true.mp (List.all_eq_true.mp havoids capital hspelled) _
        (mem_sources h)
      have hnot := CaseRun.not_covers_of_avoids havoids hcovers
      simp [CaseRun.covers] at hnot
  · obtain rfl : n = m := List.singleton_inj.mp (heq.symm.trans hm)
    exact h

theorem spells_of_lowerFrom {word : Text} {before ps : List Nat}
    (hspelled : ∀ capital ∈ word, capital ∈ spelled) (h : Spells word (lowerFrom before ps)) :
    Spells word ps := by
  induction ps generalizing word before with
  | nil => exact h
  | cons n rest ih =>
    rw [lowerFrom_cons] at h
    by_cases hsingle : ∃ m, lowerAt before n rest = [m]
    · obtain ⟨m, hm⟩ := hsingle
      rw [hm, List.singleton_append, Spells, List.forall₂_cons_right_iff] at h
      obtain ⟨capital, others, hcapital, hothers, rfl⟩ := h
      obtain ⟨hfirst, hrest⟩ := List.forall_mem_cons.mp hspelled
      exact .cons (isCapitalOf_of_lowerAt hfirst hm hcapital) (ih hrest hothers)
    · -- the combining dot behind a small i is no part of any spelling
      have hdotted : lowerAt before n rest = [0x69, 0x307] := by
        rcases lowerAt_cases before n rest with ⟨m, -, heq⟩ | heq | ⟨r, -, -, heq⟩ | ⟨-, heq⟩
        · exact absurd ⟨_, heq⟩ hsingle
        · exact heq
        · exact absurd ⟨_, heq⟩ hsingle
        · exact absurd ⟨_, heq⟩ hsingle
      rw [hdotted, List.cons_append, Spells, List.forall₂_cons_right_iff] at h
      obtain ⟨first, others, -, hothers, rfl⟩ := h
      rw [List.singleton_append, List.forall₂_cons_right_iff] at hothers
      obtain ⟨second, others, hsecond, -, rfl⟩ := hothers
      exact absurd (lt_of_isCapitalOf (hspelled second (by simp)) hsecond) (by decide)

/-- **What is spelled in lower case was spelled before.** -/
theorem isSpelling_of_lower {word t : Text} (hspelled : ∀ capital ∈ word, capital ∈ spelled)
    (h : isSpelling word (lower t) = true) : isSpelling word t = true := by
  rw [isSpelling_iff, lower, spells_ofPoints_iff hspelled
    (separated_lowerFrom (separated_points t)).lt] at h
  rw [isSpelling_iff, ← ofPoints_points t, spells_ofPoints_iff hspelled (separated_points t).lt]
  exact spells_of_lowerFrom hspelled h

end QuakeC.Text
