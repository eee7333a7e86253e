import Mathlib.Data.List.Chain
import QuakeC.Text.Case

/-!
# Units and code points

A text and its code points determine each other.  Reading the code points of a text and writing them
again gives the text; writing code points and reading them again gives the code points, as long as
no half of a pair is followed by its other half.

* `Separated` — code points in range of which no two neighbours would make a pair.
* `ofPoints_points`, `points_ofPoints`, `separated_points` — the two directions.
* `ofString_injective` — strings are texts of a kind, since they hold no halves of pairs.
* `ofString_eq_map` — strings of the first plane have a unit for each character.
-/

set_option autoImplicit false

namespace QuakeC.Text

/-! ## Halves of pairs -/

/-- A code point in the range of the first halves. -/
def HighPoint (n : Nat) : Prop := 0xD800 ≤ n ∧ n ≤ 0xDBFF

/-- A code point in the range of the second halves. -/
def LowPoint (n : Nat) : Prop := 0xDC00 ≤ n ∧ n ≤ 0xDFFF

theorem isHigh_iff {u : UInt16} : isHigh u = true ↔ HighPoint u.toNat := by
  rw [isHigh, Bool.and_eq_true, decide_eq_true_eq, decide_eq_true_eq, HighPoint]

theorem isLow_iff {u : UInt16} : isLow u = true ↔ LowPoint u.toNat := by
  rw [isLow, Bool.and_eq_true, decide_eq_true_eq, decide_eq_true_eq, LowPoint]

theorem toNat_ofNat_of_lt {n : Nat} (h : n < 0x10000) : (UInt16.ofNat n).toNat = n := by
  rw [UInt16.toNat_ofNat']
  exact Nat.mod_eq_of_lt h

theorem toNat_lt (u : UInt16) : u.toNat < 0x10000 := u.toNat_lt

theorem pairPoint_bounds {u v : UInt16} (hu : isHigh u = true) (hv : isLow v = true) :
    0x10000 ≤ pairPoint u v ∧ pairPoint u v < 0x110000 := by
  rw [isHigh_iff, HighPoint] at hu
  rw [isLow_iff, LowPoint] at hv
  unfold pairPoint
  omega

theorem pointUnits_toNat (u : UInt16) : pointUnits u.toNat = [u] := by
  rw [pointUnits, if_pos (toNat_lt u), UInt16.ofNat_toNat]

/-- A pair is written as its two halves. -/
theorem pointUnits_pairPoint {u v : UInt16} (hu : isHigh u = true) (hv : isLow v = true) :
    pointUnits (pairPoint u v) = [u, v] := by
  have hlarge := (pairPoint_bounds hu hv).1
  rw [isHigh_iff, HighPoint] at hu
  rw [isLow_iff, LowPoint] at hv
  have hfirst : 0xD800 + (pairPoint u v - 0x10000) / 0x400 = u.toNat := by
    unfold pairPoint
    omega
  have hsecond : 0xDC00 + (pairPoint u v - 0x10000) % 0x400 = v.toNat := by
    unfold pairPoint
    omega
  rw [pointUnits, if_neg (by omega), hfirst, hsecond, UInt16.ofNat_toNat, UInt16.ofNat_toNat]

/-- A code point beyond the first plane is written as a pair that stands for it. -/
theorem pointUnits_of_le {n : Nat} (hlow : 0x10000 ≤ n) (hhigh : n < 0x110000) :
    ∃ u v, pointUnits n = [u, v] ∧ isHigh u = true ∧ isLow v = true ∧ pairPoint u v = n := by
  obtain ⟨first, hn⟩ : ∃ first, 0xD800 + (n - 0x10000) / 0x400 = first := ⟨_, rfl⟩
  obtain ⟨second, hn'⟩ : ∃ second, 0xDC00 + (n - 0x10000) % 0x400 = second := ⟨_, rfl⟩
  have hpair : 0x10000 + (first - 0xD800) * 0x400 + (second - 0xDC00) = n := by omega
  have hfirst : (UInt16.ofNat first).toNat = first := toNat_ofNat_of_lt (by omega)
  have hsecond : (UInt16.ofNat second).toNat = second := toNat_ofNat_of_lt (by omega)
  refine ⟨UInt16.ofNat first, UInt16.ofNat second, ?_, ?_, ?_, ?_⟩
  · rw [pointUnits, if_neg (by omega), hn, hn']
  · rw [isHigh_iff, HighPoint, hfirst]
    omega
  · rw [isLow_iff, LowPoint, hsecond]
    omega
  · unfold pairPoint
    rw [hfirst, hsecond]
    exact hpair

/-! ## From units to code points and back -/

theorem points_pair {u v : UInt16} (hu : isHigh u = true) (hv : isLow v = true) (t : Text) :
    points (u :: v :: t) = pairPoint u v :: points t := by
  rw [points, hu, hv, Bool.and_self, if_pos rfl]

/-- A unit that makes no pair with the next is a code point by itself. -/
theorem points_cons {u : UInt16} {t : Text}
    (h : ∀ v ∈ t.head?, ¬ (HighPoint u.toNat ∧ LowPoint v.toNat)) :
    points (u :: t) = u.toNat :: points t := by
  cases t with
  | nil => rfl
  | cons v t =>
    have hpair : ¬ (isHigh u && isLow v) = true := by
      rw [Bool.and_eq_true, isHigh_iff, isLow_iff]
      exact h v rfl
    rw [points, if_neg hpair]

/-- The first code point of a text is its first unit or lies beyond the first plane. -/
theorem head_points {v : UInt16} {t : Text} :
    ∀ n ∈ (points (v :: t)).head?, n = v.toNat ∨ 0x10000 ≤ n := by
  intro n hn
  cases t with
  | nil => exact .inl (Option.some.inj hn).symm
  | cons w t =>
    rw [points] at hn
    split at hn
    · rename_i hpair
      rw [Bool.and_eq_true] at hpair
      exact .inr ((pairPoint_bounds hpair.1 hpair.2).1.trans (Option.some.inj hn).le)
    · exact .inl (Option.some.inj hn).symm

/-- Code points in range of which no two neighbours are the halves of a pair. -/
structure Separated (ps : List Nat) : Prop where
  lt : ∀ n ∈ ps, n < 0x110000
  isChain : ps.IsChain fun m n => ¬ (HighPoint m ∧ LowPoint n)

/-- **The code points of a text make the text again.** -/
theorem ofPoints_points (t : Text) : ofPoints (points t) = t := by
  fun_induction points t with
  | case1 => rfl
  | case2 u => simp [ofPoints, pointUnits_toNat]
  | case3 u v rest hpair ih =>
    rw [Bool.and_eq_true] at hpair
    rw [ofPoints, List.flatMap_cons, pointUnits_pairPoint hpair.1 hpair.2]
    exact congrArg (u :: v :: ·) ih
  | case4 u v rest hpair ih =>
    rw [ofPoints, List.flatMap_cons, pointUnits_toNat]
    exact congrArg (u :: ·) ih

theorem separated_points (t : Text) : Separated (points t) := by
  fun_induction points t with
  | case1 => exact ⟨nofun, .nil⟩
  | case2 u =>
    refine ⟨fun n hn => ?_, .singleton _⟩
    have hlt := toNat_lt u
    rw [List.mem_singleton.mp hn]
    omega
  | case3 u v rest hpair ih =>
    rw [Bool.and_eq_true] at hpair
    obtain ⟨hlow, hhigh⟩ := pairPoint_bounds hpair.1 hpair.2
    refine ⟨List.forall_mem_cons.mpr ⟨hhigh, ih.lt⟩, ?_⟩
    refine List.isChain_cons.mpr ⟨fun n _ hpoints => ?_, ih.isChain⟩
    unfold HighPoint at hpoints
    omega
  | case4 u v rest hpair ih =>
    have hlt := toNat_lt u
    refine ⟨List.forall_mem_cons.mpr ⟨by omega, ih.lt⟩, ?_⟩
    refine List.isChain_cons.mpr ⟨fun n hn hpoints => ?_, ih.isChain⟩
    rcases head_points n hn with rfl | hlarge
    · rw [Bool.and_eq_true, isHigh_iff, isLow_iff] at hpair
      exact hpair hpoints
    · have hlow := hpoints.2
      unfold LowPoint at hlow
      omega

/-- The text of code points starts with the second half of a pair only if the code points do. -/
theorem head_ofPoints {ps : List Nat} (h : ∀ n ∈ ps, n < 0x110000) :
    ∀ v ∈ (ofPoints ps).head?, LowPoint v.toNat → v.toNat ∈ ps.head? := by
  intro v hv hlow
  cases ps with
  | nil => cases hv
  | cons n ps =>
    by_cases hn : n < 0x10000
    · rw [ofPoints, List.flatMap_cons, pointUnits, if_pos hn] at hv
      rw [← Option.some.inj hv, toNat_ofNat_of_lt hn]
      rfl
    · obtain ⟨u, w, hunits, hhigh, -⟩ := pointUnits_of_le (by omega) (h n (by simp))
      rw [ofPoints, List.flatMap_cons, hunits] at hv
      rw [isHigh_iff, HighPoint] at hhigh
      rw [LowPoint, ← Option.some.inj hv] at hlow
      omega

/-- **Separated code points are the code points of their text.** -/
theorem points_ofPoints {ps : List Nat} (h : Separated ps) : points (ofPoints ps) = ps := by
  induction ps with
  | nil => rfl
  | cons n ps ih =>
    obtain ⟨hn, hlt⟩ := List.forall_mem_cons.mp h.lt
    obtain ⟨hnext, hchain⟩ := List.isChain_cons.mp h.isChain
    have hrest := ih ⟨hlt, hchain⟩
    by_cases hsmall : n < 0x10000
    · have htoNat := toNat_ofNat_of_lt hsmall
      have hnopair : ∀ v ∈ (ofPoints ps).head?,
          ¬ (HighPoint (UInt16.ofNat n).toNat ∧ LowPoint v.toNat) := by
        rintro v hv ⟨hhigh, hlow⟩
        rw [htoNat] at hhigh
        exact hnext v.toNat (head_ofPoints hlt v hv hlow) ⟨hhigh, hlow⟩
      have hcons := points_cons hnopair
      rw [htoNat, hrest] at hcons
      rw [ofPoints, List.flatMap_cons, pointUnits, if_pos hsmall]
      exact hcons
    · obtain ⟨u, v, hunits, hu, hv, hpair⟩ := pointUnits_of_le (by omega) hn
      rw [ofPoints, List.flatMap_cons, hunits]
      exact (points_pair hu hv _).trans (by rw [hpair]; exact congrArg (n :: ·) hrest)

/-! ## Strings -/

theorem ofPoints_append (ps qs : List Nat) : ofPoints (ps ++ qs) = ofPoints ps ++ ofPoints qs :=
  List.flatMap_append

theorem ofString_append (s t : String) : ofString (s ++ t) = ofString s ++ ofString t := by
  rw [ofString, ofChars, String.toList_append, List.map_append, ofPoints_append]
  rfl

/-- No character is half of a pair. -/
theorem not_lowPoint_toNat (c : Char) : ¬ LowPoint c.toNat := by
  have hvalid : c.toNat < 0xD800 ∨ 0xDFFF < c.toNat ∧ c.toNat < 0x110000 := c.valid
  unfold LowPoint
  omega

theorem separated_map_toNat (cs : List Char) : Separated (cs.map Char.toNat) where
  lt n hn := by
    obtain ⟨c, -, rfl⟩ := List.mem_map.mp hn
    have hvalid : c.toNat < 0xD800 ∨ 0xDFFF < c.toNat ∧ c.toNat < 0x110000 := c.valid
    omega
  isChain := by
    rw [List.isChain_map]
    exact List.Pairwise.isChain (List.pairwise_of_forall fun _ d h => not_lowPoint_toNat d h.2)

/-- **Different strings are different texts.** -/
theorem ofString_injective {s t : String} (h : ofString s = ofString t) : s = t := by
  have hpoints := congrArg points h
  rw [ofString, ofChars, points_ofPoints (separated_map_toNat _), ofString, ofChars,
    points_ofPoints (separated_map_toNat _)] at hpoints
  have hchars : s.toList = t.toList :=
    List.map_injective_iff.mpr (fun c d hcd => Char.toNat_inj.mp hcd) hpoints
  exact String.toList_injective hchars

/-- A string of the first plane has one unit for each character. -/
theorem ofString_eq_map {s : String} (h : ∀ c ∈ s.toList, c.toNat < 0x10000) :
    ofString s = s.toList.map unit := by
  rw [ofString, ofChars, ofPoints, List.flatMap_map, ← List.flatMap_singleton' (s.toList.map unit),
    List.flatMap_map]
  apply List.flatMap_congr
  intro c hc
  rw [pointUnits, if_pos (h c hc), unit]

theorem ofString_eq_cons {s : String} {c : Char} {rest : List Char} (h : s.toList = c :: rest)
    (hc : c.toNat < 0x10000) : ofString s = unit c :: ofChars rest := by
  rw [ofString, h, ofChars, ofPoints, List.map_cons, List.flatMap_cons, pointUnits, if_pos hc]
  rfl

theorem unit_injective {c d : Char} (hc : c.toNat < 0x10000) (hd : d.toNat < 0x10000)
    (h : unit c = unit d) : c = d := by
  have htoNat := congrArg UInt16.toNat h
  rw [unit, unit, toNat_ofNat_of_lt hc, toNat_ofNat_of_lt hd] at htoNat
  exact Char.toNat_inj.mp htoNat

end QuakeC.Text
