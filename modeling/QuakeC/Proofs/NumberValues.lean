import Mathlib
import QuakeC.Numeric.Number

/-!
# The values of numbers

A number that is neither NaN nor infinite stands for a rational number: an integer for itself, a
double for `m * 2 ^ q` with its sign.  What the library asks of numbers is computed from their
fields in integer arithmetic; here it is said of their values.

* `Number.toInt?_eq_some_iff` — a number counts as an integer exactly when its value is one.
* `Number.word_eq` — the word of a number is its value without the fraction, modulo `2 ^ 32`, and
  zero for a number without a value.
-/

set_option autoImplicit false

namespace QuakeC

/-- The integer that is left of a rational number when its fraction is dropped. -/
def towardZero (v : ℚ) : ℤ := if v < 0 then -⌊-v⌋ else ⌊v⌋

theorem towardZero_of_nonneg {v : ℚ} (h : 0 ≤ v) : towardZero v = ⌊v⌋ := by
  rw [towardZero, if_neg (not_lt.mpr h)]

theorem towardZero_neg_of_nonneg {v : ℚ} (h : 0 ≤ v) : towardZero (-v) = -⌊v⌋ := by
  rcases h.eq_or_lt with rfl | hpos
  · simp [towardZero]
  · rw [towardZero, if_pos (by simpa using hpos), neg_neg]

/-- The 32-bit word of a value: without its fraction and modulo `2 ^ 32`; zero if there is none. -/
def wordOfValue (v : Option ℚ) : ℕ := ((v.map towardZero).getD 0 % 2 ^ 32).toNat

/-- A value that is a word already stays as it is. -/
theorem wordOfValue_natCast {n : ℕ} (h : n < 2 ^ 32) : wordOfValue (some (n : ℚ)) = n := by
  have htrunc : towardZero n = n := by
    rw [towardZero_of_nonneg (Nat.cast_nonneg n), Int.floor_natCast]
  simp only [wordOfValue, Option.map_some, Option.getD_some, htrunc]
  omega

namespace Double

variable (x : Double)

/-- The rational number that a double stands for; NaN and the infinities stand for none. -/
def value? : Option ℚ :=
  match x.magnitude with
  | .finite m q => some (if x.isNegative then -(m * 2 ^ q) else m * 2 ^ q)
  | .nan | .infinite => none

/-- The magnitude as a fraction, one of whose parts carries the power of two. -/
theorem mul_zpow_eq_div (m : ℕ) (q : ℤ) :
    (m : ℚ) * 2 ^ q = (m * Nat.pow 2 q.toNat : ℕ) / (Nat.pow 2 (-q).toNat : ℕ) := by
  have hq : q = (q.toNat : ℤ) - ((-q).toNat : ℤ) := by omega
  have htwo : (2 : ℚ) ≠ 0 := by norm_num
  calc (m : ℚ) * 2 ^ q
      = m * (2 ^ q.toNat / 2 ^ (-q).toNat) := by
        conv_lhs => rw [hq]
        rw [zpow_sub₀ htwo, zpow_natCast, zpow_natCast]
    _ = _ := by
        rw [← mul_div_assoc]
        simp

/-- **The integer between a double and zero that is nearest to it** is its value without the
fraction. -/
theorem truncate?_eq : x.truncate? = x.value?.map towardZero := by
  cases hmag : x.magnitude with
  | nan | infinite => simp only [truncate?, value?, hmag, Option.map_none]
  | finite m q =>
    simp only [truncate?, value?, hmag, Option.map_some, mul_zpow_eq_div]
    generalize m * Nat.pow 2 q.toNat = a
    generalize Nat.pow 2 (-q).toNat = b
    have hnonneg : (0 : ℚ) ≤ a / b := by positivity
    cases hneg : x.isNegative with
    | true =>
      simp only [withSign, hneg, ↓reduceIte, towardZero_neg_of_nonneg hnonneg,
        Rat.floor_natCast_div_natCast, Int.natCast_ediv]
    | false =>
      simp only [withSign, hneg, Bool.false_eq_true, ↓reduceIte, towardZero_of_nonneg hnonneg,
        Rat.floor_natCast_div_natCast, Int.natCast_ediv]

/-- A fraction is an integer exactly when nothing remains of the division. -/
theorem div_eq_intCast_iff {a b : ℕ} (hb : 0 < b) {n : ℤ} :
    (a : ℚ) / b = n ↔ a % b = 0 ∧ ((a / b : ℕ) : ℤ) = n := by
  have hb' : (b : ℚ) ≠ 0 := by positivity
  rw [div_eq_iff hb']
  constructor
  · intro h
    have hmul : (a : ℤ) = n * b := by exact_mod_cast h
    have hdvd : b ∣ a := Int.natCast_dvd_natCast.mp (Dvd.intro_left n hmul.symm)
    refine ⟨Nat.mod_eq_zero_of_dvd hdvd, ?_⟩
    rw [Int.natCast_ediv, hmul, Int.mul_ediv_cancel _ (by omega)]
  · rintro ⟨hmod, rfl⟩
    have hmul : a / b * b = a := Nat.div_mul_cancel (Nat.dvd_of_mod_eq_zero hmod)
    exact_mod_cast hmul.symm

/-- **The integer equal to a double** is its value, if that is one. -/
theorem toInt?_eq_some_iff {n : ℤ} : x.toInt? = some n ↔ x.value? = some (n : ℚ) := by
  cases hmag : x.magnitude with
  | nan | infinite => simp only [toInt?, value?, hmag, reduceCtorEq]
  | finite m q =>
    simp only [toInt?, value?, hmag, mul_zpow_eq_div]
    have hb : 0 < Nat.pow 2 (-q).toNat := Nat.two_pow_pos _
    generalize m * Nat.pow 2 q.toNat = a
    generalize Nat.pow 2 (-q).toNat = b at hb
    cases hneg : x.isNegative with
    | true =>
      have hsign : -((a : ℚ) / b) = n ↔ (a : ℚ) / b = (-n : ℤ) := by
        push_cast
        exact neg_eq_iff_eq_neg
      simp only [withSign, hneg, ↓reduceIte, Option.some.injEq, hsign, div_eq_intCast_iff hb]
      split
      · simp only [Option.some.injEq]
        omega
      · simp_all
    | false =>
      simp only [withSign, hneg, Bool.false_eq_true, ↓reduceIte, Option.some.injEq,
        div_eq_intCast_iff hb]
      split
      · simp_all
      · simp_all

end Double

namespace Number

/-- The rational number that a number stands for. -/
def value? : Number → Option ℚ
  | .int n => some n
  | .double x => x.value?

theorem toInt?_eq_some_iff {x : Number} {n : ℤ} : x.toInt? = some n ↔ x.value? = some (n : ℚ) := by
  cases x with
  | int m => simp only [toInt?, value?, Option.some.injEq, Int.cast_inj]
  | double x => exact x.toInt?_eq_some_iff

/-- The natural numbers among the integers. -/
theorem toInt?_eq_natCast_iff {x : Number} {n : ℕ} :
    x.toInt? = some (n : ℤ) ↔ x.value? = some (n : ℚ) := by
  rw [toInt?_eq_some_iff, Int.cast_natCast]

/-- A number is one natural number only. -/
theorem eq_of_value? {x : Number} {m n : ℕ} (hm : x.value? = some (m : ℚ))
    (hn : x.value? = some (n : ℚ)) : m = n := by
  exact_mod_cast Option.some.inj (hm.symm.trans hn)

theorem truncate?_eq (x : Number) : x.truncate? = x.value?.map towardZero := by
  cases x with
  | int n =>
    have htrunc : towardZero n = n := by
      unfold towardZero
      split
      · rw [← Int.cast_neg, Int.floor_intCast, neg_neg]
      · exact Int.floor_intCast n
    simp only [truncate?, value?, Option.map_some, htrunc]
  | double x => exact x.truncate?_eq

/-- **The word of a number** is its value without the fraction, modulo `2 ^ 32`. -/
theorem word_eq (x : Number) : x.word = wordOfValue x.value? := by
  rw [word, truncate?_eq, wordOfValue]
  norm_num

end Number

end QuakeC
