import Mathlib
import QuakeC.Proofs.NumberValues

/-!
# Single-precision numbers

A single is a 32-bit word: a sign, eight exponent bits and 23 fraction bits.  `Double.ofSingle`
gives the double with the same value, moving the fields to the places and the bias of a double; here
the value of a single is said without doubles, and the two are compared.

* `Double.exponentField_ofFields` and its companions — a pattern is made of the fields it is given.
* `Double.magnitude_ofFields`, `Double.value?_of_magnitude` — its magnitude, and the value that
  gives.
* `Double.isSingle_ofSingle` — `ofSingle` keeps sign and value; infinities and NaNs stay what they
  are.
-/

set_option autoImplicit false

namespace QuakeC.Double

/-! ## Patterns made of fields -/

variable (negative : Bool) {e f : ℕ}

theorem toNat_ofFields (he : e < 2048) (hf : f < leadingBit) :
    (ofFields negative e f).bits.toNat =
      (if negative then signBit else 0) + e * leadingBit + f := by
  unfold leadingBit at hf ⊢
  unfold signBit
  simp only [ofFields, leadingBit, signBit, UInt64.toNat_ofNat']
  split <;> omega

theorem exponentField_ofFields (he : e < 2048) (hf : f < leadingBit) :
    (ofFields negative e f).exponentField = e := by
  rw [exponentField, toNat_ofFields negative he hf]
  unfold leadingBit at hf ⊢
  unfold signBit
  split <;> omega

theorem fractionField_ofFields (he : e < 2048) (hf : f < leadingBit) :
    (ofFields negative e f).fractionField = f := by
  rw [fractionField, toNat_ofFields negative he hf]
  unfold leadingBit at hf ⊢
  unfold signBit
  split <;> omega

theorem isNegative_ofFields (he : e < 2048) (hf : f < leadingBit) :
    (ofFields negative e f).isNegative = negative := by
  rw [isNegative, toNat_ofFields negative he hf]
  unfold leadingBit at hf ⊢
  unfold signBit
  cases negative with
  | true =>
    simp only [↓reduceIte, decide_eq_true_eq]
    omega
  | false =>
    simp only [Bool.false_eq_true, ↓reduceIte, decide_eq_false_iff_not]
    omega

/-- A factor with the given sign. -/
def sign (negative : Bool) : ℚ := if negative then -1 else 1

theorem magnitude_ofFields (he : e < 2048) (hf : f < leadingBit) :
    (ofFields negative e f).magnitude =
      if e = 2047 then if f = 0 then .infinite else .nan
      else if e = 0 then .finite f (-1074)
      else .finite (leadingBit + f) ((e : ℤ) - 1075) := by
  rw [magnitude, exponentField_ofFields negative he hf, fractionField_ofFields negative he hf]

theorem magnitude_ofFields_of_normal (hpos : 0 < e) (he : e < 2047) (hf : f < leadingBit) :
    (ofFields negative e f).magnitude = .finite (leadingBit + f) ((e : ℤ) - 1075) := by
  rw [magnitude_ofFields negative (by omega) hf, if_neg (by omega), if_neg (by omega)]

/-- The value of a finite magnitude with a sign. -/
theorem value?_of_magnitude {x : Double} {m : ℕ} {q : ℤ} (h : x.magnitude = .finite m q) :
    x.value? = some (sign x.isNegative * (m * 2 ^ q)) := by
  unfold value? sign
  rw [h]
  cases x.isNegative with
  | true => simp
  | false => simp

/-! ## Singles -/

/-- The value of a single whose exponent field is not all ones: the fraction with a leading bit
before it, or the bare fraction where the exponent field is zero, times a power of two. -/
def singleValue (word : ℕ) : ℚ :=
  let exponent : ℕ := word / 0x800000 % 256
  let fraction : ℕ := word % 0x800000
  sign (decide (0x80000000 ≤ word)) *
    if exponent = 0 then (fraction : ℚ) * 2 ^ (-149 : ℤ)
    else ((0x800000 + fraction : ℕ) : ℚ) * 2 ^ ((exponent : ℤ) - 150)

/-- The double is the single-precision number with the bits of the word. -/
structure IsSingle (word : ℕ) (x : Double) : Prop where
  finite : word / 0x800000 % 256 ≠ 255 → x.value? = some (singleValue word)
  infinite : word / 0x800000 % 256 = 255 → word % 0x800000 = 0 → x.magnitude = .infinite
  nan : word / 0x800000 % 256 = 255 → word % 0x800000 ≠ 0 → x.magnitude = .nan
  /-- The sign is kept where it says anything, also that of zero. -/
  sign : x.magnitude ≠ .nan → x.isNegative = decide (0x80000000 ≤ word)

/-- A shift of the significand that the exponent makes good. -/
theorem mul_pow_mul_zpow (m k : ℕ) {q r : ℤ} (h : (k : ℤ) + q = r) :
    ((m * 2 ^ k : ℕ) : ℚ) * 2 ^ q = m * 2 ^ r := by
  rw [← h, zpow_add₀ (by norm_num), zpow_natCast]
  push_cast
  ring

/-- The significand of a normal single, moved to the place it has in a double. -/
theorem leadingBit_add_mul (f : ℕ) : leadingBit + f * 0x20000000 = (0x800000 + f) * 2 ^ 29 := by
  unfold leadingBit
  omega

/-- A subnormal single is moved until its leading bit stands at the implicit place. -/
theorem leadingBit_add_sub_mul {f : ℕ} (hpos : f ≠ 0) (hf : f < 0x800000) :
    Nat.log2 f ≤ 22 ∧
      leadingBit + (f - 2 ^ Nat.log2 f) * 2 ^ (52 - Nat.log2 f) = f * 2 ^ (52 - Nat.log2 f) ∧
      (f - 2 ^ Nat.log2 f) * 2 ^ (52 - Nat.log2 f) < leadingBit := by
  have hlow : 2 ^ Nat.log2 f ≤ f := Nat.log2_self_le hpos
  have hhigh : f < 2 ^ (Nat.log2 f + 1) := Nat.lt_log2_self
  have hlog : Nat.log2 f ≤ 22 := Nat.lt_succ_iff.mp ((Nat.log2_lt hpos).mpr hf)
  generalize Nat.log2 f = k at hlow hhigh hlog
  have hpow : 2 ^ k * 2 ^ (52 - k) = leadingBit := by
    rw [← pow_add, Nat.add_sub_cancel' (by omega)]
    rfl
  have hscale : 0 < 2 ^ (52 - k) := Nat.two_pow_pos _
  refine ⟨hlog, ?_, ?_⟩
  · rw [← hpow, ← Nat.add_mul, Nat.add_sub_cancel' hlow]
  · rw [← hpow]
    exact Nat.mul_lt_mul_of_pos_right (by rw [pow_succ] at hhigh; omega) hscale

/-- A pattern of a finite single is one of the same sign and magnitude. -/
theorem isSingle_of_magnitude {word : ℕ} {x : Double} {m : ℕ} {q : ℤ}
    (hexponent : word / 0x800000 % 256 ≠ 255) (hmag : x.magnitude = .finite m q)
    (hneg : x.isNegative = decide (0x80000000 ≤ word))
    (hvalue : (m : ℚ) * 2 ^ q = if word / 0x800000 % 256 = 0 then
        ((word % 0x800000 : ℕ) : ℚ) * 2 ^ (-149 : ℤ)
      else ((0x800000 + word % 0x800000 : ℕ) : ℚ) * 2 ^ (((word / 0x800000 % 256 : ℕ) : ℤ) - 150)) :
    IsSingle word x where
  finite _ := by
    rw [value?_of_magnitude hmag, hneg, hvalue]
    rfl
  infinite h := absurd h hexponent
  nan h := absurd h hexponent
  sign _ := hneg

/-- **The double of a single-precision word** has its sign and its value. -/
theorem isSingle_ofSingle (bits : UInt32) : IsSingle bits.toNat (ofSingle bits) := by
  unfold ofSingle
  generalize bits.toNat = word
  dsimp only
  have hleading : 0 < leadingBit := by decide
  split
  · rename_i hones
    split
    · rename_i hfraction
      exact ⟨fun h => absurd hones h, fun _ _ => magnitude_ofFields _ (by decide) hleading,
        fun _ h => absurd hfraction h, fun _ => isNegative_ofFields _ (by decide) hleading⟩
    · rename_i hfraction
      have hmag : nan.magnitude = .nan := magnitude_ofFields _ (by decide) (by decide)
      exact ⟨fun h => absurd hones h, fun _ h => absurd h hfraction, fun _ _ => hmag,
        fun h => absurd hmag h⟩
  · rename_i hones
    split
    · rename_i hexponent
      split
      · rename_i hfraction
        refine isSingle_of_magnitude hones (magnitude_ofFields _ (by decide) hleading)
          (isNegative_ofFields _ (by decide) hleading) ?_
        rw [if_pos hexponent, hfraction]
        simp
      · rename_i hfraction
        obtain ⟨hlog, hshift, hlt⟩ := leadingBit_add_sub_mul hfraction (Nat.mod_lt _ (by decide))
        refine isSingle_of_magnitude hones
          (magnitude_ofFields_of_normal _ (by omega) (by omega) hlt)
          (isNegative_ofFields _ (by omega) hlt) ?_
        rw [if_pos hexponent]
        generalize word % 0x800000 = f at hlog hshift ⊢
        rw [show leadingBit + (f - Nat.pow 2 f.log2) * Nat.pow 2 (52 - f.log2) = _ from hshift]
        exact mul_pow_mul_zpow _ _ (by omega)
    · rename_i hexponent
      have hlt : word % 0x800000 * 0x20000000 < leadingBit := by
        unfold leadingBit
        omega
      refine isSingle_of_magnitude hones
        (magnitude_ofFields_of_normal _ (by omega) (by omega) hlt)
        (isNegative_ofFields _ (by omega) hlt) ?_
      rw [if_neg hexponent, leadingBit_add_mul]
      exact mul_pow_mul_zpow _ 29 (by push_cast; ring)

end QuakeC.Double
