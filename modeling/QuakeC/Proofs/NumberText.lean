import Mathlib
import QuakeC.Numeric.Number

/-!
# How the text of a number starts

The text of a double starts with a digit, with a minus sign, or with the first letter of `NaN` or
`Infinity`.  For a finite number other than zero this rests on the search for the shortest decimal:
whatever it finds has a digit other than zero, since it lies nearer to the number than zero does.

* `Decimal.Target.digits_pos_of_isReadAs`, `Decimal.Target.shortest_digits_pos` — the search finds
  no zero.
* `Decimal.text_startsWithDigit` — a decimal other than zero starts with a digit, in every notation.
* `Double.text_startsNumeral` — the first character of the text of a double.
-/

set_option autoImplicit false

namespace QuakeC

/-- The text starts with a digit. -/
def StartsWithDigit (text : List Char) : Prop := ∃ c rest, text = c :: rest ∧ c.isDigit = true

theorem StartsWithDigit.append {text : List Char} (h : StartsWithDigit text) (rest : List Char) :
    StartsWithDigit (text ++ rest) := by
  obtain ⟨c, tail, rfl, hc⟩ := h
  exact ⟨c, tail ++ rest, rfl, hc⟩

theorem StartsWithDigit.take {text : List Char} (h : StartsWithDigit text) {n : ℕ} (hn : 0 < n) :
    StartsWithDigit (text.take n) := by
  obtain ⟨c, tail, rfl, hc⟩ := h
  obtain ⟨n, rfl⟩ := Nat.exists_eq_succ_of_ne_zero hn.ne'
  exact ⟨c, tail.take n, rfl, hc⟩

namespace Decimal

namespace Target

variable {t : Target}

theorem stepScale_pos (t : Target) (e : ℤ) : 0 < t.stepScale e :=
  Nat.mul_pos (Nat.pow_pos (by decide)) (Nat.pow_pos (by decide))

/-- Zero is not read as a positive number. -/
theorem digits_pos_of_isReadAs (hm : 0 < t.m) {d : Decimal} (h : t.isReadAs d = true) :
    0 < d.digits := by
  have hlower : 0 < t.lower := by
    unfold lower
    split <;> omega
  have hlow : 0 < t.lower * t.stepScale d.exponent := Nat.mul_pos hlower (t.stepScale_pos _)
  have hpoint : 0 < d.digits * t.gridScale d.exponent := by
    unfold isReadAs at h
    dsimp only at h
    split at h
    · have := (of_decide_eq_true h).1
      omega
    · have := (of_decide_eq_true h).1
      omega
  exact Nat.pos_of_mul_pos_right hpoint

/-- What is taken from a grid reads back. -/
theorem isReadAs_of_onGrid? {e : ℤ} {d : Decimal} (h : t.onGrid? e = some d) :
    t.isReadAs d = true := by
  unfold onGrid? at h
  dsimp only at h
  split at h
  · rename_i hbelow _
    obtain rfl := Option.some.inj h
    exact hbelow
  · rename_i _ habove
    obtain rfl := Option.some.inj h
    exact habove
  · rename_i hbelow habove
    split at h
    · obtain rfl := Option.some.inj h
      exact hbelow
    · split at h
      · obtain rfl := Option.some.inj h
        exact habove
      · split at h
        · obtain rfl := Option.some.inj h
          exact hbelow
        · obtain rfl := Option.some.inj h
          exact habove
  · cases h

theorem exact_digits_pos (hm : 0 < t.m) : 0 < t.exact.digits :=
  Nat.mul_pos (Nat.mul_pos hm (Nat.pow_pos (by decide))) (Nat.pow_pos (by decide))

/-- **The shortest decimal of a positive number is not zero.** -/
theorem shortest_digits_pos (hm : 0 < t.m) : 0 < t.shortest.digits := by
  unfold shortest
  cases hfind : (List.range 17).findSome? fun k => t.onGrid? (t.pointPlace - (k + 1 : ℕ)) with
  | none => exact exact_digits_pos hm
  | some d =>
    obtain ⟨k, -, hk⟩ := List.exists_of_findSome?_eq_some hfind
    exact digits_pos_of_isReadAs hm (isReadAs_of_onGrid? hk)

end Target

/-! ## The text of a decimal -/

variable {d : Decimal}

theorem exists_ne_zero_of_digits_pos (h : 0 < d.digits) :
    ∃ c ∈ Nat.toDigits 10 d.digits, c ≠ '0' := by
  by_contra hzeros
  push Not at hzeros
  have hvalue := Nat.ofDigitChars_ten_toDigits (n := d.digits)
  rw [List.eq_replicate_of_mem hzeros] at hvalue
  simp at hvalue
  omega

/-- The significant digits of a decimal other than zero. -/
theorem significant_startsWithDigit (h : 0 < d.digits) : StartsWithDigit d.significant := by
  obtain ⟨c, hmem, hne⟩ := exists_ne_zero_of_digits_pos h
  have hkept : d.significant ≠ [] := by
    unfold significant
    rw [Ne, List.reverse_eq_nil_iff, List.dropWhile_eq_nil_iff]
    intro hzeros
    exact hne (by simpa using hzeros c (List.mem_reverse.mpr hmem))
  obtain ⟨first, rest, hcons⟩ := List.exists_cons_of_ne_nil hkept
  refine ⟨first, rest, hcons, ?_⟩
  have hfirst : first ∈ d.significant := hcons ▸ List.mem_cons_self
  have hdigit : first ∈ Nat.toDigits 10 d.digits :=
    List.mem_reverse.mp ((List.dropWhile_suffix _).subset (List.mem_reverse.mp hfirst))
  exact Nat.isDigit_of_mem_toDigits (by decide) (by decide) hdigit

/-- **A decimal other than zero starts with a digit**, in every notation. -/
theorem text_startsWithDigit (h : 0 < d.digits) : StartsWithDigit d.text.toList := by
  have hdigits := significant_startsWithDigit h
  unfold text
  dsimp only
  split
  · rename_i hplace
    split
    · rw [String.toList_ofList]
      exact hdigits.append _
    · rw [String.toList_ofList]
      exact (hdigits.take (by omega)).append _
  · split
    · rw [String.toList_ofList]
      exact ⟨'0', _, rfl, by decide⟩
    · rw [String.toList_append, String.toList_append, String.toList_ofList]
      exact (((hdigits.take (by decide)).append _).append _).append _

end Decimal

/-! ## The text of a double -/

/-- The characters with which the text of a number starts. -/
def startsNumeral (c : Char) : Bool := c.isDigit || c == '-' || c == 'N' || c == 'I'

/-- **The first character of the text of a double.** -/
theorem Double.text_startsNumeral (x : Double) :
    ∃ c rest, x.text.toList = c :: rest ∧ startsNumeral c = true := by
  unfold text
  dsimp only
  split
  · exact ⟨'N', _, rfl, by decide⟩
  · split
    · exact ⟨'-', _, rfl, by decide⟩
    · exact ⟨'I', _, rfl, by decide⟩
  · rename_i m q hmag
    split
    · exact ⟨'0', _, rfl, by decide⟩
    · rename_i hm
      have htarget : 0 < (Decimal.Target.of m q).m := Nat.pos_of_ne_zero hm
      obtain ⟨c, rest, htext, hc⟩ :=
        Decimal.text_startsWithDigit (Decimal.Target.shortest_digits_pos htarget)
      rw [String.toList_append, htext]
      split
      · exact ⟨'-', _, rfl, by decide⟩
      · exact ⟨c, rest, rfl, by simp [startsNumeral, hc]⟩

end QuakeC
