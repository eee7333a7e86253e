import Mathlib.Data.List.Forall2
import QuakeC.Proofs.TextUnits

/-!
# Reading quoted text

Between the quotes every unit is written as one of three forms: itself, a backslash and a letter, or
a backslash, `u` and four digits.  `unescape` reads one such form back and leaves the rest, so what
is written can be read unit by unit, although the form of a surrogate depends on its neighbours.

* `Text.WrittenAs` — a piece that is read back as a unit, whatever follows it.
* `Text.writtenAs_quotedUnits` — each unit of a text is written as such a piece.
* `Text.quote_injective` — a quoted text determines the text.
* `Text.space_le_of_mem_quote` — no unit below the space is left in it.
-/

set_option autoImplicit false

namespace QuakeC.Text

/-- The unit that a letter behind a backslash stands for. -/
def escapeLetter? (letter : UInt16) : Option UInt16 :=
  (letterEscapes.find? (·.2 == letter)).map Prod.fst

/-- The value of a hexadecimal digit in lower case. -/
def hexValue (digit : UInt16) : Nat :=
  if digit.toNat ≤ 0x39 then digit.toNat - 48 else digit.toNat - 87

/-- The unit of four digits at the start of a text, and what follows them. -/
def unescapeNumber : Text → Option (UInt16 × Text)
  | a :: b :: c :: d :: rest =>
    some
      (UInt16.ofNat (0x1000 * hexValue a + 0x100 * hexValue b + 16 * hexValue c + hexValue d), rest)
  | _ => none

/-- The unit that a text behind a backslash starts with, and what follows it. -/
def unescapeLetter : Text → Option (UInt16 × Text)
  | [] => none
  | letter :: rest =>
    if letter = unit 'u' then unescapeNumber rest else (escapeLetter? letter).map (·, rest)

/-- The first unit of a text between quotes, and what follows it. -/
def unescape : Text → Option (UInt16 × Text)
  | [] => none
  | u :: rest => if u = unit '\\' then unescapeLetter rest else some (u, rest)

/-- The piece is read back as the unit, whatever follows it. -/
def WrittenAs (u : UInt16) (piece : Text) : Prop :=
  ∀ rest, unescape (piece ++ rest) = some (u, rest)

/-! ## The three forms -/

theorem hexValue_hexDigit : ∀ d < 16, hexValue (unit (hexDigit d)) = d := by decide

theorem space_le_hexDigit : ∀ d < 16, 0x20 ≤ (unit (hexDigit d)).toNat := by decide

/-- The letters of escapes; `u` is none of them, since it starts a number. -/
theorem letterEscapes_spec : ∀ p ∈ letterEscapes,
    p.2 ≠ unit 'u' ∧ escapeLetter? p.2 = some p.1 ∧ 0x20 ≤ p.2.toNat := by
  have hall : (letterEscapes.all fun p => decide
      (p.2 ≠ unit 'u' ∧ escapeLetter? p.2 = some p.1 ∧ 0x20 ≤ p.2.toNat)) = true := by decide
  intro p hp
  exact of_decide_eq_true (List.all_eq_true.mp hall p hp)

theorem writtenAs_self {u : UInt16} (h : u ≠ unit '\\') : WrittenAs u [u] := by
  intro rest
  rw [List.singleton_append, unescape, if_neg h]

theorem writtenAs_letter {u letter : UInt16} (h : (u, letter) ∈ letterEscapes) :
    WrittenAs u [unit '\\', letter] := by
  obtain ⟨hu, hletter, -⟩ := letterEscapes_spec _ h
  intro rest
  rw [List.cons_append, List.singleton_append, unescape, if_pos rfl, unescapeLetter, if_neg hu,
    hletter, Option.map_some]

theorem writtenAs_numberEscape (u : UInt16) : WrittenAs u (numberEscape u) := by
  have hlt := toNat_lt u
  have ha := hexValue_hexDigit (u.toNat / 0x1000) (by omega)
  have hb := hexValue_hexDigit (u.toNat / 0x100 % 16) (by omega)
  have hc := hexValue_hexDigit (u.toNat / 16 % 16) (by omega)
  have hd := hexValue_hexDigit (u.toNat % 16) (by omega)
  have hvalue : 0x1000 * (u.toNat / 0x1000) + 0x100 * (u.toNat / 0x100 % 16) +
      16 * (u.toNat / 16 % 16) + u.toNat % 16 = u.toNat := by omega
  intro rest
  simp only [numberEscape, List.cons_append, List.nil_append]
  rw [unescape, if_pos rfl, unescapeLetter, if_pos rfl]
  simp only [unescapeNumber, ha, hb, hc, hd, hvalue, UInt16.ofNat_toNat]

/-- **The three forms in which a unit is written.** -/
theorem quoteUnit_cases (u : UInt16) :
    (∃ letter, (u, letter) ∈ letterEscapes ∧ quoteUnit u = [unit '\\', letter]) ∨
    quoteUnit u = numberEscape u ∨
    (u ≠ unit '\\' ∧ 0x20 ≤ u.toNat ∧ quoteUnit u = [u]) := by
  unfold quoteUnit
  cases hlookup : letterEscapes.lookup u with
  | some letter =>
    obtain ⟨before, after, hsplit, -⟩ := List.lookup_eq_some_iff.mp hlookup
    exact .inl ⟨letter, by rw [hsplit]; simp, rfl⟩
  | none =>
    have hkeys := List.lookup_eq_none_iff.mp hlookup
    have hbackslash : u ≠ unit '\\' := by
      simpa using hkeys (unit '\\', unit '\\') (by decide)
    by_cases hescaped : (decide (u.toNat < 0x20) || isSurrogate u) = true
    · exact .inr (.inl (if_pos hescaped))
    · refine .inr (.inr ⟨hbackslash, ?_, if_neg hescaped⟩)
      rw [Bool.or_eq_true, decide_eq_true_eq, not_or] at hescaped
      omega

theorem writtenAs_quoteUnit (u : UInt16) : WrittenAs u (quoteUnit u) := by
  rcases quoteUnit_cases u with ⟨letter, hletter, h⟩ | h | ⟨hbackslash, -, h⟩
  · rw [h]
    exact writtenAs_letter hletter
  · rw [h]
    exact writtenAs_numberEscape u
  · rw [h]
    exact writtenAs_self hbackslash

/-- Half of a pair is no backslash. -/
theorem ne_backslash_of_pair {u v : UInt16} (h : (isHigh u && isLow v) = true) :
    u ≠ unit '\\' ∧ v ≠ unit '\\' := by
  rw [Bool.and_eq_true] at h
  constructor
  · rintro rfl
    exact absurd h.1 (by decide)
  · rintro rfl
    exact absurd h.2 (by decide)

/-- **Each unit of a text is written as a piece that is read back as it.** -/
theorem writtenAs_quotedUnits (t : Text) : List.Forall₂ WrittenAs t (quotedUnits t) := by
  fun_induction quotedUnits t with
  | case1 => exact .nil
  | case2 u => exact .cons (writtenAs_quoteUnit u) .nil
  | case3 u v rest hpair ih =>
    obtain ⟨hu, hv⟩ := ne_backslash_of_pair hpair
    exact .cons (writtenAs_self hu) (.cons (writtenAs_self hv) ih)
  | case4 u v rest _ ih => exact .cons (writtenAs_quoteUnit u) ih

/-! ## Whole texts -/

/-- The closing quote is read as the last unit. -/
theorem unescape_closing : unescape [unit '"'] = some (unit '"', []) := by decide

/-- Nothing is left behind the closing quote, but the quote behind a written unit. -/
theorem closing_ne_append {u : UInt16} {piece rest : Text} (h : WrittenAs u piece) :
    [unit '"'] ≠ piece ++ (rest ++ [unit '"']) := by
  intro heq
  have hread := congrArg unescape heq
  rw [h, unescape_closing, Option.some.injEq, Prod.mk.injEq] at hread
  exact absurd hread.2 (by simp)

/-- Texts whose units are written alike up to the closing quote are the same. -/
theorem eq_of_written {s t : Text} {ps qs : List Text} (hs : List.Forall₂ WrittenAs s ps)
    (ht : List.Forall₂ WrittenAs t qs)
    (h : ps.flatten ++ [unit '"'] = qs.flatten ++ [unit '"']) : s = t := by
  induction hs generalizing t qs with
  | nil =>
    cases ht with
    | nil => rfl
    | cons hv _ =>
      rw [List.flatten_cons, List.append_assoc] at h
      exact absurd h (closing_ne_append hv)
  | cons hu _ ih =>
    cases ht with
    | nil =>
      rw [List.flatten_cons, List.append_assoc] at h
      exact absurd h.symm (closing_ne_append hu)
    | cons hv hrest =>
      rw [List.flatten_cons, List.flatten_cons, List.append_assoc, List.append_assoc] at h
      have hread := congrArg unescape h
      rw [hu, hv, Option.some.injEq, Prod.mk.injEq] at hread
      rw [hread.1, ih hrest hread.2]

/-- **A quoted text determines the text**, also where halves of pairs stand alone. -/
theorem quote_injective {s t : Text} (h : quote s = quote t) : s = t :=
  eq_of_written (writtenAs_quotedUnits s) (writtenAs_quotedUnits t) (List.tail_eq_of_cons_eq h)

/-! ## What is left inside -/

theorem space_le_of_mem_quoteUnit {u x : UInt16} (h : x ∈ quoteUnit u) : 0x20 ≤ x.toNat := by
  rcases quoteUnit_cases u with ⟨letter, hletter, hu⟩ | hu | ⟨-, hle, hu⟩
  · rw [hu, List.mem_cons, List.mem_singleton] at h
    rcases h with rfl | rfl
    · decide
    · exact (letterEscapes_spec _ hletter).2.2
  · have hlt := toNat_lt u
    simp only [hu, numberEscape, List.mem_cons, List.not_mem_nil, or_false] at h
    rcases h with rfl | rfl | rfl | rfl | rfl | rfl
    · decide
    · decide
    · exact space_le_hexDigit _ (by omega)
    · exact space_le_hexDigit _ (by omega)
    · exact space_le_hexDigit _ (by omega)
    · exact space_le_hexDigit _ (by omega)
  · rw [hu, List.mem_singleton] at h
    rw [h]
    exact hle

theorem space_le_of_mem_quotedUnits {t piece : Text} {x : UInt16} (hpiece : piece ∈ quotedUnits t)
    (hx : x ∈ piece) : 0x20 ≤ x.toNat := by
  fun_induction quotedUnits t with
  | case1 => cases hpiece
  | case2 u =>
    rw [List.mem_singleton.mp hpiece] at hx
    exact space_le_of_mem_quoteUnit hx
  | case3 u v rest hpair ih =>
    rw [Bool.and_eq_true, isHigh_iff, isLow_iff, HighPoint, LowPoint] at hpair
    rw [List.mem_cons, List.mem_cons] at hpiece
    rcases hpiece with rfl | rfl | hpiece
    · rw [List.mem_singleton.mp hx]
      omega
    · rw [List.mem_singleton.mp hx]
      omega
    · exact ih hpiece
  | case4 u v rest _ ih =>
    rcases List.mem_cons.mp hpiece with rfl | hpiece
    · exact space_le_of_mem_quoteUnit hx
    · exact ih hpiece

/-- **No unit below the space is left in a quoted text.** -/
theorem space_le_of_mem_quote {t : Text} {x : UInt16} (h : x ∈ quote t) : 0x20 ≤ x.toNat := by
  simp only [quote, List.cons_append, List.mem_cons, List.mem_append, List.mem_flatten,
    List.not_mem_nil, or_false] at h
  rcases h with rfl | ⟨piece, hpiece, hx⟩ | rfl
  · decide
  · exact space_le_of_mem_quotedUnits hpiece hx
  · decide

end QuakeC.Text
