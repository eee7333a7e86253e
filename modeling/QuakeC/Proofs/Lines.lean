import QuakeC.Text.Basic

/-!
# Lines and the text they make

Cutting a text into lines and joining lines into a text undo each other as far as they can: joining
gives every text back, cutting gives every list of lines back in which no line holds a line feed,
and a text has as many lines as it has line feeds, and one more.

* `splitWhere_eq_splitOnP` — the cutting is the library's.
* `joinLines_lines` — the lines of a text joined.
* `lines_joinLines` — the lines of a joined text.
* `length_lines_joinLines` — a joined text has a line for each line that went in and one for each
  line feed inside them.
-/

set_option autoImplicit false

namespace QuakeC.Text

variable {α : Type}

/-! ## Cutting -/

theorem splitWhere_nil (isSep : α → Bool) : splitWhere isSep [] = [[]] := rfl

theorem splitWhere_cons (isSep : α → Bool) (x : α) (xs : List α) :
    splitWhere isSep (x :: xs) =
      if isSep x then [] :: splitWhere isSep xs
      else (splitWhere isSep xs).modifyHead (x :: ·) := rfl

theorem splitWhere_eq_splitOnP (isSep : α → Bool) (xs : List α) :
    splitWhere isSep xs = xs.splitOnP isSep := by
  induction xs with
  | nil => rfl
  | cons x xs ih => rw [splitWhere_cons, List.splitOnP_cons_eq_if_modifyHead, ih]

/-- There is always a first piece. -/
theorem exists_splitWhere_eq_cons (isSep : α → Bool) (xs : List α) :
    ∃ piece pieces, splitWhere isSep xs = piece :: pieces := by
  rw [splitWhere_eq_splitOnP]
  exact List.exists_cons_of_ne_nil (List.splitOnP_ne_nil isSep xs)

theorem length_splitWhere (isSep : α → Bool) (xs : List α) :
    (splitWhere isSep xs).length = xs.countP isSep + 1 := by
  induction xs with
  | nil => rfl
  | cons x xs ih =>
    rw [splitWhere_cons, List.countP_cons]
    split
    · rw [List.length_cons, ih]
    · rw [List.length_modifyHead, ih]

theorem length_lines (t : Text) : (lines t).length = t.count lineFeed + 1 :=
  length_splitWhere _ t

theorem lines_ne_nil (t : Text) : lines t ≠ [] := by
  intro h
  have hlength := length_lines t
  rw [h, List.length_nil] at hlength
  omega

/-! ## Joining -/

theorem joinLines_cons {ls : List Text} (h : ls ≠ []) (l : Text) :
    joinLines (l :: ls) = l ++ [lineFeed] ++ joinLines ls :=
  List.intercalate_cons_of_ne_nil h

/-- **The lines of a text, joined, are the text.** -/
theorem joinLines_lines (t : Text) : joinLines (lines t) = t := by
  rw [joinLines, lines, splitWhere_eq_splitOnP]
  exact List.intercalate_splitOn lineFeed

/-- **Lines without line feeds are the lines of the text that they make.** -/
theorem lines_joinLines {ls : List Text} (hne : ls ≠ []) (h : ∀ l ∈ ls, lineFeed ∉ l) :
    lines (joinLines ls) = ls := by
  rw [joinLines, lines, splitWhere_eq_splitOnP]
  exact List.splitOn_intercalate lineFeed h hne

/-- A joined text has the line feeds of its lines and those between them. -/
theorem count_joinLines (ls : List Text) :
    (joinLines ls).count lineFeed = ls.flatten.count lineFeed + (ls.length - 1) := by
  induction ls with
  | nil => rfl
  | cons l ls ih =>
    by_cases hls : ls = []
    · subst hls
      simp [joinLines]
    · have hpos : 0 < ls.length := List.length_pos_iff.mpr hls
      rw [joinLines_cons hls, List.count_append, List.count_append, ih, List.flatten_cons,
        List.count_append, List.length_cons, List.count_singleton_self]
      omega

theorem length_lines_joinLines {ls : List Text} (h : ls ≠ []) :
    (lines (joinLines ls)).length = ls.length + ls.flatten.count lineFeed := by
  have hpos : 0 < ls.length := List.length_pos_iff.mpr h
  rw [length_lines, count_joinLines]
  omega

/-! ## Numbers in a line -/

theorem isDigit_of_mem_repr {n : Nat} {c : Char} (h : c ∈ n.repr.toList) : c.isDigit = true := by
  rw [Nat.toList_repr] at h
  exact Nat.isDigit_of_mem_toDigits (by decide) (by decide) h

theorem toNat_lt_of_isDigit {c : Char} (h : c.isDigit = true) : c.toNat < 0x10000 := by
  have hdigit : c.toNat ≤ 57 := (Char.isDigit_iff_toNat.mp h).2
  omega

end QuakeC.Text
