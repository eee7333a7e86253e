import Mathlib
import QuakeC.Globals
import QuakeC.Proofs.Lines
import QuakeC.Proofs.NumberText
import QuakeC.Proofs.QuotedText

/-!
# What the text of a value tells

The text of a value shows what kind of value it is: the first unit tells strings, vectors, entities
and functions apart, the second the two values that stand for none, and a number starts like none of
these.  Inside a kind, strings are told apart by what stands between the quotes and the
others by the number or the name at the end.

* `GlobalValue.ofText_text` — the kind can be read off the text.
* `GlobalValue.text_identifies` — what two values with one text have in common.
-/

set_option autoImplicit false

namespace QuakeC

namespace ValueType

/-- The types that have a name, `bad` to `pointer`. -/
def named : List ValueType := .bad :: stored

theorem name_injective {t u : ValueType} (ht : t ∈ named) (hu : u ∈ named)
    (h : t.name = u.name) : t = u := by
  have hnodup : (named.map name).Nodup := by decide
  exact List.inj_on_of_nodup_map hnodup ht hu h

end ValueType

namespace GlobalValue

/-- The kinds of value; of those that stand for none there are two. -/
inductive Kind where
  | string
  | float
  | vector
  | entity
  | function
  | functionOutOfRange
  | unhandledType
  deriving DecidableEq, Repr

def kind : GlobalValue → Kind
  | string _ => .string
  | float _ => .float
  | vector .. => .vector
  | entity _ => .entity
  | function .. => .function
  | functionOutOfRange _ => .functionOutOfRange
  | unhandledType _ => .unhandledType

/-- The kind of value that a text shows. -/
def Kind.ofText : Text → Kind
  | [] => .float
  | u :: rest =>
    if u = Text.unit '"' then .string
    else if u = Text.unit '(' then .vector
    else if u = Text.unit 'e' then .entity
    else if u = Text.unit 'f' then .function
    else if u = Text.unit '<' then
      if rest.head? = some (Text.unit 'i') then .functionOutOfRange else .unhandledType
    else .float

/-! ## The parts of a text -/

theorem text_float (x : Double) : (float x).text = Text.ofString x.text := rfl

theorem text_vector (x y z : Double) : (vector x y z).text =
    Text.ofString ("(" ++ x.text ++ ", " ++ y.text ++ ", " ++ z.text ++ ")") := rfl

theorem text_entity (n : ℤ) : (entity n).text = Text.ofString ("entity " ++ n.repr) := rfl

theorem text_function (i : ℤ) (f : FunctionRecord) :
    (function i f).text = Text.ofString ("function " ++ i.repr) := rfl

theorem text_functionOutOfRange (i : ℤ) :
    (functionOutOfRange i).text = Text.ofString ("<invalid function " ++ i.repr ++ ">") := rfl

theorem text_unhandledType (t : ValueType) :
    (unhandledType t).text = Text.ofString ("<unhandled type " ++ t.name ++ ">") := rfl

/-! ## The kind of a value -/

theorem toNat_lt_of_startsNumeral {c : Char} (h : startsNumeral c = true) : c.toNat < 0x10000 := by
  simp only [startsNumeral, Bool.or_eq_true, beq_iff_eq] at h
  rcases h with ((h | rfl) | rfl) | rfl
  · exact Text.toNat_lt_of_isDigit h
  · decide
  · decide
  · decide

/-- No number starts like a value of another kind. -/
theorem Kind.ofText_of_startsNumeral {c : Char} (h : startsNumeral c = true) (rest : Text) :
    ofText (Text.unit c :: rest) = .float := by
  have hne : ∀ d : Char, d.toNat < 0x10000 → startsNumeral d = false →
      Text.unit c ≠ Text.unit d := by
    intro d hd hstart heq
    obtain rfl := Text.unit_injective (toNat_lt_of_startsNumeral h) hd heq
    rw [h] at hstart
    cases hstart
  rw [ofText, if_neg (hne '"' (by decide) (by decide)), if_neg (hne '(' (by decide) (by decide)),
    if_neg (hne 'e' (by decide) (by decide)), if_neg (hne 'f' (by decide) (by decide)),
    if_neg (hne '<' (by decide) (by decide))]

/-- **The kind of a value can be read off its text.** -/
theorem ofText_text (v : GlobalValue) : Kind.ofText v.text = v.kind := by
  cases v with
  | string s => rfl
  | float x =>
    obtain ⟨c, rest, htext, hc⟩ := x.text_startsNumeral
    rw [text_float, Text.ofString_eq_cons htext (toNat_lt_of_startsNumeral hc),
      Kind.ofText_of_startsNumeral hc]
    rfl
  | vector x y z =>
    simp only [text_vector, Text.ofString_append, List.append_assoc]
    rfl
  | entity n =>
    rw [text_entity, Text.ofString_append]
    rfl
  | function i f =>
    rw [text_function, Text.ofString_append]
    rfl
  | functionOutOfRange i =>
    rw [text_functionOutOfRange, String.append_assoc, Text.ofString_append]
    rfl
  | unhandledType t =>
    rw [text_unhandledType, String.append_assoc, Text.ofString_append]
    rfl

/-- **The text of a value identifies it.**  Values with the same text are of the same kind, for the
same reason if they stand for none.  Two strings with the same text are the same string, unit by
unit, also where a surrogate stands without its partner.  Two entities with the same text have the
same number, two functions the same index, and two values that stand for none the same index or the
same type, as far as the type has a name.  The text of a string holds no unit below the space. -/
theorem text_identifies :
    (∀ v w : GlobalValue, v.text = w.text → v.kind = w.kind) ∧
    (∀ s t : Text, (string s).text = (string t).text → s = t) ∧
    (∀ m n, (entity m).text = (entity n).text → m = n) ∧
    (∀ i f j g, (function i f).text = (function j g).text → i = j) ∧
    (∀ i j, (functionOutOfRange i).text = (functionOutOfRange j).text → i = j) ∧
    (∀ t ∈ ValueType.named, ∀ u ∈ ValueType.named,
      (unhandledType t).text = (unhandledType u).text → t = u) ∧
    ∀ s : Text, ∀ u ∈ (string s).text, 0x20 ≤ u.toNat := by
  refine ⟨?_, ?_, ?_, ?_, ?_, ?_, ?_⟩
  · intro v w h
    rw [← ofText_text v, ← ofText_text w, h]
  · intro s t h
    exact Text.quote_injective h
  · intro m n h
    have hrepr := (String.append_right_inj _).mp (Text.ofString_injective h)
    exact Int.repr_injective hrepr
  · intro i f j g h
    have hrepr := (String.append_right_inj _).mp (Text.ofString_injective h)
    exact Int.repr_injective hrepr
  · intro i j h
    rw [text_functionOutOfRange, text_functionOutOfRange] at h
    have hrepr := Text.ofString_injective h
    rw [String.append_left_inj, String.append_right_inj] at hrepr
    exact Int.repr_injective hrepr
  · intro t ht u hu h
    rw [text_unhandledType, text_unhandledType] at h
    have hname := Text.ofString_injective h
    rw [String.append_left_inj, String.append_right_inj] at hname
    exact ValueType.name_injective ht hu hname
  · intro s u hu
    exact Text.space_le_of_mem_quote hu

/-- A line feed is told apart from a backslash and an `n`, a lone surrogate from its escape and from
the character that would replace it, a string from the value whose text it repeats, a type from
another; records with the same index have the same text. -/
theorem text_identifies_samples :
    (string "a\nb").text ≠ (string "a\\nb").text ∧
    ((string [0xD800]).text = Text.ofString "\"\\ud800\"" ∧
      (string [0xD800]).text ≠ (string "\\ud800").text ∧
      (string [0xD800]).text ≠ (string [0xFFFD]).text) ∧
    (string "function 4").text ≠ (function 4 ⟨1, 0, 0, 0, 0, 0, []⟩).text ∧
    (entity 4).text ≠ (entity (-4)).text ∧
    (unhandledType .field).text ≠ (unhandledType .bad).text ∧
    ((function 4 ⟨1, 0, 0, 0, 0, 0, []⟩).text = (function 4 ⟨-7, 0, 0, 0, 0, 0, [3]⟩).text ∧
      (function 4 ⟨1, 0, 0, 0, 0, 0, []⟩).kind = (function 4 ⟨-7, 0, 0, 0, 0, 0, [3]⟩).kind) := by
  obtain ⟨hkind, hstring, hentity, -, -, htype, -⟩ := text_identifies
  refine ⟨?_, ⟨by decide, ?_, ?_⟩, ?_, ?_, ?_, rfl, hkind _ _ rfl⟩
  · intro h
    exact absurd (hstring _ _ h) (by decide)
  · intro h
    exact absurd (hstring _ _ h) (by decide)
  · intro h
    exact absurd (hstring _ _ h) (by decide)
  · intro h
    exact absurd (hkind _ _ h) (by decide)
  · intro h
    exact absurd (hentity _ _ h) (by decide)
  · intro h
    exact absurd (htype _ (by decide) _ (by decide) h) (by decide)

end GlobalValue

end QuakeC
