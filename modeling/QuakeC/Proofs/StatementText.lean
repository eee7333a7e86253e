import Mathlib
import QuakeC.Listing
import QuakeC.Proofs.Lines

/-!
# What the text of a statement tells

The text of a statement is a row of words with single blanks between them, and no word holds a
blank.  So the words can be read off the text, and the opcode and the operands off the words.  Only
the third operand of a store is lost: it is not written.

* `Statement.words`, `Statement.text_eq_intercalate` — the words of a text.
* `Statement.splitOn_text` — cutting the text at its blanks gives the words back.
* `Opcode.eq_of_shape_eq`, `Opcode.mnemonic_inj` — an opcode that is written as an assignment is
  known by its symbol and its types, every other one by its name.
* `Statement.text_eq_text_iff` — when two statements have the same text.
-/

set_option autoImplicit false

namespace QuakeC

/-! ## The parts of a text -/

namespace Text

/-- An integer is written with digits and a sign. -/
theorem isDigit_or_eq_of_mem_repr {n : Int} {c : Char} (h : c ∈ n.repr.toList) :
    c.isDigit = true ∨ c = '-' := by
  rw [Int.repr_eq_if] at h
  split at h
  · exact .inl (isDigit_of_mem_repr h)
  · rw [String.toList_append, List.mem_append] at h
    rcases h with h | h
    · exact .inr (List.mem_singleton.mp h)
    · exact .inl (isDigit_of_mem_repr h)

theorem blank_notMem_repr (n : Int) : ' ' ∉ n.repr.toList := by
  intro h
  exact absurd (isDigit_or_eq_of_mem_repr h) (by decide)

end Text

namespace ValueType

theorem blank_notMem_keyword : ∀ t ∈ stored, ' ' ∉ t.keyword.toList := by decide

theorem keyword_inj {t u : ValueType} (ht : t ∈ stored) (hu : u ∈ stored)
    (h : t.keyword = u.keyword) : t = u := by
  have hnodup : (stored.map keyword).Nodup := by decide
  exact List.inj_on_of_nodup_map hnodup ht hu h

end ValueType

/-- The types that a shape names. -/
def Shape.types : Shape → List ValueType
  | binary _ result left right => [result, left, right]
  | store type => [type]
  | raw => []

namespace Opcode

/-- The opcodes that copy a value. -/
def stores : List Opcode := [.storeF, .storeV, .storeS, .storeEnt, .storeFld, .storeFnc]

theorem mem_stores_iff {op : Opcode} : op ∈ stores ↔ ∃ type, op.shape = .store type := by
  cases op <;> simp [stores, shape]

theorem types_stored (op : Opcode) : ∀ t ∈ op.shape.types, t ∈ ValueType.stored := by
  cases op with
  | unknown n => nofun
  | _ => decide

theorem blank_notMem_symbol {op : Opcode} {symbol : String} {result left right : ValueType}
    (h : op.shape = .binary symbol result left right) : ' ' ∉ symbol.toList := by
  cases op <;> cases h <;> decide

theorem blank_notMem_mnemonic : ∀ op ∈ known, ' ' ∉ op.mnemonic.toList := by decide +kernel

/-- No two opcodes are written as assignments with the same symbol and the same types. -/
theorem eq_of_shape_eq {op op' : Opcode} (hop : op ∈ known) (hop' : op' ∈ known)
    (hne : op.shape ≠ .raw) (h : op.shape = op'.shape) : op = op' := by
  have hnodup : ((known.filter fun op => decide (op.shape ≠ .raw)).map shape).Nodup := by decide
  refine List.inj_on_of_nodup_map hnodup (List.mem_filter.mpr ⟨hop, ?_⟩)
    (List.mem_filter.mpr ⟨hop', ?_⟩) h
  · simpa using hne
  · simpa [h] using hne

theorem mnemonic_inj {op op' : Opcode} (hop : op ∈ known) (hop' : op' ∈ known)
    (h : op.mnemonic = op'.mnemonic) : op = op' := by
  have hnodup : (known.map mnemonic).Nodup := by decide +kernel
  exact List.inj_on_of_nodup_map hnodup hop hop' h

end Opcode

/-! ## Words -/

namespace Statement

/-- The two words of a typed address. -/
def addressWords (type : ValueType) (operand : Int) : List String :=
  ["*(" ++ type.keyword, "*)" ++ operand.repr]

/-- The words of the text of a statement. -/
def words (s : Statement) : List String :=
  match s.op.shape with
  | .binary symbol result left right =>
    addressWords result s.c ++ "=" :: addressWords left s.a ++ symbol :: addressWords right s.b
  | .store type => addressWords type s.b ++ "=" :: addressWords type s.a
  | .raw => ["(" ++ s.op.mnemonic ++ ",", s.a.repr ++ ",", s.b.repr ++ ",", s.c.repr ++ ")"]

theorem text_eq_intercalate (s : Statement) : s.text = String.intercalate " " s.words := by
  apply String.toList_injective
  rw [String.toList_intercalate]
  cases hshape : s.op.shape with
  | binary symbol result left right =>
    simp [text, words, hshape, address, addressWords, List.intercalate, toString]
  | store type => simp [text, words, hshape, address, addressWords, List.intercalate, toString]
  | raw => simp [text, words, hshape, rawText, List.intercalate, toString]

theorem words_ne_nil (s : Statement) : s.words ≠ [] := by
  cases hshape : s.op.shape <;> simp [words, hshape, addressWords]

theorem blank_notMem_addressWords {type : ValueType} (h : type ∈ ValueType.stored)
    (operand : Int) : ∀ w ∈ addressWords type operand, ' ' ∉ w.toList := by
  have hkeyword := ValueType.blank_notMem_keyword type h
  have hoperand := Text.blank_notMem_repr operand
  simp [addressWords, hkeyword, hoperand]

theorem blank_notMem_words {s : Statement} (hs : s.op ∈ Opcode.known) :
    ∀ w ∈ s.words, ' ' ∉ w.toList := by
  have haddress : ∀ t ∈ s.op.shape.types, ∀ n, ∀ w ∈ addressWords t n, ' ' ∉ w.toList :=
    fun t ht => blank_notMem_addressWords (s.op.types_stored t ht)
  have hequals : ' ' ∉ "=".toList := by decide
  cases hshape : s.op.shape with
  | binary symbol result left right =>
    rw [hshape] at haddress
    have hsymbol := Opcode.blank_notMem_symbol hshape
    simp only [Shape.types, List.forall_mem_cons] at haddress
    obtain ⟨hresult, hleft, hright, -⟩ := haddress
    simp only [words, hshape, List.forall_mem_append, List.forall_mem_cons]
    exact ⟨⟨hresult _, hequals, hleft _⟩, hsymbol, hright _⟩
  | store type =>
    rw [hshape] at haddress
    have htype := haddress type (List.mem_singleton_self type)
    simp only [words, hshape, List.forall_mem_append, List.forall_mem_cons]
    exact ⟨htype _, hequals, htype _⟩
  | raw =>
    have hmnemonic := Opcode.blank_notMem_mnemonic s.op hs
    simp [words, hshape, Text.blank_notMem_repr, hmnemonic]

/-- **The words can be read off the text.** -/
theorem splitOn_text {s : Statement} (hs : s.op ∈ Opcode.known) :
    s.text.toList.splitOn ' ' = s.words.map String.toList := by
  rw [text_eq_intercalate, String.toList_intercalate]
  refine List.splitOn_intercalate ' ' ?_ ?_
  · simpa using blank_notMem_words hs
  · simpa using words_ne_nil s

theorem words_eq_of_text_eq {s t : Statement} (hs : s.op ∈ Opcode.known)
    (ht : t.op ∈ Opcode.known) (h : s.text = t.text) : s.words = t.words := by
  have hwords : s.words.map String.toList = t.words.map String.toList := by
    rw [← splitOn_text hs, ← splitOn_text ht, h]
  exact List.map_injective_iff.mpr (fun _ _ => String.toList_injective) hwords

/-! ## Reading a statement off its words -/

/-- Statements of one shape, word for word: an operation. -/
theorem eq_of_words_eq_of_binary {s t : Statement} (hs : s.op ∈ Opcode.known)
    (ht : t.op ∈ Opcode.known) {symbol symbol' : String}
    {result left right result' left' right' : ValueType}
    (hshape : s.op.shape = .binary symbol result left right)
    (hshape' : t.op.shape = .binary symbol' result' left' right') (h : s.words = t.words) :
    s.op = t.op ∧ s.a = t.a ∧ s.b = t.b ∧ s.c = t.c := by
  have htypes := s.op.types_stored
  have htypes' := t.op.types_stored
  simp only [hshape, hshape', Shape.types, List.forall_mem_cons] at htypes htypes'
  obtain ⟨hresult, hleft, hright, -⟩ := htypes
  obtain ⟨hresult', hleft', hright', -⟩ := htypes'
  simp only [words, hshape, hshape', addressWords, List.cons_append, List.nil_append,
    List.cons.injEq, String.append_right_inj, true_and, and_true] at h
  obtain ⟨hkresult, hc, hkleft, ha, hsymbol, hkright, hb⟩ := h
  have hsame : s.op.shape = t.op.shape := by
    rw [hshape, hshape', hsymbol, ValueType.keyword_inj hresult hresult' hkresult,
      ValueType.keyword_inj hleft hleft' hkleft, ValueType.keyword_inj hright hright' hkright]
  have hop : s.op = t.op := Opcode.eq_of_shape_eq hs ht (by simp [hshape]) hsame
  exact ⟨hop, Int.repr_injective ha, Int.repr_injective hb, Int.repr_injective hc⟩

/-- A store, whose third operand is not among its words. -/
theorem eq_of_words_eq_of_store {s t : Statement} (hs : s.op ∈ Opcode.known)
    (ht : t.op ∈ Opcode.known) {type type' : ValueType} (hshape : s.op.shape = .store type)
    (hshape' : t.op.shape = .store type') (h : s.words = t.words) :
    s.op = t.op ∧ s.a = t.a ∧ s.b = t.b := by
  have htype := s.op.types_stored type (by simp [hshape, Shape.types])
  have htype' := t.op.types_stored type' (by simp [hshape', Shape.types])
  simp only [words, hshape, hshape', addressWords, List.cons_append, List.nil_append,
    List.cons.injEq, String.append_right_inj, true_and, and_true] at h
  obtain ⟨hkeyword, hb, -, ha⟩ := h
  have hsame : s.op.shape = t.op.shape := by
    rw [hshape, hshape', ValueType.keyword_inj htype htype' hkeyword]
  have hop : s.op = t.op := Opcode.eq_of_shape_eq hs ht (by simp [hshape]) hsame
  exact ⟨hop, Int.repr_injective ha, Int.repr_injective hb⟩

/-- A statement that is written as its four parts. -/
theorem eq_of_words_eq_of_raw {s t : Statement} (hs : s.op ∈ Opcode.known)
    (ht : t.op ∈ Opcode.known) (hshape : s.op.shape = .raw) (hshape' : t.op.shape = .raw)
    (h : s.words = t.words) : s.op = t.op ∧ s.a = t.a ∧ s.b = t.b ∧ s.c = t.c := by
  simp only [words, hshape, hshape', List.cons.injEq, String.append_left_inj,
    String.append_right_inj, and_true] at h
  obtain ⟨hmnemonic, ha, hb, hc⟩ := h
  have hop := Opcode.mnemonic_inj hs ht hmnemonic
  exact ⟨hop, Int.repr_injective ha, Int.repr_injective hb, Int.repr_injective hc⟩

/-- **The words of a statement tell its opcode and its operands**, apart from the third operand of a
store. -/
theorem eq_of_words_eq {s t : Statement} (hs : s.op ∈ Opcode.known) (ht : t.op ∈ Opcode.known)
    (h : s.words = t.words) :
    s.op = t.op ∧ s.a = t.a ∧ s.b = t.b ∧ (s.c = t.c ∨ s.op ∈ Opcode.stores) := by
  -- statements of different shapes have different numbers of words
  cases hshape : s.op.shape with
  | binary symbol result left right =>
    cases hshape' : t.op.shape with
    | binary symbol' result' left' right' =>
      obtain ⟨hop, ha, hb, hc⟩ := eq_of_words_eq_of_binary hs ht hshape hshape' h
      exact ⟨hop, ha, hb, .inl hc⟩
    | store | raw => simp [words, hshape, hshape', addressWords] at h
  | store type =>
    cases hshape' : t.op.shape with
    | store type' =>
      obtain ⟨hop, ha, hb⟩ := eq_of_words_eq_of_store hs ht hshape hshape' h
      exact ⟨hop, ha, hb, .inr (Opcode.mem_stores_iff.mpr ⟨type, hshape⟩)⟩
    | binary | raw => simp [words, hshape, hshape', addressWords] at h
  | raw =>
    cases hshape' : t.op.shape with
    | raw =>
      obtain ⟨hop, ha, hb, hc⟩ := eq_of_words_eq_of_raw hs ht hshape hshape' h
      exact ⟨hop, ha, hb, .inl hc⟩
    | binary | store => simp [words, hshape, hshape', addressWords] at h

theorem text_eq_of_mem_stores {s t : Statement} (hop : s.op = t.op) (ha : s.a = t.a)
    (hb : s.b = t.b) (hstore : s.op ∈ Opcode.stores) : s.text = t.text := by
  obtain ⟨type, hshape⟩ := Opcode.mem_stores_iff.mp hstore
  have hshape' : t.op.shape = .store type := hop ▸ hshape
  simp only [text, hshape, hshape', ha, hb]

/-- **The text of a statement is unambiguous.**  Two statements with instructions of the machine and
any operands have the same text exactly when they have the same opcode and the same operands, where
the third operand of a store does not count. -/
theorem text_eq_text_iff (s t : Statement) (hs : s.op ∈ Opcode.known) (ht : t.op ∈ Opcode.known) :
    s.text = t.text ↔
      s.op = t.op ∧ s.a = t.a ∧ s.b = t.b ∧ (s.c = t.c ∨ s.op ∈ Opcode.stores) := by
  constructor
  · intro h
    exact eq_of_words_eq hs ht (words_eq_of_text_eq hs ht h)
  · rintro ⟨hop, ha, hb, hc | hstore⟩
    · simp only [text, rawText, hop, ha, hb, hc]
    · exact text_eq_of_mem_stores hop ha hb hstore

/-- A store with another third operand reads the same; scaling a vector from the left and from the
right does not, and neither does a difference with one of its operands negated. -/
theorem text_eq_text_iff_samples :
    (⟨.storeFld, 1, -2, 3⟩ : Statement).text = (⟨.storeFld, 1, -2, -4⟩ : Statement).text ∧
      (⟨.mulVF, 1, 2, 3⟩ : Statement).text ≠ (⟨.mulFV, 1, 2, 3⟩ : Statement).text ∧
      (⟨.subF, 1, -2, 3⟩ : Statement).text ≠ (⟨.subF, 1, 2, 3⟩ : Statement).text := by
  refine ⟨?_, ?_, ?_⟩
  · exact (text_eq_text_iff _ _ (by decide) (by decide)).mpr (by decide)
  · exact fun h => absurd ((text_eq_text_iff _ _ (by decide) (by decide)).mp h) (by decide)
  · exact fun h => absurd ((text_eq_text_iff _ _ (by decide) (by decide)).mp h) (by decide)

end Statement

end QuakeC
