import Mathlib
import QuakeC.Proofs.CharsetNames
import QuakeC.Proofs.RandomAccess
import QuakeC.Proofs.Singles
import QuakeC.Proofs.Words

/-!
# Views of the globals

The same bytes are seen at different types.  At one offset, all types of four bytes either find the
same word or are refused in the same way, and a vector is three numbers that stand side by side.

* `Globals.chunk_of_holds`, `Globals.chunk_of_not_holds` — which numbers are offsets.
* `Globals.seesWord_of_holds` — what every type of four bytes makes of the word.
* `Globals.read_float_eq_ok_iff`, `Globals.read_vector_of_holds` — numbers and vectors.
* `Globals.views_coherent` — all types at every number.
-/

set_option autoImplicit false

namespace QuakeC

/-- `y` is `x` and `k` more wherever `x` is a natural number and the sum does not exceed the limit.
There numbers are added exactly; of sums that are rounded nothing is said. -/
def Number.IsSumWithin (limit : ℕ) (x : Number) (k : ℕ) (y : Number) : Prop :=
  ∀ i : ℕ, x.value? = some (i : ℚ) → i + k ≤ limit → y.value? = some ((i + k : ℕ) : ℚ)

/-- Integers are sums of this kind. -/
theorem Number.isSumWithin_int {limit n : ℕ} {x : Number} (h : x.value? = some (n : ℚ)) (k : ℕ) :
    x.IsSumWithin limit k (.int (n + k : ℕ)) := by
  intro i hi _
  obtain rfl := eq_of_value? h hi
  simp [value?]

namespace Globals

variable {lib : CharsetLibrary} {g : Globals} {strings : StringTable}
  {functions : List FunctionRecord} {o : Number}

/-! ## Which numbers are offsets -/

/-- The number is the natural number `i`, and the `size` bytes from there on lie inside. -/
def Holds (g : Globals) (o : Number) (size i : ℕ) : Prop :=
  o.value? = some (i : ℚ) ∧ i + size ≤ g.length

theorem chunk_of_holds {size i : ℕ} (h : g.Holds o size i) :
    g.chunk o size = .ok (g.bytes.chunk i size).toList := by
  have hint := Number.toInt?_eq_natCast_iff.mpr h.1
  have hle := h.2
  simp only [chunk, hint]
  rw [if_pos (by omega), Int.toNat_natCast]
  rfl

theorem chunk_of_not_holds {size : ℕ} (h : ¬ ∃ i, g.Holds o size i) :
    g.chunk o size = .error (.badOffset .globals o size g.length) := by
  unfold chunk
  split
  · rename_i n hn
    rw [if_neg]
    rintro ⟨hnonneg, hle⟩
    obtain ⟨i, rfl⟩ := Int.eq_ofNat_of_zero_le hnonneg
    exact h ⟨i, Number.toInt?_eq_natCast_iff.mp hn, by omega⟩
  · rfl

theorem Holds.unique {size size' i j : ℕ} (hi : g.Holds o size i) (hj : g.Holds o size' j) :
    i = j :=
  Number.eq_of_value? hi.1 hj.1

/-! ## Words -/

theorem word_of_holds {i : ℕ} (h : g.Holds o 4 i) : g.word o = .ok (g.bytes.u32At i) := by
  unfold word
  rw [chunk_of_holds h, Bytes.toList_chunk]
  simp [bind, Except.bind, pure, Except.pure, IntKind.toNat_four]

theorem word_of_not_holds (h : ¬ ∃ i, g.Holds o 4 i) :
    g.word o = .error (.badOffset .globals o 4 g.length) := by
  unfold word
  rw [chunk_of_not_holds h]
  rfl

/-- The single-precision number at a place. -/
def singleAt (bytes : Bytes) (i : ℕ) : Double := Double.ofSingle (UInt32.ofNat (bytes.u32At i))

theorem isSingle_singleAt (bytes : Bytes) (i : ℕ) :
    Double.IsSingle (bytes.u32At i) (singleAt bytes i) := by
  have hlt := bytes.u32At_lt i
  have hsingle := Double.isSingle_ofSingle (UInt32.ofNat (bytes.u32At i))
  rwa [UInt32.toNat_ofNat_of_lt' hlt] at hsingle

theorem single_take (bytes : Bytes) (i : ℕ) :
    single ((bytes.toList.drop i).take 4) = singleAt bytes i := by
  rw [single, IntKind.toNat_four, singleAt]

theorem float_of_holds {i : ℕ} (h : g.Holds o 4 i) : g.float o = .ok (singleAt g.bytes i) := by
  unfold float
  rw [chunk_of_holds h, Bytes.toList_chunk]
  simp [bind, Except.bind, pure, Except.pure, single_take]

theorem float_of_not_holds (h : ¬ ∃ i, g.Holds o 4 i) :
    g.float o = .error (.badOffset .globals o 4 g.length) := by
  unfold float
  rw [chunk_of_not_holds h]
  rfl

/-! ## The types of four bytes -/

/-- The types that read one word. -/
def wordTypes : List ValueType := [.string, .float, .entity, .function]

/-- At the number `o`, every type of four bytes sees the word `n`: an entity is its number, a
function is looked up by it, a string starts there, and a float has its bits. -/
structure SeesWord (g : Globals) (lib : CharsetLibrary) (strings : StringTable)
    (functions : List FunctionRecord) (o : Number) (n : ℕ) : Prop where
  entity : g.read lib strings functions o .entity = .ok (.entity n)
  function : ∀ f, functions[n]? = some f →
    g.read lib strings functions o .function = .ok (.function n f)
  functionOutOfRange : functions.length ≤ n →
    g.read lib strings functions o .function = .ok (.functionOutOfRange n)
  string : g.read lib strings functions o .string = (strings.resolve lib (.int n)).map .string
  stringOutside : strings.length ≤ n →
    g.read lib strings functions o .string = .error (.badOffset .strings (.int n) 1 strings.length)
  float : ∃ x, Double.IsSingle n x ∧ g.read lib strings functions o .float = .ok (.float x)

theorem resolve_of_le {n : ℕ} (h : strings.length ≤ n) :
    strings.resolve lib (.int n) = .error (.badOffset .strings (.int n) 1 strings.length) := by
  apply strings.resolve_eq_badOffset lib
  rintro ⟨i, hi, hvalue⟩
  obtain rfl := Number.eq_of_value? (show Number.value? (.int n) = some (n : ℚ) from rfl) hvalue
  omega

/-- **Every type of four bytes sees the word that stands at the offset.** -/
theorem seesWord_of_holds {i : ℕ} (h : g.Holds o 4 i) :
    SeesWord g lib strings functions o (g.bytes.u32At i) := by
  have hword := word_of_holds h
  have hstring : g.read lib strings functions o .string =
      (strings.resolve lib (.int (g.bytes.u32At i : ℕ))).map .string := by
    simp only [read, hword, bind, Except.bind]
    cases strings.resolve lib (.int (g.bytes.u32At i : ℕ)) with
    | ok text => rfl
    | error e => rfl
  refine ⟨?_, ?_, ?_, hstring, ?_, ?_⟩
  · simp only [read, hword, bind, Except.bind, pure, Except.pure]
  · intro f hf
    simp only [read, hword, bind, Except.bind, pure, Except.pure, hf]
  · intro hle
    simp only [read, hword, bind, Except.bind, pure, Except.pure, List.getElem?_eq_none hle]
  · intro hle
    rw [hstring, resolve_of_le hle]
    rfl
  · refine ⟨singleAt g.bytes i, isSingle_singleAt _ _, ?_⟩
    simp only [read, float_of_holds h, bind, Except.bind, pure, Except.pure]

/-- Where no word stands, every type of four bytes is refused in the same way. -/
theorem read_of_not_holds (h : ¬ ∃ i, g.Holds o 4 i) {type : ValueType} (ht : type ∈ wordTypes) :
    g.read lib strings functions o type = .error (.badOffset .globals o 4 g.length) := by
  have hword := word_of_not_holds h
  simp only [wordTypes, List.mem_cons, List.not_mem_nil, or_false] at ht
  rcases ht with rfl | rfl | rfl | rfl
  · simp only [read, hword, bind, Except.bind]
  · simp only [read, float_of_not_holds h, bind, Except.bind]
  · simp only [read, hword, bind, Except.bind]
  · simp only [read, hword, bind, Except.bind]

/-- A string that is named by a word is never refused as a place of the globals. -/
theorem read_string_ne_badOffset {n : ℕ} (h : SeesWord g lib strings functions o n) {o' : Number}
    {size length : ℕ} :
    g.read lib strings functions o .string ≠ .error (.badOffset .globals o' size length) := by
  by_cases hn : strings.length ≤ n
  · rw [h.stringOutside hn]
    nofun
  · rw [h.string, strings.resolve_natCast lib (by omega)]
    cases hdecode : strings.decode lib (strings.run n) with
    | ok text => nofun
    | error e =>
      intro he
      obtain rfl := Except.error.inj he
      exact Bool.noConfusion (StringTable.isBadOffset_of_decode hdecode)

/-- **A type of four bytes is refused exactly where no word stands.** -/
theorem read_eq_badOffset_iff {type : ValueType} (ht : type ∈ wordTypes) :
    g.read lib strings functions o type = .error (.badOffset .globals o 4 g.length) ↔
      ¬ ∃ i, g.Holds o 4 i := by
  refine ⟨?_, fun h => read_of_not_holds h ht⟩
  rintro herror ⟨i, hi⟩
  have hsees : SeesWord g lib strings functions o (g.bytes.u32At i) := seesWord_of_holds hi
  simp only [wordTypes, List.mem_cons, List.not_mem_nil, or_false] at ht
  rcases ht with rfl | rfl | rfl | rfl
  · exact read_string_ne_badOffset hsees herror
  · obtain ⟨x, -, hx⟩ := hsees.float
    rw [hx] at herror
    cases herror
  · rw [hsees.entity] at herror
    cases herror
  · by_cases hn : functions.length ≤ g.bytes.u32At i
    · rw [hsees.functionOutOfRange hn] at herror
      cases herror
    · rw [hsees.function _ (List.getElem?_eq_getElem (by omega))] at herror
      cases herror

/-! ## Numbers and vectors -/

theorem read_float_eq_ok_iff {v : GlobalValue} :
    g.read lib strings functions o .float = .ok v ↔
      ∃ i, g.Holds o 4 i ∧ v = .float (singleAt g.bytes i) := by
  by_cases h : ∃ i, g.Holds o 4 i
  · obtain ⟨i, hi⟩ := h
    simp only [read, float_of_holds hi, bind, Except.bind, pure, Except.pure, Except.ok.injEq]
    constructor
    · rintro rfl
      exact ⟨i, hi, rfl⟩
    · rintro ⟨j, hj, rfl⟩
      rw [hi.unique hj]
  · rw [read_of_not_holds h (by decide)]
    exact ⟨nofun, fun ⟨i, hi, _⟩ => absurd ⟨i, hi⟩ h⟩

/-- A vector is the three numbers that stand side by side. -/
theorem read_vector_of_holds {i : ℕ} (h : g.Holds o 12 i) :
    g.read lib strings functions o .vector =
      .ok (.vector (singleAt g.bytes i) (singleAt g.bytes (i + 4)) (singleAt g.bytes (i + 8))) := by
  have hvector : g.vector o =
      .ok (singleAt g.bytes i, singleAt g.bytes (i + 4), singleAt g.bytes (i + 8)) := by
    unfold vector
    rw [chunk_of_holds h, Bytes.toList_chunk]
    simp [bind, Except.bind, pure, Except.pure, List.take_take, List.drop_take, List.drop_drop,
      single_take]
  simp only [read, hvector, bind, Except.bind, pure, Except.pure]

theorem read_vector_of_not_holds (h : ¬ ∃ i, g.Holds o 12 i) :
    g.read lib strings functions o .vector = .error (.badOffset .globals o 12 g.length) := by
  simp only [read, vector, chunk_of_not_holds h, bind, Except.bind]

section Sums

variable {o₄ o₈ : Number} (h₄ : o.IsSumWithin g.length 4 o₄) (h₈ : o.IsSumWithin g.length 8 o₈)

include h₄ h₈

/-- Where twelve bytes are there, so are their three parts. -/
theorem Holds.parts {i : ℕ} (h : g.Holds o 12 i) :
    g.Holds o 4 i ∧ g.Holds o₄ 4 (i + 4) ∧ g.Holds o₈ 4 (i + 8) := by
  obtain ⟨hvalue, hle⟩ := h
  exact ⟨⟨hvalue, by omega⟩, ⟨h₄ i hvalue (by omega), by omega⟩,
    ⟨h₈ i hvalue (by omega), by omega⟩⟩

/-- Where three parts are there, each within reach of the one before, so are the twelve bytes. -/
theorem Holds.ofParts {i j k : ℕ} (hi : g.Holds o 4 i) (hj : g.Holds o₄ 4 j)
    (hk : g.Holds o₈ 4 k) : j = i + 4 ∧ k = i + 8 ∧ g.Holds o 12 i := by
  have hfirst : g.Holds o₄ 0 (i + 4) := ⟨h₄ i hi.1 hi.2, hi.2⟩
  obtain rfl := hj.unique hfirst
  have hsecond : g.Holds o₈ 0 (i + 8) := ⟨h₈ i hi.1 hj.2, hj.2⟩
  obtain rfl := hk.unique hsecond
  exact ⟨rfl, rfl, hi.1, hk.2⟩

/-- **A vector is read exactly where three numbers are, and is these numbers.** -/
theorem read_vector_of_floats {x y z : Double}
    (hx : g.read lib strings functions o .float = .ok (.float x))
    (hy : g.read lib strings functions o₄ .float = .ok (.float y))
    (hz : g.read lib strings functions o₈ .float = .ok (.float z)) :
    g.read lib strings functions o .vector = .ok (.vector x y z) := by
  obtain ⟨i, hi, hx⟩ := read_float_eq_ok_iff.mp hx
  obtain ⟨j, hj, hy⟩ := read_float_eq_ok_iff.mp hy
  obtain ⟨k, hk, hz⟩ := read_float_eq_ok_iff.mp hz
  obtain ⟨rfl, rfl, hwhole⟩ := Holds.ofParts h₄ h₈ hi hj hk
  obtain rfl := GlobalValue.float.inj hx
  obtain rfl := GlobalValue.float.inj hy
  obtain rfl := GlobalValue.float.inj hz
  exact read_vector_of_holds hwhole

theorem read_vector_of_not_floats
    (h : ¬ ∃ x y z, g.read lib strings functions o .float = .ok (.float x) ∧
      g.read lib strings functions o₄ .float = .ok (.float y) ∧
      g.read lib strings functions o₈ .float = .ok (.float z)) :
    g.read lib strings functions o .vector = .error (.badOffset .globals o 12 g.length) := by
  apply read_vector_of_not_holds
  rintro ⟨i, hi⟩
  obtain ⟨hfirst, hsecond, hthird⟩ := hi.parts h₄ h₈
  exact h ⟨_, _, _, read_float_eq_ok_iff.mpr ⟨i, hfirst, rfl⟩,
    read_float_eq_ok_iff.mpr ⟨i + 4, hsecond, rfl⟩, read_float_eq_ok_iff.mpr ⟨i + 8, hthird, rfl⟩⟩

end Sums

/-! ## All types -/

/-- **All views of the globals agree.**  At every number, strings, floats, entities and functions
are refused alike exactly where the number is no offset of four bytes inside the globals, and
otherwise see one word.  A vector is the floats at the number and at those four and eight further,
and is refused, with its own size, where one of them is.  Every other type is without values and
looks at no offset. -/
theorem views_coherent (g : Globals) (lib : CharsetLibrary) (strings : StringTable)
    (functions : List FunctionRecord) (o : Number) :
    (∀ type ∈ wordTypes,
      g.read lib strings functions o type = .error (.badOffset .globals o 4 g.length) ↔
        ¬ ∃ i : ℕ, o.value? = some (i : ℚ) ∧ i + 4 ≤ g.length) ∧
    (∀ i : ℕ, o.value? = some (i : ℚ) → i + 4 ≤ g.length →
      SeesWord g lib strings functions o (g.bytes.u32At i)) ∧
    (∀ o₄ o₈, o.IsSumWithin g.length 4 o₄ → o.IsSumWithin g.length 8 o₈ →
      (∀ x y z, g.read lib strings functions o .float = .ok (.float x) →
        g.read lib strings functions o₄ .float = .ok (.float y) →
        g.read lib strings functions o₈ .float = .ok (.float z) →
        g.read lib strings functions o .vector = .ok (.vector x y z)) ∧
      ((¬ ∃ x y z, g.read lib strings functions o .float = .ok (.float x) ∧
          g.read lib strings functions o₄ .float = .ok (.float y) ∧
          g.read lib strings functions o₈ .float = .ok (.float z)) →
        g.read lib strings functions o .vector = .error (.badOffset .globals o 12 g.length))) ∧
    ∀ type ∉ .vector :: wordTypes,
      g.read lib strings functions o type = .ok (.unhandledType type) := by
  refine ⟨?_, ?_, ?_, ?_⟩
  · intro type ht
    exact read_eq_badOffset_iff ht
  · intro i hvalue hle
    exact seesWord_of_holds ⟨hvalue, hle⟩
  · intro o₄ o₈ h₄ h₈
    exact ⟨fun x y z => read_vector_of_floats h₄ h₈, read_vector_of_not_floats h₄ h₈⟩
  · intro type ht
    cases type with
    | string | float | vector | entity | function => exact absurd (by decide) ht
    | bad | void | field | pointer | unknown n => rfl

/-- The word 1, the numbers 1 and -2, and one byte more. -/
def oneTwo : Globals := ⟨#[1, 0, 0, 0, 0, 0, 0x80, 0x3F, 0, 0, 0, 0xC0, 0xFF]⟩

/-- Strings with `hi` at place 1. -/
def greeting : StringTable := ⟨#[0, 104, 105, 0], "ascii"⟩

/-- `oneTwo` with a string at place 1 and no functions. -/
def readOneTwo (o : Number) (type : ValueType) : Except Error GlobalValue :=
  oneTwo.read .standard greeting [] o type

/-- Negative zero, which is an offset. -/
def negativeZero : Number := .double ⟨0x8000000000000000⟩

theorem value?_negativeZero : negativeZero.value? = some ((0 : ℕ) : ℚ) := by
  have hint : negativeZero.toInt? = some 0 := by decide +kernel
  simpa using Number.toInt?_eq_some_iff.mp hint

/-- At negative zero, the first word of `oneTwo` is a string, an entity and no function, and with
the numbers behind it a vector.  Four bytes further there is a number but no vector, and near the
end there is neither. -/
theorem views_coherent_oneTwo :
    readOneTwo negativeZero .string = .ok (.string "hi") ∧
      readOneTwo negativeZero .entity = .ok (.entity 1) ∧
      readOneTwo negativeZero .function = .ok (.functionOutOfRange 1) ∧
      (∃ x y z, readOneTwo negativeZero .vector = .ok (.vector x y z) ∧ y.value? = some 1 ∧
        z.value? = some (-2)) ∧
      readOneTwo (.int 4) .vector = .error (.badOffset .globals (.int 4) 12 13) ∧
      readOneTwo (.int 12) .float = .error (.badOffset .globals (.int 12) 4 13) := by
  obtain ⟨-, hword, hvector, -⟩ := views_coherent oneTwo .standard greeting [] negativeZero
  obtain ⟨-, hword₄, hvector₄, -⟩ := views_coherent oneTwo .standard greeting [] (.int 4)
  obtain ⟨-, hword₈, -, -⟩ := views_coherent oneTwo .standard greeting [] (.int 8)
  obtain ⟨hrefused, -, -, -⟩ := views_coherent oneTwo .standard greeting [] (.int 12)
  have hfirst := hword 0 value?_negativeZero (by decide)
  obtain ⟨x, -, hx⟩ := hfirst.float
  obtain ⟨y, hone, hy⟩ := (hword₄ 4 rfl (by decide)).float
  obtain ⟨z, htwo, hz⟩ := (hword₈ 8 rfl (by decide)).float
  have hend : readOneTwo (.int 12) .float = .error (.badOffset .globals (.int 12) 4 13) := by
    refine (hrefused .float (by decide)).mpr ?_
    rintro ⟨i, hi, hle⟩
    obtain rfl := Number.eq_of_value? (show Number.value? (.int 12) = some (12 : ℕ) from rfl) hi
    exact absurd hle (by decide)
  refine ⟨?_, hfirst.entity, hfirst.functionOutOfRange (by decide), ?_, ?_, hend⟩
  · rw [readOneTwo, hfirst.string]
    decide +kernel
  · refine ⟨x, y, z, (hvector (.int 4) (.int 8) (Number.isSumWithin_int value?_negativeZero 4)
      (Number.isSumWithin_int value?_negativeZero 8)).1 x y z hx hy hz, ?_, ?_⟩
    · rw [hone.finite (by decide), show oneTwo.bytes.u32At 4 = 0x3F800000 by decide]
      norm_num [Double.singleValue, Double.sign]
    · rw [htwo.finite (by decide), show oneTwo.bytes.u32At 8 = 0xC0000000 by decide]
      norm_num [Double.singleValue, Double.sign]
  · refine (hvector₄ (.int 8) (.int 12) (Number.isSumWithin_int rfl 4)
      (Number.isSumWithin_int rfl 8)).2 ?_
    rintro ⟨-, -, w, -, -, hw⟩
    exact nomatch hend.symm.trans hw

end Globals

end QuakeC
