import Mathlib
import QuakeC.Proofs.Encoding
import QuakeC.Proofs.NumberValues

/-!
# The header as a code

A header is fourteen words, and its bytes are those of the words one after another.  So writing and
reading undo each other: what is written from any numbers is read back as their words, and what is
read at any place of an image is written back as the bytes that stand there.

* `Header.words` — the words of a header in wire order.
* `Header.encode_eq_flatMap`, `Header.words_wordsAt` — the writer and the reader, word by word.
* `Header.encode_wordsAt` — writing undoes reading.
* `Header.read_undoes_encode` — both directions, for the readers and writers of the library.
-/

set_option autoImplicit false

namespace QuakeC

/-! ## Words in an image -/

namespace Bytes

/-- The word at a place is written as the four bytes that stand there. -/
theorem ofNat_u32At {image : Bytes} {p : ℕ} (h : p + 4 ≤ image.size) :
    LittleEndian.ofNat 4 (image.u32At p) = (image.chunk p 4).toList := by
  have hlength : (image.chunk p 4).toList.length = 4 := by
    rw [Array.length_toList, size_chunk_of_le h]
  have hbytes := LittleEndian.ofNat_toNat (image.chunk p 4).toList
  rw [hlength, toList_chunk, IntKind.toNat_four] at hbytes
  rw [hbytes, toList_chunk]

theorem toList_chunk_add (image : Bytes) (p m n : ℕ) :
    (image.chunk p (m + n)).toList =
      (image.chunk p m).toList ++ (image.chunk (p + m) n).toList := by
  rw [toList_chunk, toList_chunk, toList_chunk, List.take_add, List.drop_drop]

/-- Words that follow one another are written as the bytes that they were read from. -/
theorem flatMap_u32At {image : Bytes} {s n : ℕ} (h : s + 4 * n ≤ image.size) :
    ((List.range n).map fun k => image.u32At (s + 4 * k)).flatMap (LittleEndian.ofNat 4) =
      (image.chunk s (4 * n)).toList := by
  induction n with
  | zero => simp [toList_chunk]
  | succ n ih =>
    rw [List.range_succ, List.map_append, List.flatMap_append, ih (by omega), Nat.mul_succ,
      toList_chunk_add]
    simp [ofNat_u32At (show s + 4 * n + 4 ≤ image.size by omega)]

end Bytes

namespace Header

variable {α β : Type}

/-! ## The words of a header -/

/-- The fourteen words in wire order. -/
def words (h : Header α) : List α :=
  h.version :: h.crc ::
    LumpName.all.flatMap fun name => [(h.lumps.get name).offset, (h.lumps.get name).count]

theorem map_map {γ : Type} (f : α → β) (g : β → γ) (h : Header α) :
    (h.map f).map g = h.map fun x => g (f x) := rfl

theorem words_map (f : α → β) (h : Header α) : (h.map f).words = h.words.map f := rfl

theorem words_injective {h h' : Header α} (heq : h.words = h'.words) : h = h' := by
  obtain ⟨version, crc, lumps⟩ := h
  obtain ⟨version', crc', lumps'⟩ := h'
  obtain ⟨⟨_, _⟩, ⟨_, _⟩, ⟨_, _⟩, ⟨_, _⟩, ⟨_, _⟩, ⟨_, _⟩⟩ := lumps
  obtain ⟨⟨_, _⟩, ⟨_, _⟩, ⟨_, _⟩, ⟨_, _⟩, ⟨_, _⟩, ⟨_, _⟩⟩ := lumps'
  simpa [words, LumpName.all, LumpTable.get, and_assoc] using heq

theorem map_congr {f g : α → β} {h : Header α} (hfg : ∀ x ∈ h.words, f x = g x) :
    h.map f = h.map g := by
  apply words_injective
  rw [words_map, words_map]
  exact List.map_congr_left hfg

theorem encode_eq_flatMap (h : Header ℕ) : h.encode = h.words.flatMap (LittleEndian.ofNat 4) := by
  simp [encode, words, encodeLump, LumpName.all]

theorem words_wordsAt (image : Bytes) (s : ℕ) :
    (wordsAt image s).words = (List.range 14).map fun k => image.u32At (s + 4 * k) := rfl

/-! ## Both directions -/

/-- **Writing undoes reading.** -/
theorem encode_wordsAt {image : Bytes} {s : ℕ} (h : s + 56 ≤ image.size) :
    (wordsAt image s).encode = (image.chunk s 56).toList := by
  rw [encode_eq_flatMap, words_wordsAt, Bytes.flatMap_u32At h]

theorem word_lt (x : Number) : x.word < 0x100000000 := by
  unfold Number.word
  omega

/-- **Reading undoes writing**, as far as numbers are words. -/
theorem wordsAt_encodeNumbers (h : Header Number) (before after : List UInt8) :
    wordsAt (before ++ (h.encodeNumbers ++ after)).toArray before.length =
      h.map fun x => wordOfValue x.value? := by
  rw [encodeNumbers, wordsAt_append, map_map]
  apply map_congr
  intro x _
  rw [Nat.mod_eq_of_lt (word_lt x), x.word_eq]

/-- Numbers that are words already are their own words. -/
theorem map_wordOfValue {h : Header Number} {w : Header ℕ} (hw : ∀ n ∈ w.words, n < 2 ^ 32)
    (hvalues : h.map Number.value? = w.map fun n : ℕ => some (n : ℚ)) :
    (h.map fun x => wordOfValue x.value?) = w := by
  calc (h.map fun x => wordOfValue x.value?)
      = (h.map Number.value?).map wordOfValue := (map_map _ _ h).symm
    _ = w.map fun n : ℕ => wordOfValue (some (n : ℚ)) := by rw [hvalues, map_map]
    _ = w.map id := map_congr fun n hn => wordOfValue_natCast (hw n hn)
    _ = w := rfl

/-- A written header is read wherever it stands, and the cursor is left behind it. -/
theorem run_read_encodeNumbers (h : Header Number) (before after : List UInt8) (region : String) :
    read.run ⟨(before ++ (h.encodeNumbers ++ after)).toArray, before.length, region⟩ =
      .ok (h.map fun x => wordOfValue x.value?)
        ⟨(before ++ (h.encodeNumbers ++ after)).toArray, (before.length + 56 : ℕ), "header"⟩ := by
  have hfits : before.length + 56 ≤ (before ++ (h.encodeNumbers ++ after)).toArray.size := by
    rw [List.size_toArray, List.length_append, List.length_append, encodeNumbers, length_encode]
    omega
  rw [run_read_of_le hfits, wordsAt_encodeNumbers]

/-- **Reading and writing headers undo each other.**  A header of any fourteen numbers is written in
56 bytes, which are read back, whatever stands before and behind them, as the words of the numbers:
each without its fraction and modulo `2 ^ 32`, and zero where it is no finite number.  So numbers
that are words already come back as they were.  A header that is read at any place of an image is
written as the 56 bytes that stand there. -/
theorem read_undoes_encode :
    (∀ (h : Header Number) (before after : List UInt8) (region : String),
      h.encodeNumbers.length = 56 ∧
      read.run ⟨(before ++ (h.encodeNumbers ++ after)).toArray, before.length, region⟩ =
        .ok (h.map fun x => wordOfValue x.value?)
          ⟨(before ++ (h.encodeNumbers ++ after)).toArray, (before.length + 56 : ℕ), "header"⟩ ∧
      ∀ w : Header ℕ, (∀ n ∈ w.words, n < 2 ^ 32) →
        h.map Number.value? = w.map (fun n : ℕ => some (n : ℚ)) →
        read.outcome ⟨(before ++ (h.encodeNumbers ++ after)).toArray, before.length, region⟩ =
          .ok w) ∧
    ∀ (image : Bytes) (s : ℕ) (region : String), s + 56 ≤ image.size →
      ∃ h, read.run ⟨image, s, region⟩ = .ok h ⟨image, (s + 56 : ℕ), "header"⟩ ∧
        (h.map fun n : ℕ => Number.int n).encodeNumbers = (image.extract s (s + 56)).toList := by
  refine ⟨?_, ?_⟩
  · intro h before after region
    have hrun := run_read_encodeNumbers h before after region
    refine ⟨length_encode _, hrun, ?_⟩
    intro w hw hvalues
    rw [Reader.outcome_of_run_ok hrun, map_wordOfValue hw hvalues]
  · intro image s region hfits
    refine ⟨wordsAt image s, run_read_of_le hfits region, ?_⟩
    have hwords : ((wordsAt image s).map fun n : ℕ => Number.int n).map Number.word =
        (wordsAt image s).map id := by
      rw [map_map]
      apply map_congr
      intro n hn
      rw [words_wordsAt] at hn
      obtain ⟨k, -, rfl⟩ := List.mem_map.mp hn
      have hlt := image.u32At_lt (s + 4 * k)
      simp only [Number.word, Number.truncate?, Option.getD_some, id]
      omega
    rw [encodeNumbers, hwords]
    exact encode_wordsAt hfits

/-- Numbers of all kinds: no number, a negative one, one beyond the words, a fraction. -/
def mixed : Header Number where
  version := .double .nan
  crc := .int (-1)
  lumps := {
    statements := ⟨.int 0x100000005, .double ⟨0xC004000000000000⟩⟩
    globalDefs := ⟨.int 60, .int 0⟩
    fieldDefs := ⟨.int 60, .int 0⟩
    functions := ⟨.int 60, .int 0⟩
    strings := ⟨.int 60, .int 0⟩
    globals := ⟨.int 60, .int 0⟩ }

/-- Fourteen different words, the last of them the greatest. -/
def distinct : Header ℕ where
  version := 6
  crc := 5927
  lumps := {
    statements := ⟨100, 1⟩
    globalDefs := ⟨108, 2⟩
    fieldDefs := ⟨124, 3⟩
    functions := ⟨148, 4⟩
    strings := ⟨276, 5⟩
    globals := ⟨281, 0xFFFFFFFF⟩ }

/-- Between two other bytes, the mixed numbers are read back as words, which are written as the same
bytes again, and the different words are read back as they are. -/
theorem read_undoes_encode_samples :
    (∃ w, read.outcome ⟨([7] ++ (mixed.encodeNumbers ++ [9])).toArray, 1, "globals"⟩ = .ok w ∧
      (w.version, w.crc, w.lumps.statements) = (0, 0xFFFFFFFF, ⟨5, 0xFFFFFFFE⟩) ∧
      (w.map fun n : ℕ => Number.int n).encodeNumbers = mixed.encodeNumbers) ∧
    read.outcome ⟨([7] ++ ((distinct.map fun n : ℕ => Number.int n).encodeNumbers ++ [9])).toArray,
      1, "globals"⟩ = .ok distinct := by
  refine ⟨?_, ?_⟩
  · obtain ⟨-, hrun, -⟩ := read_undoes_encode.1 mixed [7] [9] "globals"
    have hsize : 1 + 56 ≤ ([7] ++ (mixed.encodeNumbers ++ [9])).toArray.size := by decide
    obtain ⟨w, hw, hbytes⟩ := read_undoes_encode.2 _ 1 "globals" hsize
    refine ⟨w, Reader.outcome_of_run_ok hw, ?_, ?_⟩
    · obtain ⟨rfl, -⟩ := EStateM.Result.ok.inj (hw.symm.trans hrun)
      simp only [← Number.word_eq]
      decide
    · rw [hbytes]
      decide
  · obtain ⟨-, -, hsame⟩ :=
      read_undoes_encode.1 (distinct.map fun n : ℕ => Number.int n) [7] [9] "globals"
    refine hsame distinct (by decide) ?_
    rw [map_map]
    exact map_congr fun n _ => by simp [Number.value?]

end Header

end QuakeC
