import QuakeC.Bytes.Field

/-!
# Numbers in byte sequences

What stands at a place of a byte sequence, said byte by byte: `u16At` and `u32At` are sums of bytes
with weights, `i16At` and `i32At` are their readings in two's complement, and `chunk` is the run of
bytes from a place on.  The record and header formats are stated in these words.

* `fieldAt_u16` and its companions: the field readers of `IntKind` compute exactly these numbers.
* `u16At_chunk` and its companions: a number inside a chunk is the number at the same place of the
  whole sequence.
* `chunk_chunk`: a chunk of a chunk is a chunk of the whole sequence.
-/

set_option autoImplicit false

namespace QuakeC

namespace Bytes

/-- The byte at `p`; zero past the end. -/
def u8At (bytes : Bytes) (p : Nat) : Nat := (bytes.getD p 0).toNat

/-- The unsigned 16-bit number at `p`, the low byte first. -/
def u16At (bytes : Bytes) (p : Nat) : Nat := u8At bytes p + 0x100 * u8At bytes (p + 1)

/-- The unsigned 32-bit number at `p`, the low half first. -/
def u32At (bytes : Bytes) (p : Nat) : Nat := u16At bytes p + 0x10000 * u16At bytes (p + 2)

/-- The 16-bit number at `p` in two's complement. -/
def i16At (bytes : Bytes) (p : Nat) : Int :=
  if u16At bytes p < 0x8000 then u16At bytes p else (u16At bytes p : Int) - 0x10000

/-- The 32-bit number at `p` in two's complement. -/
def i32At (bytes : Bytes) (p : Nat) : Int :=
  if u32At bytes p < 0x80000000 then u32At bytes p else (u32At bytes p : Int) - 0x100000000

/-- The `n` bytes from `p` on, fewer where the sequence ends before. -/
def chunk (bytes : Bytes) (p n : Nat) : Bytes := bytes.extract p (p + n)

/-! ## Bounds -/

theorem u8At_lt (bytes : Bytes) (p : Nat) : u8At bytes p < 0x100 := UInt8.toNat_lt _

theorem u16At_lt (bytes : Bytes) (p : Nat) : u16At bytes p < 0x10000 := by
  have h₀ := u8At_lt bytes p
  have h₁ := u8At_lt bytes (p + 1)
  unfold u16At
  omega

theorem u32At_lt (bytes : Bytes) (p : Nat) : u32At bytes p < 0x100000000 := by
  have h₀ := u16At_lt bytes p
  have h₁ := u16At_lt bytes (p + 2)
  unfold u32At
  omega

/-! ## Chunks -/

theorem size_chunk (bytes : Bytes) (p n : Nat) :
    (chunk bytes p n).size = min (p + n) bytes.size - p := by
  simp [chunk]

theorem size_chunk_of_le {bytes : Bytes} {p n : Nat} (h : p + n ≤ bytes.size) :
    (chunk bytes p n).size = n := by
  rw [size_chunk]
  omega

theorem toList_chunk (bytes : Bytes) (p n : Nat) :
    (chunk bytes p n).toList = (bytes.toList.drop p).take n := by
  simp [chunk]

/-- A chunk inside a chunk. -/
theorem chunk_chunk (bytes : Bytes) {p n q m : Nat} (h : q + m ≤ n) :
    chunk (chunk bytes p n) q m = chunk bytes (p + q) m := by
  apply Array.ext'
  rw [toList_chunk, toList_chunk, toList_chunk, List.drop_take, List.drop_drop, List.take_take]
  congr 1
  omega

theorem u8At_chunk (bytes : Bytes) {p n i : Nat} (h : i < n) :
    u8At (chunk bytes p n) i = u8At bytes (p + i) := by
  unfold u8At
  rw [Array.getD_eq_getD_getElem?, Array.getD_eq_getD_getElem?, ← Array.getElem?_toList,
    toList_chunk, List.getElem?_take_of_lt h, List.getElem?_drop, Array.getElem?_toList]

theorem u16At_chunk (bytes : Bytes) {p n i : Nat} (h : i + 2 ≤ n) :
    u16At (chunk bytes p n) i = u16At bytes (p + i) := by
  unfold u16At
  rw [u8At_chunk bytes (by omega), u8At_chunk bytes (by omega), Nat.add_assoc]

theorem u32At_chunk (bytes : Bytes) {p n i : Nat} (h : i + 4 ≤ n) :
    u32At (chunk bytes p n) i = u32At bytes (p + i) := by
  unfold u32At
  rw [u16At_chunk bytes (by omega), u16At_chunk bytes (by omega), Nat.add_assoc]

end Bytes

/-! ## The field readers -/

namespace LittleEndian

/-- The bytes that follow weigh 256 times as much. -/
theorem toNat_take_drop_succ (l : List UInt8) (i n : Nat) :
    toNat ((l.drop i).take (n + 1)) =
      (l.getD i 0).toNat + 256 * toNat ((l.drop (i + 1)).take n) := by
  by_cases h : i < l.length
  · rw [List.drop_eq_getElem_cons h, List.take_succ_cons, toNat]
    simp [h]
  · have h₀ : l.drop i = [] := List.drop_of_length_le (by omega)
    have h₁ : l.drop (i + 1) = [] := List.drop_of_length_le (by omega)
    simp [h₀, h₁, toNat, List.getElem?_eq_none (Nat.le_of_not_lt h)]

end LittleEndian

namespace IntKind

theorem getD_toList (bytes : Bytes) (i : Nat) : (bytes.toList.getD i 0).toNat = bytes.u8At i := by
  simp [Bytes.u8At, Array.getD_eq_getD_getElem?]

theorem toNat_two (bytes : Bytes) (i : Nat) :
    LittleEndian.toNat ((bytes.toList.drop i).take 2) = bytes.u16At i := by
  rw [LittleEndian.toNat_take_drop_succ, LittleEndian.toNat_take_drop_succ, getD_toList,
    getD_toList, List.take_zero, LittleEndian.toNat]
  simp [Bytes.u16At]

theorem toNat_four (bytes : Bytes) (i : Nat) :
    LittleEndian.toNat ((bytes.toList.drop i).take 4) = bytes.u32At i := by
  rw [LittleEndian.toNat_take_drop_succ, LittleEndian.toNat_take_drop_succ,
    show i + 1 + 1 = i + 2 from rfl, toNat_two, getD_toList, getD_toList]
  simp only [Bytes.u32At, Bytes.u16At]
  omega

theorem fieldAt_u16 (bytes : Bytes) (i : Nat) : u16.fieldAt bytes.toList i = bytes.u16At i := by
  simp only [fieldAt, decode, size, toNat_two, isSigned]
  simp

theorem fieldAt_u32 (bytes : Bytes) (i : Nat) : u32.fieldAt bytes.toList i = bytes.u32At i := by
  simp only [fieldAt, decode, size, toNat_four, isSigned]
  simp

theorem fieldAt_i16 (bytes : Bytes) (i : Nat) : i16.fieldAt bytes.toList i = bytes.i16At i := by
  simp only [fieldAt, decode, size, toNat_two, isSigned, modulus, Bytes.i16At, true_and]
  split <;> split <;> omega

theorem fieldAt_i32 (bytes : Bytes) (i : Nat) : i32.fieldAt bytes.toList i = bytes.i32At i := by
  simp only [fieldAt, decode, size, toNat_four, isSigned, modulus, Bytes.i32At, true_and]
  split <;> split <;> omega

end IntKind

end QuakeC
