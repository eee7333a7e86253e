import Mathlib.Data.List.Forall2
import Mathlib.Data.Set.Function
import QuakeC.Proofs.Encoding
import QuakeC.Proofs.FieldRuns

/-!
# Integer fields as a code

The values of a run of integer fields and the bytes of the run determine each other.  The bytes are
described without the reader: `LittleEndian.ofInt` cuts the two's complement of a number, as a bit
vector, into bytes.

* `IntKind.encode_eq_ofInt` — the bytes of a field are those of the two's complement of its value.
* `IntKind.decodeAll_encodeAll_append` — a run is read back, whatever stands behind it.
* `IntKind.inRange_decodeAll`, `IntKind.encodeAll_decodeAll` — what is read is in range, and is
  written as the bytes that it was read from.
* `Reader.integer_fields_biject_with_bytes` — the same for the reader, at every place of every
  byte sequence.
-/

set_option autoImplicit false

namespace QuakeC

/-! ## One field -/

namespace LittleEndian

/-- The two's complement of `v` in `width` bytes, the lowest eight bits first. -/
def ofInt (width : Nat) (v : Int) : List UInt8 :=
  (List.range width).map fun j => .ofBitVec ((BitVec.ofInt (8 * width) v).extractLsb' (8 * j) 8)

theorem length_ofInt (width : Nat) (v : Int) : (ofInt width v).length = width := by
  rw [ofInt, List.length_map, List.length_range]

/-- The bytes of a number are its digits to the base 256. -/
theorem ofNat_eq_map_range (width n : Nat) :
    ofNat width n = (List.range width).map fun j => UInt8.ofNat (n / Nat.pow 256 j % 256) := by
  induction width generalizing n with
  | zero => rfl
  | succ width ih =>
    rw [ofNat, ih, List.range_succ_eq_map, List.map_cons, List.map_map]
    congr 1
    · exact congrArg (fun m => UInt8.ofNat (m % 256)) (Nat.div_one n).symm
    · apply List.map_congr_left
      intro j _
      have hpow : Nat.pow 256 (j + 1) = 256 * Nat.pow 256 j := Nat.mul_comm _ _
      rw [Function.comp_apply, Nat.succ_eq_add_one, hpow, Nat.div_div_eq_div_mul]

end LittleEndian

namespace IntKind

theorem two_pow_bits (k : IntKind) : Nat.pow 2 (8 * k.size) = k.modulus := by
  cases k with
  | u8 | i8 | u16 | i16 | u32 | i32 => rfl

/-- A field is written as the two's complement of its value, for unsigned kinds as for signed. -/
theorem encode_eq_ofInt (k : IntKind) (v : Int) : k.encode v = LittleEndian.ofInt k.size v := by
  rw [encode, LittleEndian.ofNat_eq_map_range, LittleEndian.ofInt]
  apply List.map_congr_left
  intro j _
  -- on both sides the eight bits from `8 * j` on of the value modulo the number of values
  apply congrArg UInt8.ofBitVec
  apply BitVec.eq_of_toNat_eq
  have hbits : (BitVec.ofInt (8 * k.size) v).toNat = (v % k.modulus).toNat := by
    rw [BitVec.toNat_ofInt, ← k.two_pow_bits]
    rfl
  have hbase : (256 : Nat).pow j = Nat.pow 2 (8 * j) := (Nat.pow_mul 2 8 j).symm
  rw [BitVec.extractLsb'_toNat, hbits, Nat.shiftRight_eq_div_pow, BitVec.toNat_ofNat, hbase]
  exact Nat.mod_mod _ _

/-! ## Runs of fields -/

/-- The bytes of a run of values, each in its own kind, that follow one another without gaps. -/
def encodeAll : List IntKind → List Int → List UInt8
  | kind :: kinds, v :: values => LittleEndian.ofInt kind.size v ++ encodeAll kinds values
  | _, _ => []

/-- The values of a run of integer fields. -/
def decodeAll : List IntKind → List UInt8 → List Int
  | [], _ => []
  | kind :: kinds, bytes => kind.decode (bytes.take kind.size) ::
      decodeAll kinds (bytes.drop kind.size)

/-- The number of bytes of a run of integer fields. -/
def totalSize (kinds : List IntKind) : Nat := FieldKind.totalSize (kinds.map .int)

theorem totalSize_cons (kind : IntKind) (kinds : List IntKind) :
    totalSize (kind :: kinds) = kind.size + totalSize kinds := rfl

/-- The reader of mixed runs finds the same values. -/
theorem map_int_decodeAll (kinds : List IntKind) (bytes : List UInt8) :
    FieldKind.decodeAll (kinds.map .int) bytes = (decodeAll kinds bytes).map .int := by
  induction kinds generalizing bytes with
  | nil => rfl
  | cons kind kinds ih =>
    rw [List.map_cons, FieldKind.decodeAll, ih, decodeAll, List.map_cons]
    rfl

theorem length_encodeAll {kinds : List IntKind} {values : List Int}
    (h : List.Forall₂ InRange kinds values) :
    (encodeAll kinds values).length = totalSize kinds := by
  induction h with
  | nil => rfl
  | cons _ _ ih =>
    rw [encodeAll, List.length_append, LittleEndian.length_ofInt, ih, totalSize_cons]

/-- **A written run is read back.**  Each field takes its own bytes and leaves those of the fields
behind it. -/
theorem decodeAll_encodeAll_append {kinds : List IntKind} {values : List Int}
    (h : List.Forall₂ InRange kinds values) (rest : List UInt8) :
    decodeAll kinds (encodeAll kinds values ++ rest) = values := by
  induction h with
  | nil => rfl
  | @cons kind v kinds values hv _ ih =>
    have hlength := LittleEndian.length_ofInt kind.size v
    rw [encodeAll, List.append_assoc, decodeAll, List.take_left' hlength, List.drop_left' hlength,
      ih, ← kind.encode_eq_ofInt, kind.decode_encode hv]

/-- **What is read is in range.** -/
theorem inRange_decodeAll {kinds : List IntKind} {bytes : List UInt8}
    (h : totalSize kinds ≤ bytes.length) :
    List.Forall₂ InRange kinds (decodeAll kinds bytes) := by
  induction kinds generalizing bytes with
  | nil => exact .nil
  | cons kind kinds ih =>
    rw [totalSize_cons] at h
    refine .cons (kind.inRange_decode (List.length_take_le _ _)) (ih ?_)
    rw [List.length_drop]
    omega

/-- **What was read is written as the bytes that it was read from.** -/
theorem encodeAll_decodeAll {kinds : List IntKind} {bytes : List UInt8}
    (h : totalSize kinds ≤ bytes.length) :
    encodeAll kinds (decodeAll kinds bytes) = bytes.take (totalSize kinds) := by
  induction kinds generalizing bytes with
  | nil => rfl
  | cons kind kinds ih =>
    rw [totalSize_cons] at h ⊢
    have hfirst : (bytes.take kind.size).length = kind.size := by
      rw [List.length_take]
      omega
    have hrest : totalSize kinds ≤ (bytes.drop kind.size).length := by
      rw [List.length_drop]
      omega
    rw [decodeAll, encodeAll, ← kind.encode_eq_ofInt, kind.encode_decode hfirst, ih hrest,
      ← List.take_add]

/-- Writing is a bijection, from the lists of values in range to the byte sequences of the size of
the run; reading is its inverse. -/
theorem bijOn_encodeAll (kinds : List IntKind) :
    Set.BijOn (encodeAll kinds) {values | List.Forall₂ InRange kinds values}
      {bytes | bytes.length = totalSize kinds} := by
  have hinv : Set.InvOn (decodeAll kinds) (encodeAll kinds)
      {values | List.Forall₂ InRange kinds values} {bytes | bytes.length = totalSize kinds} := by
    refine ⟨?_, ?_⟩
    · intro values h
      have hback := decodeAll_encodeAll_append h []
      rwa [List.append_nil] at hback
    · intro bytes h
      exact (encodeAll_decodeAll h.ge).trans (List.take_of_length_le h.le)
  refine hinv.bijOn ?_ ?_
  · intro values h
    exact length_encodeAll h
  · intro bytes h
    exact inRange_decodeAll h.ge

end IntKind

/-! ## The reader -/

theorem Cursor.length_ahead {c : Cursor} {n : Nat} (h : c.fits n = true) : n ≤ c.ahead.length := by
  obtain ⟨hstart, hend⟩ := Cursor.fits_iff.mp h
  rw [Cursor.ahead, List.length_drop, Array.length_toList]
  omega

namespace Reader

variable {kinds : List IntKind}

/-- A run of integer fields that fits, read at once. -/
theorem run_integer_fields_of_fits {c : Cursor} (h : c.fits (IntKind.totalSize kinds) = true) :
    (fields (kinds.map .int)).run c =
      .ok ((IntKind.decodeAll kinds c.ahead).map .int) (c.advance (IntKind.totalSize kinds)) := by
  rw [run_fields_of_fits h, IntKind.map_int_decodeAll]
  rfl

/-- **Integer fields and their bytes determine each other.**  Values in range, written as
little-endian two's complement anywhere in a byte sequence, are read back there as they were, and
exactly their bytes are passed.  Wherever a run fits, what is read is in range and is written as the
bytes that were passed.  So every sequence of bytes of the size of the run is that of one list of
values. -/
theorem integer_fields_biject_with_bytes (kinds : List IntKind) :
    (∀ (values : List Int) (before after : List UInt8) (image : Bytes) (region : String),
      List.Forall₂ IntKind.InRange kinds values →
      image.toList = before ++ IntKind.encodeAll kinds values ++ after →
        (fields (kinds.map .int)).run ⟨image, before.length, region⟩ =
          .ok (values.map .int) ⟨image, before.length + IntKind.totalSize kinds, region⟩) ∧
    (∀ c : Cursor, 0 ≤ c.position ∧ c.position + IntKind.totalSize kinds ≤ c.bytes.size →
      ∃ values, List.Forall₂ IntKind.InRange kinds values ∧
        (fields (kinds.map .int)).run c =
          .ok (values.map .int) ⟨c.bytes, c.position + IntKind.totalSize kinds, c.region⟩ ∧
        IntKind.encodeAll kinds values = (c.bytes.extract c.position.toNat
          (c.position.toNat + IntKind.totalSize kinds)).toList) ∧
    Set.BijOn (IntKind.encodeAll kinds) {values | List.Forall₂ IntKind.InRange kinds values}
      {bytes | bytes.length = IntKind.totalSize kinds} := by
  refine ⟨?_, ?_, IntKind.bijOn_encodeAll kinds⟩
  · intro values before after image region hvalues himage
    have hsize : image.size = before.length + IntKind.totalSize kinds + after.length := by
      rw [← Array.length_toList, himage, List.length_append, List.length_append,
        IntKind.length_encodeAll hvalues]
    have hfits : Cursor.fits ⟨image, before.length, region⟩ (IntKind.totalSize kinds) = true := by
      rw [Cursor.fits_iff]
      simp only [hsize]
      omega
    have hahead : Cursor.ahead ⟨image, before.length, region⟩ =
        IntKind.encodeAll kinds values ++ after := by
      rw [Cursor.ahead, himage, List.append_assoc, Int.toNat_natCast, List.drop_left]
    rw [run_integer_fields_of_fits hfits, hahead, IntKind.decodeAll_encodeAll_append hvalues]
    rfl
  · intro c h
    have hfits := Cursor.fits_iff.mpr h
    have hlength := Cursor.length_ahead hfits
    refine ⟨IntKind.decodeAll kinds c.ahead, IntKind.inRange_decodeAll hlength,
      run_integer_fields_of_fits hfits, ?_⟩
    rw [IntKind.encodeAll_decodeAll hlength, Cursor.ahead]
    exact (Bytes.toList_chunk c.bytes _ _).symm

/-- One field of each kind behind a single byte, with the high bit set in all of them, is read back.
The last three of five bytes are read and written again, and five bytes with high bits are those of
an unsigned word and a signed byte. -/
theorem integer_fields_biject_with_bytes_samples :
    (fields [.int .u8, .int .i16, .int .u32, .int .i8, .int .u16, .int .i32]).run
        ⟨#[7, 0xFF, 0, 0x80, 0xFE, 0xFF, 0xFF, 0xFF, 0xFF, 1, 0x80, 0, 0, 0, 0x80, 9], 1,
          "header"⟩ =
      .ok [.int 255, .int (-32768), .int 0xFFFFFFFE, .int (-1), .int 0x8001, .int (-0x80000000)]
        ⟨#[7, 0xFF, 0, 0x80, 0xFE, 0xFF, 0xFF, 0xFF, 0xFF, 1, 0x80, 0, 0, 0, 0x80, 9], 15,
          "header"⟩ ∧
    (∃ values, List.Forall₂ IntKind.InRange [.i16, .u8] values ∧
      (fields [.int .i16, .int .u8]).run ⟨#[1, 2, 0xFE, 0xFF, 0x80], 2, "globals"⟩ =
        .ok (values.map .int) ⟨#[1, 2, 0xFE, 0xFF, 0x80], 5, "globals"⟩ ∧
      IntKind.encodeAll [.i16, .u8] values = [0xFE, 0xFF, 0x80]) ∧
    ∃ values, List.Forall₂ IntKind.InRange [.u32, .i8] values ∧
      IntKind.encodeAll [.u32, .i8] values = [0, 0, 0, 0x80, 0xFF] := by
  refine ⟨?_, ?_, ?_⟩
  · refine (integer_fields_biject_with_bytes [.u8, .i16, .u32, .i8, .u16, .i32]).1
      [255, -32768, 0xFFFFFFFE, -1, 0x8001, -0x80000000] [7] [9] _ _ ?_ (by decide +kernel)
    refine .cons ?_ (.cons ?_ (.cons ?_ (.cons ?_ (.cons ?_ (.cons ?_ .nil))))) <;> decide
  · exact (integer_fields_biject_with_bytes [.i16, .u8]).2.1
      ⟨#[1, 2, 0xFE, 0xFF, 0x80], 2, "globals"⟩ (by decide)
  · exact (integer_fields_biject_with_bytes [.u32, .i8]).2.2.surjOn rfl

end Reader

end QuakeC
