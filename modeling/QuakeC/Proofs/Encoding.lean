import QuakeC.Proofs.Stages

/-!
# What is written is read back

Each encoder against the format that describes its reader.  A written field, record or header word
is found again at its place, whatever stands before and behind it.

* `IntKind.fieldAt_encode_append` — a written field is read back when its value is in range.
* `Statement.writtenBy`, `Definition.writtenBy`, `FunctionRecord.writtenBy` — the encoders of
  records write the formats; the values that come out of valid records are those in range.
* `RecordFormat.WrittenBy.run_append` — a run of written records is a lump of the format.
* `Header.wordsAt_append` — a written header is read back, every word modulo `2 ^ 32`.
-/

set_option autoImplicit false

namespace QuakeC

variable {α : Type}

/-! ## Words and fields -/

namespace LittleEndian

theorem length_ofNat (width n : Nat) : (ofNat width n).length = width := by
  induction width generalizing n with
  | zero => rfl
  | succ width ih => simp only [ofNat, List.length_cons, ih]

theorem toNat_ofNat (width n : Nat) : toNat (ofNat width n) = n % Nat.pow 256 width := by
  induction width generalizing n with
  | zero => exact (Nat.mod_one n).symm
  | succ width ih =>
    have hbyte : (UInt8.ofNat (n % 256)).toNat = n % 256 := by
      rw [UInt8.toNat_ofNat']
      exact Nat.mod_eq_of_lt (Nat.mod_lt n (by decide))
    have hpow : Nat.pow 256 (width + 1) = 256 * Nat.pow 256 width := Nat.mul_comm _ _
    rw [ofNat, toNat, ih, hbyte, hpow, Nat.mod_mul]

/-- Bytes are the bytes of their number. -/
theorem ofNat_toNat (bytes : List UInt8) : ofNat bytes.length (toNat bytes) = bytes := by
  induction bytes with
  | nil => rfl
  | cons b bytes ih =>
    have hlt := b.toNat_lt
    have hlow : (b.toNat + 256 * toNat bytes) % 256 = b.toNat := by omega
    have hhigh : (b.toNat + 256 * toNat bytes) / 256 = toNat bytes := by omega
    rw [List.length_cons, toNat, ofNat, hlow, hhigh, ih, UInt8.ofNat_toNat]

theorem toNat_lt (bytes : List UInt8) : toNat bytes < Nat.pow 256 bytes.length := by
  rw [← ofNat_toNat bytes, toNat_ofNat, ofNat_toNat]
  exact Nat.mod_lt _ (Nat.pow_pos (by decide))

end LittleEndian

namespace IntKind

theorem length_encode (k : IntKind) (v : Int) : (k.encode v).length = k.size :=
  LittleEndian.length_ofNat _ _

theorem pow_size (k : IntKind) : Nat.pow 256 k.size = k.modulus := by
  cases k with
  | u8 | i8 | u16 | i16 | u32 | i32 => rfl

theorem modulus_pos (k : IntKind) : 0 < k.modulus := by
  cases k with
  | u8 | i8 | u16 | i16 | u32 | i32 => decide

theorem inRange_u16 {v : Int} : u16.InRange v ↔ 0 ≤ v ∧ v < 0x10000 := Iff.rfl

theorem inRange_u32 {v : Int} : u32.InRange v ↔ 0 ≤ v ∧ v < 0x100000000 := Iff.rfl

/-- A value in range is the value of its bytes. -/
theorem decode_encode (k : IntKind) {v : Int} (h : k.InRange v) : k.decode (k.encode v) = v := by
  have hpos := k.modulus_pos
  have hword : LittleEndian.toNat (k.encode v) = (v % k.modulus).toNat := by
    rw [encode, LittleEndian.toNat_ofNat, k.pow_size]
    have hlt := Int.emod_lt_of_pos v (show (0 : Int) < k.modulus by omega)
    have hnonneg := Int.emod_nonneg v (show (k.modulus : Int) ≠ 0 by omega)
    exact Nat.mod_eq_of_lt (show (v % k.modulus).toNat < k.modulus by omega)
  rw [decode, hword]
  unfold InRange at h
  -- the remainder is the value itself or, for a negative one, the value plus the modulus
  by_cases hneg : v < 0
  · have hmod : v % k.modulus = v + k.modulus := by
      rw [← Int.add_emod_right, Int.emod_eq_of_lt] <;> split at h <;> omega
    rw [hmod]
    split at h
    · rename_i hsigned
      rw [if_pos ⟨hsigned, by omega⟩]
      omega
    · omega
  · have hmod : v % k.modulus = v := by
      rw [Int.emod_eq_of_lt] <;> split at h <;> omega
    rw [hmod]
    split at h
    · rw [if_neg (fun hle => by omega)]
      omega
    · rename_i hunsigned
      rw [if_neg (fun hle => hunsigned hle.1)]
      omega

/-- Bytes are the bytes of their value. -/
theorem encode_decode (k : IntKind) {bytes : List UInt8} (h : bytes.length = k.size) :
    k.encode (k.decode bytes) = bytes := by
  have hlt := LittleEndian.toNat_lt bytes
  rw [h, k.pow_size] at hlt
  have hmod : (k.decode bytes % k.modulus).toNat = LittleEndian.toNat bytes := by
    simp only [decode]
    split
    · rw [Int.sub_emod_right, Int.emod_eq_of_lt (by omega) (by omega), Int.toNat_natCast]
    · rw [Int.emod_eq_of_lt (by omega) (by omega), Int.toNat_natCast]
  rw [encode, hmod, ← h, LittleEndian.ofNat_toNat]

/-- What stands in the bytes of a field, or in fewer, is a value of the kind. -/
theorem inRange_decode (k : IntKind) {bytes : List UInt8} (h : bytes.length ≤ k.size) :
    k.InRange (k.decode bytes) := by
  have hlt : LittleEndian.toNat bytes < k.modulus := by
    rw [← k.pow_size]
    exact Nat.lt_of_lt_of_le (LittleEndian.toNat_lt bytes) (Nat.pow_le_pow_right (by decide) h)
  unfold InRange decode
  cases k.isSigned with
  | true =>
    simp only [true_and, ↓reduceIte]
    split <;> omega
  | false =>
    simp only [Bool.false_eq_true, false_and, ↓reduceIte]
    omega

theorem inRange_fieldAt (k : IntKind) (record : List UInt8) (i : Nat) :
    k.InRange (k.fieldAt record i) :=
  k.inRange_decode (List.length_take_le _ _)

/-- A field that was read is written as the bytes that it was read from. -/
theorem encode_fieldAt (k : IntKind) {record : List UInt8} {i : Nat}
    (h : i + k.size ≤ record.length) :
    k.encode (k.fieldAt record i) = (record.drop i).take k.size :=
  k.encode_decode (by rw [List.length_take, List.length_drop]; omega)

/-- A written field is read back, whatever stands behind it. -/
theorem fieldAt_encode_append (k : IntKind) {v : Int} (h : k.InRange v) (rest : List UInt8) :
    k.fieldAt (k.encode v ++ rest) 0 = v := by
  rw [fieldAt, List.drop_zero, List.take_left' (k.length_encode v), k.decode_encode h]

theorem fieldAt_encode (k : IntKind) {v : Int} (h : k.InRange v) :
    k.fieldAt (k.encode v) 0 = v := by
  rw [← List.append_nil (k.encode v), k.fieldAt_encode_append h]

/-- A field behind a written one is found past its bytes. -/
theorem fieldAt_append_of_size_le (k j : IntKind) {i : Nat} (h : j.size ≤ i) (w : Int)
    (rest : List UInt8) : k.fieldAt (j.encode w ++ rest) i = k.fieldAt rest (i - j.size) := by
  rw [fieldAt, fieldAt, List.drop_append, j.length_encode,
    List.drop_of_length_le (by rw [j.length_encode]; exact h), List.nil_append]

end IntKind

namespace Bytes

theorem u16At_toArray (l : List UInt8) (i : Nat) :
    (u16At l.toArray i : Int) = IntKind.u16.fieldAt l i :=
  (IntKind.fieldAt_u16 l.toArray i).symm

theorem u32At_toArray (l : List UInt8) (i : Nat) :
    (u32At l.toArray i : Int) = IntKind.u32.fieldAt l i :=
  (IntKind.fieldAt_u32 l.toArray i).symm

theorem i16At_toArray (l : List UInt8) (i : Nat) : i16At l.toArray i = IntKind.i16.fieldAt l i :=
  (IntKind.fieldAt_i16 l.toArray i).symm

theorem i32At_toArray (l : List UInt8) (i : Nat) : i32At l.toArray i = IntKind.i32.fieldAt l i :=
  (IntKind.fieldAt_i32 l.toArray i).symm

theorem inRange_u16At (bytes : Bytes) (i : Nat) : IntKind.u16.InRange (bytes.u16At i) := by
  rw [← IntKind.fieldAt_u16]
  exact IntKind.u16.inRange_fieldAt _ _

theorem inRange_u32At (bytes : Bytes) (i : Nat) : IntKind.u32.InRange (bytes.u32At i) := by
  rw [← IntKind.fieldAt_u32]
  exact IntKind.u32.inRange_fieldAt _ _

theorem inRange_i16At (bytes : Bytes) (i : Nat) : IntKind.i16.InRange (bytes.i16At i) := by
  rw [← IntKind.fieldAt_i16]
  exact IntKind.i16.inRange_fieldAt _ _

theorem inRange_i32At (bytes : Bytes) (i : Nat) : IntKind.i32.InRange (bytes.i32At i) := by
  rw [← IntKind.fieldAt_i32]
  exact IntKind.i32.inRange_fieldAt _ _

end Bytes

/-! ## Records -/

/-- An encoder writes every value in records of the size of the format; values in range are written
as valid records that stand for them, and all valid records stand for values in range. -/
structure RecordFormat.WrittenBy (f : RecordFormat α) (encode : α → List UInt8)
    (InRange : α → Prop) : Prop where
  length_encode : ∀ x, (encode x).length = f.size
  valid : ∀ x, InRange x → f.Valid (encode x).toArray
  value : ∀ x, InRange x → f.value (encode x).toArray = x
  inRange : ∀ c, f.Valid c → InRange (f.value c)

/-! ### Statements -/

/-- The instructions and their numbers. -/
theorem Opcode.code_of_mem_known :
    ∀ op ∈ known, 0 ≤ op.code ∧ op.code ≤ 65 ∧ ofCode op.code = op := by
  decide

theorem Opcode.ofCode_mem_known {n : Nat} (h : n ≤ 65) : ofCode n ∈ known := by
  have hn : n < known.length := by rw [length_known]; omega
  rw [ofCode, ofCode?_natCast, List.getElem?_eq_getElem hn]
  exact List.getElem_mem hn

namespace Statement

/-- The values that a statement can hold. -/
structure InRange (s : Statement) : Prop where
  op : s.op ∈ Opcode.known
  a : IntKind.i16.InRange s.a
  b : IntKind.i16.InRange s.b
  c : IntKind.i16.InRange s.c

theorem length_encode (s : Statement) : s.encode.length = 8 := by
  simp only [encode, List.length_append, IntKind.length_encode, IntKind.size]

theorem inRange_code {s : Statement} (h : s.InRange) : IntKind.u16.InRange s.op.code := by
  obtain ⟨hnonneg, hle, -⟩ := Opcode.code_of_mem_known s.op h.op
  rw [IntKind.inRange_u16]
  omega

theorem u16At_encode {s : Statement} (h : s.InRange) :
    (Bytes.u16At s.encode.toArray 0 : Int) = s.op.code := by
  rw [Bytes.u16At_toArray, encode, List.append_assoc, List.append_assoc,
    IntKind.u16.fieldAt_encode_append (inRange_code h)]

theorem i16At_encode {s : Statement} (h : s.InRange) :
    Bytes.i16At s.encode.toArray 2 = s.a ∧ Bytes.i16At s.encode.toArray 4 = s.b ∧
      Bytes.i16At s.encode.toArray 6 = s.c := by
  simp (disch := decide) only [Bytes.i16At_toArray, encode, List.append_assoc,
    IntKind.fieldAt_append_of_size_le, IntKind.size, Nat.reduceSub,
    IntKind.fieldAt_encode_append _ h.a, IntKind.fieldAt_encode_append _ h.b,
    IntKind.fieldAt_encode _ h.c, and_self]

theorem writtenBy : format.WrittenBy encode InRange where
  length_encode := length_encode
  valid s h := by
    have hop := u16At_encode h
    have hle := (Opcode.code_of_mem_known s.op h.op).2.1
    show Bytes.u16At s.encode.toArray 0 ≤ 65
    omega
  value s h := by
    obtain ⟨ha, hb, hc⟩ := i16At_encode h
    simp only [format, u16At_encode h, ha, hb, hc, (Opcode.code_of_mem_known s.op h.op).2.2]
  inRange c h := {
    op := Opcode.ofCode_mem_known h
    a := c.inRange_i16At 2
    b := c.inRange_i16At 4
    c := c.inRange_i16At 6 }

end Statement

/-! ### Definitions -/

/-- The stored types and their numbers. -/
theorem ValueType.code_of_mem_stored :
    ∀ t ∈ stored, 0 ≤ t.code ∧ t.code ≤ 7 ∧ ofCode t.code = t := by
  decide

theorem ValueType.ofCode_mem_stored {n : Nat} (h : n ≤ 7) : ofCode n ∈ stored := by
  have hn : n < stored.length := by rw [length_stored]; omega
  rw [ofCode, if_neg (by omega), ofStored?_natCast, List.getElem?_eq_getElem hn]
  exact List.getElem_mem hn

namespace Definition

/-- The values that a definition can hold. -/
structure InRange (d : Definition) : Prop where
  type : d.type ∈ ValueType.stored
  ofs : IntKind.u16.InRange d.ofs
  sName : IntKind.i32.InRange d.sName

theorem length_encode (d : Definition) : d.encode.length = 8 := by
  simp only [encode, List.length_append, IntKind.length_encode, IntKind.size]

/-- The number of the type stands in the low bits and the flag above them. -/
theorem u16At_encode {d : Definition} (h : d.InRange) :
    (Bytes.u16At d.encode.toArray 0 : Int) = d.type.code + if d.saveGlobal then 0x8000 else 0 := by
  obtain ⟨hnonneg, hle, -⟩ := ValueType.code_of_mem_stored d.type h.type
  have hmod : d.type.code % saveBit = d.type.code :=
    Int.emod_eq_of_lt hnonneg (by simp only [saveBit]; omega)
  have hpacked : IntKind.u16.InRange (d.type.code + if d.saveGlobal then saveBit else 0) := by
    rw [IntKind.inRange_u16, saveBit]
    split <;> omega
  rw [Bytes.u16At_toArray, encode, hmod, List.append_assoc,
    IntKind.u16.fieldAt_encode_append hpacked]
  rfl

theorem offsets_encode {d : Definition} (h : d.InRange) :
    (Bytes.u16At d.encode.toArray 2 : Int) = d.ofs ∧ Bytes.i32At d.encode.toArray 4 = d.sName := by
  simp (disch := decide) only [Bytes.u16At_toArray, Bytes.i32At_toArray, encode, List.append_assoc,
    IntKind.fieldAt_append_of_size_le, IntKind.size, Nat.reduceSub,
    IntKind.fieldAt_encode_append _ h.ofs, IntKind.fieldAt_encode _ h.sName, and_self]

theorem writtenBy : format.WrittenBy encode InRange where
  length_encode := length_encode
  valid d h := by
    have hpacked := u16At_encode h
    obtain ⟨hnonneg, hle, -⟩ := ValueType.code_of_mem_stored d.type h.type
    show Bytes.u16At d.encode.toArray 0 % 0x8000 ≤ 7
    split at hpacked <;> omega
  value d h := by
    have hpacked := u16At_encode h
    obtain ⟨hnonneg, hle, hcode⟩ := ValueType.code_of_mem_stored d.type h.type
    obtain ⟨hofs, hname⟩ := offsets_encode h
    have htype : ((Bytes.u16At d.encode.toArray 0 % 0x8000 : Nat) : Int) = d.type.code := by
      split at hpacked <;> omega
    have hsave : decide (0x8000 ≤ Bytes.u16At d.encode.toArray 0) = d.saveGlobal := by
      cases hd : d.saveGlobal with
      | false | true =>
        simp only [hd, Bool.false_eq_true, ↓reduceIte] at hpacked
        simp only [decide_eq_false_iff_not, decide_eq_true_eq]
        omega
    simp only [format, htype, hcode, hsave, hofs, hname]
  inRange c h := {
    type := ValueType.ofCode_mem_stored h
    ofs := c.inRange_u16At 2
    sName := c.inRange_i32At 4 }

end Definition

/-! ### Functions -/

namespace FunctionRecord

/-- The values that a function can hold. -/
structure InRange (f : FunctionRecord) : Prop where
  firstStatement : IntKind.i32.InRange f.firstStatement
  parmStart : IntKind.u32.InRange f.parmStart
  locals : IntKind.u32.InRange f.locals
  profile : IntKind.u32.InRange f.profile
  sName : IntKind.u32.InRange f.sName
  sFile : IntKind.u32.InRange f.sFile
  parmCount : f.parmSize.length ≤ 8
  parmSize : ∀ n ∈ f.parmSize, n < 256

theorem length_encode (f : FunctionRecord) : f.encode.length = 36 := by
  simp only [encode, List.length_append, IntKind.length_encode, IntKind.size, List.length_take,
    List.length_map, List.length_replicate, maxParms]
  omega

theorem words_encode {f : FunctionRecord} (h : f.InRange) :
    Bytes.i32At f.encode.toArray 0 = f.firstStatement ∧
      (Bytes.u32At f.encode.toArray 4 : Int) = f.parmStart ∧
      (Bytes.u32At f.encode.toArray 8 : Int) = f.locals ∧
      (Bytes.u32At f.encode.toArray 12 : Int) = f.profile ∧
      (Bytes.u32At f.encode.toArray 16 : Int) = f.sName ∧
      (Bytes.u32At f.encode.toArray 20 : Int) = f.sFile := by
  simp (disch := decide) only [Bytes.u32At_toArray, Bytes.i32At_toArray, encode, List.append_assoc,
    IntKind.fieldAt_append_of_size_le, IntKind.size, Nat.reduceSub,
    IntKind.fieldAt_encode_append _ h.firstStatement, IntKind.fieldAt_encode_append _ h.parmStart,
    IntKind.fieldAt_encode_append _ h.locals, IntKind.fieldAt_encode_append _ h.profile,
    IntKind.fieldAt_encode_append _ h.sName, IntKind.fieldAt_encode_append _ h.sFile, and_self]

theorem parmCount_encode {f : FunctionRecord} (h : f.InRange) :
    Bytes.u32At f.encode.toArray 24 = f.parmSize.length := by
  have hcount : IntKind.u32.InRange f.parmSize.length := by
    have hle := h.parmCount
    rw [IntKind.inRange_u32]
    omega
  apply Int.ofNat_inj.mp
  simp (disch := decide) only [Bytes.u32At_toArray, encode, List.append_assoc,
    IntKind.fieldAt_append_of_size_le, IntKind.size, Nat.reduceSub,
    IntKind.fieldAt_encode_append _ hcount]

/-- The sizes stand behind the words, padded with zeros. -/
theorem u8At_encode {f : FunctionRecord} (h : f.InRange) {i : Nat} (hi : i < f.parmSize.length) :
    Bytes.u8At f.encode.toArray (28 + i) = f.parmSize[i] := by
  have hle := h.parmCount
  have hsize := h.parmSize _ (List.getElem_mem hi)
  have hat : f.encode[28 + i]? = some (UInt8.ofNat f.parmSize[i]) := by
    rw [encode, List.getElem?_append_right
        (by simp only [List.length_append, IntKind.length_encode, IntKind.size]; omega),
      List.getElem?_take_of_lt
        (by simp only [List.length_append, IntKind.length_encode, IntKind.size, maxParms]
            omega),
      List.getElem?_append_left
        (by simp only [List.length_append, IntKind.length_encode, IntKind.size, List.length_map]
            omega)]
    simp only [List.length_append, IntKind.length_encode, IntKind.size, List.getElem?_map,
      Nat.reduceAdd, Nat.add_sub_cancel_left, List.getElem?_eq_getElem hi, Option.map_some]
  rw [Bytes.u8At, Array.getD_eq_getD_getElem?, List.getElem?_toArray, hat]
  exact Nat.mod_eq_of_lt hsize

theorem parmSize_encode {f : FunctionRecord} (h : f.InRange) :
    ((List.range f.parmSize.length).map fun i => Bytes.u8At f.encode.toArray (28 + i)) =
      f.parmSize := by
  apply List.ext_getElem (by rw [List.length_map, List.length_range])
  intro i _ hi
  rw [List.getElem_map, List.getElem_range, u8At_encode h hi]

theorem writtenBy : format.WrittenBy encode InRange where
  length_encode := length_encode
  valid f h := by
    show Bytes.u32At f.encode.toArray 24 ≤ 8
    rw [parmCount_encode h]
    exact h.parmCount
  value f h := by
    obtain ⟨hfirst, hstart, hlocals, hprofile, hname, hfile⟩ := words_encode h
    simp only [format, hfirst, hstart, hlocals, hprofile, hname, hfile, parmCount_encode h,
      parmSize_encode h]
  inRange c h := {
    firstStatement := c.inRange_i32At 0
    parmStart := c.inRange_u32At 4
    locals := c.inRange_u32At 8
    profile := c.inRange_u32At 12
    sName := c.inRange_u32At 16
    sFile := c.inRange_u32At 20
    parmCount := by
      show ((List.range (c.u32At 24)).map fun i => c.u8At (28 + i)).length ≤ 8
      rw [List.length_map, List.length_range]
      exact h
    parmSize := by
      intro n hn
      obtain ⟨i, -, rfl⟩ := List.mem_map.mp hn
      exact c.u8At_lt (28 + i) }

end FunctionRecord

/-! ## Runs of records -/

/-- What was put between two other texts is cut out again. -/
theorem Bytes.chunk_append (before l after : List UInt8) :
    chunk (before ++ (l ++ after)).toArray before.length l.length = l.toArray := by
  apply Array.ext'
  rw [toList_chunk, List.drop_left, List.take_left]

namespace RecordFormat

variable {f : RecordFormat α} {encode : α → List UInt8} {InRange : α → Prop}

theorem WrittenBy.length_flatMap (h : f.WrittenBy encode InRange) (xs : List α) :
    (xs.flatMap encode).length = xs.length * f.size := by
  induction xs with
  | nil => rw [List.flatMap_nil, List.length_nil, List.length_nil, Nat.zero_mul]
  | cons x xs ih =>
    rw [List.flatMap_cons, List.length_append, h.length_encode, ih, List.length_cons, Nat.succ_mul,
      Nat.add_comm]

theorem WrittenBy.length_le_flatMap (h : f.WrittenBy encode InRange) (hsize : 0 < f.size)
    (xs : List α) : xs.length ≤ (xs.flatMap encode).length := by
  rw [h.length_flatMap]
  exact Nat.le_mul_of_pos_right _ hsize

/-- The record that was written at a place is the record that is read there. -/
theorem WrittenBy.chunkAt_append (h : f.WrittenBy encode InRange) (x : α)
    (before after : List UInt8) :
    f.chunkAt (before ++ (encode x ++ after)).toArray before.length = (encode x).toArray := by
  rw [chunkAt, ← h.length_encode x, Bytes.chunk_append]

theorem WrittenBy.decodable_append (h : f.WrittenBy encode InRange) {x : α} (hx : InRange x)
    (before after : List UInt8) :
    f.Decodable (before ++ (encode x ++ after)).toArray before.length := by
  refine ⟨?_, ?_⟩
  · rw [List.size_toArray, List.length_append, List.length_append, h.length_encode]
    omega
  · rw [h.chunkAt_append]
    exact h.valid x hx

/-- **A run of written records is read back**, whatever stands before and behind it. -/
theorem WrittenBy.run_append (h : f.WrittenBy encode InRange) :
    ∀ (xs : List α) (before after : List UInt8), (∀ x ∈ xs, InRange x) →
      f.DecodesLump (before ++ (xs.flatMap encode ++ after)).toArray ⟨before.length, xs.length⟩ ∧
        f.values (before ++ (xs.flatMap encode ++ after)).toArray before.length xs.length = xs := by
  intro xs
  induction xs with
  | nil =>
    intro before after _
    exact ⟨fun i hi => absurd hi (Nat.not_lt_zero i), rfl⟩
  | cons x xs ih =>
    intro before after hxs
    obtain ⟨hx, hrest⟩ := List.forall_mem_cons.mp hxs
    have hlength : (before ++ encode x).length = before.length + f.size := by
      rw [List.length_append, h.length_encode]
    -- the first record moves in front of the run
    have hmove : before ++ ((x :: xs).flatMap encode ++ after) =
        before ++ encode x ++ (xs.flatMap encode ++ after) := by
      rw [List.flatMap_cons, List.append_assoc, List.append_assoc]
    have hfirst : f.Decodable (before ++ ((x :: xs).flatMap encode ++ after)).toArray
        before.length := by
      rw [hmove, List.append_assoc]
      exact h.decodable_append hx _ _
    obtain ⟨hdecodes, hvalues⟩ := ih (before ++ encode x) after hrest
    rw [hlength, ← hmove] at hdecodes hvalues
    refine ⟨?_, ?_⟩
    · exact forall_decodable_succ.mpr ⟨hfirst, hdecodes⟩
    · rw [List.length_cons, values_succ, hvalues, hmove, List.append_assoc, h.chunkAt_append,
        h.value x hx]

/-- What is decoded from valid records is in range. -/
theorem WrittenBy.inRange_of_mem_values (h : f.WrittenBy encode InRange) {image : Bytes}
    {lump : Lump Nat} (hlump : f.DecodesLump image lump) :
    ∀ x ∈ f.values image lump.offset lump.count, InRange x := by
  intro x hx
  obtain ⟨i, hi, rfl⟩ := List.mem_map.mp hx
  exact h.inRange _ (hlump i (List.mem_range.mp hi)).2

end RecordFormat

/-! ## The header -/

namespace Bytes

/-- A written word is read back modulo `2 ^ 32`. -/
theorem u32At_ofNat_append (n : Nat) (rest : List UInt8) :
    u32At (LittleEndian.ofNat 4 n ++ rest).toArray 0 = n % 0x100000000 := by
  rw [← IntKind.toNat_four, List.drop_zero, List.take_left' (LittleEndian.length_ofNat 4 n)]
  exact LittleEndian.toNat_ofNat 4 n

theorem u32At_ofNat (n : Nat) : u32At (LittleEndian.ofNat 4 n).toArray 0 = n % 0x100000000 := by
  rw [← List.append_nil (LittleEndian.ofNat 4 n), u32At_ofNat_append]

/-- A word behind a written one is found four bytes further. -/
theorem u32At_append_of_le {i : Nat} (h : 4 ≤ i) (n : Nat) (rest : List UInt8) :
    u32At (LittleEndian.ofNat 4 n ++ rest).toArray i = u32At rest.toArray (i - 4) := by
  rw [← IntKind.toNat_four, ← IntKind.toNat_four, List.drop_append, LittleEndian.length_ofNat,
    List.drop_of_length_le (by rw [LittleEndian.length_ofNat]; exact h), List.nil_append]

end Bytes

namespace Header

theorem length_encode (h : Header Nat) : h.encode.length = 56 := by
  simp only [encode, encodeLump, LumpName.all, List.flatMap_cons, List.flatMap_nil,
    List.length_append, LittleEndian.length_ofNat, List.length_nil]

theorem wordsAt_encode (h : Header Nat) : wordsAt h.encode.toArray 0 = h.map (· % 0x100000000) := by
  simp (disch := decide) only [wordsAt, encode, encodeLump, LumpName.all, List.flatMap_cons,
    List.flatMap_nil, LumpTable.get, List.append_assoc, List.append_nil, Nat.zero_add,
    Bytes.u32At_append_of_le, Bytes.u32At_ofNat_append, Bytes.u32At_ofNat, Nat.reduceSub, map,
    LumpTable.map, Lump.map]

/-- **A written header is read back**, every word modulo `2 ^ 32`, whatever stands before and behind
it. -/
theorem wordsAt_append (h : Header Nat) (before after : List UInt8) :
    wordsAt (before ++ (h.encode ++ after)).toArray before.length = h.map (· % 0x100000000) := by
  have hchunk := Bytes.chunk_append before h.encode after
  rw [h.length_encode] at hchunk
  rw [← wordsAt_encode, ← hchunk]
  simp (disch := decide) only [wordsAt, Bytes.u32At_chunk, Nat.zero_add, Nat.add_zero]

end Header

end QuakeC
