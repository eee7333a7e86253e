import QuakeC.Proofs.Encoding

/-!
# Lists of records as a code

A list of records is read record by record with a cursor and written as the bytes of its records one
after another.  `RecordCodec` says what ties the two together, and what a reading that fails leaves
behind.  It is stated once for every kind of record; the kinds differ in the size of a record, in
the number of bytes that are fetched first, and in how many bytes of a record carry its value.

* `RecordFormat.RewrittenBy` — a record that was read is written as the bytes that carry its value.
* `RecordFormat.WrittenBy.getElem?_flatMap` — where a byte of a written list comes from.
* `RecordFormat.recordCodec` — reader, writer and format together make a codec of lists.
* `Record.lists_decode_and_reencode` — statements, definitions and functions are such codecs.
-/

set_option autoImplicit false

namespace QuakeC

variable {α : Type}

/-! ## The code of a list -/

/-- How reading the record at `start` can fail, and where the cursor is then left: behind a record
that is there but is none, before bytes that are missing, or between the two parts of a record of
which only the first `head` bytes are there. -/
inductive StopsAt (image : Bytes) (region : String) (size head start : Nat) : Error → Cursor → Prop
  | invalidEnum (kind : Enumeration) (value : Int) (h : start + size ≤ image.size) :
    StopsAt image region size head start (.invalidEnum kind value region start)
      ⟨image, (start + size : Nat), region⟩
  | tooManyParms (count : Int) (h : start + size ≤ image.size) :
    StopsAt image region size head start
      (.invalidRecord region start (FunctionRecord.tooManyParms count))
      ⟨image, (start + size : Nat), region⟩
  | noHead (h : image.size < start + head) :
    StopsAt image region size head start
      (.truncated region start head (max 0 ((image.size : Int) - start))) ⟨image, start, region⟩
  | headOnly (h : start + head ≤ image.size) (h' : image.size < start + size) :
    StopsAt image region size head start
      (.truncated region (start + head : Nat) (size - head : Nat)
        (max 0 ((image.size : Int) - (start + head : Nat))))
      ⟨image, (start + head : Nat), region⟩

/-- The records that `read` reads and `encode` writes have `size` bytes, of which `head` are fetched
first and `used` carry the value. -/
structure RecordCodec (read : Reader α) (encode : α → List UInt8) (InRange : α → Prop)
    (size head : Nat) (used : α → Nat) : Prop where
  /-- Written records are read back at every place, whatever stands behind them, and passed. -/
  decodes : ∀ (image : Bytes) (s : Nat) (region : String) (xs : List α) (after : List UInt8),
    (∀ x ∈ xs, InRange x) → image.toList.drop s = xs.flatMap encode ++ after →
    (Reader.many read xs.length).run ⟨image, s, region⟩ =
      .ok xs ⟨image, (s + xs.length * size : Nat), region⟩
  /-- Records that were read are written in as many bytes as they were read from, with every byte
  that carries the value as it was. -/
  reencodes : ∀ (image : Bytes) (s : Nat) (region : String) (n : Nat) (xs : List α) (c : Cursor),
    (Reader.many read n).run ⟨image, s, region⟩ = .ok xs c →
    xs.length = n ∧ (∀ x ∈ xs, InRange x) ∧ c = ⟨image, (s + n * size : Nat), region⟩ ∧
      (xs.flatMap encode).length = n * size ∧
      (∀ i x j, xs[i]? = some x → j < used x →
        (xs.flatMap encode)[i * size + j]? = image[s + i * size + j]?) ∧
      ((∀ x ∈ xs, used x = size) → xs.flatMap encode = (image.extract s (s + n * size)).toList)
  /-- A reading that fails stops at the first record that cannot be read by itself, with the report
  of that record. -/
  stops : ∀ (image : Bytes) (s : Nat) (region : String) (n : Nat) (e : Error) (c : Cursor),
    (Reader.many read n).run ⟨image, s, region⟩ = .error e c →
    ∃ i < n, (∀ j < i, ∃ x, read.run ⟨image, (s + j * size : Nat), region⟩ =
        .ok x ⟨image, (s + (j + 1) * size : Nat), region⟩) ∧
      read.run ⟨image, (s + i * size : Nat), region⟩ = .error e c ∧
      StopsAt image region size head (s + i * size) e c

/-! ## From one record to a list -/

namespace RecordFormat

variable {f : RecordFormat α} {read : Reader α} {encode : α → List UInt8} {InRange : α → Prop}
  {used : α → Nat} {image : Bytes}

/-- A record that was read is written with the bytes that carry its value as they were. -/
structure RewrittenBy (f : RecordFormat α) (encode : α → List UInt8) (used : α → Nat) : Prop where
  used_le : ∀ c, f.Valid c → used (f.value c) ≤ f.size
  take_encode : ∀ c : Bytes, c.size = f.size → f.Valid c →
    (encode (f.value c)).take (used (f.value c)) = c.toList.take (used (f.value c))

/-- Byte `j` of record `i` in a written list. -/
theorem WrittenBy.getElem?_flatMap (h : f.WrittenBy encode InRange) :
    ∀ (xs : List α) {i j : Nat} {x : α}, xs[i]? = some x → j < f.size →
      (xs.flatMap encode)[i * f.size + j]? = (encode x)[j]? := by
  intro xs
  induction xs with
  | nil => intro i j x hx; simp at hx
  | cons y xs ih =>
    intro i j x hx hj
    rw [List.flatMap_cons]
    cases i with
    | zero =>
      obtain rfl : y = x := by simpa using hx
      rw [Nat.zero_mul, Nat.zero_add, List.getElem?_append_left (by rw [h.length_encode]; exact hj)]
    | succ i =>
      rw [Nat.succ_mul, List.getElem?_append_right (by rw [h.length_encode]; omega),
        h.length_encode, ← ih (by simpa using hx) hj]
      congr 1
      omega

/-- The place of a record in a list of values. -/
theorem getElem?_values {p n i : Nat} {x : α} (h : (f.values image p n)[i]? = some x) :
    i < n ∧ x = f.value (f.chunkAt image (p + i * f.size)) := by
  have hi : i < n := by
    obtain ⟨hi, -⟩ := List.getElem?_eq_some_iff.mp h
    rwa [length_values] at hi
  refine ⟨hi, ?_⟩
  simpa [values, hi] using h.symm

/-- A used byte of a record that was read is written as it was. -/
theorem RewrittenBy.getElem?_encode (h : f.RewrittenBy encode used) {p j : Nat}
    (hp : f.Decodable image p) (hj : j < used (f.value (f.chunkAt image p))) :
    (encode (f.value (f.chunkAt image p)))[j]? = image[p + j]? := by
  have hsize : (f.chunkAt image p).size = f.size := Bytes.size_chunk_of_le hp.1
  have hused := h.used_le _ hp.2
  have htake := congrArg (fun l : List UInt8 => l[j]?) (h.take_encode _ hsize hp.2)
  simp only [List.getElem?_take_of_lt hj] at htake
  rw [htake, chunkAt, Bytes.toList_chunk, List.getElem?_take_of_lt (by omega), List.getElem?_drop,
    Array.getElem?_toList]

/-- **Used bytes of a list that was read are written as they were.** -/
theorem RewrittenBy.getElem?_flatMap (h : f.RewrittenBy encode used)
    (hf : f.WrittenBy encode InRange) {s n : Nat}
    (hdec : ∀ i < n, f.Decodable image (s + i * f.size)) {i j : Nat} {x : α}
    (hx : (f.values image s n)[i]? = some x) (hj : j < used x) :
    ((f.values image s n).flatMap encode)[i * f.size + j]? = image[s + i * f.size + j]? := by
  obtain ⟨hi, rfl⟩ := getElem?_values hx
  have hused := h.used_le _ (hdec i hi).2
  rw [hf.getElem?_flatMap _ hx (by omega), h.getElem?_encode (hdec i hi) hj]

/-- Where all bytes are used, the list is written as the bytes that it was read from. -/
theorem RewrittenBy.flatMap_eq (h : f.RewrittenBy encode used) (hf : f.WrittenBy encode InRange) :
    ∀ (n s : Nat), (∀ i < n, f.Decodable image (s + i * f.size)) →
      (∀ x ∈ f.values image s n, used x = f.size) →
      (f.values image s n).flatMap encode = (image.chunk s (n * f.size)).toList := by
  intro n
  induction n with
  | zero => intro s _ _; simp [values, Bytes.toList_chunk]
  | succ n ih =>
    intro s hdec hused
    obtain ⟨hs, hrest⟩ := forall_decodable_succ.mp hdec
    rw [values_succ] at hused ⊢
    obtain ⟨hfirst, hlater⟩ := List.forall_mem_cons.mp hused
    have hsize : (f.chunkAt image s).size = f.size := Bytes.size_chunk_of_le hs.1
    have hchunk : encode (f.value (f.chunkAt image s)) = (f.chunkAt image s).toList := by
      have htake := h.take_encode _ hsize hs.2
      rwa [hfirst, List.take_of_length_le (Nat.le_of_eq (hf.length_encode _)),
        List.take_of_length_le (Nat.le_of_eq hsize)] at htake
    rw [List.flatMap_cons, ih _ hrest hlater, hchunk, chunkAt, Bytes.toList_chunk,
      Bytes.toList_chunk, Bytes.toList_chunk, Nat.succ_mul, Nat.add_comm (n * f.size),
      List.take_add, List.drop_drop]

/-- What is reported about a record that cannot be decoded, and where that leaves the cursor. -/
theorem stopsAt {p : Nat} {region : String}
    (hfault : ∀ c, (∃ kind value, f.fault c region p = .invalidEnum kind value region p) ∨
      ∃ count, f.fault c region p = .invalidRecord region p (FunctionRecord.tooManyParms count)) :
    StopsAt image region f.size f.head p (f.failure image region p)
      ⟨image, f.stop image p, region⟩ := by
  unfold failure stop
  by_cases hsize : p + f.size ≤ image.size
  · rw [if_pos hsize, if_pos hsize]
    rcases hfault (f.chunkAt image p) with ⟨kind, value, he⟩ | ⟨count, he⟩
    · rw [he]
      exact .invalidEnum kind value hsize
    · rw [he]
      exact .tooManyParms count hsize
  · rw [if_neg hsize, if_neg hsize]
    by_cases hfirst : p + f.head ≤ image.size
    · rw [if_pos hfirst, if_pos hfirst]
      exact .headOnly hfirst (by omega)
    · rw [if_neg hfirst, if_neg hfirst]
      exact .noHead (by omega)

/-- Written records stand in the image as a run that can be decoded. -/
theorem WrittenBy.decodable_of_drop (h : f.WrittenBy encode InRange) (hsize : 0 < f.size)
    {s : Nat} {xs : List α} {after : List UInt8} (hxs : ∀ x ∈ xs, InRange x)
    (hdrop : image.toList.drop s = xs.flatMap encode ++ after) :
    (∀ i < xs.length, f.Decodable image (s + i * f.size)) ∧ f.values image s xs.length = xs := by
  by_cases hs : s ≤ image.size
  · have himage : image = (image.toList.take s ++ (xs.flatMap encode ++ after)).toArray := by
      rw [← hdrop, List.take_append_drop]
    have hlength : (image.toList.take s).length = s := by
      rw [List.length_take, Array.length_toList, Nat.min_eq_left hs]
    obtain ⟨hdec, hvalues⟩ := h.run_append xs (image.toList.take s) after hxs
    rw [← himage, hlength] at hdec hvalues
    exact ⟨hdec, hvalues⟩
  · -- behind the end of the image there is room for no record only
    rw [List.drop_of_length_le (by rw [Array.length_toList]; omega)] at hdrop
    have hnone : xs.length * f.size = 0 := by
      rw [← h.length_flatMap, (List.append_eq_nil_iff.mp hdrop.symm).1, List.length_nil]
    obtain rfl : xs = [] := by
      rcases Nat.mul_eq_zero.mp hnone with hlength | hzero
      · exact List.length_eq_zero_iff.mp hlength
      · omega
    exact ⟨fun i hi => absurd hi (Nat.not_lt_zero i), rfl⟩

/-- **Reader, writer and format make a codec of lists.** -/
theorem recordCodec (hread : f.ReadBy read) (hf : f.WrittenBy encode InRange)
    (h : f.RewrittenBy encode used) (hsize : 0 < f.size)
    (hfault : ∀ c region p, (∃ kind value, f.fault c region p = .invalidEnum kind value region p) ∨
      ∃ count, f.fault c region p = .invalidRecord region p (FunctionRecord.tooManyParms count)) :
    RecordCodec read encode InRange f.size f.head used where
  decodes image s region xs after hxs hdrop := by
    obtain ⟨hdec, hvalues⟩ := hf.decodable_of_drop hsize hxs hdrop
    rw [run_many_of_decodable hread region hdec, hvalues]
  reencodes image s region n xs c hrun := by
    obtain ⟨hdec, rfl⟩ := (outcome_many_eq_ok hread).mp (Reader.outcome_of_run_ok hrun)
    rw [run_many_of_decodable hread region hdec] at hrun
    obtain ⟨-, rfl⟩ := EStateM.Result.ok.inj hrun
    refine ⟨length_values s n, ?_, rfl, ?_, ?_, ?_⟩
    · have hlump : f.DecodesLump image ⟨s, n⟩ := hdec
      exact hf.inRange_of_mem_values hlump
    · rw [hf.length_flatMap, length_values]
    · intro i x j hx hj
      exact h.getElem?_flatMap hf hdec hx hj
    · intro hused
      exact h.flatMap_eq hf n s hdec hused
  stops image s region n e c hrun := by
    obtain ⟨i, hi, hbefore, hbad, rfl⟩ :=
      (outcome_many_eq_error hread).mp (Reader.outcome_of_run_error hrun)
    rw [run_many_of_not_decodable hread region hi hbefore hbad] at hrun
    obtain ⟨-, rfl⟩ := EStateM.Result.error.inj hrun
    refine ⟨i, hi, ?_, ?_, stopsAt fun c => hfault c region _⟩
    · intro j hj
      refine ⟨f.value (f.chunkAt image (s + j * f.size)), ?_⟩
      rw [hread, if_pos (hbefore j hj), (hbefore j hj).stop_eq, Nat.succ_mul, Nat.add_assoc]
    · rw [hread, if_neg hbad]

end RecordFormat

/-! ## The three kinds of record -/

namespace IntKind

/-- The first field of a record is written as its first bytes. -/
theorem encode_fieldAt_zero (k : IntKind) {record : List UInt8} {n : Nat} (hn : k.size = n)
    (h : n ≤ record.length) : k.encode (k.fieldAt record 0) = record.take n := by
  rw [k.encode_fieldAt (by omega), List.drop_zero, hn]

/-- Behind the bytes before it, a field is written as the bytes that follow them. -/
theorem take_append_encode (k : IntKind) {record : List UInt8} {m n : Nat} (hn : m + k.size = n)
    (h : n ≤ record.length) :
    record.take m ++ k.encode (k.fieldAt record m) = record.take n := by
  rw [k.encode_fieldAt (by omega), ← hn, List.take_add]

end IntKind

/-- The number of the instruction with a given number. -/
theorem Opcode.code_ofCode : ∀ n ≤ 65, (ofCode (n : Nat)).code = n := by
  decide

/-- The number of the type with a given number. -/
theorem ValueType.code_ofCode : ∀ n ≤ 7, (ofCode (n : Nat)).code = n := by
  decide

namespace Statement

/-- **A statement that was read is written as its bytes.** -/
theorem encode_value {c : Bytes} (hsize : c.size = 8) (h : format.Valid c) :
    (format.value c).encode = c.toList := by
  have hlength : c.toList.length = 8 := hsize
  have hcode : (Opcode.ofCode (c.u16At 0)).code = IntKind.u16.fieldAt c.toList 0 := by
    rw [IntKind.fieldAt_u16]
    exact Opcode.code_ofCode _ h
  simp only [format, encode, hcode, ← IntKind.fieldAt_i16]
  rw [IntKind.u16.encode_fieldAt_zero (show _ = 2 from rfl) (by omega),
    IntKind.i16.take_append_encode (show 2 + _ = 4 from rfl) (by omega),
    IntKind.i16.take_append_encode (show 4 + _ = 6 from rfl) (by omega),
    IntKind.i16.take_append_encode (show 6 + _ = 8 from rfl) (by omega),
    List.take_of_length_le (by omega)]

theorem rewrittenBy : format.RewrittenBy encode (fun _ => 8) where
  used_le _ _ := Nat.le_refl 8
  take_encode c hsize h := by rw [encode_value hsize h]

end Statement

namespace Definition

/-- The type and the flag make up the first word again. -/
theorem packed_value {c : Bytes} (h : format.Valid c) :
    (format.value c).type.code % saveBit + (if (format.value c).saveGlobal then saveBit else 0) =
      c.u16At 0 := by
  have hcode : (format.value c).type.code = (c.u16At 0 % 0x8000 : Nat) :=
    ValueType.code_ofCode _ h
  have hlt := c.u16At_lt 0
  rw [hcode]
  simp only [format, decide_eq_true_eq, saveBit]
  split <;> omega

/-- **A definition that was read is written as its bytes.** -/
theorem encode_value {c : Bytes} (hsize : c.size = 8) (h : format.Valid c) :
    (format.value c).encode = c.toList := by
  have hlength : c.toList.length = 8 := hsize
  have hofs : (format.value c).ofs = IntKind.u16.fieldAt c.toList 2 :=
    (IntKind.fieldAt_u16 c 2).symm
  have hname : (format.value c).sName = IntKind.i32.fieldAt c.toList 4 :=
    (IntKind.fieldAt_i32 c 4).symm
  rw [encode, packed_value h, ← IntKind.fieldAt_u16, hofs, hname,
    IntKind.u16.encode_fieldAt_zero (show _ = 2 from rfl) (by omega),
    IntKind.u16.take_append_encode (show 2 + _ = 4 from rfl) (by omega),
    IntKind.i32.take_append_encode (show 4 + _ = 8 from rfl) (by omega),
    List.take_of_length_le (by omega)]

theorem rewrittenBy : format.RewrittenBy encode (fun _ => 8) where
  used_le _ _ := Nat.le_refl 8
  take_encode c hsize h := by rw [encode_value hsize h]

end Definition

namespace FunctionRecord

/-- The seven words of a function that was read are written as their bytes. -/
theorem encode_words {c : Bytes} (hsize : c.size = 36) :
    IntKind.i32.encode (c.i32At 0) ++ IntKind.u32.encode (c.u32At 4) ++
      IntKind.u32.encode (c.u32At 8) ++ IntKind.u32.encode (c.u32At 12) ++
      IntKind.u32.encode (c.u32At 16) ++ IntKind.u32.encode (c.u32At 20) ++
      IntKind.u32.encode (c.u32At 24) = c.toList.take 28 := by
  have hlength : c.toList.length = 36 := hsize
  simp only [← IntKind.fieldAt_i32, ← IntKind.fieldAt_u32]
  rw [IntKind.i32.encode_fieldAt_zero (show _ = 4 from rfl) (by omega),
    IntKind.u32.take_append_encode (show 4 + _ = 8 from rfl) (by omega),
    IntKind.u32.take_append_encode (show 8 + _ = 12 from rfl) (by omega),
    IntKind.u32.take_append_encode (show 12 + _ = 16 from rfl) (by omega),
    IntKind.u32.take_append_encode (show 16 + _ = 20 from rfl) (by omega),
    IntKind.u32.take_append_encode (show 20 + _ = 24 from rfl) (by omega),
    IntKind.u32.take_append_encode (show 24 + _ = 28 from rfl) (by omega)]

/-- The sizes of its parameters are written as the bytes behind the words. -/
theorem encode_sizes {c : Bytes} (hsize : c.size = 36) (h : format.Valid c) :
    (format.value c).parmSize.map UInt8.ofNat = (c.toList.drop 28).take (c.u32At 24) := by
  have hle : c.u32At 24 ≤ 8 := h
  have hwhole : c.chunk 0 36 = c := by
    apply Array.ext'
    rw [Bytes.toList_chunk, List.drop_zero, List.take_of_length_le (Nat.le_of_eq hsize)]
  have hsizes := take_sizes c 0 hle (by omega)
  rw [hwhole, Bytes.toList_chunk, List.take_take, Nat.min_eq_left hle, Nat.zero_add] at hsizes
  have hid : UInt8.ofNat ∘ UInt8.toNat = id := funext fun b => UInt8.ofNat_toNat
  simp only [format]
  rw [← hsizes, List.map_map, hid, List.map_id]

theorem length_parmSize_value (c : Bytes) : (format.value c).parmSize.length = c.u32At 24 := by
  simp [format]

/-- A function that was read is written as its words and the sizes that count, filled up with
zeros. -/
theorem encode_value {c : Bytes} (hsize : c.size = 36) (h : format.Valid c) :
    (format.value c).encode = c.toList.take 28 ++
      ((c.toList.drop 28).take (c.u32At 24) ++ List.replicate 8 0).take 8 := by
  rw [encode, length_parmSize_value, encode_sizes hsize h, ← encode_words hsize]
  rfl

/-- **A function that was read is written as its bytes**, up to the last size that counts. -/
theorem rewrittenBy : format.RewrittenBy encode (fun f => 28 + f.parmSize.length) where
  used_le c h := by
    have hle : c.u32At 24 ≤ 8 := h
    show 28 + (format.value c).parmSize.length ≤ 36
    rw [length_parmSize_value]
    omega
  take_encode c hsize h := by
    have hle : c.u32At 24 ≤ 8 := h
    have hwords : (c.toList.take 28).length = 28 := by
      rw [List.length_take, Array.length_toList, hsize]
      rfl
    have hsizes : ((c.toList.drop 28).take (c.u32At 24)).length = c.u32At 24 := by
      rw [← encode_sizes hsize h, List.length_map, length_parmSize_value]
    rw [encode_value hsize h, length_parmSize_value, List.take_append,
      List.take_of_length_le (show (c.toList.take 28).length ≤ _ by omega), hwords,
      Nat.add_sub_cancel_left, List.take_take, Nat.min_eq_left hle, List.take_left' hsizes,
      ← List.take_add]

end FunctionRecord

namespace Record

/-- **Lists of records are read and written faithfully.**  Statements and definitions have eight
bytes, all of which carry the value and are fetched together.  Functions have 36, of which 28 are
fetched first; the sizes behind the last one that counts carry nothing. -/
theorem lists_decode_and_reencode :
    RecordCodec Statement.read Statement.encode Statement.InRange 8 8 (fun _ => 8) ∧
    RecordCodec Definition.read Definition.encode Definition.InRange 8 8 (fun _ => 8) ∧
    RecordCodec FunctionRecord.read FunctionRecord.encode FunctionRecord.InRange 36 28
      (fun f => 28 + f.parmSize.length) := by
  refine ⟨?_, ?_, ?_⟩
  · exact RecordFormat.recordCodec Statement.readBy Statement.writtenBy Statement.rewrittenBy
      (by decide) fun _ _ _ => .inl ⟨_, _, rfl⟩
  · exact RecordFormat.recordCodec Definition.readBy Definition.writtenBy Definition.rewrittenBy
      (by decide) fun _ _ _ => .inl ⟨_, _, rfl⟩
  · exact RecordFormat.recordCodec FunctionRecord.readBy FunctionRecord.writtenBy
      FunctionRecord.rewrittenBy (by decide) fun _ _ _ => .inr ⟨_, rfl⟩

/-- A stray byte, a built-in with one parameter and seven sizes that do not count, and 30 bytes of
another function. -/
def cutOff : Bytes :=
  #[7, 0xFF, 0xFF, 0xFF, 0xFF, 0, 0, 0, 0, 0, 0, 0, 0, 0, 0, 0, 0, 0, 0, 0, 0, 0, 0, 0, 0,
    1, 0, 0, 0, 3, 9, 9, 9, 9, 9, 9, 9] ++ (List.replicate 30 0).toArray

/-- Two definitions are read back between other bytes.  Of the functions in `cutOff` the first is
read and written as it was, apart from the sizes that do not count; two are not there, and the
cursor is left between the words and the sizes of the second. -/
theorem lists_decode_and_reencode_samples :
    (∃ c, (Reader.many Definition.read 2).run
        ⟨#[7, 2, 0x80, 28, 0, 1, 0, 0, 0, 3, 0, 0xFF, 0xFF, 0xFF, 0xFF, 0xFF, 0xFF, 9], 1,
          "fieldDefs"⟩ =
      .ok [⟨.float, true, 28, 1⟩, ⟨.vector, false, 65535, -1⟩] c ∧ c.position = 17) ∧
    (∃ xs c, (Reader.many FunctionRecord.read 1).run ⟨cutOff, 1, "functions"⟩ = .ok xs c ∧
      (xs.flatMap FunctionRecord.encode).length = 36 ∧
      (xs.flatMap FunctionRecord.encode)[28]? = cutOff[29]? ∧
      (xs.flatMap FunctionRecord.encode)[29]? ≠ cutOff[30]?) ∧
    ∃ e c, (Reader.many FunctionRecord.read 2).run ⟨cutOff, 1, "functions"⟩ = .error e c ∧
      c.position = 1 + 36 + 28 ∧ ∃ i < 2, StopsAt cutOff "functions" 36 28 (1 + i * 36) e c := by
  obtain ⟨-, hdefinitions, hfunctions⟩ := lists_decode_and_reencode
  refine ⟨?_, ?_, ?_⟩
  · refine ⟨_, hdefinitions.decodes _ 1 _
      [⟨.float, true, 28, 1⟩, ⟨.vector, false, 65535, -1⟩] [9] ?_ (by decide), rfl⟩
    intro d hd
    simp only [List.mem_cons, List.not_mem_nil, or_false] at hd
    rcases hd with rfl | rfl
    · exact ⟨by decide, by decide, by decide⟩
    · exact ⟨by decide, by decide, by decide⟩
  · have hvalues : FunctionRecord.format.values cutOff 1 1 = [⟨-1, 0, 0, 0, 0, 0, [3]⟩] := by decide
    have hrun := RecordFormat.run_many_of_decodable FunctionRecord.readBy "functions"
      (show ∀ i < 1, FunctionRecord.format.Decodable cutOff (1 + i * 36) by decide)
    rw [hvalues] at hrun
    obtain ⟨-, -, -, hlength, hbytes, -⟩ := hfunctions.reencodes _ 1 _ _ _ _ hrun
    exact ⟨_, _, hrun, hlength, hbytes 0 _ 28 rfl (by decide), by decide⟩
  · have hrun := RecordFormat.run_many_of_not_decodable FunctionRecord.readBy "functions"
      (show 1 < 2 by decide)
      (show ∀ j < 1, FunctionRecord.format.Decodable cutOff (1 + j * 36) by decide)
      (show ¬ FunctionRecord.format.Decodable cutOff (1 + 1 * 36) by decide)
    obtain ⟨i, hi, -, -, hstop⟩ := hfunctions.stops _ 1 _ _ _ _ hrun
    exact ⟨_, _, hrun, by decide, i, hi, hstop⟩

end Record

end QuakeC
