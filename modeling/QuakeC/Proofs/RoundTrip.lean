import QuakeC.Charset.Standard
import QuakeC.Image
import QuakeC.Proofs.Encoding

/-!
# Loading what was written

An image that is written from parts in range loads as these parts.

* `Image.encode_split` — every lump stands in the image where the header says.
* `Image.wordsAt_encode` — the words of the header are not reduced, since no lump starts or ends
  behind the end of the image.
* `Image.decodes_encode`, `Image.ofProgram_contents_encode` — every stage of a load can be decoded
  and gives the part that was written.
* `Image.ofProgram_inRange` — what was loaded is in range, so it can be written and loaded again.
* `Image.load_undoes_encode` — both together.
-/

set_option autoImplicit false

namespace QuakeC

namespace Image

/-- The parts that an image can hold. -/
structure InRange (image : Image) : Prop where
  version : image.version < 0x100000000
  crc : image.crc < 0x100000000
  statements : ∀ s ∈ image.statements, s.InRange
  globalDefs : ∀ d ∈ image.globalDefs, d.InRange
  fieldDefs : ∀ d ∈ image.fieldDefs, d.InRange
  functions : ∀ f ∈ image.functions, f.InRange

/-! ## The layout -/

/-- A lump stands behind those that come before it in the order of the header. -/
theorem all_split (name : LumpName) :
    ∃ later, LumpName.all = LumpName.all.takeWhile (· ≠ name) ++ name :: later := by
  cases name with
  | statements | globalDefs | fieldDefs | functions | strings | globals => exact ⟨_, rfl⟩

/-- **The bytes of every lump stand at its offset.** -/
theorem encode_split (image : Image) (name : LumpName) :
    ∃ before after, image.encode = (before ++ (image.lumpBytes name ++ after)).toArray ∧
      before.length = image.lumpOffset name := by
  obtain ⟨later, hall⟩ := all_split name
  have hlumps : LumpName.all.flatMap image.lumpBytes =
      (LumpName.all.takeWhile (· ≠ name)).flatMap image.lumpBytes ++
        (image.lumpBytes name ++ later.flatMap image.lumpBytes) := by
    rw [← List.flatMap_cons, ← List.flatMap_append, ← hall]
  refine ⟨image.header.encode ++ (LumpName.all.takeWhile (· ≠ name)).flatMap image.lumpBytes,
    later.flatMap image.lumpBytes, ?_, ?_⟩
  · rw [encode, hlumps, List.append_assoc]
  · rw [List.length_append, Header.length_encode]
    rfl

theorem lumpOffset_add_length_le (image : Image) (name : LumpName) :
    image.lumpOffset name + (image.lumpBytes name).length ≤ image.encode.size := by
  obtain ⟨before, after, hencode, hbefore⟩ := image.encode_split name
  rw [hencode, List.size_toArray, List.length_append, List.length_append, hbefore]
  omega

/-- Every record has at least one byte. -/
theorem lumpCount_le_length (image : Image) (name : LumpName) :
    image.lumpCount name ≤ (image.lumpBytes name).length := by
  cases name with
  | statements => exact Statement.writtenBy.length_le_flatMap (by decide) _
  | globalDefs | fieldDefs => exact Definition.writtenBy.length_le_flatMap (by decide) _
  | functions => exact FunctionRecord.writtenBy.length_le_flatMap (by decide) _
  | strings | globals => exact Nat.le_of_eq Array.length_toList.symm

/-! ## The header -/

variable {image : Image}

theorem lump_map_mod (hsize : image.encode.size < 0x100000000) (name : LumpName) :
    (image.lump name).map (· % 0x100000000) = image.lump name := by
  have hend := image.lumpOffset_add_length_le name
  have hcount := image.lumpCount_le_length name
  simp only [lump, Lump.map]
  rw [Nat.mod_eq_of_lt (by omega), Nat.mod_eq_of_lt (by omega)]

/-- The header of an image is read back as it was written. -/
theorem wordsAt_encode (h : image.InRange) (hsize : image.encode.size < 0x100000000) :
    Header.wordsAt image.encode 0 = image.header := by
  have hwords : Header.wordsAt image.encode 0 = image.header.map (· % 0x100000000) :=
    Header.wordsAt_append image.header [] _
  rw [hwords, Header.map, LumpTable.map, header]
  simp only [lump_map_mod hsize, Nat.mod_eq_of_lt h.version, Nat.mod_eq_of_lt h.crc]

theorem lump_encode (h : image.InRange) (hsize : image.encode.size < 0x100000000)
    (name : LumpName) : image.encode.lump name = image.lump name := by
  rw [Bytes.lump, wordsAt_encode h hsize]
  cases name with
  | statements | globalDefs | fieldDefs | functions | strings | globals => rfl

/-! ## The lumps -/

/-- A lump of records is read back as it was written. -/
theorem records_encode {α : Type} {f : RecordFormat α} {enc : α → List UInt8}
    {InRange : α → Prop} (hf : f.WrittenBy enc InRange) (name : LumpName) {xs : List α}
    (hbytes : image.lumpBytes name = xs.flatMap enc) (hcount : image.lumpCount name = xs.length)
    (hxs : ∀ x ∈ xs, InRange x) :
    f.DecodesLump image.encode (image.lump name) ∧
      f.values image.encode (image.lumpOffset name) (image.lumpCount name) = xs := by
  obtain ⟨before, after, hencode, hbefore⟩ := image.encode_split name
  rw [lump, hcount, hencode, hbytes, ← hbefore]
  exact hf.run_append xs before after hxs

/-- A lump of bytes is read back as it was written. -/
theorem bytes_encode (image : Image) (name : LumpName) {bytes : Bytes}
    (hbytes : image.lumpBytes name = bytes.toList) (hcount : image.lumpCount name = bytes.size) :
    image.lumpOffset name + image.lumpCount name ≤ image.encode.size ∧
      image.encode.chunk (image.lumpOffset name) (image.lumpCount name) = bytes := by
  have hend := image.lumpOffset_add_length_le name
  rw [hbytes, Array.length_toList, ← hcount] at hend
  refine ⟨hend, ?_⟩
  obtain ⟨before, after, hencode, hbefore⟩ := image.encode_split name
  rw [hencode, hbytes, hcount, ← hbefore, ← Array.length_toList, Bytes.chunk_append]

/-- Every stage of a load can be decoded. -/
theorem decodes_encode (h : image.InRange) (hsize : image.encode.size < 0x100000000)
    {lib : CharsetLibrary} {option environment : Option Text} {charsetName : Text}
    (hname : Charset.nameOfSetting lib option environment = .ok charsetName) (s : Stage) :
    s.Decodes lib image.encode option environment := by
  cases s with
  | header =>
    show 56 ≤ image.encode.size
    rw [encode, List.size_toArray, List.length_append, Header.length_encode]
    omega
  | charset => exact ⟨charsetName, hname⟩
  | strings =>
    rw [Stage.Decodes, lump_encode h hsize]
    exact (image.bytes_encode .strings rfl rfl).1
  | globals =>
    rw [Stage.Decodes, lump_encode h hsize]
    exact (image.bytes_encode .globals rfl rfl).1
  | functions =>
    rw [Stage.Decodes, lump_encode h hsize]
    exact (records_encode FunctionRecord.writtenBy .functions rfl rfl h.functions).1
  | statements =>
    rw [Stage.Decodes, lump_encode h hsize]
    exact (records_encode Statement.writtenBy .statements rfl rfl h.statements).1
  | globalDefs =>
    rw [Stage.Decodes, lump_encode h hsize]
    exact (records_encode Definition.writtenBy .globalDefs rfl rfl h.globalDefs).1
  | fieldDefs =>
    rw [Stage.Decodes, lump_encode h hsize]
    exact (records_encode Definition.writtenBy .fieldDefs rfl rfl h.fieldDefs).1

/-- The contents of an image are the parts that it was written from. -/
theorem ofProgram_contents_encode (h : image.InRange) (hsize : image.encode.size < 0x100000000)
    (charsetName : Text) : ofProgram (Program.contents image.encode charsetName) = image := by
  have hstatements := (records_encode Statement.writtenBy .statements rfl rfl h.statements).2
  have hglobalDefs := (records_encode Definition.writtenBy .globalDefs rfl rfl h.globalDefs).2
  have hfieldDefs := (records_encode Definition.writtenBy .fieldDefs rfl rfl h.fieldDefs).2
  have hfunctions := (records_encode FunctionRecord.writtenBy .functions rfl rfl h.functions).2
  have hstrings := (image.bytes_encode .strings rfl rfl).2
  have hglobals := (image.bytes_encode .globals rfl rfl).2
  simp only [ofProgram, Program.contents, wordsAt_encode h hsize, lump_encode h hsize, lump, header,
    hstatements, hglobalDefs, hfieldDefs, hfunctions, hstrings, hglobals]

/-- What was loaded is in range. -/
theorem ofProgram_inRange {lib : CharsetLibrary} {bytes : Bytes} {option environment : Option Text}
    {p : Program}
    (hp : (Program.load lib bytes option environment).1 = .ok p) : (ofProgram p).InRange := by
  obtain ⟨hdecodes, charsetName, -, rfl⟩ := Program.load_eq_ok_iff.mp hp
  exact {
    version := bytes.u32At_lt 0
    crc := bytes.u32At_lt 4
    statements := Statement.writtenBy.inRange_of_mem_values (hdecodes .statements)
    globalDefs := Definition.writtenBy.inRange_of_mem_values (hdecodes .globalDefs)
    fieldDefs := Definition.writtenBy.inRange_of_mem_values (hdecodes .fieldDefs)
    functions := FunctionRecord.writtenBy.inRange_of_mem_values (hdecodes .functions) }

theorem load_encode (h : image.InRange) (hsize : image.encode.size < 0x100000000)
    {lib : CharsetLibrary} {option environment : Option Text} {charsetName : Text}
    (hname : Charset.nameOfSetting lib option environment = .ok charsetName) :
    (Program.load lib image.encode option environment).1 =
      .ok (Program.contents image.encode charsetName) :=
  Program.load_eq_ok_iff.mpr ⟨decodes_encode h hsize hname, charsetName, hname, rfl⟩

/-- **Loading undoes writing.**  An image shorter than `2 ^ 32` bytes that is written from parts in
range loads, under every setting that names a charset, as exactly these parts.  So whatever was
loaded can be written and loaded again, and nothing changes. -/
theorem load_undoes_encode :
    (∀ (lib : CharsetLibrary) (image : Image) (option environment : Option Text)
      (charsetName : Text),
      image.InRange → image.encode.size < 0x100000000 →
      Charset.nameOfSetting lib option environment = .ok charsetName →
      ∃ p, (Program.load lib image.encode option environment).1 = .ok p ∧ ofProgram p = image ∧
        p.header = image.header ∧ p.strings.charsetName = charsetName) ∧
    ∀ (lib : CharsetLibrary) (bytes : Bytes) (option environment : Option Text) (p : Program),
      (Program.load lib bytes option environment).1 = .ok p →
      (ofProgram p).encode.size < 0x100000000 →
      ∃ q, (Program.load lib (ofProgram p).encode option environment).1 = .ok q ∧
        ofProgram q = ofProgram p ∧ q.strings.charsetName = p.strings.charsetName := by
  refine ⟨?_, ?_⟩
  · intro lib image option environment charsetName h hsize hname
    exact ⟨_, load_encode h hsize hname, ofProgram_contents_encode h hsize charsetName,
      wordsAt_encode h hsize, rfl⟩
  · intro lib bytes option environment p hp hsize
    have h := ofProgram_inRange hp
    obtain ⟨-, charsetName, hname, rfl⟩ := Program.load_eq_ok_iff.mp hp
    exact ⟨_, load_encode h hsize hname, ofProgram_contents_encode h hsize charsetName, rfl⟩

/-- One part of each kind: a negative operand, a flagged definition, a built-in with two parameters
and bytes that are no text. -/
def sample : Image where
  version := 6
  crc := 5927
  statements := [⟨.done, 0, 0, 0⟩, ⟨.branchIfNot, 28, -3, 0⟩]
  globalDefs := [⟨.void, false, 0, 0⟩, ⟨.float, true, 28, 1⟩]
  fieldDefs := [⟨.vector, false, 65535, -1⟩]
  functions := [⟨-1, 0, 0, 0, 1, 0, [1, 3]⟩]
  strings := #[0, 97, 0, 255]
  globals := #[0, 0, 128, 63]

theorem sample_inRange : sample.InRange where
  version := by decide
  crc := by decide
  statements := by
    intro s hs
    simp only [sample, List.mem_cons, List.not_mem_nil, or_false] at hs
    rcases hs with rfl | rfl <;> exact ⟨by decide, by decide, by decide, by decide⟩
  globalDefs := by
    intro d hd
    simp only [sample, List.mem_cons, List.not_mem_nil, or_false] at hd
    rcases hd with rfl | rfl <;> exact ⟨by decide, by decide, by decide⟩
  fieldDefs := by
    intro d hd
    obtain rfl := List.mem_singleton.mp hd
    exact ⟨by decide, by decide, by decide⟩
  functions := by
    intro f hf
    obtain rfl := List.mem_singleton.mp hf
    exact ⟨by decide, by decide, by decide, by decide, by decide, by decide, by decide, by decide⟩

/-- The sample is written, loaded, written and loaded again. -/
theorem load_undoes_encode_sample :
    ∃ p, (Program.load .standard sample.encode none none).1 = .ok p ∧ ofProgram p = sample ∧
      ∃ q, (Program.load .standard (ofProgram p).encode none none).1 = .ok q ∧
        ofProgram q = sample := by
  have hsize : sample.encode.size < 0x100000000 := by decide +kernel
  obtain ⟨p, hp, hparts, -⟩ :=
    load_undoes_encode.1 .standard sample none none "ascii" sample_inRange hsize rfl
  obtain ⟨q, hq, hagain, -⟩ := load_undoes_encode.2 _ _ none none p hp (hparts.symm ▸ hsize)
  exact ⟨p, hp, hparts, q, hq, hagain.trans hparts⟩

end Image

end QuakeC
