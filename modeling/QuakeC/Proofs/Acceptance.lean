import QuakeC.Charset.Standard
import QuakeC.Proofs.Stages

/-!
# Which images load, and as what

The format of images in declarative form, and what a program says about the image that it was
loaded from.

* `Bytes.WellFormed` — the header is there, the encoding setting names a charset, the two lumps of
  bytes lie inside the image, also when they are empty, and each lump of records is empty or lies
  inside the image and holds valid records only.
* `Program.Holds` — header words, slices and records are those of the image.  A record is compared
  with its own bytes alone.
* `load_accepts_exactly_wellFormed` — a load succeeds on the well-formed images and on no others,
  and what it gives holds of the image.
-/

set_option autoImplicit false

namespace QuakeC

variable {α : Type}

namespace RecordFormat

/-- The lump is empty, wherever it is said to start, or it lies inside the image; and every record
in it is valid. -/
structure Accepts (f : RecordFormat α) (image : Bytes) (lump : Lump Nat) : Prop where
  inside : lump.count = 0 ∨ lump.offset + lump.count * f.size ≤ image.size
  valid : ∀ i < lump.count, f.Valid (image.chunk (lump.offset + i * f.size) f.size)

/-- The list holds one value for each record of the lump, which depends on the bytes of that record
alone. -/
structure Lists (f : RecordFormat α) (image : Bytes) (lump : Lump Nat) (xs : List α) : Prop where
  length_eq : xs.length = lump.count
  value_eq : ∀ i < lump.count,
    xs[i]? = some (f.value (image.chunk (lump.offset + i * f.size) f.size))

variable {f : RecordFormat α} {image : Bytes} {lump : Lump Nat}

/-- That every record is there is the same as that the last one is. -/
theorem decodesLump_iff_accepts : f.DecodesLump image lump ↔ f.Accepts image lump := by
  constructor
  · intro h
    refine ⟨?_, fun i hi => (h i hi).2⟩
    rcases Nat.eq_zero_or_pos lump.count with hzero | hpos
    · exact .inl hzero
    · have hlast := (h (lump.count - 1) (by omega)).1
      have hcount : (lump.count - 1) * f.size + f.size = lump.count * f.size := by
        rw [← Nat.succ_mul, Nat.succ_eq_add_one, Nat.sub_add_cancel hpos]
      exact .inr (by omega)
  · rintro ⟨hinside, hvalid⟩ i hi
    have hend := place_add_size_le lump.offset f.size hi
    exact ⟨by omega, hvalid i hi⟩

theorem values_lists : f.Lists image lump (f.values image lump.offset lump.count) where
  length_eq := length_values _ _
  value_eq i hi := by
    rw [values, List.getElem?_map, List.getElem?_range hi]
    rfl

end RecordFormat

/-- The format of images, under an encoding setting. -/
structure Bytes.WellFormed (lib : CharsetLibrary) (image : Bytes)
    (option environment : Option Text) : Prop where
  header : 56 ≤ image.size
  charset : ∃ name, Charset.nameOfSetting lib option environment = .ok name
  strings : (image.lump .strings).offset + (image.lump .strings).count ≤ image.size
  globals : (image.lump .globals).offset + (image.lump .globals).count ≤ image.size
  functions : FunctionRecord.format.Accepts image (image.lump .functions)
  statements : Statement.format.Accepts image (image.lump .statements)
  globalDefs : Definition.format.Accepts image (image.lump .globalDefs)
  fieldDefs : Definition.format.Accepts image (image.lump .fieldDefs)

/-- The program says what the image holds. -/
structure Program.Holds (p : Program) (lib : CharsetLibrary) (image : Bytes)
    (option environment : Option Text) : Prop where
  header : p.header = Header.wordsAt image 0
  charset : Charset.nameOfSetting lib option environment = .ok p.strings.charsetName
  strings : p.strings.bytes = image.chunk (image.lump .strings).offset (image.lump .strings).count
  length_strings : p.strings.length = (image.lump .strings).count
  globals : p.globals.bytes = image.chunk (image.lump .globals).offset (image.lump .globals).count
  length_globals : p.globals.length = (image.lump .globals).count
  functions : FunctionRecord.format.Lists image (image.lump .functions) p.functions
  statements : Statement.format.Lists image (image.lump .statements) p.statements
  globalDefs : Definition.format.Lists image (image.lump .globalDefs) p.globalDefs
  fieldDefs : Definition.format.Lists image (image.lump .fieldDefs) p.fieldDefs

theorem Stage.forall_decodes_iff_wellFormed {lib : CharsetLibrary} {image : Bytes}
    {option environment : Option Text} :
    (∀ s : Stage, s.Decodes lib image option environment) ↔
      image.WellFormed lib option environment := by
  constructor
  · intro h
    exact {
      header := h .header
      charset := h .charset
      strings := h .strings
      globals := h .globals
      functions := RecordFormat.decodesLump_iff_accepts.mp (h .functions)
      statements := RecordFormat.decodesLump_iff_accepts.mp (h .statements)
      globalDefs := RecordFormat.decodesLump_iff_accepts.mp (h .globalDefs)
      fieldDefs := RecordFormat.decodesLump_iff_accepts.mp (h .fieldDefs) }
  · intro h s
    cases s with
    | header => exact h.header
    | strings => exact h.strings
    | charset => exact h.charset
    | globals => exact h.globals
    | functions => exact RecordFormat.decodesLump_iff_accepts.mpr h.functions
    | statements => exact RecordFormat.decodesLump_iff_accepts.mpr h.statements
    | globalDefs => exact RecordFormat.decodesLump_iff_accepts.mpr h.globalDefs
    | fieldDefs => exact RecordFormat.decodesLump_iff_accepts.mpr h.fieldDefs

namespace Program

theorem contents_holds {lib : CharsetLibrary} {image : Bytes} {option environment : Option Text}
    {name : Text} (hname : Charset.nameOfSetting lib option environment = .ok name)
    (h : image.WellFormed lib option environment) :
    (contents image name).Holds lib image option environment where
  header := rfl
  charset := hname
  strings := rfl
  length_strings := Bytes.size_chunk_of_le h.strings
  globals := rfl
  length_globals := Bytes.size_chunk_of_le h.globals
  functions := RecordFormat.values_lists
  statements := RecordFormat.values_lists
  globalDefs := RecordFormat.values_lists
  fieldDefs := RecordFormat.values_lists

/-- **A load accepts exactly the well-formed images**, and the program that it gives holds of the
image: the words of the header in wire order, the slices of the two lumps of bytes, and for each
lump of records as many values as it counts, each decoded from the bytes of its own record. -/
theorem load_accepts_exactly_wellFormed (lib : CharsetLibrary) (image : Bytes)
    (option environment : Option Text) :
    ((∃ p, (load lib image option environment).1 = .ok p) ↔
        image.WellFormed lib option environment) ∧
      ∀ p, (load lib image option environment).1 = .ok p →
        p.Holds lib image option environment := by
  refine ⟨⟨?_, ?_⟩, ?_⟩
  · rintro ⟨p, hp⟩
    exact Stage.forall_decodes_iff_wellFormed.mp (load_eq_ok_iff.mp hp).1
  · intro h
    obtain ⟨name, hname⟩ := h.charset
    exact ⟨_, load_eq_ok_iff.mpr ⟨Stage.forall_decodes_iff_wellFormed.mpr h, name, hname, rfl⟩⟩
  · intro p hp
    obtain ⟨h, name, hname, rfl⟩ := load_eq_ok_iff.mp hp
    exact contents_holds hname (Stage.forall_decodes_iff_wellFormed.mp h)

/-- One statement, whose bytes are also the strings, and no globals at the very end.  The first
list of definitions is empty and starts behind the end. -/
def overlapping : Bytes :=
  #[6, 0, 0, 0, 0, 0, 0, 0, 56, 0, 0, 0, 1, 0, 0, 0, 255, 255, 255, 255, 0, 0, 0, 0,
    0, 0, 0, 0, 0, 0, 0, 0, 0, 0, 0, 0, 0, 0, 0, 0, 56, 0, 0, 0, 8, 0, 0, 0,
    64, 0, 0, 0, 0, 0, 0, 0, 65, 0, 1, 0, 2, 0, 255, 255]

theorem overlapping_wellFormed : overlapping.WellFormed .standard none none where
  header := by decide
  charset := ⟨_, rfl⟩
  strings := by decide
  globals := by decide
  functions := ⟨.inl rfl, nofun⟩
  statements := {
    inside := .inr (by decide)
    valid := by
      intro i hi
      obtain rfl : i = 0 := Nat.lt_one_iff.mp hi
      exact (by decide : (overlapping.chunk 56 8).u16At 0 ≤ 65) }
  globalDefs := ⟨.inl rfl, nofun⟩
  fieldDefs := ⟨.inl rfl, nofun⟩

theorem load_accepts_overlapping :
    ∃ p, (load .standard overlapping none none).1 = .ok p ∧
      p.Holds .standard overlapping none none := by
  obtain ⟨haccepts, hholds⟩ := load_accepts_exactly_wellFormed .standard overlapping none none
  obtain ⟨p, hp⟩ := haccepts.mpr overlapping_wellFormed
  exact ⟨p, hp, hholds p hp⟩

end Program

end QuakeC
