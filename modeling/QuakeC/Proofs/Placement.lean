import QuakeC.Charset.Standard
import QuakeC.Report
import QuakeC.Proofs.Acceptance
import QuakeC.Proofs.FirstFailure

/-!
# Where the lumps lie

A load looks at the header and at the bytes of the lumps.  It does not matter where the lumps lie,
in which order, whether they overlap, and what stands between or behind them: two images with the
same parts load alike, and nothing that is shown of the two programs tells them apart.

* `Bytes.SameParts` — two images, each with its own layout, that have the same counts and the same
  bytes for every lump.
* `RecordFormat.decodesLump_of_moved`, `RecordFormat.values_of_moved` — the records of a lump are
  read from its own bytes alone.
* `Program.Agrees` — two programs that differ in the offsets of their lumps at most.
* `load_ignores_placement` — the two loads compared.
-/

set_option autoImplicit false

namespace QuakeC

variable {α : Type}

namespace Bytes

/-- The lump lies inside the image.  Only a lump of records may lie elsewhere, when it is empty. -/
def Contains (image : Bytes) (name : LumpName) : Prop :=
  (image.lump name).offset + (image.lump name).count * name.unit ≤ image.size ∨
    ((image.lump name).count = 0 ∧ name ≠ .strings ∧ name ≠ .globals)

instance (image : Bytes) (name : LumpName) : Decidable (image.Contains name) :=
  inferInstanceAs (Decidable (_ ∨ _))

/-- Both images hold a header and all their lumps; version, checksum, counts and the bytes of every
lump are the same.  Nothing is said about sizes, offsets and other bytes. -/
structure SameParts (a b : Bytes) : Prop where
  header_left : 56 ≤ a.size
  header_right : 56 ≤ b.size
  version_eq : (Header.wordsAt a 0).version = (Header.wordsAt b 0).version
  crc_eq : (Header.wordsAt a 0).crc = (Header.wordsAt b 0).crc
  count_eq : ∀ name, (a.lump name).count = (b.lump name).count
  contains_left : ∀ name, a.Contains name
  contains_right : ∀ name, b.Contains name
  extent_eq : ∀ name, a.extent name = b.extent name

variable {a b : Bytes}

theorem SameParts.symm (h : a.SameParts b) : b.SameParts a where
  header_left := h.header_right
  header_right := h.header_left
  version_eq := h.version_eq.symm
  crc_eq := h.crc_eq.symm
  count_eq name := (h.count_eq name).symm
  contains_left := h.contains_right
  contains_right := h.contains_left
  extent_eq name := (h.extent_eq name).symm

/-- The bytes of a lump, which has one count in both images. -/
theorem SameParts.chunk_eq (h : a.SameParts b) (name : LumpName) :
    a.chunk (a.lump name).offset ((b.lump name).count * name.unit) =
      b.chunk (b.lump name).offset ((b.lump name).count * name.unit) := by
  have hextent := h.extent_eq name
  rwa [extent, extent, h.count_eq name] at hextent

/-- A lump of bytes lies inside the image even when it is empty. -/
theorem Contains.bytes {image : Bytes} {name : LumpName} (h : image.Contains name)
    (hname : name = .strings ∨ name = .globals) :
    (image.lump name).offset + (image.lump name).count ≤ image.size := by
  rcases hname with rfl | rfl
  · rcases h with h | ⟨-, hne, -⟩
    · simpa [LumpName.unit] using h
    · exact absurd rfl hne
  · rcases h with h | ⟨-, -, hne⟩
    · simpa [LumpName.unit] using h
    · exact absurd rfl hne

/-- A lump that holds a record lies inside the image. -/
theorem Contains.records {image : Bytes} {name : LumpName} (h : image.Contains name)
    (hpos : 0 < (image.lump name).count) :
    (image.lump name).offset + (image.lump name).count * name.unit ≤ image.size := by
  rcases h with h | ⟨hzero, -⟩
  · exact h
  · omega

end Bytes

/-! ## Records that have moved -/

namespace RecordFormat

variable {f : RecordFormat α} {a b : Bytes} {offset offset' count : Nat}

/-- Records that can be decoded in one place can be decoded in another that has room for them. -/
theorem decodesLump_of_moved (hinside : 0 < count → offset + count * f.size ≤ b.size)
    (hchunk : a.chunk offset' (count * f.size) = b.chunk offset (count * f.size))
    (h : f.DecodesLump a ⟨offset', count⟩) : f.DecodesLump b ⟨offset, count⟩ := by
  intro i hi
  have hpos : 0 < count := Nat.zero_lt_of_lt hi
  have hend := place_add_size_le offset f.size hi
  have hroom := hinside hpos
  have hvalid := (h i hi).2
  rw [chunkAt_congr hi hchunk] at hvalid
  exact ⟨Nat.le_trans hend hroom, hvalid⟩

theorem values_of_moved
    (hchunk : a.chunk offset' (count * f.size) = b.chunk offset (count * f.size)) :
    f.values a offset' count = f.values b offset count := by
  apply List.map_congr_left
  intro i hi
  rw [chunkAt_congr (List.mem_range.mp hi) hchunk]

end RecordFormat

/-! ## Stages of images with the same parts -/

namespace Stage

variable {lib : CharsetLibrary} {a b : Bytes} {option environment : Option Text} {s : Stage}

/-- The records of one lump. -/
theorem decodesLump_of_sameParts {f : RecordFormat α} (h : a.SameParts b) {name : LumpName}
    (hunit : name.unit = f.size) (hdec : f.DecodesLump a (a.lump name)) :
    f.DecodesLump b (b.lump name) := by
  have hlump : a.lump name = ⟨(a.lump name).offset, (b.lump name).count⟩ := by
    rw [← h.count_eq name]
  have hchunk := h.chunk_eq name
  have hinside := (h.contains_right name).records
  rw [hlump] at hdec
  rw [hunit] at hchunk hinside
  exact RecordFormat.decodesLump_of_moved hinside hchunk hdec

theorem Decodes.of_sameParts (h : a.SameParts b) (hdec : s.Decodes lib a option environment) :
    s.Decodes lib b option environment := by
  cases s with
  | header => exact h.header_right
  | charset => exact hdec
  | strings => exact (h.contains_right .strings).bytes (.inl rfl)
  | globals => exact (h.contains_right .globals).bytes (.inr rfl)
  | functions | statements | globalDefs | fieldDefs =>
    exact decodesLump_of_sameParts h rfl hdec

end Stage

namespace Program

/-- Two programs that differ in the offsets of their lumps at most: version, checksum, strings,
globals and records are the same, and so are the entry points and every report. -/
structure Agrees (p q : Program) : Prop where
  version_eq : p.header.version = q.header.version
  crc_eq : p.header.crc = q.header.crc
  strings_eq : p.strings = q.strings
  globals_eq : p.globals = q.globals
  functions_eq : p.functions = q.functions
  statements_eq : p.statements = q.statements
  globalDefs_eq : p.globalDefs = q.globalDefs
  fieldDefs_eq : p.fieldDefs = q.fieldDefs
  entryPoints_eq : p.entryPoints = q.entryPoints
  report_eq : ∀ lib wanted, p.report lib wanted = q.report lib wanted

/-- No report shows a header word. -/
theorem report_withHeader (p : Program) (lib : CharsetLibrary) (header : Header Nat)
    (wanted : Sections) : { p with header }.report lib wanted = p.report lib wanted := rfl

variable {lib : CharsetLibrary} {a b : Bytes} {option environment : Option Text}

/-- Images with the same parts have the same contents, their headers apart. -/
theorem contents_of_sameParts (h : a.SameParts b) (name : Text) :
    contents a name = { contents b name with header := Header.wordsAt a 0 } := by
  have hbytes : ∀ lump : LumpName, lump.unit = 1 →
      a.chunk (a.lump lump).offset (b.lump lump).count =
        b.chunk (b.lump lump).offset (b.lump lump).count := by
    intro lump hunit
    have hchunk := h.chunk_eq lump
    rwa [hunit, Nat.mul_one] at hchunk
  simp only [contents, h.count_eq, hbytes .strings rfl, hbytes .globals rfl]
  rw [RecordFormat.values_of_moved (h.chunk_eq .functions),
    RecordFormat.values_of_moved (h.chunk_eq .statements),
    RecordFormat.values_of_moved (h.chunk_eq .globalDefs),
    RecordFormat.values_of_moved (h.chunk_eq .fieldDefs)]

theorem contents_agrees (h : a.SameParts b) (name : Text) :
    (contents a name).Agrees (contents b name) := by
  have hcontents := contents_of_sameParts h name
  exact {
    version_eq := h.version_eq
    crc_eq := h.crc_eq
    strings_eq := by rw [hcontents]
    globals_eq := by rw [hcontents]
    functions_eq := by rw [hcontents]
    statements_eq := by rw [hcontents]
    globalDefs_eq := by rw [hcontents]
    fieldDefs_eq := by rw [hcontents]
    entryPoints_eq := by rw [hcontents, entryPoints, entryPoints]
    report_eq := fun lib wanted => by rw [hcontents, report_withHeader] }

/-- An image loads when one with the same parts does. -/
theorem load_of_sameParts (h : a.SameParts b) {p : Program}
    (hp : (load lib a option environment).1 = .ok p) :
    ∃ q, (load lib b option environment).1 = .ok q := by
  obtain ⟨hdec, name, hname, -⟩ := load_eq_ok_iff.mp hp
  exact ⟨_, load_eq_ok_iff.mpr ⟨fun s => (hdec s).of_sameParts h, name, hname, rfl⟩⟩

/-- **Where the lumps lie and what stands outside them does not matter.**  Of two images with the
same parts either both load or none, and the programs they load as agree. -/
theorem load_ignores_placement (lib : CharsetLibrary) (a b : Bytes)
    (option environment : Option Text) (h : a.SameParts b) :
    ((∃ p, (load lib a option environment).1 = .ok p) ↔
      ∃ q, (load lib b option environment).1 = .ok q) ∧
    ∀ p q, (load lib a option environment).1 = .ok p → (load lib b option environment).1 = .ok q →
      p.Agrees q := by
  refine ⟨⟨?_, ?_⟩, ?_⟩
  · rintro ⟨p, hp⟩
    exact load_of_sameParts h hp
  · rintro ⟨q, hq⟩
    exact load_of_sameParts h.symm hq
  · intro p q hp hq
    obtain ⟨-, name, hname, rfl⟩ := load_eq_ok_iff.mp hp
    obtain ⟨-, name', hname', rfl⟩ := load_eq_ok_iff.mp hq
    obtain rfl : name = name' := Except.ok.inj (hname.symm.trans hname')
    exact contents_agrees h name

/-- The parts of `overlapping` in another layout: the strings and the statement stand apart with a
byte between and two behind them, the empty lists of definitions start at the beginning, and the
empty globals lie inside the header. -/
def scattered : Bytes :=
  #[6, 0, 0, 0, 0, 0, 0, 0, 65, 0, 0, 0, 1, 0, 0, 0, 0, 0, 0, 0, 0, 0, 0, 0,
    0, 0, 0, 0, 0, 0, 0, 0, 0, 0, 0, 0, 0, 0, 0, 0, 56, 0, 0, 0, 8, 0, 0, 0,
    7, 0, 0, 0, 0, 0, 0, 0, 65, 0, 1, 0, 2, 0, 255, 255, 170,
    65, 0, 1, 0, 2, 0, 255, 255, 13, 10]

theorem overlapping_sameParts_scattered : overlapping.SameParts scattered where
  header_left := by decide
  header_right := by decide
  version_eq := by decide
  crc_eq := by decide
  count_eq name := by cases name <;> decide
  contains_left name := by cases name <;> decide
  contains_right name := by cases name <;> decide
  extent_eq name := by cases name <;> decide

theorem load_ignores_placement_scattered :
    ∃ p q, (load .standard overlapping none none).1 = .ok p ∧
      (load .standard scattered none none).1 = .ok q ∧
      p.Agrees q := by
  obtain ⟨hiff, hagrees⟩ :=
    load_ignores_placement .standard overlapping scattered none none overlapping_sameParts_scattered
  have hdec := Stage.forall_decodes_iff_wellFormed.mpr overlapping_wellFormed
  obtain ⟨p, hp⟩ : ∃ p, (load .standard overlapping none none).1 = .ok p :=
    ⟨_, load_eq_ok_iff.mpr ⟨hdec, _, rfl, rfl⟩⟩
  obtain ⟨q, hq⟩ := hiff.mp ⟨p, hp⟩
  exact ⟨p, q, hp, hq, hagrees p q hp hq⟩

end Program

end QuakeC
