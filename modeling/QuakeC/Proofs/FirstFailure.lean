import QuakeC.Charset.Standard
import QuakeC.Proofs.Stages

/-!
# The first failure decides

A load that fails reports the first stage that cannot be decoded and nothing else: the report is a
function of the size of the image and of the lumps up to that stage.

* `Bytes.extent` — the bytes of a lump.
* `Stage.AgreesThrough` — two images of one size have the same header words and the same bytes for
  every lump up to a stage.  Version, checksum, later lumps and all bytes outside the earlier lumps
  are free.
* `load_reports_first_failure` — the error of a load is the report of the first stage that cannot
  be decoded, and no image that agrees through that stage gives another.
-/

set_option autoImplicit false

namespace QuakeC

variable {α : Type}

/-- The number of bytes that a lump has for each unit of its count. -/
def LumpName.unit : LumpName → Nat
  | statements => Statement.format.size
  | globalDefs | fieldDefs => Definition.format.size
  | functions => FunctionRecord.format.size
  | strings | globals => 1

/-- The bytes of a lump, as far as they lie inside the image. -/
def Bytes.extent (image : Bytes) (name : LumpName) : Bytes :=
  image.chunk (image.lump name).offset ((image.lump name).count * name.unit)

namespace Stage

/-- The lump that a stage decodes. -/
def lump? : Stage → Option LumpName
  | header | charset => none
  | strings => some .strings
  | globals => some .globals
  | functions => some .functions
  | statements => some .statements
  | globalDefs => some .globalDefs
  | fieldDefs => some .fieldDefs

/-- The lumps that are decoded up to and including a stage. -/
def lumps (s : Stage) : List LumpName := (s.earlier ++ [s]).filterMap lump?

/-- The images are of one size and agree on every lump up to the stage, in its header words and in
its bytes. -/
structure AgreesThrough (s : Stage) (image image' : Bytes) : Prop where
  size_eq : image'.size = image.size
  lump_eq : ∀ name ∈ s.lumps, image'.lump name = image.lump name
  extent_eq : ∀ name ∈ s.lumps, image'.extent name = image.extent name

end Stage

/-! ## Records of images that agree -/

namespace RecordFormat

variable {f : RecordFormat α} {image image' : Bytes}

/-- A record is a part of its lump, wherever the lump lies. -/
theorem chunkAt_congr {offset offset' count i : Nat} (hi : i < count)
    (h : image'.chunk offset' (count * f.size) = image.chunk offset (count * f.size)) :
    f.chunkAt image' (offset' + i * f.size) = f.chunkAt image (offset + i * f.size) := by
  have hend : i * f.size + f.size ≤ count * f.size := by
    simpa using place_add_size_le 0 f.size hi
  rw [chunkAt, chunkAt, ← Bytes.chunk_chunk image' hend, h, Bytes.chunk_chunk image hend]

theorem decodable_congr {p : Nat} (hsize : image'.size = image.size)
    (hchunk : f.chunkAt image' p = f.chunkAt image p) :
    f.Decodable image' p ↔ f.Decodable image p := by
  rw [Decodable, Decodable, hsize, hchunk]

theorem failure_congr {p : Nat} (hsize : image'.size = image.size)
    (hchunk : f.chunkAt image' p = f.chunkAt image p) (region : String) :
    f.failure image' region p = f.failure image region p := by
  rw [failure, failure, hsize, hchunk]

variable {lump : Lump Nat}

theorem decodesLump_congr (hsize : image'.size = image.size)
    (h : image'.chunk lump.offset (lump.count * f.size) =
      image.chunk lump.offset (lump.count * f.size)) :
    f.DecodesLump image' lump ↔ f.DecodesLump image lump :=
  forall_congr' fun _ => forall_congr' fun hi => decodable_congr hsize (chunkAt_congr hi h)

theorem ReportsLump.congr {region : String} {e : Error} (hsize : image'.size = image.size)
    (h : image'.chunk lump.offset (lump.count * f.size) =
      image.chunk lump.offset (lump.count * f.size))
    (he : f.ReportsLump image region lump e) : f.ReportsLump image' region lump e := by
  obtain ⟨i, hi, hbefore, hbad, rfl⟩ := he
  have hchunk : ∀ j ≤ i, f.chunkAt image' (lump.offset + j * f.size) =
      f.chunkAt image (lump.offset + j * f.size) := fun j hj => chunkAt_congr (by omega) h
  refine ⟨i, hi, ?_, ?_, (failure_congr hsize (hchunk i (Nat.le_refl i)) region).symm⟩
  · intro j hj
    exact (decodable_congr hsize (hchunk j (by omega))).mpr (hbefore j hj)
  · exact fun hdec => hbad ((decodable_congr hsize (hchunk i (Nat.le_refl i))).mp hdec)

end RecordFormat

/-! ## Stages of images that agree -/

theorem Bytes.chunk_eq_of_extent_eq {image image' : Bytes} {name : LumpName}
    (hlump : image'.lump name = image.lump name)
    (hextent : image'.extent name = image.extent name) :
    image'.chunk (image.lump name).offset ((image.lump name).count * name.unit) =
      image.chunk (image.lump name).offset ((image.lump name).count * name.unit) := by
  rw [extent, extent, hlump] at hextent
  exact hextent

namespace Stage

variable {lib : CharsetLibrary} {image image' : Bytes} {option environment : Option Text}
  {s : Stage}

/-- Whether a stage can be decoded depends on the size of the image and on its own lump. -/
theorem decodes_congr (hsize : image'.size = image.size)
    (hlump : ∀ name, s.lump? = some name → image'.lump name = image.lump name)
    (hextent : ∀ name, s.lump? = some name → image'.extent name = image.extent name) :
    s.Decodes lib image' option environment ↔ s.Decodes lib image option environment := by
  have hchunk := fun name hname =>
    Bytes.chunk_eq_of_extent_eq (hlump name hname) (hextent name hname)
  cases s with
  | header => rw [Decodes, Decodes, hsize]
  | strings => rw [Decodes, Decodes, hsize, hlump .strings rfl]
  | charset => exact Iff.rfl
  | globals => rw [Decodes, Decodes, hsize, hlump .globals rfl]
  | functions | statements | globalDefs | fieldDefs =>
    rw [Decodes, Decodes, hlump _ rfl]
    exact RecordFormat.decodesLump_congr hsize (hchunk _ rfl)

/-- So does what it reports. -/
theorem Reports.congr {e : Error} (hsize : image'.size = image.size)
    (hlump : ∀ name, s.lump? = some name → image'.lump name = image.lump name)
    (hextent : ∀ name, s.lump? = some name → image'.extent name = image.extent name)
    (he : s.Reports image option environment e) : s.Reports image' option environment e := by
  have hchunk := fun name hname =>
    Bytes.chunk_eq_of_extent_eq (hlump name hname) (hextent name hname)
  cases s with
  | header => rwa [Reports, hsize]
  | strings => rwa [Reports, bytesShortfall, hsize, hlump .strings rfl]
  | charset => exact he
  | globals => rwa [Reports, bytesShortfall, hsize, hlump .globals rfl]
  | functions | statements | globalDefs | fieldDefs =>
    rw [Reports, hlump _ rfl]
    exact RecordFormat.ReportsLump.congr hsize (hchunk _ rfl) he

theorem mem_lumps {t : Stage} {name : LumpName} (ht : t ∈ s.earlier ++ [s])
    (hname : t.lump? = some name) : name ∈ s.lumps :=
  List.mem_filterMap.mpr ⟨t, ht, hname⟩

/-- Images that agree through the first stage that fails fail first in the same stage. -/
theorem FailsFirst.congr (hagree : s.AgreesThrough image image')
    (h : s.FailsFirst lib image option environment) :
    s.FailsFirst lib image' option environment := by
  have hiff : ∀ t ∈ s.earlier ++ [s],
      (t.Decodes lib image' option environment ↔ t.Decodes lib image option environment) := by
    intro t ht
    exact decodes_congr hagree.size_eq (fun name hname => hagree.lump_eq name (mem_lumps ht hname))
      (fun name hname => hagree.extent_eq name (mem_lumps ht hname))
  constructor
  · intro t ht
    exact (hiff t (List.mem_append_left _ ht)).mpr (h.1 t ht)
  · exact fun hs => h.2 ((hiff s (by simp)).mp hs)

end Stage

namespace Program

/-- **A load that fails reports the first failure, exactly located.**  Its error is the report of
the first stage that cannot be decoded; and every image that agrees with the given one through that
stage, whatever its later header words, its later lumps and its other bytes are, fails alike. -/
theorem load_reports_first_failure (lib : CharsetLibrary) (image : Bytes)
    (option environment : Option Text) :
    (∀ e, (load lib image option environment).1 = .error e ↔
      ∃ s : Stage, s.FailsFirst lib image option environment ∧
        s.Reports image option environment e) ∧
    ∀ (s : Stage) (image' : Bytes), s.FailsFirst lib image option environment →
      s.AgreesThrough image image' →
      (load lib image' option environment).1 = (load lib image option environment).1 := by
  refine ⟨fun e => load_eq_error_iff, ?_⟩
  intro s image' hfirst hagree
  obtain ⟨e, he⟩ := Stage.exists_reports hfirst.2
  have hself : ∀ name, s.lump? = some name → name ∈ s.lumps :=
    fun name hname => Stage.mem_lumps (by simp) hname
  have he' : s.Reports image' option environment e :=
    he.congr hagree.size_eq (fun name hname => hagree.lump_eq name (hself name hname))
      (fun name hname => hagree.extent_eq name (hself name hname))
  rw [load_eq_error_iff.mpr ⟨s, hfirst, he⟩, load_eq_error_iff.mpr ⟨s, hfirst.congr hagree, he'⟩]

/-- A header and nothing else, with one string byte that is not there and a place and a size for the
globals. -/
def shortStrings (offset size : UInt8) : Bytes :=
  #[6, 0, 0, 0, 0, 0, 0, 0, 0, 0, 0, 0, 0, 0, 0, 0, 0, 0, 0, 0, 0, 0, 0, 0,
    0, 0, 0, 0, 0, 0, 0, 0, 0, 0, 0, 0, 0, 0, 0, 0, 56, 0, 0, 0, 1, 0, 0, 0,
    offset, 0, 0, 0, size, 0, 0, 0]

theorem shortStrings_failsFirst (lib : CharsetLibrary) (offset size : UInt8)
    (option environment : Option Text) :
    Stage.strings.FailsFirst lib (shortStrings offset size) option environment := by
  constructor
  · intro t ht
    obtain rfl := List.mem_singleton.mp (show t ∈ [Stage.header] from ht)
    exact Nat.le_refl 56
  · exact (by decide : ¬ 56 + 1 ≤ 56)

theorem shortStrings_agrees :
    Stage.strings.AgreesThrough (shortStrings 0 0) (shortStrings 255 255) where
  size_eq := rfl
  lump_eq := by decide
  extent_eq := by decide

/-- The missing string byte is reported, and neither the unknown charset nor the missing globals. -/
theorem load_reports_missing_strings :
    (load .standard (shortStrings 255 255) (some "unheard of") none).1 =
      .error (.truncated "strings" 56 1 0) := by
  obtain ⟨herror, hagree⟩ := 
    load_reports_first_failure .standard (shortStrings 0 0) (some "unheard of") none
  rw [hagree .strings _ (shortStrings_failsFirst _ 0 0 _ _) shortStrings_agrees]
  exact (herror _).mpr ⟨.strings, shortStrings_failsFirst _ 0 0 _ _, rfl⟩

end Program

end QuakeC
