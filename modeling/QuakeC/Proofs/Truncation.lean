import QuakeC.Charset.Standard
import QuakeC.Proofs.Stages

/-!
# Images that are cut off

A load of the first bytes of an image ends as the load of the whole image does, or it reports that
something is missing.  The reason is that every check of a value comes after the check that its
bytes are there: a record that can be decoded before the cut is the same record behind it, and a
record that is there and invalid before the cut is invalid in the whole image too.

* `RecordFormat.Decodable.of_take`, `Stage.Decodes.of_take` — what can be decoded before the cut
  can be decoded in the whole image, with the same value.
* `Stage.Reports.of_take` — what is reported before the cut is a missing part or is reported of the
  whole image too.
* `load_take` — the two loads compared.
-/

set_option autoImplicit false

namespace QuakeC

variable {α : Type}

/-- Something was missing. -/
def Error.IsTruncated (e : Error) : Prop :=
  ∃ region position needed available, e = .truncated region position needed available

variable {image : Bytes} {k : Nat}

/-! ## Bytes before the cut -/

namespace Bytes

theorem take_eq_chunk (image : Bytes) (k : Nat) : image.take k = image.chunk 0 k := by
  rw [chunk, Nat.zero_add]

theorem size_take_le (image : Bytes) (k : Nat) :
    (image.take k).size ≤ k ∧ (image.take k).size ≤ image.size := by
  rw [take_eq_chunk, size_chunk]
  omega

/-- A chunk that ends before the cut is the same in the whole image. -/
theorem chunk_take {p n : Nat} (h : p + n ≤ (image.take k).size) :
    chunk (image.take k) p n = image.chunk p n := by
  have hk := (size_take_le image k).1
  rw [take_eq_chunk, chunk_chunk image (by omega), Nat.zero_add]

theorem u32At_take {p : Nat} (h : p + 4 ≤ (image.take k).size) :
    u32At (image.take k) p = image.u32At p := by
  have hk := (size_take_le image k).1
  rw [take_eq_chunk, u32At_chunk image (by omega), Nat.zero_add]

theorem wordsAt_take (h : 56 ≤ (image.take k).size) :
    Header.wordsAt (image.take k) 0 = Header.wordsAt image 0 := by
  simp (disch := omega) only [Header.wordsAt, u32At_take]

theorem lump_take (h : 56 ≤ (image.take k).size) (name : LumpName) :
    lump (image.take k) name = image.lump name := by
  rw [lump, lump, wordsAt_take h]

end Bytes

/-! ## Records before the cut -/

namespace RecordFormat

variable {f : RecordFormat α} {p : Nat}

theorem chunkAt_take (h : p + f.size ≤ (image.take k).size) :
    f.chunkAt (image.take k) p = f.chunkAt image p :=
  Bytes.chunk_take h

theorem Decodable.of_take (h : f.Decodable (image.take k) p) : f.Decodable image p := by
  obtain ⟨hsize, hvalid⟩ := h
  have hle := (Bytes.size_take_le image k).2
  rw [chunkAt_take hsize] at hvalid
  exact ⟨by omega, hvalid⟩

/-- A record that is refused before the cut is cut off, or is refused for what it holds. -/
theorem failure_take (region : String) (h : ¬ f.Decodable (image.take k) p) :
    (f.failure (image.take k) region p).IsTruncated ∨
      (¬ f.Decodable image p ∧ f.failure (image.take k) region p = f.failure image region p) := by
  by_cases hsize : p + f.size ≤ (image.take k).size
  · have hle := (Bytes.size_take_le image k).2
    have hinvalid : ¬ f.Valid (f.chunkAt image p) := by
      rw [← chunkAt_take hsize]
      exact fun hvalid => h ⟨hsize, hvalid⟩
    refine .inr ⟨fun hdec => hinvalid hdec.2, ?_⟩
    rw [failure, failure, if_pos hsize, if_pos (by omega), chunkAt_take hsize]
  · refine .inl ?_
    rw [failure, if_neg hsize]
    split
    · exact ⟨_, _, _, _, rfl⟩
    · exact ⟨_, _, _, _, rfl⟩

variable {lump : Lump Nat}

theorem DecodesLump.of_take (h : f.DecodesLump (image.take k) lump) : f.DecodesLump image lump :=
  fun i hi => (h i hi).of_take

theorem ReportsLump.of_take {region : String} {e : Error}
    (h : f.ReportsLump (image.take k) region lump e) :
    e.IsTruncated ∨ (¬ f.DecodesLump image lump ∧ f.ReportsLump image region lump e) := by
  obtain ⟨i, hi, hbefore, hbad, rfl⟩ := h
  rcases failure_take region hbad with htruncated | ⟨hbad', heq⟩
  · exact .inl htruncated
  · refine .inr ⟨fun hall => hbad' (hall i hi), i, hi, ?_, hbad', heq⟩
    exact fun j hj => (hbefore j hj).of_take

theorem values_take (h : f.DecodesLump (image.take k) lump) :
    f.values (image.take k) lump.offset lump.count = f.values image lump.offset lump.count := by
  apply List.map_congr_left
  intro i hi
  rw [chunkAt_take (h i (List.mem_range.mp hi)).1]

end RecordFormat

/-! ## Stages before the cut -/

namespace Stage

variable {lib : CharsetLibrary} {option environment : Option Text} {s : Stage}

theorem Decodes.of_take (h : s.Decodes lib (image.take k) option environment)
    (hheader : header.Decodes lib (image.take k) option environment) :
    s.Decodes lib image option environment := by
  have hle := (Bytes.size_take_le image k).2
  have hlump := Bytes.lump_take hheader
  cases s with
  | header => exact Nat.le_trans h hle
  | charset => exact h
  | strings =>
    rw [Decodes, hlump] at h
    exact Nat.le_trans h hle
  | globals =>
    rw [Decodes, hlump] at h
    exact Nat.le_trans h hle
  | functions | statements | globalDefs | fieldDefs =>
    rw [Decodes, hlump] at h
    exact RecordFormat.DecodesLump.of_take h

/-- What a stage behind the header reports before the cut. -/
theorem Reports.of_take {e : Error} (hheader : header.Decodes lib (image.take k) option environment)
    (hbad : ¬ s.Decodes lib (image.take k) option environment)
    (he : s.Reports (image.take k) option environment e) :
    e.IsTruncated ∨
      (¬ s.Decodes lib image option environment ∧ s.Reports image option environment e) := by
  have hlump := Bytes.lump_take hheader
  cases s with
  | header | strings | globals => exact .inl ⟨_, _, _, _, he⟩
  | charset => exact .inr ⟨hbad, he⟩
  | functions | statements | globalDefs | fieldDefs =>
    rw [Reports, hlump] at he
    exact RecordFormat.ReportsLump.of_take he

/-- A load of the cut image that fails lacks something, or fails as the load of the whole image. -/
theorem FailsFirst.of_take {e : Error} (h : s.FailsFirst lib (image.take k) option environment)
    (he : s.Reports (image.take k) option environment e) :
    e.IsTruncated ∨
      (s.FailsFirst lib image option environment ∧ s.Reports image option environment e) := by
  by_cases hs : s = .header
  · subst hs
    exact .inl ⟨_, _, _, _, he⟩
  · have hmem : .header ∈ s.earlier := by
      cases s with
      | header => exact absurd rfl hs
      | _ => decide
    have hheader := h.1 .header hmem
    rcases he.of_take hheader h.2 with htruncated | ⟨hbad, he'⟩
    · exact .inl htruncated
    · exact .inr ⟨⟨fun t ht => (h.1 t ht).of_take hheader, hbad⟩, he'⟩

end Stage

namespace Program

variable {lib : CharsetLibrary} {option environment : Option Text}

theorem contents_take (h : ∀ s : Stage, s.Decodes lib (image.take k) option environment)
    (name : Text) : contents (image.take k) name = contents image name := by
  have hlump := Bytes.lump_take (h .header)
  have hstrings := h .strings
  have hglobals := h .globals
  have hfunctions := h .functions
  have hstatements := h .statements
  have hglobalDefs := h .globalDefs
  have hfieldDefs := h .fieldDefs
  simp only [Stage.Decodes, hlump]
    at hstrings hglobals hfunctions hstatements hglobalDefs hfieldDefs
  simp only [contents, hlump, Bytes.wordsAt_take (h .header), Bytes.chunk_take hstrings,
    Bytes.chunk_take hglobals, RecordFormat.values_take hfunctions,
    RecordFormat.values_take hstatements, RecordFormat.values_take hglobalDefs,
    RecordFormat.values_take hfieldDefs]

/-- **Cutting an image off never makes it something else.**  The load of the first `k` bytes ends as
the load of the whole image or reports that something is missing.  So a cut image that loads has
the contents of the whole image, and the cut makes no other error of an image that loads. -/
theorem load_take (lib : CharsetLibrary) (image : Bytes) (k : Nat)
    (option environment : Option Text) :
    ((load lib (image.take k) option environment).1 = (load lib image option environment).1 ∨
      ∃ e, e.IsTruncated ∧ (load lib (image.take k) option environment).1 = .error e) ∧
    ∀ p, (load lib image option environment).1 = .ok p →
      (∀ q, (load lib (image.take k) option environment).1 = .ok q → q = p) ∧
      ∀ e, (load lib (image.take k) option environment).1 = .error e → e.IsTruncated := by
  have houtcome :
      (load lib (image.take k) option environment).1 = (load lib image option environment).1 ∨
      ∃ e, e.IsTruncated ∧ (load lib (image.take k) option environment).1 = .error e := by
    rcases Stage.forall_decodes_or_failsFirst lib (image.take k) option environment with h | ⟨s, hs⟩
    · obtain ⟨name, hname⟩ := h .charset
      have hwhole : ∀ s : Stage, s.Decodes lib image option environment :=
        fun s => (h s).of_take (h .header)
      rw [load_of_forall_decodes h hname, load_of_forall_decodes hwhole hname, contents_take h]
      exact .inl rfl
    · obtain ⟨e, he⟩ := Stage.exists_reports hs.2
      rcases hs.of_take he with htruncated | ⟨hs', he'⟩
      · exact .inr ⟨e, htruncated, load_eq_error_iff.mpr ⟨s, hs, he⟩⟩
      · rw [load_of_failsFirst hs he, load_of_failsFirst hs' he']
        exact .inl rfl
  refine ⟨houtcome, fun p hp => ?_⟩
  rcases houtcome with hsame | ⟨e, htruncated, herror⟩
  · rw [hsame, hp]
    exact ⟨fun q hq => (Except.ok.inj hq).symm, nofun⟩
  · rw [herror]
    exact ⟨nofun, fun e' he' => Except.error.inj he' ▸ htruncated⟩

theorem zeros_decodes (s : Stage) : s.Decodes .standard (Array.replicate 57 0) none none := by
  cases s with
  | header => exact (by decide : 56 ≤ 57)
  | strings | globals => exact (by decide : 0 + 0 ≤ 57)
  | charset => exact ⟨_, rfl⟩
  | functions | statements | globalDefs | fieldDefs => exact nofun

theorem zeros_take_failsFirst :
    Stage.header.FailsFirst .standard ((Array.replicate 57 0).take 55) none none :=
  ⟨nofun, (by decide : ¬ 56 ≤ ((Array.replicate 57 (0 : UInt8)).take 55).size)⟩

/-- Zeros load as a program without parts; with the header cut off they do not load. -/
theorem load_take_zeros :
    ∃ p, (load .standard (Array.replicate 57 0) none none).1 = .ok p ∧
      ∃ e : Error, (load .standard ((Array.replicate 57 0).take 55) none none).1 = .error e ∧
        e.IsTruncated := by
  obtain ⟨p, hp⟩ : ∃ p, (load .standard (Array.replicate 57 0) none none).1 = .ok p :=
    ⟨_, load_eq_ok_iff.mpr ⟨zeros_decodes, _, rfl, rfl⟩⟩
  obtain ⟨e, he⟩ : ∃ e, (load .standard ((Array.replicate 57 0).take 55) none none).1 = .error e :=
    ⟨_, load_eq_error_iff.mpr ⟨.header, zeros_take_failsFirst, rfl⟩⟩
  exact ⟨p, hp, e, he, ((load_take .standard (Array.replicate 57 0) 55 none none).2 p hp).2 e he⟩

end Program

end QuakeC
