import QuakeC.Header
import QuakeC.Record
import QuakeC.Proofs.Reading

/-!
# The formats of records and of the header

The three kinds of record and the header, field by field at fixed places.  Every format stands
beside the reader that it describes.

* `Statement.readBy`, `Definition.readBy`, `FunctionRecord.readBy` — the record readers do what the
  formats say, wherever the record stands and whatever the image holds.
* `Header.outcome_read_eq_ok`, `Header.outcome_read_eq_error` — a header is read exactly when its 56
  bytes are there; otherwise the read fails at the last multiple of eight before the end.
-/

set_option autoImplicit false

namespace QuakeC

variable {α : Type}

/-! ## Records that are read in one piece -/

/-- A record is read in one piece when its fields are read first and then looked at. -/
theorem RecordFormat.readBy_of_check {f : RecordFormat α} {kinds : List FieldKind}
    (hhead : f.head = f.size) (hsize : FieldKind.totalSize kinds = f.size)
    {check : List Datum → Int → Reader α}
    (hcheck : ∀ (c : Bytes) (start : Int) (cursor : Cursor),
      (check (FieldKind.decodeAll kinds c.toList) start).run cursor =
        if f.Valid c then .ok (f.value c) cursor
        else .error (f.fault c cursor.region start) cursor) :
    f.ReadBy (do
      let start ← Reader.position
      let row ← Reader.fields kinds
      check row start) := by
  intro image p region
  have hstart : Reader.position.run ⟨image, p, region⟩ = .ok (p : Int) ⟨image, p, region⟩ := rfl
  simp only [EStateM.run_bind, hstart]
  rw [Reader.run_fields, hsize]
  by_cases h : p + f.size ≤ image.size
  · simp only [hcheck, Decodable, failure, stop, chunkAt, h, true_and, ↓reduceIte]
  · simp only [Decodable, failure, stop, hhead, h, false_and, ↓reduceIte]

/-! ### Statements -/

theorem Opcode.length_known : known.length = 66 := rfl

theorem Opcode.ofCode?_natCast (n : Nat) : ofCode? (n : Int) = known[n]? := by
  simp [ofCode?]

/-- The numbers of instructions are those up to 65. -/
theorem Opcode.ofCode?_eq_some {n : Nat} (h : n ≤ 65) : ofCode? (n : Int) = some (ofCode n) := by
  have hn : n < known.length := by rw [length_known]; omega
  rw [ofCode, ofCode?_natCast, List.getElem?_eq_getElem hn]
  rfl

theorem Opcode.ofCode?_eq_none {n : Nat} (h : 65 < n) : ofCode? (n : Int) = none := by
  rw [ofCode?_natCast]
  exact List.getElem?_eq_none (by rw [length_known]; omega)

namespace Statement

/-- An opcode up to 65 and three signed operands. -/
def format : RecordFormat Statement where
  head := 8
  size := 8
  Valid c := c.u16At 0 ≤ 65
  decidableValid c := inferInstanceAs (Decidable (c.u16At 0 ≤ 65))
  value c := {
    op := Opcode.ofCode (c.u16At 0)
    a := c.i16At 2
    b := c.i16At 4
    c := c.i16At 6 }
  fault c := .invalidEnum .opcode (c.u16At 0)

/-- The four parts at their places. -/
theorem intAt_fields (c : Bytes) :
    Datum.intAt (FieldKind.decodeAll fields c.toList) 0 = c.u16At 0 ∧
      Datum.intAt (FieldKind.decodeAll fields c.toList) 1 = c.i16At 2 ∧
      Datum.intAt (FieldKind.decodeAll fields c.toList) 2 = c.i16At 4 ∧
      Datum.intAt (FieldKind.decodeAll fields c.toList) 3 = c.i16At 6 := by
  simp only [← IntKind.fieldAt_u16, ← IntKind.fieldAt_i16]
  exact ⟨Datum.intAt_decodeAll rfl rfl _, Datum.intAt_decodeAll rfl rfl _,
    Datum.intAt_decodeAll rfl rfl _, Datum.intAt_decodeAll rfl rfl _⟩

theorem readBy : format.ReadBy read := by
  refine RecordFormat.readBy_of_check rfl rfl ?_
  intro c start cursor
  obtain ⟨hop, ha, hb, hc⟩ := intAt_fields c
  simp only [hop, ha, hb, hc]
  by_cases h : c.u16At 0 ≤ 65
  · rw [Opcode.ofCode?_eq_some h, if_pos (show format.Valid c from h)]
    rfl
  · rw [Opcode.ofCode?_eq_none (by omega), if_neg (show ¬ format.Valid c from h)]
    rfl

end Statement

/-! ### Definitions -/

theorem ValueType.length_stored : stored.length = 8 := rfl

theorem ValueType.ofStored?_natCast (n : Nat) : ofStored? (n : Int) = stored[n]? := by
  simp [ofStored?]

/-- The numbers of stored types are those up to 7. -/
theorem ValueType.ofStored?_eq_some {n : Nat} (h : n ≤ 7) :
    ofStored? (n : Int) = some (ofCode n) := by
  have hn : n < stored.length := by rw [length_stored]; omega
  rw [ofCode, if_neg (by omega), ofStored?_natCast, List.getElem?_eq_getElem hn]
  rfl

theorem ValueType.ofStored?_eq_none {n : Nat} (h : 7 < n) : ofStored? (n : Int) = none := by
  rw [ofStored?_natCast]
  exact List.getElem?_eq_none (by rw [length_stored]; omega)

namespace Definition

/-- A type up to 7 in the low 15 bits and a flag in the highest, then two offsets. -/
def format : RecordFormat Definition where
  head := 8
  size := 8
  Valid c := c.u16At 0 % 0x8000 ≤ 7
  decidableValid c := inferInstanceAs (Decidable (c.u16At 0 % 0x8000 ≤ 7))
  value c := {
    type := ValueType.ofCode (c.u16At 0 % 0x8000 : Nat)
    saveGlobal := decide (0x8000 ≤ c.u16At 0)
    ofs := c.u16At 2
    sName := c.i32At 4 }
  fault c := .invalidEnum .valueType (c.u16At 0 % 0x8000 : Nat)

/-- The three parts at their places. -/
theorem intAt_fields (c : Bytes) :
    Datum.intAt (FieldKind.decodeAll fields c.toList) 0 = c.u16At 0 ∧
      Datum.intAt (FieldKind.decodeAll fields c.toList) 1 = c.u16At 2 ∧
      Datum.intAt (FieldKind.decodeAll fields c.toList) 2 = c.i32At 4 := by
  simp only [← IntKind.fieldAt_u16, ← IntKind.fieldAt_i32]
  exact ⟨Datum.intAt_decodeAll rfl rfl _, Datum.intAt_decodeAll rfl rfl _,
    Datum.intAt_decodeAll rfl rfl _⟩

theorem readBy : format.ReadBy read := by
  refine RecordFormat.readBy_of_check rfl rfl ?_
  intro c start cursor
  obtain ⟨hpacked, hofs, hname⟩ := intAt_fields c
  have hmod : (c.u16At 0 : Int) % saveBit = (c.u16At 0 % 0x8000 : Nat) := by
    simp [saveBit]
  have hsave : decide (saveBit ≤ (c.u16At 0 : Int)) = decide (0x8000 ≤ c.u16At 0) := by
    apply decide_eq_decide.mpr
    simp only [saveBit]
    omega
  simp only [hpacked, hofs, hname, hmod, hsave]
  by_cases h : c.u16At 0 % 0x8000 ≤ 7
  · rw [ValueType.ofStored?_eq_some h, if_pos (show format.Valid c from h)]
    rfl
  · rw [ValueType.ofStored?_eq_none (by omega), if_neg (show ¬ format.Valid c from h)]
    rfl

end Definition

/-! ## Functions, which are read in two pieces -/

namespace FunctionRecord

/-- Seven words, the last of which is a number of parameters up to 8, and the sizes of as many
parameters.  The words are read before the sizes. -/
def format : RecordFormat FunctionRecord where
  head := 28
  size := 36
  Valid c := c.u32At 24 ≤ 8
  decidableValid c := inferInstanceAs (Decidable (c.u32At 24 ≤ 8))
  value c := {
    firstStatement := c.i32At 0
    parmStart := c.u32At 4
    locals := c.u32At 8
    profile := c.u32At 12
    sName := c.u32At 16
    sFile := c.u32At 20
    parmSize := (List.range (c.u32At 24)).map fun i => c.u8At (28 + i) }
  fault c region position := .invalidRecord region position (tooManyParms (c.u32At 24))

/-- The first parameter sizes, which stand behind the seven words. -/
theorem take_sizes (image : Bytes) (p : Nat) {n : Nat} (hn : n ≤ 8) (h : p + 36 ≤ image.size) :
    ((image.chunk (p + 28) 8).toList.take n).map UInt8.toNat =
      (List.range n).map fun i => (image.chunk p 36).u8At (28 + i) := by
  apply List.ext_getElem?
  intro i
  by_cases hi : i < n
  · have hsize : p + 28 + i < image.size := by omega
    rw [Bytes.toList_chunk, List.getElem?_map, List.getElem?_take_of_lt hi,
      List.getElem?_take_of_lt (by omega), List.getElem?_drop, List.getElem?_map,
      List.getElem?_range hi, Array.getElem?_toList, Array.getElem?_eq_getElem hsize]
    simp only [Option.map_some]
    rw [Bytes.u8At_chunk image (by omega), Bytes.u8At, Array.getD_eq_getD_getElem?,
      ← Nat.add_assoc, Array.getElem?_eq_getElem hsize]
    rfl
  · rw [List.getElem?_eq_none (by simp; omega), List.getElem?_eq_none (by simp; omega)]

theorem i32At_words (image : Bytes) {p i : Nat} (h : i + 4 ≤ 28) :
    (image.chunk p 28).i32At i = (image.chunk p 36).i32At i := by
  rw [Bytes.i32At, Bytes.i32At, Bytes.u32At_chunk image h, Bytes.u32At_chunk image (by omega)]

theorem u32At_words (image : Bytes) {p i : Nat} (h : i + 4 ≤ 28) :
    (image.chunk p 28).u32At i = (image.chunk p 36).u32At i := by
  rw [Bytes.u32At_chunk image h, Bytes.u32At_chunk image (by omega)]

/-- The seven words at their places. -/
theorem intAt_fields (c : Bytes) :
    Datum.intAt (FieldKind.decodeAll fields c.toList) 0 = c.i32At 0 ∧
      Datum.intAt (FieldKind.decodeAll fields c.toList) 1 = c.u32At 4 ∧
      Datum.intAt (FieldKind.decodeAll fields c.toList) 2 = c.u32At 8 ∧
      Datum.intAt (FieldKind.decodeAll fields c.toList) 3 = c.u32At 12 ∧
      Datum.intAt (FieldKind.decodeAll fields c.toList) 4 = c.u32At 16 ∧
      Datum.intAt (FieldKind.decodeAll fields c.toList) 5 = c.u32At 20 ∧
      Datum.intAt (FieldKind.decodeAll fields c.toList) 6 = c.u32At 24 := by
  simp only [← IntKind.fieldAt_u32, ← IntKind.fieldAt_i32]
  exact ⟨Datum.intAt_decodeAll rfl rfl _, Datum.intAt_decodeAll rfl rfl _,
    Datum.intAt_decodeAll rfl rfl _, Datum.intAt_decodeAll rfl rfl _,
    Datum.intAt_decodeAll rfl rfl _, Datum.intAt_decodeAll rfl rfl _,
    Datum.intAt_decodeAll rfl rfl _⟩

/-- The words are read first. -/
theorem run_read_of_lt_words {image : Bytes} {p : Nat} (h : image.size < p + 28) (region : String) :
    read.run ⟨image, p, region⟩ =
      .error (.truncated region p 28 (max 0 ((image.size : Int) - p))) ⟨image, p, region⟩ := by
  have hstart : Reader.position.run ⟨image, p, region⟩ = .ok (p : Int) ⟨image, p, region⟩ := rfl
  have hwords : (Reader.fields fields).run ⟨image, p, region⟩ = _ :=
    Reader.run_fields_of_lt h region
  simp only [read, EStateM.run_bind, hstart, hwords]
  rfl

/-- The sizes are read behind the words, also when nothing is there. -/
theorem run_read_of_lt_sizes {image : Bytes} {p : Nat} (hwords : p + 28 ≤ image.size)
    (hsizes : image.size < p + 36) (region : String) :
    read.run ⟨image, p, region⟩ =
      .error (.truncated region (p + 28 : Nat) 8 (max 0 ((image.size : Int) - (p + 28 : Nat))))
        ⟨image, (p + 28 : Nat), region⟩ := by
  have hstart : Reader.position.run ⟨image, p, region⟩ = .ok (p : Int) ⟨image, p, region⟩ := rfl
  have hw : (Reader.fields fields).run ⟨image, p, region⟩ = _ :=
    Reader.run_fields_of_le hwords region
  have hs : (Reader.bytes maxParms).run ⟨image, (p + 28 : Nat), region⟩ = _ :=
    Reader.run_bytes_of_lt (show image.size < p + 28 + 8 by omega) region
  simp only [read, EStateM.run_bind, hstart, hw, show FieldKind.totalSize fields = 28 from rfl, hs]
  rfl

/-- With all bytes there, only the number of parameters can be wrong. -/
theorem run_read_of_le {image : Bytes} {p : Nat} (h : p + 36 ≤ image.size) (region : String) :
    read.run ⟨image, p, region⟩ =
      if format.Valid (image.chunk p 36) then
        .ok (format.value (image.chunk p 36)) ⟨image, (p + 36 : Nat), region⟩
      else .error (format.fault (image.chunk p 36) region p) ⟨image, (p + 36 : Nat), region⟩ := by
  have hstart : Reader.position.run ⟨image, p, region⟩ = .ok (p : Int) ⟨image, p, region⟩ := rfl
  have hw : (Reader.fields fields).run ⟨image, p, region⟩ = _ :=
    Reader.run_fields_of_le (show p + 28 ≤ image.size by omega) region
  have hs : (Reader.bytes maxParms).run ⟨image, (p + 28 : Nat), region⟩ = _ :=
    Reader.run_bytes_of_le (show p + 28 + 8 ≤ image.size by omega) region
  obtain ⟨hfirst, hstart', hlocals, hprofile, hname, hfile, hcount⟩ :=
    intAt_fields (image.chunk p 28)
  simp only [read, EStateM.run_bind, hstart, hw, show FieldKind.totalSize fields = 28 from rfl, hs,
    hfirst, hstart', hlocals, hprofile, hname, hfile, hcount,
    i32At_words image (show 0 + 4 ≤ 28 by decide), u32At_words image (show 4 + 4 ≤ 28 by decide),
    u32At_words image (show 8 + 4 ≤ 28 by decide), u32At_words image (show 12 + 4 ≤ 28 by decide),
    u32At_words image (show 16 + 4 ≤ 28 by decide), u32At_words image (show 20 + 4 ≤ 28 by decide),
    u32At_words image (show 24 + 4 ≤ 28 by decide), Int.toNat_natCast]
  by_cases hparms : (image.chunk p 36).u32At 24 ≤ maxParms
  · rw [if_pos (Int.ofNat_le.mpr hparms), if_pos (show format.Valid _ from hparms),
      take_sizes image p hparms h]
    rfl
  · rw [if_neg (fun hle => hparms (Int.ofNat_le.mp hle)),
      if_neg (show ¬ format.Valid _ from hparms)]
    rfl

theorem readBy : format.ReadBy read := by
  intro image p region
  by_cases hwords : p + 28 ≤ image.size
  · by_cases hsize : p + 36 ≤ image.size
    · have hstop : format.stop image p = p + 36 := if_pos hsize
      rw [run_read_of_le hsize, hstop]
      simp only [RecordFormat.Decodable, RecordFormat.failure, RecordFormat.chunkAt,
        show format.size = 36 from rfl, hsize, true_and, ↓reduceIte]
    · have hstop : format.stop image p = p + 28 := (if_neg hsize).trans (if_pos hwords)
      have hfail : format.failure image region p = _ := (if_neg hsize).trans (if_pos hwords)
      rw [run_read_of_lt_sizes hwords (by omega), if_neg (fun hdec => hsize hdec.1), hstop, hfail]
      rfl
  · have hsize : ¬ p + 36 ≤ image.size := by omega
    have hstop : format.stop image p = p := (if_neg hsize).trans (if_neg hwords)
    have hfail : format.failure image region p = _ := (if_neg hsize).trans (if_neg hwords)
    rw [run_read_of_lt_words (by omega), if_neg (fun hdec => hsize hdec.1), hstop, hfail]
    rfl

end FunctionRecord

/-! ## The header -/

namespace Header

/-- The header whose fourteen words stand at `s`, in wire order. -/
def wordsAt (image : Bytes) (s : Nat) : Header Nat where
  version := image.u32At s
  crc := image.u32At (s + 4)
  lumps := {
    statements := ⟨image.u32At (s + 8), image.u32At (s + 12)⟩
    globalDefs := ⟨image.u32At (s + 16), image.u32At (s + 20)⟩
    fieldDefs := ⟨image.u32At (s + 24), image.u32At (s + 28)⟩
    functions := ⟨image.u32At (s + 32), image.u32At (s + 36)⟩
    strings := ⟨image.u32At (s + 40), image.u32At (s + 44)⟩
    globals := ⟨image.u32At (s + 48), image.u32At (s + 52)⟩ }

theorem run_readPair_of_le {image : Bytes} {p : Nat} (h : p + 8 ≤ image.size) (region : String) :
    readPair.run ⟨image, p, region⟩ =
      .ok (image.u32At p, image.u32At (p + 4)) ⟨image, (p + 8 : Nat), region⟩ := by
  have hb : (Reader.fields pairFields).run ⟨image, p, region⟩ = _ :=
    Reader.run_fields_of_le h region
  have hlow : Datum.intAt (FieldKind.decodeAll pairFields (image.chunk p 8).toList) 0 =
      image.u32At p := by
    rw [Datum.intAt_decodeAll rfl rfl, IntKind.fieldAt_u32, Bytes.u32At_chunk image (by decide)]
    rfl
  have hhigh : Datum.intAt (FieldKind.decodeAll pairFields (image.chunk p 8).toList) 1 =
      image.u32At (p + 4) := by
    rw [Datum.intAt_decodeAll rfl rfl, IntKind.fieldAt_u32, Bytes.u32At_chunk image (by decide)]
    rfl
  simp only [readPair, EStateM.run_bind, hb, EStateM.run_pure,
    show FieldKind.totalSize pairFields = 8 from rfl, hlow, hhigh, Int.toNat_natCast]

theorem run_readPair_of_lt {image : Bytes} {p : Nat} (h : image.size < p + 8) (region : String) :
    readPair.run ⟨image, p, region⟩ =
      .error (.truncated region p 8 (max 0 ((image.size : Int) - p))) ⟨image, p, region⟩ := by
  have hb : (Reader.fields pairFields).run ⟨image, p, region⟩ = _ :=
    Reader.run_fields_of_lt h region
  simp only [readPair, EStateM.run_bind, hb]
  rfl

theorem run_readLump_of_le {image : Bytes} {p : Nat} (h : p + 8 ≤ image.size) (region : String) :
    readLump.run ⟨image, p, region⟩ =
      .ok ⟨image.u32At p, image.u32At (p + 4)⟩ ⟨image, (p + 8 : Nat), region⟩ := by
  simp only [readLump, EStateM.run_bind, run_readPair_of_le h, EStateM.run_pure]

theorem run_readLump_of_lt {image : Bytes} {p : Nat} (h : image.size < p + 8) (region : String) :
    readLump.run ⟨image, p, region⟩ =
      .error (.truncated region p 8 (max 0 ((image.size : Int) - p))) ⟨image, p, region⟩ := by
  simp only [readLump, EStateM.run_bind, run_readPair_of_lt h]

/-- A header that is there is read, whatever region was being read before. -/
theorem run_read_of_le {image : Bytes} {s : Nat} (h : s + 56 ≤ image.size) (region : String) :
    read.run ⟨image, s, region⟩ = .ok (wordsAt image s) ⟨image, (s + 56 : Nat), "header"⟩ := by
  have henter : (Reader.enter "header").run ⟨image, s, region⟩ = .ok () ⟨image, s, "header"⟩ := rfl
  simp only [read, EStateM.run_bind, henter,
    run_readPair_of_le (show s + 8 ≤ image.size by omega),
    run_readLump_of_le (show s + 8 + 8 ≤ image.size by omega),
    run_readLump_of_le (show s + 8 + 8 + 8 ≤ image.size by omega),
    run_readLump_of_le (show s + 8 + 8 + 8 + 8 ≤ image.size by omega),
    run_readLump_of_le (show s + 8 + 8 + 8 + 8 + 8 ≤ image.size by omega),
    run_readLump_of_le (show s + 8 + 8 + 8 + 8 + 8 + 8 ≤ image.size by omega),
    run_readLump_of_le (show s + 8 + 8 + 8 + 8 + 8 + 8 + 8 ≤ image.size by omega),
    EStateM.run_pure]
  rfl

/-- The report of a header that is cut off: the pair of words in which the image ends. -/
def shortfall (image : Bytes) (s : Nat) : Error :=
  .truncated "header" (s + 8 * ((image.size - s) / 8) : Nat) 8 ((image.size - s) % 8 : Nat)

/-- The pair at `s + 8 * j` is the first that is not there. -/
theorem shortfall_eq {image : Bytes} {s j : Nat} (hj : (image.size - s) / 8 = j) :
    Error.truncated "header" (s + 8 * j : Nat) 8
      (max 0 ((image.size : Int) - (s + 8 * j : Nat))) = shortfall image s := by
  rw [shortfall, hj, show max 0 ((image.size : Int) - (s + 8 * j : Nat)) =
    ((image.size - s) % 8 : Nat) by omega]

/-- A header that is cut off fails at its first pair that is not there. -/
theorem outcome_read_of_lt {image : Bytes} {s : Nat} (h : image.size < s + 56) (region : String) :
    read.outcome ⟨image, s, region⟩ = .error (shortfall image s) := by
  have henter : (Reader.enter "header").run ⟨image, s, region⟩ = .ok () ⟨image, s, "header"⟩ := rfl
  obtain ⟨j, hj⟩ : ∃ j, (image.size - s) / 8 = j := ⟨_, rfl⟩
  rw [← shortfall_eq hj, Reader.outcome, read]
  -- the pairs before the `j`-th are read, the `j`-th is not
  rcases (by omega : j = 0 ∨ j = 1 ∨ j = 2 ∨ j = 3 ∨ j = 4 ∨ j = 5 ∨ j = 6) with
    rfl | rfl | rfl | rfl | rfl | rfl | rfl <;>
  simp (disch := omega) only [EStateM.run_bind, henter, run_readPair_of_le, run_readPair_of_lt,
    run_readLump_of_le, run_readLump_of_lt, Nat.mul_zero, Nat.add_zero]

theorem outcome_read_eq_ok {image : Bytes} {s : Nat} {region : String} {h : Header Nat} :
    read.outcome ⟨image, s, region⟩ = .ok h ↔ s + 56 ≤ image.size ∧ h = wordsAt image s := by
  by_cases hs : s + 56 ≤ image.size
  · rw [Reader.outcome_of_run_ok (run_read_of_le hs region), Except.ok.injEq]
    exact ⟨fun hh => ⟨hs, hh.symm⟩, fun hh => hh.2.symm⟩
  · rw [outcome_read_of_lt (by omega)]
    exact ⟨nofun, fun hh => absurd hh.1 hs⟩

theorem outcome_read_eq_error {image : Bytes} {s : Nat} {region : String} {e : Error} :
    read.outcome ⟨image, s, region⟩ = .error e ↔ image.size < s + 56 ∧ e = shortfall image s := by
  by_cases hs : s + 56 ≤ image.size
  · rw [Reader.outcome_of_run_ok (run_read_of_le hs region)]
    exact ⟨nofun, fun he => by omega⟩
  · rw [outcome_read_of_lt (by omega), Except.error.injEq]
    exact ⟨fun he => ⟨by omega, he.symm⟩, fun he => he.2.symm⟩

end Header

end QuakeC
