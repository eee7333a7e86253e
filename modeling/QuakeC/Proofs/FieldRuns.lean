import QuakeC.Bytes.Cursor

/-!
# Runs of fields

`Reader.field` reads one field and checks for as many bytes as are written into the read of its
kind; `Reader.fields` first checks for a whole run of fields by the table of sizes and then reads
them one after another.  The two agree because every read takes as many bytes as the table says.  So
a run that fits is the same as its fields one after another, and none of their own checks fails; a
run that does not fit is refused as a whole, and the cursor stays where it is.

* `Reader.run_bytes_of_fits`, `Reader.run_bytes_of_not_fits` — one read, at any integer position.
* `Reader.field_eq` — the reads of the seven kinds against the table of sizes.
* `Reader.run_mapM_field` — single reads one after another, where the whole run fits.
* `Reader.run_fields_of_fits` — the run with the check before it.
* `Reader.fields_atomic` — the two compared, with every single read inside the run.
-/

set_option autoImplicit false

namespace QuakeC

namespace Cursor

/-- The cursor `n` bytes further. -/
def advance (c : Cursor) (n : Nat) : Cursor := { c with position := c.position + n }

/-- The bytes from the position on. -/
def ahead (c : Cursor) : List UInt8 := c.bytes.toList.drop c.position.toNat

theorem fits_iff {c : Cursor} {n : Int} :
    c.fits n = true ↔ 0 ≤ c.position ∧ c.position + n ≤ c.bytes.size := by
  simp [fits]

theorem advance_zero (c : Cursor) : c.advance 0 = c := by simp [advance]

theorem advance_advance (c : Cursor) (m n : Nat) :
    (c.advance m).advance n = c.advance (m + n) := by
  simp [advance, Int.add_assoc]

theorem ahead_advance {c : Cursor} (h : 0 ≤ c.position) (n : Nat) :
    (c.advance n).ahead = c.ahead.drop n := by
  have hplace : (c.position + n).toNat = c.position.toNat + n := by omega
  simp only [ahead, advance, hplace, List.drop_drop]

/-- A part at the front of what fits can be read. -/
theorem fits_of_fits_add {c : Cursor} {m n : Nat} (h : c.fits (m + n : Nat) = true) :
    c.fits m = true := by
  rw [fits_iff] at h ⊢
  omega

/-- What is left behind that part can be read from there. -/
theorem fits_advance {c : Cursor} {m n : Nat} (h : c.fits (m + n : Nat) = true) :
    (c.advance m).fits n = true := by
  rw [fits_iff] at h ⊢
  simp only [advance]
  omega

end Cursor

namespace FieldKind

theorem totalSize_cons (kind : FieldKind) (kinds : List FieldKind) :
    totalSize (kind :: kinds) = kind.size + totalSize kinds := rfl

theorem totalSize_append (kinds kinds' : List FieldKind) :
    totalSize (kinds ++ kinds') = totalSize kinds + totalSize kinds' := by
  induction kinds with
  | nil => simp [totalSize]
  | cons kind kinds ih => rw [List.cons_append, totalSize_cons, totalSize_cons, ih, Nat.add_assoc]

/-- The values of a run are found in its own bytes. -/
theorem decodeAll_take (kinds : List FieldKind) (bytes : List UInt8) :
    decodeAll kinds (bytes.take (totalSize kinds)) = decodeAll kinds bytes := by
  induction kinds generalizing bytes with
  | nil => rfl
  | cons kind kinds ih =>
    rw [totalSize_cons, decodeAll, decodeAll, List.take_take, List.drop_take,
      Nat.min_eq_left (by omega), Nat.add_sub_cancel_left, ih]

theorem decodeAll_append (kinds kinds' : List FieldKind) (bytes : List UInt8) :
    decodeAll (kinds ++ kinds') bytes =
      decodeAll kinds bytes ++ decodeAll kinds' (bytes.drop (totalSize kinds)) := by
  induction kinds generalizing bytes with
  | nil => simp [decodeAll, totalSize]
  | cons kind kinds ih =>
    simp [decodeAll, ih, totalSize_cons, List.drop_drop]

theorem length_decodeAll (kinds : List FieldKind) (bytes : List UInt8) :
    (decodeAll kinds bytes).length = kinds.length := by
  induction kinds generalizing bytes with
  | nil => rfl
  | cons kind kinds ih => simp [decodeAll, ih]

end FieldKind

namespace Reader

variable {c : Cursor}

theorem run_ensure_of_fits {n : Int} (h : c.fits n = true) : (ensure n).run c = .ok () c := by
  simp only [ensure, EStateM.run_bind, EStateM.run_get, h, ↓reduceIte, EStateM.run_pure]

theorem run_ensure_of_not_fits {n : Int} (h : ¬ c.fits n = true) :
    (ensure n).run c = .error (c.shortfall n) c := by
  simp only [ensure, EStateM.run_bind, EStateM.run_get, h, Bool.false_eq_true, ↓reduceIte]
  rfl

/-- Bytes that fit are read and passed. -/
theorem run_bytes_of_fits {n : Nat} (h : c.fits n = true) :
    ∃ chunk, (bytes n).run c = .ok chunk (c.advance n) ∧ chunk.toList = c.ahead.take n := by
  refine ⟨c.bytes.slice c.position (c.position + n), ?_, ?_⟩
  · simp only [bytes, EStateM.run_bind, run_ensure_of_fits h, EStateM.run_get, EStateM.run_set,
      EStateM.run_pure]
    rfl
  · obtain ⟨hpos, -⟩ := Cursor.fits_iff.mp h
    have hend : (c.position + n).toNat = c.position.toNat + n := by omega
    unfold Bytes.slice Bytes.index Cursor.ahead
    rw [if_neg (by omega), if_neg (by omega), hend]
    simp

/-- Bytes that do not fit are refused, and the cursor stays where it is. -/
theorem run_bytes_of_not_fits {n : Nat} (h : ¬ c.fits n = true) :
    (bytes n).run c = .error (c.shortfall n) c := by
  simp only [bytes, EStateM.run_bind, run_ensure_of_not_fits h]

/-- **The read of each kind takes as many bytes as the table of sizes says**, and gives their
value. -/
theorem field_eq (kind : FieldKind) :
    field kind = do return kind.decode (← bytes kind.size).toList := by
  cases kind with
  | f32 =>
    simp only [field, single, unsigned, bind_assoc, pure_bind]
    rfl
  | int k =>
    cases k with
    | u8 | u16 | u32 =>
      simp only [field, unsigned, bind_assoc, pure_bind]
      rfl
    | i8 | i16 | i32 =>
      simp only [field, signed, unsigned, bind_assoc, pure_bind, FieldKind.decode, IntKind.decode,
        IntKind.isSigned, IntKind.modulus, true_and]
      rfl

/-- A single read of a field that fits. -/
theorem run_field_of_fits {kind : FieldKind} (h : c.fits kind.size = true) :
    (field kind).run c = .ok (kind.decode (c.ahead.take kind.size)) (c.advance kind.size) := by
  obtain ⟨chunk, hrun, hchunk⟩ := run_bytes_of_fits h
  simp only [field_eq, EStateM.run_bind, hrun, EStateM.run_pure, hchunk]

/-- **Single reads one after another.**  The position moves over the fields that were read, and what
is left of the run always fits from there. -/
theorem run_mapM_field (kinds : List FieldKind) (h : c.fits (FieldKind.totalSize kinds) = true) :
    (kinds.mapM field).run c =
      .ok (FieldKind.decodeAll kinds c.ahead) (c.advance (FieldKind.totalSize kinds)) := by
  induction kinds generalizing c with
  | nil =>
    rw [List.mapM_nil, EStateM.run_pure]
    exact congrArg _ c.advance_zero.symm
  | cons kind kinds ih =>
    rw [FieldKind.totalSize_cons] at h ⊢
    have hnonneg := (Cursor.fits_iff.mp h).1
    have hfirst := run_field_of_fits (Cursor.fits_of_fits_add h)
    have hrest := ih (Cursor.fits_advance h)
    rw [List.mapM_cons]
    simp only [EStateM.run_bind, hfirst, hrest, EStateM.run_pure, Cursor.advance_advance,
      Cursor.ahead_advance hnonneg, FieldKind.decodeAll]

/-- **A run of fields that fits.** -/
theorem run_fields_of_fits {kinds : List FieldKind}
    (h : c.fits (FieldKind.totalSize kinds) = true) :
    (fields kinds).run c =
      .ok (FieldKind.decodeAll kinds c.ahead) (c.advance (FieldKind.totalSize kinds)) := by
  rw [fields, EStateM.run_bind, run_ensure_of_fits h]
  exact run_mapM_field kinds h

theorem run_fields_of_not_fits {kinds : List FieldKind}
    (h : ¬ c.fits (FieldKind.totalSize kinds) = true) :
    (fields kinds).run c = .error (c.shortfall (FieldKind.totalSize kinds)) c := by
  simp only [fields, EStateM.run_bind, run_ensure_of_not_fits h]

/-- Inside a run that fits, every field is reached and read. -/
theorem run_field_inside {before after : List FieldKind} {kind : FieldKind}
    (h : c.fits (FieldKind.totalSize (before ++ kind :: after)) = true) :
    ∃ value, (FieldKind.decodeAll (before ++ kind :: after) c.ahead)[before.length]? = some value ∧
      (field kind).run (c.advance (FieldKind.totalSize before)) =
        .ok value (c.advance (FieldKind.totalSize before + kind.size)) := by
  have hnonneg := (Cursor.fits_iff.mp h).1
  rw [FieldKind.totalSize_append] at h
  have hfirst := run_field_of_fits (Cursor.fits_of_fits_add (Cursor.fits_advance h))
  rw [Cursor.ahead_advance hnonneg, Cursor.advance_advance] at hfirst
  refine ⟨_, ?_, hfirst⟩
  rw [FieldKind.decodeAll_append, List.getElem?_append_right (by simp [FieldKind.length_decodeAll]),
    FieldKind.length_decodeAll, Nat.sub_self]
  rfl

/-- **A run of fields is its fields one after another, made atomic.**  Where the whole run lies
inside the bytes, reading it gives the values of the single reads in turn, passes the same bytes,
and the check of every one of the single reads holds: the one behind the fields `before` finds its
field right behind theirs and moves on by the size of its kind.  Everywhere else, also where some of
the fields would have fitted, the run is refused with the size of the whole run, and nothing is
read. -/
theorem fields_atomic (c : Cursor) (kinds : List FieldKind) :
    (0 ≤ c.position ∧ c.position + FieldKind.totalSize kinds ≤ c.bytes.size →
      ∃ values, values.length = kinds.length ∧
        (fields kinds).run c =
          .ok values ⟨c.bytes, c.position + FieldKind.totalSize kinds, c.region⟩ ∧
        (kinds.mapM field).run c =
          .ok values ⟨c.bytes, c.position + FieldKind.totalSize kinds, c.region⟩ ∧
        ∀ before kind after, kinds = before ++ kind :: after →
          ∃ value, values[before.length]? = some value ∧
            (field kind).run ⟨c.bytes, c.position + FieldKind.totalSize before, c.region⟩ =
              .ok value ⟨c.bytes, c.position + (FieldKind.totalSize before + kind.size : Nat),
                c.region⟩) ∧
    (¬ (0 ≤ c.position ∧ c.position + FieldKind.totalSize kinds ≤ c.bytes.size) →
      (fields kinds).run c =
        .error (.truncated c.region c.position (FieldKind.totalSize kinds)
          (max 0 ((c.bytes.size : Int) - c.position))) c) := by
  refine ⟨?_, ?_⟩
  · intro h
    have hfits := Cursor.fits_iff.mpr h
    refine ⟨FieldKind.decodeAll kinds c.ahead, FieldKind.length_decodeAll _ _,
      run_fields_of_fits hfits, run_mapM_field kinds hfits, ?_⟩
    rintro before kind after rfl
    exact run_field_inside hfits
  · intro h
    exact run_fields_of_not_fits (fun hfits => h (Cursor.fits_iff.mp hfits))

/-- Six bytes, of which the first two are passed.  Two numbers of two bytes are read, at once as in
turn; two of four bytes are refused although the first of them is there; at a negative position not
even the empty run is read. -/
theorem fields_atomic_six_bytes :
    (∃ c', (fields [.int .u16, .int .i16]).run ⟨#[1, 2, 3, 4, 0xFE, 0xFF], 2, "functions"⟩ =
        .ok [.int 0x403, .int (-2)] c' ∧
      ([.int .u16, .int .i16].mapM field).run ⟨#[1, 2, 3, 4, 0xFE, 0xFF], 2, "functions"⟩ =
        .ok [.int 0x403, .int (-2)] c' ∧ c'.position = 6) ∧
    ((fields [.int .u32, .int .u32]).run ⟨#[1, 2, 3, 4, 0xFE, 0xFF], 2, "functions"⟩ =
        .error (.truncated "functions" 2 8 4) ⟨#[1, 2, 3, 4, 0xFE, 0xFF], 2, "functions"⟩ ∧
      ∃ value c', (field (.int .u32)).run ⟨#[1, 2, 3, 4, 0xFE, 0xFF], 2, "functions"⟩ =
        .ok value c') ∧
    (fields []).run ⟨#[1], -1, "globals"⟩ =
      .error (.truncated "globals" (-1) 0 2) ⟨#[1], -1, "globals"⟩ := by
  refine ⟨?_, ⟨?_, _, _, rfl⟩, ?_⟩
  · obtain ⟨values, -, hfields, hturn, -⟩ :=
      (fields_atomic ⟨#[1, 2, 3, 4, 0xFE, 0xFF], 2, "functions"⟩ [.int .u16, .int .i16]).1
        (by decide)
    obtain ⟨rfl, -⟩ := EStateM.Result.ok.inj (hfields.symm.trans rfl)
    exact ⟨_, hfields, hturn, by decide⟩
  · exact (fields_atomic ⟨#[1, 2, 3, 4, 0xFE, 0xFF], 2, "functions"⟩ [.int .u32, .int .u32]).2
      (by decide)
  · exact (fields_atomic ⟨#[1], -1, "globals"⟩ []).2 (by decide)

end Reader

end QuakeC
