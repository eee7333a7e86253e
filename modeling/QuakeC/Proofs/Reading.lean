import QuakeC.Proofs.FieldRuns
import QuakeC.Proofs.Words

/-!
# What readers do

A reader is run on a cursor over an image at a place `p ≥ 0`.  `Reader.bytes` and `Reader.fields`
succeed exactly when their bytes lie inside the image (`run_bytes`, `run_fields`).  A `RecordFormat`
describes a kind of fixed-size record without a cursor: how many bytes are checked first, how many
there are in all, which bytes are a record, what they stand for, and what is reported about bytes
that are not one.

* `RecordFormat.ReadBy` — a reader does, at every place of every image, what the format says.
* `run_many_of_decodable` — the loop over `n` records gives the `n` values and stops behind them.
* `run_many_of_not_decodable` — the loop fails at the first record that cannot be decoded, with the
  report of that record alone.
-/

set_option autoImplicit false

namespace QuakeC

variable {α : Type}

namespace Reader

/-- The result of a reader, without the cursor that it leaves. -/
def outcome (read : Reader α) (c : Cursor) : Except Error α :=
  match read.run c with
  | .ok a _ => .ok a
  | .error e _ => .error e

theorem outcome_of_run_ok {read : Reader α} {c c' : Cursor} {a : α}
    (h : read.run c = .ok a c') : read.outcome c = .ok a := by
  simp only [outcome, h]

theorem outcome_of_run_error {read : Reader α} {c c' : Cursor} {e : Error}
    (h : read.run c = .error e c') : read.outcome c = .error e := by
  simp only [outcome, h]

/-- The cursor that a reader leaves, also when it fails. -/
def cursorAfter (read : Reader α) (c : Cursor) : Cursor :=
  match read.run c with
  | .ok _ c' => c'
  | .error _ c' => c'

theorem cursorAfter_of_run_ok {read : Reader α} {c c' : Cursor} {a : α}
    (h : read.run c = .ok a c') : read.cursorAfter c = c' := by
  simp only [cursorAfter, h]

theorem cursorAfter_of_run_error {read : Reader α} {c c' : Cursor} {e : Error}
    (h : read.run c = .error e c') : read.cursorAfter c = c' := by
  simp only [cursorAfter, h]

theorem fits_mk_iff {image : Bytes} {p n : Nat} {region : String} :
    Cursor.fits ⟨image, p, region⟩ n = true ↔ p + n ≤ image.size := by
  rw [Cursor.fits_iff]
  simp only
  omega

/-- Bytes are read exactly when all of them lie inside the image. -/
theorem run_bytes (image : Bytes) (p n : Nat) (region : String) :
    (bytes n).run ⟨image, p, region⟩ =
      if p + n ≤ image.size then .ok (image.chunk p n) ⟨image, (p + n : Nat), region⟩
      else .error (.truncated region p n (max 0 ((image.size : Int) - p))) ⟨image, p, region⟩ := by
  by_cases h : p + n ≤ image.size
  · obtain ⟨chunk, hrun, hchunk⟩ := run_bytes_of_fits (fits_mk_iff.mpr h)
    have heq : chunk = image.chunk p n := Array.ext' (hchunk.trans (image.toList_chunk p n).symm)
    rw [if_pos h, hrun, heq]
    rfl
  · rw [if_neg h]
    exact run_bytes_of_not_fits (mt fits_mk_iff.mp h)

/-- So are the fields of a run, and their values are found in the bytes of the run. -/
theorem run_fields (image : Bytes) (p : Nat) (kinds : List FieldKind) (region : String) :
    (fields kinds).run ⟨image, p, region⟩ =
      if p + FieldKind.totalSize kinds ≤ image.size then
        .ok (FieldKind.decodeAll kinds (image.chunk p (FieldKind.totalSize kinds)).toList)
          ⟨image, (p + FieldKind.totalSize kinds : Nat), region⟩
      else
        .error (.truncated region p (FieldKind.totalSize kinds) (max 0 ((image.size : Int) - p)))
          ⟨image, p, region⟩ := by
  by_cases h : p + FieldKind.totalSize kinds ≤ image.size
  · rw [if_pos h, run_fields_of_fits (fits_mk_iff.mpr h), Bytes.toList_chunk,
      FieldKind.decodeAll_take]
    rfl
  · rw [if_neg h]
    exact run_fields_of_not_fits (mt fits_mk_iff.mp h)

theorem run_bytes_of_le {image : Bytes} {p n : Nat} (h : p + n ≤ image.size) (region : String) :
    (bytes n).run ⟨image, p, region⟩ = .ok (image.chunk p n) ⟨image, (p + n : Nat), region⟩ := by
  rw [run_bytes, if_pos h]

theorem run_bytes_of_lt {image : Bytes} {p n : Nat} (h : image.size < p + n) (region : String) :
    (bytes n).run ⟨image, p, region⟩ =
      .error (.truncated region p n (max 0 ((image.size : Int) - p))) ⟨image, p, region⟩ := by
  rw [run_bytes, if_neg (by omega)]

theorem run_fields_of_le {image : Bytes} {p : Nat} {kinds : List FieldKind}
    (h : p + FieldKind.totalSize kinds ≤ image.size) (region : String) :
    (fields kinds).run ⟨image, p, region⟩ =
      .ok (FieldKind.decodeAll kinds (image.chunk p (FieldKind.totalSize kinds)).toList)
        ⟨image, (p + FieldKind.totalSize kinds : Nat), region⟩ := by
  rw [run_fields, if_pos h]

theorem run_fields_of_lt {image : Bytes} {p : Nat} {kinds : List FieldKind}
    (h : image.size < p + FieldKind.totalSize kinds) (region : String) :
    (fields kinds).run ⟨image, p, region⟩ =
      .error (.truncated region p (FieldKind.totalSize kinds) (max 0 ((image.size : Int) - p)))
        ⟨image, p, region⟩ := by
  rw [run_fields, if_neg (by omega)]

theorem outcome_bytes_eq_ok {image b : Bytes} {p n : Nat} {region : String} :
    (bytes n).outcome ⟨image, p, region⟩ = .ok b ↔ p + n ≤ image.size ∧ b = image.chunk p n := by
  by_cases h : p + n ≤ image.size
  · rw [outcome_of_run_ok (run_bytes_of_le h region), Except.ok.injEq]
    exact ⟨fun hb => ⟨h, hb.symm⟩, fun hb => hb.2.symm⟩
  · rw [outcome_of_run_error (run_bytes_of_lt (by omega) region)]
    exact ⟨nofun, fun hb => absurd hb.1 h⟩

theorem outcome_bytes_eq_error {image : Bytes} {p n : Nat} {region : String} {e : Error} :
    (bytes n).outcome ⟨image, p, region⟩ = .error e ↔
      image.size < p + n ∧ e = .truncated region p n (max 0 ((image.size : Int) - p)) := by
  by_cases h : p + n ≤ image.size
  · rw [outcome_of_run_ok (run_bytes_of_le h region)]
    exact ⟨nofun, fun he => by omega⟩
  · rw [outcome_of_run_error (run_bytes_of_lt (by omega) region), Except.error.injEq]
    exact ⟨fun he => ⟨by omega, he.symm⟩, fun he => he.2.symm⟩

/-- Reading bytes leaves the cursor over the same image. -/
theorem bytes_cursorAfter_bytes (image : Bytes) (p n : Nat) (region : String) :
    ((bytes n).cursorAfter ⟨image, p, region⟩).bytes = image := by
  by_cases h : p + n ≤ image.size
  · rw [cursorAfter_of_run_ok (run_bytes_of_le h region)]
  · rw [cursorAfter_of_run_error (run_bytes_of_lt (by omega) region)]

end Reader

/-- The integer at a place of a row of values stands behind the fields before it. -/
theorem Datum.intAt_decodeAll {kinds : List FieldKind} {i n : Nat} {k : IntKind}
    (hk : kinds[i]? = some (.int k)) (hn : FieldKind.totalSize (kinds.take i) = n)
    (bytes : List UInt8) :
    intAt (FieldKind.decodeAll kinds bytes) i = k.fieldAt bytes n := by
  induction kinds generalizing i n bytes with
  | nil => cases hk
  | cons kind kinds ih =>
    cases i with
    | zero =>
      obtain rfl : kind = .int k := Option.some.inj hk
      obtain rfl : 0 = n := hn
      rfl
    | succ i =>
      rw [List.take_succ_cons, FieldKind.totalSize_cons] at hn
      have hrest := ih hk rfl (bytes.drop kind.size)
      rw [IntKind.fieldAt, List.drop_drop, hn] at hrest
      exact hrest

/-! ## Records of a fixed size -/

/-- A kind of fixed-size record. -/
structure RecordFormat (α : Type) where
  /-- The number of bytes that have to be there before any is read. -/
  head : Nat
  /-- The number of bytes of the record. -/
  size : Nat
  /-- Which bytes are a record. -/
  Valid : Bytes → Prop
  decidableValid : DecidablePred Valid
  /-- What a record stands for. -/
  value : Bytes → α
  /-- What is reported about bytes, in a region and at a place of it, that are no record. -/
  fault : Bytes → String → Int → Error

namespace RecordFormat

variable (f : RecordFormat α) (image : Bytes)

instance : DecidablePred f.Valid := f.decidableValid

/-- The bytes of the record at `p`. -/
def chunkAt (p : Nat) : Bytes := image.chunk p f.size

/-- A whole and valid record stands at `p`. -/
def Decodable (p : Nat) : Prop := p + f.size ≤ image.size ∧ f.Valid (f.chunkAt image p)

instance (p : Nat) : Decidable (f.Decodable image p) := by
  unfold Decodable; infer_instance

/-- What is reported when no record can be decoded at `p`: bytes that are there but are no record,
or the first of the two reads that does not fit. -/
def failure (region : String) (p : Nat) : Error :=
  if p + f.size ≤ image.size then f.fault (f.chunkAt image p) region p
  else if p + f.head ≤ image.size then
    .truncated region (p + f.head : Nat) (f.size - f.head : Nat)
      (max 0 ((image.size : Int) - (p + f.head : Nat)))
  else .truncated region p f.head (max 0 ((image.size : Int) - p))

/-- Where the cursor is left after the record at `p`, decoded or not. -/
def stop (p : Nat) : Nat :=
  if p + f.size ≤ image.size then p + f.size
  else if p + f.head ≤ image.size then p + f.head
  else p

/-- The reader decodes the record at the cursor or fails with the report of the format. -/
def ReadBy (f : RecordFormat α) (read : Reader α) : Prop :=
  ∀ (image : Bytes) (p : Nat) (region : String),
    read.run ⟨image, p, region⟩ =
      if f.Decodable image p then .ok (f.value (f.chunkAt image p)) ⟨image, f.stop image p, region⟩
      else .error (f.failure image region p) ⟨image, f.stop image p, region⟩

/-- The values of `n` records that follow one another from `p` on. -/
def values (p n : Nat) : List α :=
  (List.range n).map fun i => f.value (f.chunkAt image (p + i * f.size))

variable {f image} {read : Reader α}

theorem Decodable.stop_eq {p : Nat} (h : f.Decodable image p) : f.stop image p = p + f.size := by
  rw [stop, if_pos h.1]

theorem length_values (p n : Nat) : (f.values image p n).length = n := by simp [values]

theorem values_succ (p n : Nat) :
    f.values image p (n + 1) = f.value (f.chunkAt image p) :: f.values image (p + f.size) n := by
  simp only [values, List.range_succ_eq_map, List.map_cons, List.map_map, Nat.zero_mul,
    Nat.add_zero]
  congr 1
  apply List.map_congr_left
  intro i _
  simp only [Function.comp_apply, Nat.succ_mul]
  rw [Nat.add_assoc, Nat.add_comm f.size]

/-- The step of the loop over a record that can be decoded. -/
theorem run_manyOnto_succ (hread : f.ReadBy read) {p : Nat} (hp : f.Decodable image p)
    (region : String) (n : Nat) (acc : List α) :
    (Reader.manyOnto read (n + 1) acc).run ⟨image, p, region⟩ =
      (Reader.manyOnto read n (f.value (f.chunkAt image p) :: acc)).run
        ⟨image, (p + f.size : Nat), region⟩ := by
  rw [Reader.manyOnto, EStateM.run_bind, hread, if_pos hp, hp.stop_eq]

/-- The records before the `i`-th are behind the cursor: their places, counted from the next one. -/
theorem shift_place (p i : Nat) : p + (i + 1) * f.size = p + f.size + i * f.size := by
  rw [Nat.succ_mul]
  omega

/-- `n + 1` records can be decoded when the first can and the `n` behind it. -/
theorem forall_decodable_succ {n p : Nat} :
    (∀ i < n + 1, f.Decodable image (p + i * f.size)) ↔
      f.Decodable image p ∧ ∀ i < n, f.Decodable image (p + f.size + i * f.size) := by
  constructor
  · intro h
    refine ⟨by simpa using h 0 (by omega), ?_⟩
    intro i hi
    rw [← shift_place]
    exact h (i + 1) (by omega)
  · rintro ⟨hfirst, hrest⟩ i hi
    cases i with
    | zero => simpa using hfirst
    | succ i =>
      rw [shift_place]
      exact hrest i (by omega)

/-- No record ends behind the end of the last one. -/
theorem place_add_size_le (offset size : Nat) {count i : Nat} (hi : i < count) :
    offset + i * size + size ≤ offset + count * size := by
  have h : (i + 1) * size ≤ count * size := Nat.mul_le_mul_right size hi
  rw [Nat.succ_mul] at h
  omega

/-- **The loop over records that can all be decoded.** -/
theorem run_manyOnto_of_decodable (hread : f.ReadBy read) (region : String) :
    ∀ (n p : Nat) (acc : List α), (∀ i < n, f.Decodable image (p + i * f.size)) →
      (Reader.manyOnto read n acc).run ⟨image, p, region⟩ =
        .ok (acc.reverse ++ f.values image p n) ⟨image, (p + n * f.size : Nat), region⟩ := by
  intro n
  induction n with
  | zero =>
    intro p acc _
    simp [Reader.manyOnto, values]
  | succ n ih =>
    intro p acc h
    obtain ⟨hp, hrest⟩ := forall_decodable_succ.mp h
    rw [run_manyOnto_succ hread hp, ih _ _ hrest, values_succ, shift_place]
    simp

/-- **The loop over records of which the `i`-th is the first that cannot be decoded.** -/
theorem run_manyOnto_of_not_decodable (hread : f.ReadBy read) (region : String) :
    ∀ (n i p : Nat) (acc : List α), i < n → (∀ j < i, f.Decodable image (p + j * f.size)) →
      ¬ f.Decodable image (p + i * f.size) →
      (Reader.manyOnto read n acc).run ⟨image, p, region⟩ =
        .error (f.failure image region (p + i * f.size))
          ⟨image, f.stop image (p + i * f.size), region⟩ := by
  intro n
  induction n with
  | zero => intro i p acc hi; omega
  | succ n ih =>
    intro i p acc hi hbefore hbad
    cases i with
    | zero =>
      simp only [Nat.zero_mul, Nat.add_zero] at hbad ⊢
      rw [Reader.manyOnto, EStateM.run_bind, hread, if_neg hbad]
    | succ i =>
      obtain ⟨hp, hrest⟩ := forall_decodable_succ.mp hbefore
      rw [shift_place] at hbad
      rw [run_manyOnto_succ hread hp, shift_place, ih i _ _ (by omega) hrest hbad]

theorem run_many_of_decodable (hread : f.ReadBy read) (region : String) {n p : Nat}
    (h : ∀ i < n, f.Decodable image (p + i * f.size)) :
    (Reader.many read n).run ⟨image, p, region⟩ =
      .ok (f.values image p n) ⟨image, (p + n * f.size : Nat), region⟩ := by
  rw [Reader.many, run_manyOnto_of_decodable hread region n p [] h]
  simp

theorem run_many_of_not_decodable (hread : f.ReadBy read) (region : String) {n i p : Nat}
    (hi : i < n) (hbefore : ∀ j < i, f.Decodable image (p + j * f.size))
    (hbad : ¬ f.Decodable image (p + i * f.size)) :
    (Reader.many read n).run ⟨image, p, region⟩ =
      .error (f.failure image region (p + i * f.size))
        ⟨image, f.stop image (p + i * f.size), region⟩ :=
  run_manyOnto_of_not_decodable hread region n i p [] hi hbefore hbad

/-- Either every one of `n` records can be decoded or there is a first that cannot. -/
theorem forall_decodable_or_first (f : RecordFormat α) (image : Bytes) (p n : Nat) :
    (∀ i < n, f.Decodable image (p + i * f.size)) ∨
      ∃ i < n, (∀ j < i, f.Decodable image (p + j * f.size)) ∧
        ¬ f.Decodable image (p + i * f.size) := by
  induction n with
  | zero => exact .inl fun i hi => by omega
  | succ n ih =>
    rcases ih with h | ⟨i, hi, hbefore, hbad⟩
    · by_cases hn : f.Decodable image (p + n * f.size)
      · refine .inl fun i hi => ?_
        rcases Nat.lt_succ_iff_lt_or_eq.mp hi with hi | rfl
        · exact h i hi
        · exact hn
      · exact .inr ⟨n, by omega, h, hn⟩
    · exact .inr ⟨i, by omega, hbefore, hbad⟩

/-- Reading records leaves the cursor over the same image. -/
theorem bytes_cursorAfter_many (hread : f.ReadBy read) (image : Bytes) (p n : Nat)
    (region : String) : ((Reader.many read n).cursorAfter ⟨image, p, region⟩).bytes = image := by
  rcases forall_decodable_or_first f image p n with h | ⟨i, hi, hbefore, hbad⟩
  · rw [Reader.cursorAfter_of_run_ok (run_many_of_decodable hread region h)]
  · rw [Reader.cursorAfter_of_run_error (run_many_of_not_decodable hread region hi hbefore hbad)]

theorem outcome_many_eq_ok (hread : f.ReadBy read) {region : String} {n p : Nat} {xs : List α} :
    (Reader.many read n).outcome ⟨image, p, region⟩ = .ok xs ↔
      (∀ i < n, f.Decodable image (p + i * f.size)) ∧ xs = f.values image p n := by
  rcases forall_decodable_or_first f image p n with h | ⟨i, hi, hbefore, hbad⟩
  · rw [Reader.outcome_of_run_ok (run_many_of_decodable hread region h), Except.ok.injEq]
    exact ⟨fun hx => ⟨h, hx.symm⟩, fun hx => hx.2.symm⟩
  · rw [Reader.outcome_of_run_error (run_many_of_not_decodable hread region hi hbefore hbad)]
    exact ⟨nofun, fun hx => absurd (hx.1 i hi) hbad⟩

theorem outcome_many_eq_error (hread : f.ReadBy read) {region : String} {n p : Nat} {e : Error} :
    (Reader.many read n).outcome ⟨image, p, region⟩ = .error e ↔
      ∃ i < n, (∀ j < i, f.Decodable image (p + j * f.size)) ∧
        ¬ f.Decodable image (p + i * f.size) ∧ e = f.failure image region (p + i * f.size) := by
  constructor
  · intro h
    rcases forall_decodable_or_first f image p n with hall | ⟨i, hi, hbefore, hbad⟩
    · rw [Reader.outcome_of_run_ok (run_many_of_decodable hread region hall)] at h
      cases h
    · rw [Reader.outcome_of_run_error (run_many_of_not_decodable hread region hi hbefore hbad)] at h
      exact ⟨i, hi, hbefore, hbad, (Except.error.inj h).symm⟩
  · rintro ⟨i, hi, hbefore, hbad, rfl⟩
    exact Reader.outcome_of_run_error (run_many_of_not_decodable hread region hi hbefore hbad)

end RecordFormat

end QuakeC
