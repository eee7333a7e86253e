import QuakeC.Proofs.ReportLines

/-!
# Searching by name

A search goes through the records in their order.  It passes over a record that has another name or
whose name lies outside the string table, stops at the first that has the name, and ends with any
other error that a name gives.

* `FirstAt` — the least place at which a record has a property.
* `searchFrom_of_forall_passedOver`, `searchFrom_of_firstAt` — the first record that is not passed
  over decides the search; `searchFrom_cases` puts them together.
* `StringTable.passedOver_iff` — at which records a search stops, whatever the charset decodes.
* `FindsFirst`, `FailsInside` — what a search comes to under a charset that decodes everything, and
  under one that decodes nothing.
* `Program.search_finds_first` — both for the functions and for the global definitions.
-/

set_option autoImplicit false

namespace QuakeC

variable {α : Type}

/-! ## The first record with a property -/

/-- A record with the property stands at `i`, and none before it. -/
structure FirstAt (P : α → Prop) (records : List α) (i : Nat) : Prop where
  here : ∃ r ∈ records[i]?, P r
  before : ∀ r ∈ records.take i, ¬ P r

instance (P : α → Prop) [DecidablePred P] (records : List α) (i : Nat) :
    Decidable (FirstAt P records i) :=
  decidable_of_iff ((∃ r ∈ records[i]?, P r) ∧ ∀ r ∈ records.take i, ¬ P r)
    ⟨fun h => ⟨h.1, h.2⟩, fun h => ⟨h.here, h.before⟩⟩

namespace FirstAt

variable {P Q : α → Prop} {r : α} {records : List α} {i j : Nat}

theorem cons_zero (h : P r) : FirstAt P (r :: records) 0 where
  here := ⟨r, rfl, h⟩
  before := nofun

theorem cons_succ (hr : ¬ P r) (h : FirstAt P records i) : FirstAt P (r :: records) (i + 1) where
  here := h.here
  before := List.forall_mem_cons.mpr ⟨hr, h.before⟩

theorem congr (hPQ : ∀ r, P r ↔ Q r) (h : FirstAt P records i) : FirstAt Q records i where
  here := h.here.imp fun r hr => ⟨hr.1, (hPQ r).mp hr.2⟩
  before r hr := fun hQ => h.before r hr ((hPQ r).mpr hQ)

/-- The first place is not behind any other. -/
theorem le (h : FirstAt P records i) (hj : records[j]? = some r) (hr : P r) : i ≤ j := by
  refine Nat.le_of_not_lt fun hlt => h.before r ?_ hr
  exact List.mem_of_getElem? ((List.getElem?_take_of_lt hlt).trans hj)

theorem unique (h : FirstAt P records i) (h' : FirstAt P records j) : i = j := by
  obtain ⟨r, hi, hr⟩ := h.here
  obtain ⟨r', hj, hr'⟩ := h'.here
  exact Nat.le_antisymm (h.le hj hr') (h'.le hi hr)

theorem exists_mem (h : FirstAt P records i) : ∃ r ∈ records, P r := by
  obtain ⟨r, hr, hP⟩ := h.here
  exact ⟨r, List.mem_of_getElem? hr, hP⟩

end FirstAt

/-- No record has a property, or there is a first that has it. -/
theorem forall_not_or_firstAt (P : α → Prop) (records : List α) :
    (∀ r ∈ records, ¬ P r) ∨ ∃ i, FirstAt P records i := by
  induction records with
  | nil => exact .inl nofun
  | cons r records ih =>
    by_cases hr : P r
    · exact .inr ⟨0, .cons_zero hr⟩
    · rcases ih with hnone | ⟨i, hi⟩
      · exact .inl (List.forall_mem_cons.mpr ⟨hr, hnone⟩)
      · exact .inr ⟨i + 1, hi.cons_succ hr⟩

/-! ## The course of a search -/

section Search

variable {nameOf : α → Except Error Text} {name : Text}

/-- The search goes on behind the record: it has another name, or none inside the string table. -/
def PassedOver (nameOf : α → Except Error Text) (name : Text) (r : α) : Prop :=
  (∃ found, nameOf r = .ok found ∧ found ≠ name) ∨ ∃ e, nameOf r = .error e ∧ e.isBadOffset = true

theorem searchFrom_cons_of_passedOver {r : α} (h : PassedOver nameOf name r) (i : Nat)
    (records : List α) :
    searchFrom nameOf name i (r :: records) = searchFrom nameOf name (i + 1) records := by
  rw [searchFrom]
  rcases h with ⟨found, hfound, hne⟩ | ⟨e, he, hbad⟩
  · simp only [hfound, hne, ↓reduceIte]
  · simp only [he, hbad, ↓reduceIte]

theorem searchFrom_cons_of_not_passedOver {r : α} (h : ¬ PassedOver nameOf name r) (i : Nat)
    (records : List α) :
    searchFrom nameOf name i (r :: records) = (nameOf r).map fun _ => some i := by
  rw [searchFrom]
  cases hr : nameOf r with
  | ok found =>
    have heq : found = name := Classical.not_not.mp fun hne => h (.inl ⟨found, hr, hne⟩)
    simp only [heq, ↓reduceIte, Except.map]
  | error e =>
    have hbad : ¬ e.isBadOffset = true := fun hbad => h (.inr ⟨e, hr, hbad⟩)
    simp only [hbad, Bool.false_eq_true, ↓reduceIte, Except.map]

theorem searchFrom_of_forall_passedOver {records : List α}
    (h : ∀ r ∈ records, PassedOver nameOf name r) (i : Nat) :
    searchFrom nameOf name i records = .ok none := by
  induction records generalizing i with
  | nil => rfl
  | cons r records ih =>
    obtain ⟨hr, hrest⟩ := List.forall_mem_cons.mp h
    rw [searchFrom_cons_of_passedOver hr, ih hrest]

/-- **The first record that is not passed over decides the search.** -/
theorem searchFrom_of_firstAt {records : List α} {k : Nat} {r : α}
    (h : FirstAt (fun r => ¬ PassedOver nameOf name r) records k) (hr : records[k]? = some r)
    (i : Nat) :
    searchFrom nameOf name i records = (nameOf r).map fun _ => some (i + k) := by
  induction records generalizing i k with
  | nil => cases hr
  | cons first records ih =>
    cases k with
    | zero =>
      obtain rfl : first = r := Option.some.inj hr
      obtain ⟨s, hs, hstops⟩ := h.here
      obtain rfl : first = s := Option.some.inj hs
      exact searchFrom_cons_of_not_passedOver hstops i records
    | succ k =>
      obtain ⟨hfirst, hbefore⟩ := List.forall_mem_cons.mp h.before
      rw [searchFrom_cons_of_passedOver (Classical.not_not.mp hfirst), ih ⟨h.here, hbefore⟩ hr,
        Nat.add_right_comm, Nat.add_assoc]

/-- A search finds nothing when no record stops it, and ends at the first that does. -/
theorem searchFrom_cases {P : α → Prop} (h : ∀ r, PassedOver nameOf name r ↔ ¬ P r)
    (records : List α) :
    ((∀ r ∈ records, ¬ P r) ∧ searchFrom nameOf name 0 records = .ok none) ∨
      ∃ i r, FirstAt P records i ∧ records[i]? = some r ∧ P r ∧
        searchFrom nameOf name 0 records = (nameOf r).map fun _ => some i := by
  rcases forall_not_or_firstAt P records with hnone | ⟨i, hi⟩
  · exact .inl ⟨hnone, searchFrom_of_forall_passedOver (fun r hr => (h r).mpr (hnone r hr)) 0⟩
  · obtain ⟨r, hr, hP⟩ := hi.here
    have hstops := hi.congr fun r => ((not_congr (h r)).trans Classical.not_not).symm
    refine .inr ⟨i, r, hi, hr, hP, ?_⟩
    rw [searchFrom_of_firstAt hstops hr, Nat.zero_add]

/-- A search fails as the names that it asks for do. -/
theorem searchFrom_failsOnly {P : Error → Prop} (h : ∀ r, FailsOnly P (nameOf r)) (i : Nat)
    (records : List α) : FailsOnly P (searchFrom nameOf name i records) := by
  induction records generalizing i with
  | nil => exact .ok none
  | cons r records ih =>
    by_cases hpassed : PassedOver nameOf name r
    · rw [searchFrom_cons_of_passedOver hpassed]
      exact ih (i + 1)
    · rw [searchFrom_cons_of_not_passedOver hpassed]
      intro e he
      cases hr : nameOf r with
      | ok found =>
        rw [hr] at he
        cases he
      | error e' =>
        rw [hr] at he
        obtain rfl : e' = e := Except.error.inj he
        exact h r e' hr

end Search

/-! ## Names in a string table -/

namespace StringTable

/-- A search for the name ends at a record with the offset: it lies inside the table, and what
stands there decodes to the name or not at all. -/
def Stops (t : StringTable) (lib : CharsetLibrary) (name : Text) (offset : Int) : Prop :=
  t.Inside offset ∧ ∀ found, t.decode lib (t.bytesAt offset) = .ok found → found = name

variable {t : StringTable} {lib : CharsetLibrary} {name : Text} {sName : α → Int}

theorem stops_iff_of_total (ht : t.Total lib) {offset : Int} :
    t.Stops lib name offset ↔ t.Names lib offset name := by
  refine and_congr_right fun _ => ?_
  obtain ⟨text, htext⟩ := ht (t.bytesAt offset)
  rw [htext]
  constructor
  · intro h
    rw [h text rfl]
  · intro h found hfound
    exact Except.ok.inj (hfound.symm.trans h)

theorem stops_iff_of_decode_eq_error {errorOf : List UInt8 → Error}
    (hdecode : ∀ bytes, t.decode lib bytes = .error (errorOf bytes)) {offset : Int} :
    t.Stops lib name offset ↔ t.Inside offset := by
  refine and_iff_left fun found hfound => ?_
  rw [hdecode] at hfound
  cases hfound

/-- **Where a search passes over a record**, whatever the charset decodes. -/
theorem passedOver_iff {r : α} :
    PassedOver (fun r => t.resolve lib (.int (sName r))) name r ↔ ¬ t.Stops lib name (sName r) := by
  unfold PassedOver Stops
  dsimp only
  rw [t.resolve_int lib]
  by_cases hinside : t.Inside (sName r)
  · rw [if_pos hinside, and_iff_right hinside]
    cases hdecode : t.decode lib (t.bytesAt (sName r)) with
    | ok found => simp
    | error e => simp [isBadOffset_of_decode hdecode]
  · rw [if_neg hinside]
    exact iff_of_true (.inr ⟨_, rfl, rfl⟩) fun hstops => hinside hstops.1

end StringTable

/-! ## What a search comes to -/

/-- A search by name through records: it ends with the first record that has the name, or with
nothing when there is none. -/
structure FindsFirst (lib : CharsetLibrary) (t : StringTable) (sName : α → Int) (records : List α)
    (search : Text → Except Error (Option Nat)) : Prop where
  /-- No search fails. -/
  returns : ∀ name, ∃ place?, search name = .ok place?
  some_iff : ∀ name i, search name = .ok (some i) ↔
    FirstAt (fun r => t.Names lib (sName r) name) records i
  none_iff : ∀ name, search name = .ok none ↔ ∀ r ∈ records, ¬ t.Names lib (sName r) name
  /-- A record whose name can be looked up is found under it, or one before it is. -/
  finds : ∀ j r name, records[j]? = some r → t.resolve lib (.int (sName r)) = .ok name →
    ∃ i ≤ j, search name = .ok (some i)

/-- A search by name through records: it fails as soon as there is a name inside the string table,
with the error that the bytes of the first such name give, and finds nothing otherwise. -/
structure FailsInside (t : StringTable) (sName : α → Int) (records : List α)
    (search : Text → Except Error (Option Nat)) (errorOf : List UInt8 → Error) : Prop where
  error_iff : ∀ name, (∃ bytes, search name = .error (errorOf bytes)) ↔
    ∃ r ∈ records, t.Inside (sName r)
  error_eq : ∀ name i r, FirstAt (fun r => t.Inside (sName r)) records i → records[i]? = some r →
    search name = .error (errorOf (t.bytesAt (sName r)))
  none_iff : ∀ name, search name = .ok none ↔ ∀ r ∈ records, ¬ t.Inside (sName r)

section Outcome

variable {lib : CharsetLibrary} {t : StringTable} (sName : α → Int) (records : List α)

/-- With a charset that decodes everything, a search ends at the first record that has the name. -/
theorem searchFrom_cases_of_total (ht : t.Total lib) (name : Text) :
    ((∀ r ∈ records, ¬ t.Names lib (sName r) name) ∧
      searchFrom (fun r => t.resolve lib (.int (sName r))) name 0 records = .ok none) ∨
    ∃ i, FirstAt (fun r => t.Names lib (sName r) name) records i ∧
      searchFrom (fun r => t.resolve lib (.int (sName r))) name 0 records = .ok (some i) := by
  have hpassed : ∀ r, PassedOver (fun r => t.resolve lib (.int (sName r))) name r ↔
      ¬ t.Names lib (sName r) name :=
    fun _ => StringTable.passedOver_iff.trans (not_congr (StringTable.stops_iff_of_total ht))
  rcases searchFrom_cases hpassed records with h | ⟨i, r, hi, -, hname, hsearch⟩
  · exact .inl h
  · rw [(t.resolve_int_eq_ok_iff lib).mpr hname] at hsearch
    exact .inr ⟨i, hi, hsearch⟩

theorem findsFirst_of_total (ht : t.Total lib) :
    FindsFirst lib t sName records fun name =>
      searchFrom (fun r => t.resolve lib (.int (sName r))) name 0 records := by
  have hcases := searchFrom_cases_of_total sName records ht
  -- the two cases exclude each other, so that each result belongs to one of them only
  constructor
  case returns =>
    intro name
    rcases hcases name with ⟨-, hsearch⟩ | ⟨i, -, hsearch⟩
    · exact ⟨none, hsearch⟩
    · exact ⟨some i, hsearch⟩
  case some_iff =>
    intro name i
    rcases hcases name with ⟨hnone, hsearch⟩ | ⟨k, hk, hsearch⟩
    · refine iff_of_false (fun h => nomatch hsearch.symm.trans h) fun hi => ?_
      obtain ⟨r, hr, hname⟩ := hi.exists_mem
      exact absurd hname (hnone r hr)
    · constructor
      · intro h
        obtain rfl : k = i := Option.some.inj (Except.ok.inj (hsearch.symm.trans h))
        exact hk
      · intro hi
        rw [hi.unique hk, hsearch]
  case none_iff =>
    intro name
    rcases hcases name with ⟨hnone, hsearch⟩ | ⟨k, hk, hsearch⟩
    · exact iff_of_true hsearch hnone
    · refine iff_of_false (fun h => nomatch hsearch.symm.trans h) fun hnone => ?_
      obtain ⟨r, hr, hname⟩ := hk.exists_mem
      exact absurd hname (hnone r hr)
  case finds =>
    intro j r name hj hr
    have hname := (t.resolve_int_eq_ok_iff lib).mp hr
    rcases hcases name with ⟨hnone, -⟩ | ⟨i, hi, hsearch⟩
    · exact absurd hname (hnone r (List.mem_of_getElem? hj))
    · exact ⟨i, hi.le hj hname, hsearch⟩

/-- With a charset that decodes nothing, a search fails at the first record with a name inside the
table. -/
theorem searchFrom_cases_of_decode_eq_error {errorOf : List UInt8 → Error}
    (hdecode : ∀ bytes, t.decode lib bytes = .error (errorOf bytes)) (name : Text) :
    ((∀ r ∈ records, ¬ t.Inside (sName r)) ∧
      searchFrom (fun r => t.resolve lib (.int (sName r))) name 0 records = .ok none) ∨
    ∃ i r, FirstAt (fun r => t.Inside (sName r)) records i ∧ records[i]? = some r ∧
      searchFrom (fun r => t.resolve lib (.int (sName r))) name 0 records =
        .error (errorOf (t.bytesAt (sName r))) := by
  have hpassed : ∀ r, PassedOver (fun r => t.resolve lib (.int (sName r))) name r ↔
      ¬ t.Inside (sName r) := fun _ =>
    StringTable.passedOver_iff.trans (not_congr (StringTable.stops_iff_of_decode_eq_error hdecode))
  rcases searchFrom_cases hpassed records with h | ⟨i, r, hi, hr, hinside, hsearch⟩
  · exact .inl h
  · rw [t.resolve_int lib, if_pos hinside, hdecode] at hsearch
    exact .inr ⟨i, r, hi, hr, hsearch⟩

theorem failsInside_of_decode_eq_error {errorOf : List UInt8 → Error}
    (hdecode : ∀ bytes, t.decode lib bytes = .error (errorOf bytes)) :
    FailsInside t sName records
      (fun name => searchFrom (fun r => t.resolve lib (.int (sName r))) name 0 records)
      errorOf := by
  have hcases := searchFrom_cases_of_decode_eq_error sName records hdecode
  constructor
  case error_iff =>
    intro name
    rcases hcases name with ⟨hnone, hsearch⟩ | ⟨i, r, hi, -, hsearch⟩
    · refine iff_of_false (fun ⟨_, h⟩ => nomatch hsearch.symm.trans h) fun ⟨r, hr, hinside⟩ => ?_
      exact absurd hinside (hnone r hr)
    · exact iff_of_true ⟨_, hsearch⟩ hi.exists_mem
  case error_eq =>
    intro name i r hi hr
    rcases hcases name with ⟨hnone, -⟩ | ⟨k, r', hk, hr', hsearch⟩
    · obtain ⟨r', hr', hinside⟩ := hi.exists_mem
      exact absurd hinside (hnone r' hr')
    · obtain rfl := hi.unique hk
      obtain rfl : r = r' := Option.some.inj (hr.symm.trans hr')
      exact hsearch
  case none_iff =>
    intro name
    rcases hcases name with ⟨hnone, hsearch⟩ | ⟨i, r, hi, -, hsearch⟩
    · exact iff_of_true hsearch hnone
    · refine iff_of_false (fun h => nomatch hsearch.symm.trans h) fun hnone => ?_
      obtain ⟨r', hr', hinside⟩ := hi.exists_mem
      exact absurd hinside (hnone r' hr')

end Outcome

namespace Program

/-- **A search by name is complete and skips only records without a name.**  Under a charset that
decodes everything it ends with the least place at which a record has the name, unit by unit,
whatever the name offsets of the records before it are, and with nothing when there is no such
record.  Under a charset that decodes nothing it ends with the error of the charset as soon as one
record has a name offset inside the table, and with nothing otherwise. -/
theorem search_finds_first (lib : CharsetLibrary) (p : Program) :
    (p.strings.Total lib →
      FindsFirst lib p.strings FunctionRecord.sName p.functions (p.findFunction? lib) ∧
        FindsFirst lib p.strings Definition.sName p.globalDefs (p.findGlobal? lib)) ∧
    ∀ errorOf : List UInt8 → Error,
      (∀ bytes, p.strings.decode lib bytes = .error (errorOf bytes)) →
        (∀ bytes, (errorOf bytes).isBadOffset = false) ∧
        FailsInside p.strings FunctionRecord.sName p.functions (p.findFunction? lib) errorOf ∧
        FailsInside p.strings Definition.sName p.globalDefs (p.findGlobal? lib) errorOf := by
  refine ⟨?_, ?_⟩
  · intro htotal
    exact ⟨findsFirst_of_total _ _ htotal, findsFirst_of_total _ _ htotal⟩
  · intro errorOf hdecode
    exact ⟨fun bytes => StringTable.isBadOffset_of_decode (hdecode bytes),
      failsInside_of_decode_eq_error _ _ hdecode, failsInside_of_decode_eq_error _ _ hdecode⟩

/-- Four functions and four definitions over the strings `go`, `stop` and `go` again.  The first
function and the first three definitions have name offsets outside the table. -/
def crowded (charsetName : Text) : Program where
  header := Header.wordsAt #[] 0
  strings := ⟨#[0, 103, 111, 0, 115, 116, 111, 112, 0, 103, 111, 0], charsetName⟩
  globals := ⟨#[]⟩
  functions := [99, 4, 9, 1].map fun sName => ⟨1, 0, 0, 0, sName, 0, []⟩
  statements := []
  globalDefs := [-1, 12, -4, 1].map fun sName => ⟨.float, false, 0, sName⟩
  fieldDefs := []

theorem search_finds_first_crowded :
    (crowded "ascii").findFunction? .standard "go" = .ok (some 2) ∧
      (crowded "ascii").findGlobal? .standard "go" = .ok (some 3) ∧
      (crowded "ascii").findGlobal? .standard "stop" = .ok none ∧
      (crowded "constructor").findFunction? .standard "go" =
        .error (.decoder Charset.noDecoder) := by
  have hascii : Charset.ofKey? (Charset.lookupKey "ascii") = some .ascii := by decide +kernel
  have hnone : Charset.ofKey? (Charset.lookupKey "constructor") = some .undecodable := by
    decide +kernel
  obtain ⟨hfunctions, hglobals⟩ := (search_finds_first .standard (crowded "ascii")).1
    ((StringTable.total_iff_of_ofKey? hascii).mpr (by decide))
  obtain ⟨-, hfails, -⟩ := (search_finds_first .standard (crowded "constructor")).2
    (fun _ => .decoder Charset.noDecoder)
    (fun bytes => CharsetLibrary.decode_eq (Charset.ofName?_standard hnone) bytes)
  refine ⟨(hfunctions.some_iff "go" 2).mpr ?_, (hglobals.some_iff "go" 3).mpr ?_,
    (hglobals.none_iff "stop").mpr ?_, hfails.error_eq "go" 1 ⟨1, 0, 0, 0, 4, 0, []⟩ ?_ rfl⟩
  · decide +kernel
  · decide +kernel
  · decide +kernel
  · decide

end Program

end QuakeC
