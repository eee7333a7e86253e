import QuakeC.Program

/-!
# Lookups and how they fail

Every lookup in a program ends in one of three ways: with a value, with an offset that lies outside
its table, or with an error of the charset of the strings.

* `FailsOnly` — a computation fails with errors of one kind only; the rules say so of a computation
  from its parts.
* `StringTable.FailsWith`, `StringTable.Refuses` — the errors of the charset, and those together
  with offsets that lie outside.
* `StringTable.resolve_failsOnly`, `Globals.read_failsOnly` — the lookups of strings and of values.
-/

set_option autoImplicit false

namespace QuakeC

variable {α β ε : Type}

/-! ## Computations one after another -/

theorem bind_eq_ok_iff {x : Except ε α} {f : α → Except ε β} {b : β} :
    x >>= f = .ok b ↔ ∃ a, x = .ok a ∧ f a = .ok b := by
  cases x <;> simp [bind, Except.bind]

theorem bind_eq_error_iff {x : Except ε α} {f : α → Except ε β} {e : ε} :
    x >>= f = .error e ↔ x = .error e ∨ ∃ a, x = .ok a ∧ f a = .error e := by
  cases x <;> simp [bind, Except.bind]

theorem toOption_eq_some_iff {x : Except ε α} {a : α} : x.toOption = some a ↔ x = .ok a := by
  cases x <;> simp [Except.toOption]

/-- All of the results are there. -/
theorem mapM_eq_ok_iff {f : α → Except ε β} {xs : List α} {ys : List β} :
    xs.mapM f = .ok ys ↔ xs.map f = ys.map .ok := by
  induction xs generalizing ys with
  | nil => cases ys <;> simp [pure, Except.pure]
  | cons x xs ih =>
    rw [List.mapM_cons, List.map_cons]
    cases hx : f x with
    | error e => cases ys <;> simp [bind, Except.bind]
    | ok y =>
      cases hxs : xs.mapM f with
      | error e => cases ys <;> simp [bind, Except.bind, ← ih, hxs]
      | ok zs => cases ys <;> simp [bind, Except.bind, pure, Except.pure, ← ih, hxs]

theorem length_of_mapM {f : α → Except ε β} {xs : List α} {ys : List β}
    (h : xs.mapM f = .ok ys) : ys.length = xs.length := by
  simpa using (congrArg List.length (mapM_eq_ok_iff.mp h)).symm

/-- The computation fails with errors of the given kind only. -/
def FailsOnly (P : ε → Prop) (x : Except ε α) : Prop := ∀ e, x = .error e → P e

namespace FailsOnly

variable {P Q : ε → Prop}

theorem ok (a : α) : FailsOnly P (.ok a : Except ε α) := nofun

theorem pure (a : α) : FailsOnly P (Pure.pure a : Except ε α) := nofun

theorem error {e : ε} (h : P e) : FailsOnly P (.error e : Except ε α) :=
  fun _ he => Except.error.inj he ▸ h

theorem mono {x : Except ε α} (h : FailsOnly P x) (hPQ : ∀ e, P e → Q e) : FailsOnly Q x :=
  fun e he => hPQ e (h e he)

theorem bind {x : Except ε α} {f : α → Except ε β} (hx : FailsOnly P x)
    (hf : ∀ a, FailsOnly P (f a)) : FailsOnly P (x >>= f) := by
  intro e he
  rcases bind_eq_error_iff.mp he with he | ⟨a, -, he⟩
  · exact hx e he
  · exact hf a e he

theorem mapM {f : α → Except ε β} (hf : ∀ a, FailsOnly P (f a)) (xs : List α) :
    FailsOnly P (xs.mapM f) := by
  induction xs with
  | nil => exact pure []
  | cons x xs ih =>
    rw [List.mapM_cons]
    exact (hf x).bind fun _ => ih.bind fun _ => pure _

end FailsOnly

/-! ## Strings -/

namespace StringTable

variable (t : StringTable) (lib : CharsetLibrary)

/-- Decoding with the charset of the table can fail with the error. -/
def FailsWith (e : Error) : Prop := ∃ bytes, t.decode lib bytes = .error e

/-- The error is that of an offset outside its table, or of the charset. -/
def Refuses (e : Error) : Prop := e.isBadOffset = true ∨ t.FailsWith lib e

/-- The charset of the table decodes every byte sequence. -/
def Total : Prop := ∀ bytes, ∃ text, t.decode lib bytes = .ok text

variable {t lib}

/-- With a charset that decodes everything, nothing is left to fail. -/
theorem Total.exists_ok {x : Except Error α} (ht : t.Total lib)
    (hx : FailsOnly (t.FailsWith lib) x) : ∃ a, x = .ok a := by
  cases x with
  | ok a => exact ⟨a, rfl⟩
  | error e =>
    obtain ⟨bytes, hbytes⟩ := hx e rfl
    obtain ⟨text, htext⟩ := ht bytes
    rw [htext] at hbytes
    cases hbytes

variable (t lib)

theorem decode_failsOnly (bytes : List UInt8) : FailsOnly (t.FailsWith lib) (t.decode lib bytes) :=
  fun _ he => ⟨bytes, he⟩

theorem index_failsOnly (offset : Number) : FailsOnly (t.Refuses lib) (t.index offset) := by
  unfold index
  split
  · split
    · exact .ok _
    · exact .error (.inl rfl)
  · exact .error (.inl rfl)

theorem resolve_failsOnly (offset : Number) : FailsOnly (t.Refuses lib) (t.resolve lib offset) :=
  (t.index_failsOnly lib offset).bind fun _ => (t.decode_failsOnly lib _).mono fun _ => .inr

/-- A listing looks up no offset. -/
theorem listing_failsOnly : FailsOnly (t.FailsWith lib) (t.listing lib) :=
  (FailsOnly.mapM (fun _ => (t.decode_failsOnly lib _).bind fun _ => .pure _) t.entries).bind
    fun _ => .pure _

/-- An offset inside the table always names a string. -/
theorem resolve_of_toInt? {o : Number} {i : Nat} (ho : o.toInt? = some (i : Int))
    (h : i < t.length) : t.resolve lib o = t.decode lib (t.run i) := by
  have hindex : t.index o = .ok i := by
    simp only [index, ho]
    rw [if_pos (by omega), Int.toNat_natCast]
  simp only [resolve, hindex, bind, Except.bind]

theorem resolve_natCast {i : Nat} (h : i < t.length) :
    t.resolve lib (.int i) = t.decode lib (t.run i) :=
  t.resolve_of_toInt? lib rfl h

end StringTable

/-! ## Values -/

namespace Globals

variable (g : Globals) (lib : CharsetLibrary) (strings : StringTable)
  (functions : List FunctionRecord) (offset : Number)

theorem chunk_failsOnly (size : Nat) : FailsOnly (strings.Refuses lib) (g.chunk offset size) := by
  unfold chunk
  split
  · split
    · exact .ok _
    · exact .error (.inl rfl)
  · exact .error (.inl rfl)

theorem word_failsOnly : FailsOnly (strings.Refuses lib) (g.word offset) :=
  (g.chunk_failsOnly lib strings offset 4).bind fun _ => .pure _

/-- A value lies outside the globals, names a string that cannot be read, or is there. -/
theorem read_failsOnly (type : ValueType) :
    FailsOnly (strings.Refuses lib) (g.read lib strings functions offset type) := by
  have hword := g.word_failsOnly lib strings offset
  cases type with
  | string =>
    exact hword.bind fun n => (strings.resolve_failsOnly lib (.int n)).bind fun _ => .pure _
  | float =>
    exact ((g.chunk_failsOnly lib strings offset 4).bind fun _ => .pure _).bind fun _ => .pure _
  | vector =>
    exact ((g.chunk_failsOnly lib strings offset 12).bind fun _ => .pure _).bind fun _ => .pure _
  | entity => exact hword.bind fun _ => .pure _
  | function =>
    refine hword.bind fun n => ?_
    split
    · exact .pure _
    · exact .pure _
  | bad | void | field | pointer | unknown n => exact .pure _

end Globals

end QuakeC
