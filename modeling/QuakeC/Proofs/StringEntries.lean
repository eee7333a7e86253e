import QuakeC.Proofs.CharsetNames
import QuakeC.Proofs.Lines
import QuakeC.Proofs.Lookups

/-!
# The strings of a table

Where the strings of a table start and what they hold, said by offset: a string starts at the
beginning and behind every zero byte that is not the last byte, and it runs to the next zero byte or
to the end.

* `StringTable.run_eq_takeWhile` — what is read at an offset.
* `StringTable.Names`, `StringTable.resolve_int` — what an offset of a record leads to.
* `StringTable.entries_eq` — the entries of a table are the strings at its starts.
* `StringTable.length_starts` — how many there are.
* `StringTable.length_lines_of_listing` — a listing has a line for each string and one for each line
  feed inside a string.
* `StringTable.total_iff_of_ofKey?` — a standard charset decodes everything unless it has no
  decoder.
-/

set_option autoImplicit false

namespace QuakeC

/-! ## The bytes of one string -/

/-- The search for a zero byte passes over the bytes that are none. -/
theorem Bytes.zeroFrom_eq (bytes : Bytes) {i : Nat} (h : i ≤ bytes.size) :
    bytes.zeroFrom i = i + ((bytes.toList.drop i).takeWhile (· != 0)).length := by
  fun_induction Bytes.zeroFrom bytes i with
  | case1 i hi hzero =>
    have hdrop : bytes.toList.drop i = bytes[i] :: bytes.toList.drop (i + 1) := by
      rw [List.drop_eq_getElem_cons (by simpa using hi), Array.getElem_toList]
    simp [hdrop, hzero]
  | case2 i hi hne ih =>
    have hdrop : bytes.toList.drop i = bytes[i] :: bytes.toList.drop (i + 1) := by
      rw [List.drop_eq_getElem_cons (by simpa using hi), Array.getElem_toList]
    rw [ih hi, hdrop, List.takeWhile_cons_of_pos (by simpa using hne), List.length_cons]
    omega
  | case3 i hi =>
    have hdrop : bytes.toList.drop i = [] := List.drop_of_length_le (by simpa using hi)
    simp [hdrop]
    omega

namespace StringTable

variable (t : StringTable)

/-- **What is read at an offset are the bytes before the next zero byte.** -/
theorem run_eq_takeWhile (i : Nat) : t.run i = (t.bytes.toList.drop i).takeWhile (· != 0) := by
  by_cases h : i ≤ t.bytes.size
  · have hprefix := List.prefix_iff_eq_take.mp
      (List.takeWhile_prefix (· != 0) : _ <+: t.bytes.toList.drop i)
    rw [run, Bytes.zeroFrom_eq t.bytes h, Array.toList_extract, List.extract_eq_take_drop,
      Nat.add_sub_cancel_left, ← hprefix]
  · have hdrop : t.bytes.toList.drop i = [] := List.drop_of_length_le (by simp; omega)
    rw [run, hdrop, Array.toList_extract, List.extract_eq_take_drop, hdrop, List.take_nil]
    rfl

/-! ## Where strings start -/

/-- The offsets at which a string starts: the beginning, and behind each zero byte; none at the very
end. -/
def starts : List Nat :=
  (List.range t.length).filter fun i => i == 0 || t.bytes[i - 1]? == some 0

/-- The text of the string at an offset; nothing where it cannot be read. -/
def textAt (lib : CharsetLibrary) (i : Nat) : Text :=
  match t.resolve lib (.int i) with
  | .ok text => text
  | .error _ => []

theorem mem_starts {i : Nat} :
    i ∈ t.starts ↔ i < t.length ∧ (i = 0 ∨ t.bytes[i - 1]? = some 0) := by
  simp [starts]

end StringTable

/-- The starts in a list of bytes. -/
def startsIn (l : List UInt8) : List Nat :=
  (List.range l.length).filter fun i => i == 0 || l[i - 1]? == some 0

/-- A first byte is a start, and if it is not zero the place behind it is none. -/
theorem startsIn_cons (b : UInt8) (l : List UInt8) :
    startsIn (b :: l) =
      0 :: ((startsIn l).filter fun i => b == 0 || i != 0).map (· + 1) := by
  rw [startsIn, List.length_cons, List.range_succ_eq_map, List.filter_cons_of_pos (by simp),
    List.filter_map, startsIn, List.filter_filter]
  congr 2
  apply List.filter_congr
  intro i _
  cases i with
  | zero => simp
  | succ i => simp

theorem startsIn_cons_zero (l : List UInt8) :
    startsIn (0 :: l) = 0 :: (startsIn l).map (· + 1) := by
  rw [startsIn_cons, List.filter_eq_self.mpr (by simp)]

theorem startsIn_cons_of_ne {b c : UInt8} (hb : b ≠ 0) (l : List UInt8) :
    startsIn (b :: c :: l) = 0 :: (startsIn (c :: l)).tail.map (· + 1) := by
  have hbehind : ∀ i ∈ (startsIn (c :: l)).tail, (b == 0 || i != 0) = true := by
    rw [startsIn_cons, List.tail_cons]
    intro i hi
    obtain ⟨j, -, rfl⟩ := List.mem_map.mp hi
    simp
  rw [startsIn_cons b, ← List.filter_eq_self.mpr hbehind, startsIn_cons c, List.tail_cons,
    List.filter_cons_of_neg (by simpa using hb)]

theorem length_startsIn_cons (b : UInt8) (l : List UInt8) :
    (startsIn (b :: l)).length = (b :: l).dropLast.count 0 + 1 := by
  induction l generalizing b with
  | nil => rw [startsIn_cons]; rfl
  | cons c l ih =>
    rw [List.dropLast_cons_cons, List.count_cons]
    by_cases hb : b = 0
    · subst hb
      rw [startsIn_cons_zero, List.length_cons, List.length_map, ih c]
      simp
    · rw [startsIn_cons_of_ne hb, List.length_cons, List.length_map, List.length_tail, ih c]
      simp [hb]

namespace StringTable

/-- The string that starts at place `i` of a list of bytes, where the list stands at `s`. -/
def entryIn (s : Nat) (l : List UInt8) (i : Nat) : Nat × List UInt8 :=
  (s + i, (l.drop i).takeWhile (· != 0))

theorem entryIn_cons_succ (s : Nat) (b : UInt8) (l : List UInt8) (i : Nat) :
    entryIn s (b :: l) (i + 1) = entryIn (s + 1) l i := by
  rw [entryIn, entryIn, List.drop_succ_cons, Nat.add_right_comm, Nat.add_assoc]

theorem map_entryIn_cons (s : Nat) (b : UInt8) (l : List UInt8) (is : List Nat) :
    (is.map (· + 1)).map (entryIn s (b :: l)) = is.map (entryIn (s + 1) l) := by
  rw [List.map_map]
  exact List.map_congr_left fun i _ => entryIn_cons_succ s b l i

/-- The pieces between the zero bytes, each at its place, without the empty one at the end.  The
place of the first byte is generalised: the induction takes bytes off the front. -/
theorem placed_splitWhere (l : List UInt8) (s : Nat) :
    ((placed s (Text.splitWhere (· == 0) l)).filter fun entry => decide (entry.1 < s + l.length)) =
      (startsIn l).map (entryIn s l) := by
  induction l generalizing s with
  | nil => simp [Text.splitWhere_nil, placed, startsIn]
  | cons b l ih =>
    have hlength : s + (b :: l).length = s + 1 + l.length := by
      rw [List.length_cons]
      omega
    have hrest := ih (s + 1)
    by_cases hb : b = 0
    · subst hb
      rw [Text.splitWhere_cons, if_pos (by decide), placed, List.filter_cons_of_pos (by simp),
        startsIn_cons_zero, List.map_cons, map_entryIn_cons, hlength, List.length_nil, hrest]
      simp [entryIn]
    · obtain ⟨piece, pieces, hsplit⟩ := Text.exists_splitWhere_eq_cons (· == 0) l
      rw [Text.splitWhere_cons, if_neg (by simpa using hb), hsplit, List.modifyHead_cons, placed,
        List.filter_cons_of_pos (by simp)]
      cases l with
      | nil =>
        cases hsplit
        simp [placed, startsIn, entryIn, hb]
      | cons c l =>
        -- the piece at the front is the one of the shorter list with the byte before it
        rw [hsplit, placed, List.filter_cons_of_pos (by simp), startsIn_cons,
          List.map_cons] at hrest
        obtain ⟨hpiece, htail⟩ := List.cons.inj hrest
        have hplace : s + (b :: piece).length + 1 = s + 1 + piece.length + 1 := by
          rw [List.length_cons]
          omega
        rw [startsIn_cons_of_ne hb, List.map_cons, map_entryIn_cons, startsIn_cons, List.tail_cons,
          ← htail, hplace, hlength, entryIn, List.drop_zero,
          List.takeWhile_cons_of_pos (by simpa using hb)]
        have hpiece : piece = (c :: l).takeWhile (· != 0) := congrArg Prod.snd hpiece
        rw [← hpiece]
        rfl

variable (t : StringTable)

theorem starts_eq : t.starts = startsIn t.bytes.toList := by
  simp [starts, startsIn, length]

/-- **The entries of a table are the strings at its starts.** -/
theorem entries_eq : t.entries = t.starts.map fun i => (i, t.run i) := by
  have hplaced := placed_splitWhere t.bytes.toList 0
  rw [Array.length_toList, Nat.zero_add] at hplaced
  rw [entries, length, hplaced, starts_eq]
  apply List.map_congr_left
  intro i _
  rw [entryIn, run_eq_takeWhile, Nat.zero_add]

theorem length_starts (h : t.length ≠ 0) :
    t.starts.length = t.bytes.toList.dropLast.count 0 + 1 := by
  rw [starts_eq]
  cases hbytes : t.bytes.toList with
  | nil => exact absurd (by rw [length, ← Array.length_toList, hbytes, List.length_nil]) h
  | cons b l => exact length_startsIn_cons b l

/-! ## The listing -/

variable {t} {lib : CharsetLibrary}

theorem entryLine_eq_ok {entry : Nat × List UInt8} {line : Text}
    (h : t.entryLine lib entry = .ok line) :
    ∃ text, t.decode lib entry.2 = .ok text ∧ line = Text.ofString s!"{entry.1}\t" ++ text := by
  obtain ⟨text, htext, hline⟩ := bind_eq_ok_iff.mp h
  exact ⟨text, htext, (Except.ok.inj hline).symm⟩

/-- The number before the tab is written in digits, one unit for each. -/
theorem ofString_start (i : Nat) :
    Text.ofString s!"{i}\t" = (toString i).toList.map Text.unit ++ [Text.unit '\t'] := by
  have hchars : (s!"{i}\t").toList = (toString i).toList ++ ['\t'] := by
    rw [String.toList_append]
    rfl
  rw [Text.ofString_eq_map, hchars, List.map_append]
  · rfl
  · intro c hc
    rw [hchars, List.mem_append, List.mem_singleton] at hc
    rcases hc with hdigit | rfl
    · exact Text.toNat_lt_of_isDigit (Text.isDigit_of_mem_repr hdigit)
    · decide

/-- The number before the tab holds no line feed. -/
theorem lineFeed_not_mem_start (i : Nat) : Text.lineFeed ∉ Text.ofString s!"{i}\t" := by
  rw [ofString_start, List.mem_append, List.mem_map, List.mem_singleton]
  rintro (⟨c, hc, hfeed⟩ | hfeed)
  · have hdigit := Text.isDigit_of_mem_repr hc
    have hc : c = '\n' :=
      Text.unit_injective (Text.toNat_lt_of_isDigit hdigit) (by decide) hfeed
    rw [hc] at hdigit
    exact absurd hdigit (by decide)
  · exact absurd hfeed (by decide)

theorem count_entryLine (i : Nat) (text : Text) :
    (Text.ofString s!"{i}\t" ++ text).count Text.lineFeed = text.count Text.lineFeed := by
  rw [List.count_append, List.count_eq_zero.mpr (lineFeed_not_mem_start i), Nat.zero_add]

/-- The line feeds in the lines of a listing are those in the strings. -/
theorem count_of_map_entryLine {is : List Nat} {lines : List Text} (his : ∀ i ∈ is, i < t.length)
    (h : (is.map fun i => t.entryLine lib (i, t.run i)) = lines.map .ok) :
    lines.flatten.count Text.lineFeed = (is.flatMap (t.textAt lib)).count Text.lineFeed := by
  induction is generalizing lines with
  | nil =>
    cases lines with
    | nil => rfl
    | cons line lines => cases h
  | cons i is ih =>
    cases lines with
    | nil => cases h
    | cons line lines =>
      obtain ⟨hline, hlines⟩ := List.cons.inj h
      obtain ⟨hi, his⟩ := List.forall_mem_cons.mp his
      obtain ⟨text, htext, rfl⟩ := entryLine_eq_ok hline
      have hat : t.textAt lib i = text := by
        rw [textAt, t.resolve_natCast lib hi, htext]
      have hcount := count_entryLine i text
      rw [List.count_append] at hcount
      rw [List.flatten_cons, List.flatMap_cons, List.count_append, List.count_append,
        List.count_append, ih his hlines, hat]
      exact congrArg (· + _) hcount

/-- **A listing has a line for each string and one for each line feed inside a string.** -/
theorem length_lines_of_listing {text : Text} (h : t.length ≠ 0)
    (htext : t.listing lib = .ok text) :
    (Text.lines text).length = 1 + t.bytes.toList.dropLast.count 0 +
      (t.starts.flatMap (t.textAt lib)).count Text.lineFeed := by
  obtain ⟨lines, hlines, hjoin⟩ := bind_eq_ok_iff.mp htext
  obtain rfl := Except.ok.inj hjoin
  have hmap := mapM_eq_ok_iff.mp hlines
  rw [t.entries_eq, List.map_map] at hmap
  have hlength : lines.length = t.starts.length := by
    rw [length_of_mapM hlines, t.entries_eq, List.length_map]
  have hstarts := t.length_starts h
  have hne : lines ≠ [] := by
    rintro rfl
    rw [List.length_nil] at hlength
    omega
  rw [Text.length_lines_joinLines hne, hlength, hstarts,
    count_of_map_entryLine (fun i hi => (t.mem_starts.mp hi).1) hmap, Nat.add_comm 1]

/-! ## Offsets of records -/

/-- The errors of a charset are not those of an offset. -/
theorem isBadOffset_of_decode {t : StringTable} {lib : CharsetLibrary} {bytes : List UInt8}
    {e : Error} (h : t.decode lib bytes = .error e) : e.isBadOffset = false := by
  rw [Error.isBadOffset, CharsetLibrary.code?_of_decode h]
  rfl

section Offsets

variable (t : StringTable) (lib : CharsetLibrary)

/-- The offset is that of a byte of the table. -/
def Inside (offset : Int) : Prop := 0 ≤ offset ∧ offset < t.length

instance (offset : Int) : Decidable (t.Inside offset) := inferInstanceAs (Decidable (_ ∧ _))

/-- The bytes from an offset up to the next zero byte or to the end. -/
def bytesAt (offset : Int) : List UInt8 := (t.bytes.toList.drop offset.toNat).takeWhile (· != 0)

/-- The offset lies inside the table, and what stands there decodes to the name. -/
def Names (offset : Int) (name : Text) : Prop :=
  t.Inside offset ∧ t.decode lib (t.bytesAt offset) = .ok name

instance (offset : Int) (name : Text) : Decidable (t.Names lib offset name) :=
  decidable_of_iff (t.Inside offset ∧ (t.decode lib (t.bytesAt offset)).toOption = some name)
    (and_congr_right fun _ => toOption_eq_some_iff)

theorem resolve_int (offset : Int) :
    t.resolve lib (.int offset) =
      if t.Inside offset then t.decode lib (t.bytesAt offset)
      else .error (.badOffset .strings (.int offset) 1 t.length) := by
  by_cases h : t.Inside offset
  · have hnat : (Number.int offset).toInt? = some (offset.toNat : Int) := by
      rw [Int.toNat_of_nonneg h.1]
      rfl
    have hlt : offset.toNat < t.length := (Int.toNat_lt h.1).mpr h.2
    rw [if_pos h, t.resolve_of_toInt? lib hnat hlt, t.run_eq_takeWhile, bytesAt]
  · have hindex : t.index (.int offset) = .error (.badOffset .strings (.int offset) 1 t.length) :=
      if_neg h
    rw [if_neg h, resolve, hindex]
    rfl

theorem resolve_int_eq_ok_iff {offset : Int} {name : Text} :
    t.resolve lib (.int offset) = .ok name ↔ t.Names lib offset name := by
  rw [resolve_int, Names]
  by_cases h : t.Inside offset
  · rw [if_pos h]
    exact (and_iff_right h).symm
  · rw [if_neg h]
    exact ⟨nofun, fun hname => absurd hname.1 h⟩

end Offsets

/-! ## Under a standard charset -/

section Standard

variable {t : StringTable} {charset : Charset}

/-- A standard charset decodes everything unless it is the one without a decoder. -/
theorem total_iff_of_ofKey?
    (hkey : Charset.ofKey? (Charset.lookupKey t.charsetName) = some charset) :
    t.Total .standard ↔ charset ≠ .undecodable := by
  have hdecode : ∀ bytes text,
      t.decode .standard bytes = .ok text ↔ charset.decode bytes = .ok text :=
    fun _ _ => CharsetLibrary.decode_eq_ok_iff (Charset.ofName?_standard hkey)
  simp only [Total, hdecode]
  constructor
  · rintro htotal rfl
    obtain ⟨text, htext⟩ := htotal []
    cases htext
  · intro hne bytes
    cases hbytes : charset.decode bytes with
    | ok text => exact ⟨text, rfl⟩
    | error fault => exact absurd (Charset.decode_eq_error_iff.mp hbytes).1 hne

theorem decode_of_byteUnit? {unit : UInt8 → UInt16}
    (hkey : Charset.ofKey? (Charset.lookupKey t.charsetName) = some charset)
    (hunit : charset.byteUnit? = some unit) (bytes : List UInt8) :
    t.decode .standard bytes = .ok (bytes.map unit) :=
  (CharsetLibrary.decode_eq_ok_iff (Charset.ofName?_standard hkey)).mpr
    (Charset.decode_of_byteUnit? hunit bytes)

end Standard

end StringTable

end QuakeC
