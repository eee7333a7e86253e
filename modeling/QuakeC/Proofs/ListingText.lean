import QuakeC.Proofs.TableWalk

/-!
# Reading a table off its listing

In Latin-1 every byte is the unit of the same number.  A listing in Latin-1 can then be read back:
cut it into lines, take the units behind the first tab of each line as bytes, and put zero bytes
between the strings.  Only the zero byte at the very end does not show, and the length of the table
tells whether it is there.  A byte that is a line feed would break a line in two.

* `StringTable.ReadsLatin1` — the library decodes the strings of a table byte by byte.
* `StringTable.readLine_line` — the bytes of a string can be read off its line.
* `StringTable.readListing_of_listing` — a table can be read off its listing and its length.
* `StringTable.listing_determines_table` — tables of one length with one listing are equal.
-/

set_option autoImplicit false

namespace QuakeC

namespace StringTable

/-- The library reads each byte of the strings of the table as the unit of the same number. -/
def ReadsLatin1 (t : StringTable) (lib : CharsetLibrary) : Prop :=
  ∀ bytes, t.decode lib bytes = .ok (bytes.map UInt8.toUInt16)

theorem ReadsLatin1.total {t : StringTable} {lib : CharsetLibrary} (h : t.ReadsLatin1 lib) :
    t.Total lib :=
  fun bytes => ⟨_, h bytes⟩

/-- The standard Latin-1 does. -/
theorem readsLatin1_standard {t : StringTable}
    (h : Charset.ofKey? (Charset.lookupKey t.charsetName) = some .latin1) :
    t.ReadsLatin1 .standard :=
  decode_of_byteUnit? h rfl

theorem lineFeed_mem_map_toUInt16 {bytes : List UInt8}
    (h : Text.lineFeed ∈ bytes.map UInt8.toUInt16) : 0x0A ∈ bytes := by
  obtain ⟨b, hb, hfeed⟩ := List.mem_map.mp h
  have hten : b = 0x0A := by
    rw [← UInt8.toUInt8_toUInt16 b, hfeed]
    rfl
  exact hten ▸ hb

/-- The bytes of the string that a line in Latin-1 shows: one for each unit behind the first tab. -/
def readLine (line : Text) : List UInt8 :=
  ((line.dropWhile (· != Text.unit '\t')).drop 1).map UInt16.toUInt8

/-- The table of the given length that a listing in Latin-1 shows. -/
def readListing (text : Text) (length : Nat) : List UInt8 :=
  let joined := List.intercalate [0] ((Text.lines text).map readLine)
  joined ++ List.replicate (length - joined.length) 0

namespace Listed

variable (s : Listed)

theorem line_eq : s.line = (toString s.start).toList.map Text.unit ++ Text.unit '\t' :: s.text := by
  rw [line, ofString_start, List.append_assoc, List.singleton_append]

/-- The first tab of a line is the one behind the number. -/
theorem dropWhile_line : s.line.dropWhile (· != Text.unit '\t') = Text.unit '\t' :: s.text := by
  have hdigits : ∀ u ∈ (toString s.start).toList.map Text.unit, (u != Text.unit '\t') = true := by
    intro u hu
    obtain ⟨c, hc, rfl⟩ := List.mem_map.mp hu
    have hdigit := Text.isDigit_of_mem_repr hc
    rw [bne_iff_ne]
    intro htab
    have hc := Text.unit_injective (Text.toNat_lt_of_isDigit hdigit) (by decide) htab
    rw [hc] at hdigit
    exact absurd hdigit (by decide)
  rw [line_eq, List.dropWhile_append_of_pos hdigits]
  rfl

theorem lineFeed_mem_text_of_mem_line {s : Listed} (h : Text.lineFeed ∈ s.line) :
    Text.lineFeed ∈ s.text :=
  (List.mem_append.mp h).resolve_left (lineFeed_not_mem_start s.start)

end Listed

/-- **The bytes of a string can be read off its line.** -/
theorem readLine_line {s : Listed} (h : s.text = s.segment.map UInt8.toUInt16) :
    readLine s.line = s.segment := by
  have hid : UInt16.toUInt8 ∘ UInt8.toUInt16 = id := funext UInt8.toUInt8_toUInt16
  rw [readLine, s.dropWhile_line, List.drop_one, List.tail_cons, h, List.map_map, hid, List.map_id]

variable {t : StringTable} {lib : CharsetLibrary}

/-- The bytes of a listed string are bytes of the table. -/
theorem Covers.mem_bytes {strings : List Listed} (h : t.Covers lib strings) {s : Listed}
    (hs : s ∈ strings) {b : UInt8} (hb : b ∈ s.segment) : b ∈ t.bytes := by
  obtain ⟨-, rest, hdrop, -⟩ := h.segment s hs
  have hmem : b ∈ t.bytes.toList.drop s.start := by
    rw [hdrop]
    exact List.mem_append_left rest hb
  exact Array.mem_toList_iff.mp (List.mem_of_mem_drop hmem)

theorem finalZero_eq_replicate (bytes joined : List UInt8)
    (h : joined ++ finalZero bytes = bytes) :
    finalZero bytes = List.replicate (bytes.length - joined.length) 0 := by
  have hlength := congrArg List.length h
  rw [List.length_append] at hlength
  have hcount : bytes.length - joined.length = (finalZero bytes).length := by omega
  rw [hcount]
  unfold finalZero
  split <;> rfl

/-- The strings of a listing can be read off its text. -/
theorem intercalate_readLine {strings : List Listed}
    (htext : ∀ s ∈ strings, s.text = s.segment.map UInt8.toUInt16)
    (hfeed : ∀ s ∈ strings, 0x0A ∉ s.segment) :
    List.intercalate [0] ((Text.lines (Text.joinLines (strings.map Listed.line))).map readLine) =
      List.intercalate [0] (strings.map Listed.segment) := by
  by_cases hne : strings = []
  · -- the text of no lines is one empty line, which shows an empty string
    subst hne
    decide
  · have hlines : ∀ l ∈ strings.map Listed.line, Text.lineFeed ∉ l := by
      intro l hl hmem
      obtain ⟨s, hs, rfl⟩ := List.mem_map.mp hl
      have hmem := Listed.lineFeed_mem_text_of_mem_line hmem
      rw [htext s hs] at hmem
      exact hfeed s hs (lineFeed_mem_map_toUInt16 hmem)
    have hread : strings.map (readLine ∘ Listed.line) = strings.map Listed.segment := by
      apply List.map_congr_left
      intro s hs
      rw [Function.comp_apply, readLine_line (htext s hs)]
    rw [Text.lines_joinLines (by simpa using hne) hlines, List.map_map, hread]

/-- **A table without line feeds can be read off its listing in Latin-1 and its length.** -/
theorem readListing_of_listing (hlatin1 : t.ReadsLatin1 lib) (hfeed : 0x0A ∉ t.bytes) {text : Text}
    (h : t.listing lib = .ok text) : readListing text t.length = t.bytes.toList := by
  obtain ⟨strings, hwalk⟩ := hlatin1.total.exists_walk
  have hcovers := covers_of_walk hwalk
  have htext : ∀ s ∈ strings, s.text = s.segment.map UInt8.toUInt16 := by
    intro s hs
    have hdecode := (hcovers.text s hs).1
    rw [hlatin1] at hdecode
    exact (Except.ok.inj hdecode).symm
  have hstrings : ∀ s ∈ strings, 0x0A ∉ s.segment :=
    fun s hs hmem => hfeed (hcovers.mem_bytes hs hmem)
  rw [listing_of_walk hwalk] at h
  obtain rfl := Except.ok.inj h
  have hfinal := finalZero_eq_replicate _ _ hcovers.joined
  rw [readListing, intercalate_readLine htext hstrings, length, ← Array.length_toList, ← hfinal]
  exact hcovers.joined

/-- **The listing in Latin-1 determines the table.**  Two tables of one length without line feeds
both have a listing, and if it is the same text then they hold the same bytes.  The standard charset
of that name is Latin-1. -/
theorem listing_determines_table :
    (∀ t : StringTable, Charset.ofKey? (Charset.lookupKey t.charsetName) = some .latin1 →
      t.ReadsLatin1 .standard) ∧
    ∀ (lib : CharsetLibrary) (t u : StringTable), t.ReadsLatin1 lib → u.ReadsLatin1 lib →
      t.length = u.length → 0x0A ∉ t.bytes → 0x0A ∉ u.bytes →
        ∃ text text', t.listing lib = .ok text ∧ u.listing lib = .ok text' ∧
          (text = text' → t.bytes = u.bytes) := by
  refine ⟨fun t => readsLatin1_standard, ?_⟩
  intro lib t u ht hu hlength htfeed hufeed
  obtain ⟨text, htext⟩ := ht.total.exists_ok (t.listing_failsOnly lib)
  obtain ⟨text', htext'⟩ := hu.total.exists_ok (u.listing_failsOnly lib)
  refine ⟨text, text', htext, htext', ?_⟩
  rintro rfl
  apply Array.ext'
  rw [← readListing_of_listing ht htfeed htext, ← readListing_of_listing hu hufeed htext', hlength]

/-- Tabs and digits in a string do not pass for the start of another: two tables that hold the same
bytes in another order have different listings. -/
theorem listing_determines_tabs_and_digits :
    ∃ text text', (⟨#[9, 50, 9, 0], "latin1"⟩ : StringTable).listing .standard = .ok text ∧
      (⟨#[9, 0, 50, 9], "binary"⟩ : StringTable).listing .standard = .ok text' ∧ text ≠ text' := by
  obtain ⟨hlatin1, hdetermines⟩ := listing_determines_table
  obtain ⟨text, text', htext, htext', hsame⟩ :=
    hdetermines .standard ⟨#[9, 50, 9, 0], "latin1"⟩ ⟨#[9, 0, 50, 9], "binary"⟩
      (hlatin1 _ (by decide +kernel)) (hlatin1 _ (by decide +kernel)) (by decide) (by simp)
      (by simp)
  exact ⟨text, text', htext, htext', fun h => absurd (hsame h) (by decide)⟩

/-- With a line feed in them, different tables of one length can have one listing. -/
example :
    ((⟨#[0, 10, 52, 9, 122], "latin1"⟩ : StringTable).listing .standard).toOption =
      ((⟨#[10, 49, 9, 0, 122], "latin1"⟩ : StringTable).listing .standard).toOption := by
  decide +kernel

end StringTable

end QuakeC
