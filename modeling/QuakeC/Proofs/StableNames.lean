import QuakeC.Proofs.Commands
import QuakeC.Proofs.LetterCase
import QuakeC.Proofs.NameSearch

/-!
# The names of settings are stable

The name that a setting stands for can be given as a setting again: it stands for itself, in every
environment.  Since it is registered, a loaded program never meets a name that is not.  All of this
holds of every library of charsets in which the common names are registered.

* `Charset.nameOfSetting_self` — a name that was chosen stands for itself.
* `Charset.nameOfSetting_asciiLower` — the case of the letters of ASCII does not count.
* `Program.KnowsCharset` — no lookup fails for want of a registered name.
* `Charset.names_stable` — all three for every setting and every load.
-/

set_option autoImplicit false

namespace QuakeC

namespace Charset

variable {lib : CharsetLibrary} {option environment : Option Text} {name : Text}

/-! ## A name as a setting -/

theorem trimmed_chosenSetting (option environment : Option Text) :
    Text.Trimmed (chosenSetting option environment) := by
  by_cases h : option.getD [] = []
  · rw [chosenSetting_of_eq_empty h]
    exact Text.trimmed_trim _
  · rw [chosenSetting_of_ne_empty h]
    exact Text.trimmed_trim _

/-- A name that was chosen is not empty and has no blanks around it. -/
theorem trimmed_of_nameOfSetting (h : nameOfSetting lib option environment = .ok name) :
    name ≠ [] ∧ Text.Trimmed name := by
  rcases nameOfSetting_cases h with ⟨names, hnames, rfl⟩ | ⟨hne, -, -, rfl⟩
  · have htrimmed : ∀ names ∈ commonNames,
        Text.ofString names.2 ≠ [] ∧ Text.Trimmed names.2 := by decide
    exact htrimmed names hnames
  · exact ⟨mt Text.lower_eq_nil_iff.mp hne,
      Text.trimmed_lower (trimmed_chosenSetting option environment)⟩

theorem mem_spelled_of_mem_commonNames :
    ∀ names ∈ commonNames, ∀ capital ∈ Text.ofString names.1, capital ∈ Text.spelled := by
  have hwords : ∀ names ∈ commonNames,
      (Text.ofString names.1).all Text.spelled.contains = true := by decide
  intro names hnames capital hcapital
  exact List.contains_iff_mem.mp (List.all_eq_true.mp (hwords names hnames) capital hcapital)

/-- A common name is recognised as itself. -/
theorem find?_commonNames :
    ∀ names ∈ commonNames,
      commonNames.find? (fun n => Text.isSpelling n.1 names.2) = some names := by
  decide +kernel

/-- **A name that was chosen stands for itself**, whatever the environment says. -/
theorem nameOfSetting_self (h : nameOfSetting lib option environment = .ok name)
    (environment' : Option Text) : nameOfSetting lib (some name) environment' = .ok name := by
  obtain ⟨hne, htrimmed⟩ := trimmed_of_nameOfSetting h
  have hchosen : chosenSetting (some name) environment' = name := by
    rw [chosenSetting_some hne, Text.trim_eq_self htrimmed]
  rcases nameOfSetting_cases h with ⟨names, hnames, rfl⟩ | ⟨-, hwords, hsome, rfl⟩
  · have hempty : ¬ (Text.ofString names.2).isEmpty = true := by simpa using hne
    simp only [nameOfSetting, hchosen, if_neg hempty, find?_commonNames names hnames]
  · have hsmall : ∀ names ∈ commonNames,
        ¬ Text.isSpelling names.1 (Text.lower (chosenSetting option environment)) = true := by
      intro names hnames hspelling
      exact hwords names hnames
        (Text.isSpelling_of_lower (mem_spelled_of_mem_commonNames names hnames) hspelling)
    have hregistered :
        (lib.ofName? (Text.lower (chosenSetting option environment))).isSome = true := by
      rwa [CharsetLibrary.ofName?, lookupKey_lower]
    rw [nameOfSetting_of_registered hchosen hne hsmall hregistered, Text.lower_lower]

/-! ## Letters in either case -/

/-- The texts differ in the case of letters of ASCII at most. -/
def SameLetters (s s' : Text) : Prop := s.map Text.lowerLetterUnit = s'.map Text.lowerLetterUnit

instance (s s' : Text) : Decidable (SameLetters s s') :=
  inferInstanceAs (Decidable (_ = _))

theorem ofName?_asciiLower (lib : CharsetLibrary) (name : Text) :
    lib.ofName? (Text.asciiLower name) = lib.ofName? name := by
  simp only [CharsetLibrary.ofName?, lookupKey, Text.lower_asciiLower]

theorem chosenSetting_asciiLower {s : Text} (h : s ≠ []) :
    chosenSetting (some (Text.asciiLower s)) environment =
      Text.asciiLower (chosenSetting (some s) environment) := by
  rw [chosenSetting_some (mt Text.asciiLower_eq_nil_iff.mp h), chosenSetting_some h,
    Text.trim_asciiLower]

/-- **An option stands for the same name in lower case, or fails in both.** -/
theorem nameOfSetting_asciiLower (lib : CharsetLibrary) (s : Text) (environment : Option Text) :
    (nameOfSetting lib (some (Text.asciiLower s)) environment).toOption =
      (nameOfSetting lib (some s) environment).toOption := by
  by_cases h : s = []
  · subst h
    rfl
  · have hempty : (Text.asciiLower (chosenSetting (some s) environment)).isEmpty =
        (chosenSetting (some s) environment).isEmpty := by
      rw [Bool.eq_iff_iff, List.isEmpty_iff, List.isEmpty_iff, Text.asciiLower_eq_nil_iff]
    simp only [nameOfSetting, chosenSetting_asciiLower h, hempty, Text.isSpelling_asciiLower,
      Text.lower_asciiLower, ofName?_asciiLower]
    -- what is left differs in the setting that an error names
    split
    · rfl
    · split
      · rfl
      · split
        · rfl
        · rfl

end Charset

/-! ## Lookups in a loaded program -/

/-- The error is about a charset name that is not registered. -/
def Error.isUnknownName : Error → Bool
  | unknownEncoding _ | unknownCharset .. => true
  | _ => false

namespace Program

/-- No lookup of a string fails because the name of the charset is not registered.  The names and
files of records are strings that are read. -/
structure KnowsCharset (lib : CharsetLibrary) (p : Program) : Prop where
  readString : ∀ offset, FailsOnly (·.isUnknownName = false) (p.readString lib offset)
  readGlobal : ∀ offset type, FailsOnly (·.isUnknownName = false) (p.readGlobal lib offset type)
  listing : FailsOnly (·.isUnknownName = false) (p.strings.listing lib)
  findFunction : ∀ name, FailsOnly (·.isUnknownName = false) (p.findFunction? lib name)
  findGlobal : ∀ name, FailsOnly (·.isUnknownName = false) (p.findGlobal? lib name)
  report : ∀ wanted, FailsOnly (·.isUnknownName = false) (p.report lib wanted)

theorem knowsCharset_of_load {lib : CharsetLibrary} {p : Program} {image : Bytes}
    {option environment : Option Text} (hload : (load lib image option environment).1 = .ok p) :
    p.KnowsCharset lib := by
  have hfails : ∀ e, p.strings.FailsWith lib e → e.isUnknownName = false := by
    intro e he
    obtain ⟨-, -, fault, -, -, rfl⟩ := decoderFails_of_load hload he
    rfl
  have hrefuses : ∀ e, p.strings.Refuses lib e → e.isUnknownName = false := by
    rintro e (hoffset | he)
    · cases e with
      | badOffset => rfl
      | _ => cases hoffset
    · exact hfails e he
  have hstring : ∀ offset, FailsOnly (·.isUnknownName = false) (p.readString lib offset) :=
    fun offset => (p.strings.resolve_failsOnly lib offset).mono hrefuses
  exact {
    readString := hstring
    readGlobal := fun offset type =>
      (p.globals.read_failsOnly lib p.strings p.functions offset type).mono hrefuses
    listing := (p.strings.listing_failsOnly lib).mono hfails
    findFunction := fun _ => searchFrom_failsOnly (fun _ => hstring _) 0 p.functions
    findGlobal := fun _ => searchFrom_failsOnly (fun _ => hstring _) 0 p.globalDefs
    report := fun wanted => (p.report_failsOnly lib wanted).mono hfails }

end Program

namespace Charset

/-- **The names of settings are stable and usable**, whatever charsets there are besides the common
ones.  A name that a setting stands for is not empty, has no blanks around it, is registered, and
stands for itself in every environment.  Two options that differ in the case of letters of ASCII
stand for the same name or fail both.  No lookup in a loaded program fails because a charset name is
not registered. -/
theorem names_stable (lib : CharsetLibrary) :
    (∀ option environment name, nameOfSetting lib option environment = .ok name →
      name ≠ [] ∧ Text.Trimmed name ∧ (∃ decoder, lib.ofName? name = some decoder) ∧
        ∀ environment', nameOfSetting lib (some name) environment' = .ok name) ∧
    (∀ s s' environment, SameLetters s s' →
      (nameOfSetting lib (some s) environment).toOption =
        (nameOfSetting lib (some s') environment).toOption) ∧
    ∀ image option environment p, (Program.load lib image option environment).1 = .ok p →
      p.KnowsCharset lib := by
  refine ⟨?_, ?_, ?_⟩
  · intro option environment name h
    obtain ⟨hne, htrimmed⟩ := trimmed_of_nameOfSetting h
    exact ⟨hne, htrimmed, ofName?_of_nameOfSetting h, nameOfSetting_self h⟩
  · intro s s' environment hsame
    have hlower : Text.asciiLower s = Text.asciiLower s' := hsame
    rw [← nameOfSetting_asciiLower lib s, hlower, nameOfSetting_asciiLower]
  · intro image option environment p hload
    exact Program.knowsCharset_of_load hload

/-- With a dotted capital I the setting is none of the common names, and its name in lower case has
one character more. -/
theorem names_stable_samples :
    nameOfSetting .standard (some "LAT\u0130N1") none = .ok "lati\u0307n1" ∧
      nameOfSetting .standard (some "lati\u0307n1") (some "UTF8") = .ok "lati\u0307n1" ∧
      (nameOfSetting .standard (some "Cp1252") none).toOption =
        (nameOfSetting .standard (some "cP1252") none).toOption ∧
      (Program.contents Program.tangled "ascii").KnowsCharset .standard := by
  obtain ⟨hstable, hletters, hload⟩ := names_stable .standard
  have hdotted : nameOfSetting .standard (some "LAT\u0130N1") none = .ok "lati\u0307n1" :=
    toOption_eq_some_iff.mp (by decide +kernel)
  obtain ⟨-, -, -, hself⟩ := hstable _ _ _ hdotted
  exact ⟨hdotted, hself (some "UTF8"), hletters "Cp1252" "cP1252" none (by decide),
    hload Program.tangled none none _ (Program.load_tangled rfl)⟩

end Charset

end QuakeC
