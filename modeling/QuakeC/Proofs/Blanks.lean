import Mathlib.Data.List.DropRight
import QuakeC.Charset.Standard
import QuakeC.Proofs.TextUnits

/-!
# Blanks around a setting

Blanks at the ends of an encoding setting are removed before it is read, but the choice between the
option and the environment comes first.  An option that holds blanks and nothing else is therefore
chosen, and then means ASCII, while the environment goes unread.

* `Text.Trimmed`, `Text.trim_eq_self` — texts without blanks at their ends, which stay as they are.
* `Text.trim_eq_nil_iff` — what remains nothing of.
* `Charset.chosenSetting_map_trim` — the choice between settings whose blanks were removed before.
* `Charset.blanks_matter_in_blank_option` — that is the only way in which blanks make a difference.
-/

set_option autoImplicit false

namespace QuakeC

namespace Text

/-! ## Removing blanks -/

/-- No blank stands at either end. -/
structure Trimmed (t : Text) : Prop where
  head : ∀ u ∈ t.head?, isBlankUnit u = false
  last : ∀ u ∈ t.getLast?, isBlankUnit u = false

instance (t : Text) : Decidable (Trimmed t) :=
  decidable_of_iff ((t.head?.any isBlankUnit || t.getLast?.any isBlankUnit) = false) <| by
    rw [Bool.or_eq_false_iff, Option.any_eq_false, Option.any_eq_false]
    exact ⟨fun h => ⟨h.1, h.2⟩, fun h => ⟨h.head, h.last⟩⟩

/-- The text holds blanks and nothing else. -/
def Blank (t : Text) : Prop := ∀ u ∈ t, isBlankUnit u = true

instance (t : Text) : Decidable (Blank t) :=
  decidable_of_iff (t.all isBlankUnit = true) List.all_eq_true

theorem dropWhile_isBlankUnit_eq_self {t : Text} (h : ∀ u ∈ t.head?, isBlankUnit u = false) :
    t.dropWhile isBlankUnit = t := by
  cases t with
  | nil => rfl
  | cons u t => exact List.dropWhile_cons_of_neg (by simp [h u rfl])

theorem isBlankUnit_head_dropWhile (t : Text) :
    ∀ u ∈ (t.dropWhile isBlankUnit).head?, isBlankUnit u = false := by
  intro u hu
  have hnot := List.head?_dropWhile_not isBlankUnit t
  rw [Option.mem_def.mp hu] at hnot
  exact hnot

theorem trim_eq_self {t : Text} (h : Trimmed t) : trim t = t := by
  have hlast : ∀ u ∈ t.reverse.head?, isBlankUnit u = false := by
    rw [List.head?_reverse]
    exact h.last
  rw [trim, dropWhile_isBlankUnit_eq_self h.head, dropWhile_isBlankUnit_eq_self hlast,
    List.reverse_reverse]

theorem trimmed_trim (t : Text) : Trimmed (trim t) where
  head := by
    intro u hu
    -- dropping blanks at the end leaves the start as it is
    obtain ⟨blanks, hblanks⟩ :=
      List.rdropWhile_prefix isBlankUnit (l := t.dropWhile isBlankUnit)
    apply isBlankUnit_head_dropWhile t u
    rw [← hblanks, List.head?_append]
    exact Option.or_eq_some_iff.mpr (.inl hu)
  last := by
    rw [trim, List.getLast?_reverse]
    exact isBlankUnit_head_dropWhile _

theorem trim_trim (t : Text) : trim (trim t) = trim t := trim_eq_self (trimmed_trim t)

/-- Nothing remains of a text exactly when it is blank. -/
theorem trim_eq_nil_iff {t : Text} : trim t = [] ↔ Blank t := by
  have hunits : trim t = [] ↔ ∀ u ∈ t.dropWhile isBlankUnit, isBlankUnit u = true :=
    List.rdropWhile_eq_nil_iff
  rw [hunits, Blank]
  constructor
  · intro h u hu
    rw [← List.takeWhile_append_dropWhile (p := isBlankUnit) (l := t), List.mem_append] at hu
    rcases hu with hu | hu
    · exact List.mem_takeWhile_imp hu
    · exact h u hu
  · intro h u hu
    exact h u (List.dropWhile_subset _ hu)

end Text

namespace Charset

/-! ## The choice between the settings -/

variable {lib : CharsetLibrary} {option environment : Option Text}

theorem chosenSetting_of_eq_empty (h : option.getD [] = []) :
    chosenSetting option environment = Text.trim (environment.getD []) := by
  simp [chosenSetting, h]

theorem chosenSetting_of_ne_empty (h : option.getD [] ≠ []) :
    chosenSetting option environment = Text.trim (option.getD []) := by
  simp [chosenSetting, h]

theorem chosenSetting_some {t : Text} (h : t ≠ []) :
    chosenSetting (some t) environment = Text.trim t :=
  chosenSetting_of_ne_empty (show (some t).getD [] ≠ [] from h)

theorem getD_map_trim (setting : Option Text) :
    (setting.map Text.trim).getD [] = Text.trim (setting.getD []) := by
  cases setting <;> rfl

/-- Where the blanks are removed first, an option is chosen that is not blank. -/
theorem chosenSetting_map_trim (option environment : Option Text) :
    chosenSetting (option.map Text.trim) (environment.map Text.trim) =
      if Text.Blank (option.getD []) then Text.trim (environment.getD [])
      else Text.trim (option.getD []) := by
  split
  · rename_i hblank
    rw [chosenSetting_of_eq_empty, getD_map_trim, Text.trim_trim]
    rw [getD_map_trim, Text.trim_eq_nil_iff.mpr hblank]
  · rename_i hblank
    rw [chosenSetting_of_ne_empty, getD_map_trim, Text.trim_trim]
    rw [getD_map_trim]
    exact mt Text.trim_eq_nil_iff.mp hblank

theorem nameOfSetting_congr {option' environment' : Option Text}
    (h : chosenSetting option environment = chosenSetting option' environment') :
    nameOfSetting lib option environment = nameOfSetting lib option' environment' := by
  simp only [nameOfSetting, h]

theorem nameOfSetting_of_chosenSetting_eq_empty (h : chosenSetting option environment = []) :
    nameOfSetting lib option environment = .ok defaultName := by
  simp [nameOfSetting, h]

/-- The option is given, as blanks and nothing else. -/
def IsBlankOption (option : Option Text) : Prop :=
  option.getD [] ≠ [] ∧ Text.Blank (option.getD [])

instance (option : Option Text) : Decidable (IsBlankOption option) :=
  inferInstanceAs (Decidable (_ ∧ _))

/-- **Blanks make a difference in one case only.**  Unless the option is given as blanks and nothing
else, a setting stands for the same name, or fails alike, when the blanks around the option and the
environment are removed beforehand.  A blank option is read as ASCII, whatever the environment says;
removed beforehand, its blanks would leave the choice to the environment, as an empty option does.
A blank environment means ASCII. -/
theorem blanks_matter_in_blank_option (lib : CharsetLibrary)
    (option environment : Option Text) :
    (¬ IsBlankOption option → nameOfSetting lib option environment =
      nameOfSetting lib (option.map Text.trim) (environment.map Text.trim)) ∧
    (IsBlankOption option → nameOfSetting lib option environment = .ok defaultName ∧
      nameOfSetting lib (option.map Text.trim) (environment.map Text.trim) =
        nameOfSetting lib none environment) ∧
    (option.getD [] = [] →
      nameOfSetting lib option environment = nameOfSetting lib none environment) ∧
    (Text.Blank (environment.getD []) → nameOfSetting lib none environment = .ok defaultName) := by
  have hnone : chosenSetting none environment = Text.trim (environment.getD []) :=
    chosenSetting_of_eq_empty rfl
  refine ⟨?_, ?_, ?_, ?_⟩
  · intro hoption
    apply nameOfSetting_congr
    rw [chosenSetting_map_trim]
    by_cases hempty : option.getD [] = []
    · have hblank : Text.Blank (option.getD []) := by simp [hempty, Text.Blank]
      rw [if_pos hblank, chosenSetting_of_eq_empty hempty]
    · rw [if_neg fun hblank => hoption ⟨hempty, hblank⟩, chosenSetting_of_ne_empty hempty]
  · rintro ⟨hne, hblank⟩
    constructor
    · apply nameOfSetting_of_chosenSetting_eq_empty
      rw [chosenSetting_of_ne_empty hne, Text.trim_eq_nil_iff.mpr hblank]
    · apply nameOfSetting_congr
      rw [chosenSetting_map_trim, if_pos hblank, hnone]
  · intro hempty
    apply nameOfSetting_congr
    rw [chosenSetting_of_eq_empty hempty, hnone]
  · intro hblank
    apply nameOfSetting_of_chosenSetting_eq_empty
    rw [hnone, Text.trim_eq_nil_iff.mpr hblank]

theorem blanks_matter_in_blank_option_samples :
    nameOfSetting .standard (some " Latin1\t") (some "UTF8") =
        nameOfSetting .standard (some "Latin1") (some "UTF8") ∧
      nameOfSetting .standard (some " ") (some "LATIN1") = .ok "ascii" ∧
      nameOfSetting .standard (some "") (some "LATIN1") =
        nameOfSetting .standard none (some "LATIN1") ∧
      nameOfSetting .standard none (some " ") = .ok "ascii" := by
  have hpadded :=
    (blanks_matter_in_blank_option .standard (some " Latin1\t") (some "UTF8")).1 (by decide)
  have hname : Text.trim " Latin1\t" = "Latin1" := by decide
  have henvironment : Text.trim "UTF8" = "UTF8" := by decide
  rw [Option.map_some, Option.map_some, hname, henvironment] at hpadded
  refine ⟨hpadded, ?_, ?_, ?_⟩
  · exact ((blanks_matter_in_blank_option .standard (some " ") (some "LATIN1")).2.1 (by decide)).1
  · exact (blanks_matter_in_blank_option .standard (some "") (some "LATIN1")).2.2.1 rfl
  · exact (blanks_matter_in_blank_option .standard none (some " ")).2.2.2 (by decide)

/-- A blank option hides the environment. -/
theorem blank_option_hides_environment :
    nameOfSetting .standard (some " ") (some "LATIN1") ≠
      nameOfSetting .standard ((some " ").map Text.trim) ((some "LATIN1").map Text.trim) := by
  have hascii : nameOfSetting .standard (some " ") (some "LATIN1") = .ok "ascii" := rfl
  have hlatin1 :
      nameOfSetting .standard ((some " ").map Text.trim) ((some "LATIN1").map Text.trim) =
      .ok "latin1" := rfl
  rw [hascii, hlatin1]
  exact fun h => absurd (Except.ok.inj h) (by decide)

end Charset

end QuakeC
