import QuakeC.Proofs.LetterCase

/-!
# Charset names and their decoders

The name that an encoding setting stands for is registered in the library, whatever else the library
holds, so that what a lookup in a loaded program reports about a charset is a fault of its decoder.

* `Charset.nameOfSetting_cases` — what a setting can stand for.
* `Charset.ofName?_of_nameOfSetting` — the name of a setting is registered.
* `CharsetLibrary.decode_eq_error_iff` — the errors of a registered name are the faults of its
  decoder.
* `Charset.decode_eq_error_iff` — every standard charset decodes every byte sequence, except the one
  without a decoder, which decodes none.
* `Charset.decode_of_byteUnit?` — a charset of one unit per byte decodes byte by byte.
-/

set_option autoImplicit false

namespace QuakeC

namespace Charset

/-! ## The name of a setting -/

theorem lookupKey_lower (name : Text) : lookupKey (Text.lower name) = lookupKey name := by
  rw [lookupKey, Text.lower_lower, lookupKey]

variable {lib : CharsetLibrary} {option environment : Option Text} {name : Text}

/-- A setting stands for one of the common names, or for itself in lower case. -/
theorem nameOfSetting_cases (h : nameOfSetting lib option environment = .ok name) :
    (∃ names ∈ commonNames, name = Text.ofString names.2) ∨
      (chosenSetting option environment ≠ [] ∧
        (∀ names ∈ commonNames,
          ¬ Text.isSpelling names.1 (chosenSetting option environment) = true) ∧
        (lib.ofName? (chosenSetting option environment)).isSome = true ∧
        name = Text.lower (chosenSetting option environment)) := by
  simp only [nameOfSetting] at h
  split at h
  · exact .inl ⟨("ASCII", "ascii"), by decide, (Except.ok.inj h).symm⟩
  rename_i hempty
  split at h
  · rename_i names hfind
    exact .inl ⟨names, List.mem_of_find?_eq_some hfind, (Except.ok.inj h).symm⟩
  rename_i hfind
  split at h
  · rename_i hsome
    exact .inr ⟨by simpa using hempty, List.find?_eq_none.mp hfind, hsome,
      (Except.ok.inj h).symm⟩
  · cases h

/-- A registered setting that spells none of the common names stands for itself in lower case. -/
theorem nameOfSetting_of_registered {setting : Text}
    (hchosen : chosenSetting option environment = setting) (hne : setting ≠ [])
    (hwords : ∀ names ∈ commonNames, ¬ Text.isSpelling names.1 setting = true)
    (hsome : (lib.ofName? setting).isSome = true) :
    nameOfSetting lib option environment = .ok (Text.lower setting) := by
  have hempty : ¬ setting.isEmpty = true := by simpa using hne
  rw [nameOfSetting, hchosen, if_neg hempty, List.find?_eq_none.mpr hwords]
  exact if_pos hsome

/-- The common names are their own keys. -/
theorem lookupKey_commonNames :
    ∀ names ∈ commonNames, lookupKey names.2 = Text.ofString names.2 := by
  decide +kernel

/-- **The name that a setting stands for is registered.** -/
theorem ofName?_of_nameOfSetting (h : nameOfSetting lib option environment = .ok name) :
    ∃ decoder, lib.ofName? name = some decoder := by
  apply Option.isSome_iff_exists.mp
  rcases nameOfSetting_cases h with ⟨names, hnames, rfl⟩ | ⟨-, -, hsome, rfl⟩
  · rw [CharsetLibrary.ofName?, lookupKey_commonNames names hnames]
    exact lib.common names hnames
  · rw [CharsetLibrary.ofName?, lookupKey_lower]
    exact hsome

end Charset

/-! ## Decoding -/

namespace CharsetLibrary

variable {lib : CharsetLibrary} {name : Text} {decoder : Decoder}

theorem decode_eq (h : lib.ofName? name = some decoder) (bytes : List UInt8) :
    lib.decode name bytes = (decoder bytes).mapError .decoder := by
  rw [decode, h]

theorem decode_eq_ok_iff (h : lib.ofName? name = some decoder) {bytes : List UInt8} {text : Text} :
    lib.decode name bytes = .ok text ↔ decoder bytes = .ok text := by
  rw [decode_eq h]
  cases decoder bytes <;> simp [Except.mapError]

/-- **What a registered name reports are the faults of its decoder.** -/
theorem decode_eq_error_iff (h : lib.ofName? name = some decoder) {bytes : List UInt8} {e : Error} :
    lib.decode name bytes = .error e ↔
      ∃ fault, decoder bytes = .error fault ∧ e = .decoder fault := by
  rw [decode_eq h]
  cases decoder bytes <;> simp [Except.mapError, eq_comm]

/-- What decoding reports does not lie in the image. -/
theorem code?_of_decode {bytes : List UInt8} {e : Error} (h : lib.decode name bytes = .error e) :
    e.code? = none := by
  cases hname : lib.ofName? name with
  | some decoder =>
    obtain ⟨fault, -, rfl⟩ := (decode_eq_error_iff hname).mp h
    rfl
  | none =>
    rw [decode, hname] at h
    obtain rfl := Except.error.inj h
    rfl

end CharsetLibrary

/-! ## The standard charsets -/

namespace Charset

/-- **A standard charset fails on a byte sequence only when it has no decoder.** -/
theorem decode_eq_error_iff {charset : Charset} {bytes : List UInt8} {fault : Fault} :
    charset.decode bytes = .error fault ↔ charset = .undecodable ∧ fault = noDecoder := by
  cases charset with
  | undecodable =>
    simp only [decode, Except.error.injEq, true_and]
    exact eq_comm
  | ascii | latin1 | utf8 | utf16le | cp1252 | cp437 | hex | base64 => simp [decode]

theorem decode_of_byteUnit? {charset : Charset} {unit : UInt8 → UInt16}
    (h : charset.byteUnit? = some unit) (bytes : List UInt8) :
    charset.decode bytes = .ok (bytes.map unit) := by
  cases charset with
  | ascii | latin1 | cp1252 | cp437 =>
    cases h
    rfl
  | utf8 | utf16le | hex | base64 | undecodable => cases h

theorem ofName?_standard {name : Text} {charset : Charset}
    (h : ofKey? (lookupKey name) = some charset) :
    CharsetLibrary.standard.ofName? name = some charset.decode :=
  congrArg (Option.map Charset.decode) h

end Charset

end QuakeC
