import QuakeC.Error
import QuakeC.Text.Case

/-!
# Charsets and the encoding setting

A charset turns the bytes of a string table into text.  Which charsets there are and how they decode
is the business of a `CharsetLibrary`.  A library is asked by name, and names are compared loosely:
case, punctuation and a trailing year such as `:1991` do not count.  `lookupKey` is what remains of
a name.

Which charset a string table is read with is settled by an explicit option or else by the
environment.  The option is taken whenever it is not the empty text, also when it is blank; only
then are surrounding blanks removed.  A blank setting means ASCII.
-/

set_option autoImplicit false

namespace QuakeC

/-- How a charset reads bytes as text, and whether it can. -/
abbrev Decoder := List UInt8 → Except Fault Text

namespace Charset

/-! ## Names -/

/-- The decimal digits of ASCII. -/
def isDigitUnit (u : UInt16) : Bool := decide (0x30 ≤ u.toNat) && decide (u.toNat ≤ 0x39)

/-- The digits and small letters of ASCII, which make up a lookup key. -/
def isKeyUnit (u : UInt16) : Bool :=
  isDigitUnit u || (decide (0x61 ≤ u.toNat) && decide (u.toNat ≤ 0x7A))

/-- The text without a colon and four digits at its end. -/
def dropYear (t : Text) : Text :=
  match t.reverse with
  | d :: c :: b :: a :: colon :: rest =>
    if isDigitUnit a && isDigitUnit b && isDigitUnit c && isDigitUnit d &&
        colon == Text.unit ':' then
      rest.reverse
    else t
  | _ => t

/-- The key under which a name is looked up: lower case, without a trailing year, and without any
unit other than a digit or a small letter. -/
def lookupKey (name : Text) : Text := (dropYear (Text.lower name)).filter isKeyUnit

/-- The name used when nothing is set. -/
def defaultName : Text := "ascii"

/-- The names that a setting can spell in any case, each in capital letters and as it is used. -/
def commonNames : List (String × String) :=
  [("ASCII", "ascii"), ("LATIN1", "latin1"), ("UTF8", "utf8")]

end Charset

/-- The charsets that can be asked for. -/
structure CharsetLibrary where
  /-- The decoder that is registered under a key. -/
  decoder? : (key : Text) → Option Decoder
  /-- The common names are keys of registered charsets. -/
  common : ∀ names ∈ Charset.commonNames, (decoder? names.2).isSome = true

namespace CharsetLibrary

variable (lib : CharsetLibrary)

/-- The decoder for a name. -/
def ofName? (name : Text) : Option Decoder := lib.decoder? (Charset.lookupKey name)

/-- The text of the bytes in the charset of the given name. -/
def decode (name : Text) (bytes : List UInt8) : Except Error Text :=
  match lib.ofName? name with
  | some decoder => (decoder bytes).mapError .decoder
  | none => .error (.unknownCharset name (Charset.lookupKey name))

end CharsetLibrary

namespace Charset

/-! ## Settings -/

/-- The setting that counts: the option unless it is empty, then the environment. -/
def chosenSetting (option environment : Option Text) : Text :=
  let option := option.getD []
  Text.trim (if option.isEmpty then environment.getD [] else option)

/-- The charset name that a setting stands for.  The common names are recognised in any case by
their upper-case form; any other has to be registered and is put into lower case. -/
def nameOfSetting (lib : CharsetLibrary) (option environment : Option Text) : Except Error Text :=
  let setting := chosenSetting option environment
  if setting.isEmpty then .ok defaultName
  else
    match commonNames.find? fun names => Text.isSpelling names.1 setting with
    | some names => .ok names.2
    | none =>
      if (lib.ofName? setting).isSome then .ok (Text.lower setting)
      else .error (.unknownEncoding setting)

end Charset

end QuakeC
