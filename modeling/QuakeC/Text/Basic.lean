/-!
# Text

A text is a sequence of sixteen-bit units.  A unit outside the surrogate range is a character by
itself, and a high surrogate followed by a low one is a character beyond the first plane; a
surrogate without its partner is no character but may stand in a text all the same.

* `points` and `ofPoints` go from units to code points and back, `ofString` and `toUnicode` to and
  from strings, which hold no lone surrogates.
* `lines` cuts a text at its line feeds and `joinLines` joins lines by them.
* `quote` puts a text between double quotes and escapes what has to be escaped.
-/

set_option autoImplicit false

namespace QuakeC

/-- The units of a text. -/
abbrev Text := List UInt16

namespace Text

/-! ## Units and code points -/

/-- The unit of a character of the first plane. -/
def unit (c : Char) : UInt16 := UInt16.ofNat c.toNat

/-- The first half of a pair. -/
def isHigh (u : UInt16) : Bool := decide (0xD800 ≤ u.toNat) && decide (u.toNat ≤ 0xDBFF)

/-- The second half of a pair. -/
def isLow (u : UInt16) : Bool := decide (0xDC00 ≤ u.toNat) && decide (u.toNat ≤ 0xDFFF)

/-- Half of a pair. -/
def isSurrogate (u : UInt16) : Bool := isHigh u || isLow u

/-- The code point of a pair. -/
def pairPoint (high low : UInt16) : Nat :=
  0x10000 + (high.toNat - 0xD800) * 0x400 + (low.toNat - 0xDC00)

/-- The code points of a text; a surrogate without its partner is one by itself. -/
def points : Text → List Nat
  | [] => []
  | [u] => [u.toNat]
  | u :: v :: rest =>
    if isHigh u && isLow v then pairPoint u v :: points rest else u.toNat :: points (v :: rest)

/-- The units of a code point. -/
def pointUnits (n : Nat) : Text :=
  if n < 0x10000 then [UInt16.ofNat n]
  else
    [UInt16.ofNat (0xD800 + (n - 0x10000) / 0x400), UInt16.ofNat (0xDC00 + (n - 0x10000) % 0x400)]

/-- The text of code points. -/
def ofPoints (ps : List Nat) : Text := ps.flatMap pointUnits

/-- The text of characters. -/
def ofChars (cs : List Char) : Text := ofPoints (cs.map Char.toNat)

def ofString (s : String) : Text := ofChars s.toList

/-- The character that stands for what cannot be shown. -/
def replacement : Char := Char.ofNat 0xFFFD

/-- The string of a text, every lone surrogate replaced. -/
def toUnicode (t : Text) : String :=
  String.ofList ((points t).map fun n =>
    if 0xD800 ≤ n ∧ n ≤ 0xDFFF then replacement else Char.ofNat n)

end Text

instance : Coe String Text := ⟨Text.ofString⟩

namespace Text

/-! ## Lines -/

/-- The pieces of a list between its separators: one more than there are separators, empty ones
included. -/
def splitWhere {α : Type} (isSep : α → Bool) (xs : List α) : List (List α) :=
  xs.foldr (fun x pieces => if isSep x then [] :: pieces else pieces.modifyHead (x :: ·)) [[]]

/-- The unit that ends a line. -/
def lineFeed : UInt16 := 0x0A

/-- The lines of a text, of which there is always at least one. -/
def lines (t : Text) : List Text := splitWhere (· == lineFeed) t

/-- The lines joined by line feeds, none after the last. -/
def joinLines (ls : List Text) : Text := List.intercalate [lineFeed] ls

/-- Each line followed by a line feed. -/
def terminated (ls : List Text) : Text := ls.flatMap (· ++ [lineFeed])

/-! ## Quoted text -/

/-- The hexadecimal digit of `d < 16`, in lower case. -/
def hexDigit (d : Nat) : Char := Nat.digitChar d

/-- The units that are escaped by a letter, each with its letter. -/
def letterEscapes : List (UInt16 × UInt16) :=
  [(unit '"', unit '"'), (unit '\\', unit '\\'), (0x8, unit 'b'), (0x9, unit 't'), (0xA, unit 'n'),
    (0xC, unit 'f'), (0xD, unit 'r')]

/-- A unit by its number: a backslash, `u` and four digits. -/
def numberEscape (u : UInt16) : Text :=
  let n := u.toNat
  [unit '\\', unit 'u', unit (hexDigit (n / 0x1000)), unit (hexDigit (n / 0x100 % 16)),
    unit (hexDigit (n / 16 % 16)), unit (hexDigit (n % 16))]

/-- One unit inside the quotes, when it is not part of a pair.  The quote, the backslash, the
controls below the space and the surrogates are escaped. -/
def quoteUnit (u : UInt16) : Text :=
  match letterEscapes.lookup u with
  | some letter => [unit '\\', letter]
  | none => if u.toNat < 0x20 || isSurrogate u then numberEscape u else [u]

/-- How each unit of a text is written inside the quotes; a pair stands for itself. -/
def quotedUnits : Text → List Text
  | [] => []
  | [u] => [quoteUnit u]
  | u :: v :: rest =>
    if isHigh u && isLow v then [u] :: [v] :: quotedUnits rest
    else quoteUnit u :: quotedUnits (v :: rest)

/-- The text in double quotes. -/
def quote (t : Text) : Text := unit '"' :: (quotedUnits t).flatten ++ [unit '"']

end Text

end QuakeC
