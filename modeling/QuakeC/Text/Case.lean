import QuakeC.Text.Basic
import QuakeC.Text.CaseData

/-!
# Blanks and letter case

`trim` removes blanks from both ends of a text and from nowhere else.  Blank are the ASCII controls
for tabs and line ends, the space, every Unicode space separator, the two Unicode line separators
and the byte order mark.

`lower` maps every letter with a case to its lower-case form, code point by code point.  Two
characters do not map one to one on their own: the dotted capital I becomes a small i followed by a
combining dot, and a capital sigma takes its final form at the end of a word.  `isSpelling` compares
in the other direction, with words in the capital letters of ASCII.
-/

set_option autoImplicit false

namespace QuakeC.Text

/-! ## Blanks -/

/-- Tab to carriage return, the space separators, the line and paragraph separators and the byte
order mark. -/
def isBlank (n : Nat) : Bool :=
  (decide (0x9 ≤ n) && decide (n ≤ 0xD)) || n == 0x20 || n == 0xA0 || n == 0x1680 ||
    (decide (0x2000 ≤ n) && decide (n ≤ 0x200A)) || n == 0x2028 || n == 0x2029 || n == 0x202F ||
    n == 0x205F || n == 0x3000 || n == 0xFEFF

def isBlankUnit (u : UInt16) : Bool := isBlank u.toNat

/-- The text without leading and trailing blanks. -/
def trim (t : Text) : Text := ((t.dropWhile isBlankUnit).reverse.dropWhile isBlankUnit).reverse

/-! ## Lower case -/

/-- The lower-case form of a code point that does not depend on its neighbours. -/
def lowerPoint (n : Nat) : List Nat :=
  if n = 0x130 then [0x69, 0x307]
  else
    match capitals.find? (·.covers n) with
    | some run => [(n + run.shift).toNat]
    | none => [n]

/-- Whether the next code point that is not passed over is a letter with a case. -/
def meetsCased (ps : List Nat) : Bool :=
  match ps.dropWhile (inRanges caseIgnorable) with
  | n :: _ => inRanges cased n
  | [] => false

/-- The code points in lower case, where `before` holds those already passed, the nearest one first.
A sigma is final when a cased letter comes before it and none after it. -/
def lowerFrom (before : List Nat) : List Nat → List Nat
  | [] => []
  | n :: rest =>
    let small :=
      if n = 0x3A3 then [if meetsCased before && !meetsCased rest then 0x3C2 else 0x3C3]
      else lowerPoint n
    small ++ lowerFrom (n :: before) rest

/-- The text in lower case. -/
def lower (t : Text) : Text := ofPoints (lowerFrom [] (points t))

/-! ## Spellings in capital letters -/

/-- The upper-case form of a small letter of ASCII. -/
def upperAscii (n : Nat) : Nat := if 0x61 ≤ n ∧ n ≤ 0x7A then n - 0x20 else n

/-- Whether `capital`, a capital letter or digit of ASCII, is the upper-case form of `n`.  Beside
the small ASCII letters the dotless i and the long s have one. -/
def isCapitalOf (capital n : Nat) : Bool :=
  upperAscii n == capital || (capital == 0x49 && n == 0x131) || (capital == 0x53 && n == 0x17F)

/-- Whether the upper-case form of a text is `word`, a text of capital letters and digits of ASCII
in which no two neighbouring letters are the capital form of one ligature. -/
def isSpelling (word t : Text) : Bool :=
  word.length == t.length && (word.zip t).all fun p => isCapitalOf p.1.toNat p.2.toNat

end QuakeC.Text
