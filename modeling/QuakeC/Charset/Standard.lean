import QuakeC.Charset

/-!
# The standard charsets

The charsets that the program comes with: ASCII, Latin-1 and two code pages, which have one unit for
each byte, UTF-8 and UTF-16, and two that do not read the bytes as text but write them out in
digits.  One further name is registered without a decoder: choosing it succeeds, decoding with it
fails.

`CharsetLibrary.standard` is the library of these charsets.
-/

set_option autoImplicit false

namespace QuakeC

namespace Charset

/-! ## One unit per byte -/

/-- The unit that stands for what cannot be decoded. -/
def replacementUnit : UInt16 := Text.unit Text.replacement

def asciiUnit (b : UInt8) : UInt16 := if b.toNat < 0x80 then b.toUInt16 else replacementUnit

def latin1Unit (b : UInt8) : UInt16 := b.toUInt16

/-- The units of `0x80` to `0x9F` in code page 1252; a full stop marks the unassigned bytes. -/
def cp1252Upper : Array UInt16 := (Text.ofString "€.‚ƒ„…†‡ˆ‰Š‹Œ.Ž..‘’“”•–—˜™š›œ.žŸ").toArray

/-- Code page 1252 differs from Latin-1 in the two columns of upper controls. -/
def cp1252Unit (b : UInt8) : UInt16 :=
  match (if b.toNat < 0x80 then none else cp1252Upper[b.toNat - 0x80]?) with
  | some u => if u == Text.unit '.' then replacementUnit else u
  | none => b.toUInt16

/-- The units of `0x80` to `0xFF` in code page 437. -/
def cp437Upper : Array UInt16 :=
  (Text.ofString ("ÇüéâäàåçêëèïîìÄÅÉæÆôöòûùÿÖÜ¢£¥₧ƒáíóúñÑªº¿⌐¬½¼¡«»░▒▓│┤╡╢╖╕╣║╗╝╜╛┐" ++
    "└┴┬├─┼╞╟╚╔╩╦╠═╬╧╨╤╥╙╘╒╓╫╪┘┌█▄▌▐▀αßΓπΣσµτΦΘΩδ∞φε∩≡±≥≤⌠⌡÷≈°∙·√ⁿ²■\u00a0")).toArray

def cp437Unit (b : UInt8) : UInt16 :=
  if b.toNat < 0x80 then b.toUInt16 else cp437Upper.getD (b.toNat - 0x80) replacementUnit

/-! ## UTF-8

The decoder reads byte by byte.  After a lead byte it knows how many continuation bytes must follow
and in which range the next one has to lie; the range of the first continuation byte is narrowed so
that no overlong form, no surrogate and nothing above the last code point can be completed.  A byte
outside the range ends the sequence with one replacement character and is then read afresh, so every
maximal ill-formed part costs one replacement.  A sequence cut off by the end costs one too. -/

namespace Utf8

/-- Between characters, or inside one: its value so far, how many continuation bytes are missing,
and the bounds of the next one. -/
inductive State where
  | idle
  | inside (value missing lower upper : Nat)
  deriving DecidableEq, Repr

/-- The code point that stands for an ill-formed part. -/
def replacementPoint : Nat := Text.replacement.toNat

/-- The first byte of a character. -/
def start (b : Nat) : State × List Nat :=
  if b < 0x80 then (.idle, [b])
  else if 0xC2 ≤ b ∧ b ≤ 0xDF then (.inside (b - 0xC0) 1 0x80 0xBF, [])
  else if b = 0xE0 then (.inside 0 2 0xA0 0xBF, [])
  else if b = 0xED then (.inside 0xD 2 0x80 0x9F, [])
  else if 0xE1 ≤ b ∧ b ≤ 0xEF then (.inside (b - 0xE0) 2 0x80 0xBF, [])
  else if b = 0xF0 then (.inside 0 3 0x90 0xBF, [])
  else if b = 0xF4 then (.inside 4 3 0x80 0x8F, [])
  else if 0xF1 ≤ b ∧ b ≤ 0xF3 then (.inside (b - 0xF0) 3 0x80 0xBF, [])
  else (.idle, [replacementPoint])

/-- One byte: the next state and the code points it completes. -/
def step (b : Nat) : State → State × List Nat
  | .idle => start b
  | .inside value missing lower upper =>
    if lower ≤ b ∧ b ≤ upper then
      let value := value * 64 + (b - 0x80)
      if missing ≤ 1 then (.idle, [value])
      else (.inside value (missing - 1) 0x80 0xBF, [])
    else
      let (next, out) := start b
      (next, replacementPoint :: out)

/-- What the end of the input adds. -/
def finish : State → List Nat
  | .idle => []
  | .inside .. => [replacementPoint]

/-- The code points decoded so far, the last one first, beside the state. -/
def run (bytes : List UInt8) : State × List Nat :=
  bytes.foldl
    (fun st b =>
      let (next, out) := step b.toNat st.1
      (next, out.reverse ++ st.2))
    (.idle, [])

def decode (bytes : List UInt8) : Text :=
  let (last, reversed) := run bytes
  Text.ofPoints (reversed.reverse ++ finish last)

end Utf8

/-! ## UTF-16 -/

/-- The units of a byte sequence, the low byte of each first.  An odd byte at the end is dropped. -/
def unitsOfBytes : List UInt8 → Text
  | low :: high :: rest => UInt16.ofNat (low.toNat + 256 * high.toNat) :: unitsOfBytes rest
  | _ => []

/-- A byte order mark at the start of a Unicode text is not part of it. -/
def dropByteOrderMark : Text → Text
  | u :: rest => if u == 0xFEFF then rest else u :: rest
  | [] => []

/-! ## Digits -/

/-- Two lower-case hexadecimal digits per byte. -/
def hexChars (bytes : List UInt8) : List Char :=
  bytes.flatMap fun b => [Text.hexDigit (b.toNat / 16), Text.hexDigit (b.toNat % 16)]

/-- The digit of `d < 64`: capital letters, small letters, decimal digits, `+` and `/`. -/
def base64Digit (d : Nat) : Char :=
  if d < 26 then Char.ofNat (65 + d)
  else if d < 52 then Char.ofNat (71 + d)
  else if d < 62 then Char.ofNat (d - 4)
  else if d = 62 then '+' else '/'

/-- Four digits for three bytes, with `=` in the places that a short last group leaves. -/
def base64Chars : List UInt8 → List Char
  | a :: b :: c :: rest =>
    base64Digit (a.toNat / 4) :: base64Digit (a.toNat % 4 * 16 + b.toNat / 16) ::
      base64Digit (b.toNat % 16 * 4 + c.toNat / 64) :: base64Digit (c.toNat % 64) ::
      base64Chars rest
  | [a, b] =>
    [base64Digit (a.toNat / 4), base64Digit (a.toNat % 4 * 16 + b.toNat / 16),
      base64Digit (b.toNat % 16 * 4), '=']
  | [a] => [base64Digit (a.toNat / 4), base64Digit (a.toNat % 4 * 16), '=', '=']
  | [] => []

end Charset

/-! ## The library -/

/-- The charsets of the standard library. -/
inductive Charset where
  /-- Seven bits; every other byte is a replacement character. -/
  | ascii
  /-- Each byte is the code point of the same number. -/
  | latin1
  | utf8
  /-- Sixteen-bit units, the low byte first. -/
  | utf16le
  | cp1252
  | cp437
  /-- Two hexadecimal digits per byte. -/
  | hex
  | base64
  /-- A registered name without a decoder. -/
  | undecodable
  deriving DecidableEq, Repr

namespace Charset

/-- The unit of each byte, for the charsets that have one. -/
def byteUnit? : Charset → Option (UInt8 → UInt16)
  | ascii => some asciiUnit
  | latin1 => some latin1Unit
  | cp1252 => some cp1252Unit
  | cp437 => some cp437Unit
  | _ => none

/-- What decoding says when there is no decoder. -/
def noDecoder : Fault := ⟨"TypeError", "codec.decoder is not a constructor"⟩

def decode (charset : Charset) : Decoder := fun bytes =>
  match charset with
  | ascii => .ok (bytes.map asciiUnit)
  | latin1 => .ok (bytes.map latin1Unit)
  | cp1252 => .ok (bytes.map cp1252Unit)
  | cp437 => .ok (bytes.map cp437Unit)
  | utf8 => .ok (dropByteOrderMark (Utf8.decode bytes))
  | utf16le => .ok (dropByteOrderMark (unitsOfBytes bytes))
  | hex => .ok (Text.ofChars (hexChars bytes))
  | base64 => .ok (Text.ofChars (base64Chars bytes))
  | undecodable => .error noDecoder

/-- The registered keys of each charset. -/
def keys : List (Charset × List String) :=
  [(ascii, ["ascii", "ascii8bit", "usascii", "ansix34", "ansix341968", "ansix341986", "csascii",
      "cp367", "ibm367", "isoir6", "iso646us", "iso646irv", "us"]),
    (latin1, ["latin1", "iso88591", "csisolatin1", "l1", "isoir100", "cp819", "ibm819", "28591",
      "cp28591", "binary"]),
    (utf8, ["utf8", "unicode11utf8"]),
    (utf16le, ["utf16le", "ucs2"]),
    (cp1252, ["cp1252", "windows1252", "win1252", "1252", "msansi"]),
    (cp437, ["cp437", "437", "ibm437", "csibm437", "cspc8codepage437"]),
    (hex, ["hex"]),
    (base64, ["base64"]),
    (undecodable, ["constructor"])]

/-- The charset with the given key. -/
def ofKey? (key : Text) : Option Charset :=
  (keys.find? fun entry => entry.2.any fun name => Text.ofString name == key).map Prod.fst

end Charset

/-- The library of the standard charsets. -/
def CharsetLibrary.standard : CharsetLibrary where
  decoder? key := (Charset.ofKey? key).map Charset.decode
  common := by decide +kernel

end QuakeC
