import QuakeC.Numeric.Number
import QuakeC.Text.Basic

/-!
# Errors

Everything that can go wrong between the bytes of an image and a printed report, as causes, with
the one function that puts each cause into words.

Four kinds of cause lie in the image itself and have a code (`Error.code?`): a short read, a value
outside its enumeration, an impossible record, and an offset outside its table.  The others come
from the settings, from a decoder or from the file system.
-/

set_option autoImplicit false

namespace QuakeC

/-- The two enumerations whose values are stored in records. -/
inductive Enumeration where
  | opcode
  | valueType
  deriving DecidableEq, Repr

def Enumeration.label : Enumeration → String
  | .opcode => "Op"
  | .valueType => "Type"

/-- The two lumps that are addressed by byte offset. -/
inductive Table where
  | strings
  | globals
  deriving DecidableEq, Repr

def Table.label : Table → String
  | .strings => "strings"
  | .globals => "globals"

/-- What a decoder says when it fails. -/
structure Fault where
  title : String
  message : Text
  deriving DecidableEq, Repr

/-- A cause of failure. -/
inductive Error where
  /-- A read of `needed` bytes did not fit. -/
  | truncated (region : String) (position needed available : Int)
  /-- A record holds a value that its enumeration does not have. -/
  | invalidEnum (kind : Enumeration) (value : Int) (region : String) (position : Int)
  /-- A record contradicts itself. -/
  | invalidRecord (region : String) (position : Int) (detail : String)
  /-- A lookup of `size` bytes fell outside a table of `length` bytes. -/
  | badOffset (table : Table) (offset : Number) (size length : Nat)
  /-- A type number without a name was to be named. -/
  | namelessType
  /-- The encoding setting names no charset. -/
  | unknownEncoding (setting : Text)
  /-- A text was to be decoded with a charset name, looked up as `key`, that is not registered. -/
  | unknownCharset (name key : Text)
  /-- The decoder of a registered charset failed. -/
  | decoder (fault : Fault)
  | noSuchFile (path : String)
  | notDirectory (path : String)
  deriving DecidableEq, Repr

/-- The kinds of cause that lie in the image. -/
inductive ErrorCode where
  | truncatedInput
  | invalidEnumValue
  | invalidRecord
  | badOffset
  deriving DecidableEq, Repr

namespace ErrorCode

/-- The code as it is written. -/
def label : ErrorCode → String
  | truncatedInput => "TRUNCATED_INPUT"
  | invalidEnumValue => "INVALID_ENUM_VALUE"
  | invalidRecord => "INVALID_RECORD"
  | badOffset => "BAD_OFFSET"

/-- The word that stands before the message of an error with this code. -/
def title : ErrorCode → String
  | truncatedInput => "TruncatedInputError"
  | invalidEnumValue => "InvalidEnumValueError"
  | invalidRecord => "InvalidRecordError"
  | badOffset => "BadOffsetError"

end ErrorCode

namespace Error

/-- The code of a cause that lies in the image; the others have none. -/
def code? : Error → Option ErrorCode
  | truncated .. => some .truncatedInput
  | invalidEnum .. => some .invalidEnumValue
  | invalidRecord .. => some .invalidRecord
  | badOffset .. => some .badOffset
  | _ => none

/-- Whether the cause lies in the image. -/
def inImage (e : Error) : Bool := e.code?.isSome

/-- Whether a single lookup failed, which leaves the rest of the image usable. -/
def isBadOffset (e : Error) : Bool := e.code? == some .badOffset

/-- The cause in words. -/
def message : Error → Text
  | truncated region position needed available =>
    s!"truncated input in {region} at offset {position}: need {needed} byte(s), {available} available"
  | invalidEnum kind value region position =>
    s!"invalid {kind.label} value {value} in {region} at offset {position}"
  | invalidRecord region position detail =>
    s!"invalid record in {region} at offset {position}: {detail}"
  | badOffset table offset size length =>
    s!"bad offset {offset.text} in {table.label} (read of {size} byte(s), table length {length})"
  | namelessType => "Cannot read properties of undefined (reading 'toLowerCase')"
  | unknownEncoding setting => "unknown string encoding: " ++ setting
  | unknownCharset name key =>
    "Encoding not recognized: '" ++ name ++ "' (searched as: '" ++ key ++ "')"
  | decoder fault => fault.message
  | noSuchFile path => s!"ENOENT: no such file or directory, stat '{path}'"
  | notDirectory path => s!"ENOTDIR: not a directory, stat '{path}'"

/-- The word that stands before the message when an error ends the program. -/
def title (e : Error) : String :=
  match e.code? with
  | some code => code.title
  | none =>
    match e with
    | namelessType => "TypeError"
    | decoder fault => fault.title
    | _ => "Error"

/-- The line that an error leaves when it ends the program. -/
def line (e : Error) : Text := s!"{e.title}: " ++ e.message

end Error

end QuakeC
