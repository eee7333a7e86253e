import QuakeC.Error

/-!
# Value types

The types of the language, as they are numbered in definitions.  `bad` has a number and a name but
is never stored.  A number that names no type is kept as an unknown type.
-/

set_option autoImplicit false

namespace QuakeC

/-- A type of the language, or a number that is none. -/
inductive ValueType where
  | bad
  | void
  | string
  | float
  | vector
  | entity
  | field
  | function
  | pointer
  | unknown (number : Int)
  deriving DecidableEq, Repr

namespace ValueType

/-- The types that definitions may have, each at the place of its number. -/
def stored : List ValueType :=
  [.void, .string, .float, .vector, .entity, .field, .function, .pointer]

/-- The type with the given number, as definitions hold it. -/
def ofStored? (n : Int) : Option ValueType := if 0 ≤ n then stored[n.toNat]? else none

/-- The type with the given number, known or not. -/
def ofCode (n : Int) : ValueType :=
  if n = -1 then .bad else (ofStored? n).getD (.unknown n)

/-- The number of a type. -/
def code : ValueType → Int
  | .bad => -1
  | .unknown n => n
  | t => stored.idxOf t

/-- The name of a type in capitals. -/
def name? : ValueType → Option String
  | .bad => some "BAD"
  | .void => some "VOID"
  | .string => some "STRING"
  | .float => some "FLOAT"
  | .vector => some "VECTOR"
  | .entity => some "ENTITY"
  | .field => some "FIELD"
  | .function => some "FUNCTION"
  | .pointer => some "POINTER"
  | .unknown _ => none

/-- The name of a type as reports show it. -/
def name (t : ValueType) : String := t.name?.getD "undefined"

/-- The name of a type as the language writes it. -/
def keyword (t : ValueType) : String := String.ofList (t.name.toList.map Char.toLower)

/-- The stored type whose number a caller gave. -/
def ofNumber? (x : Number) : Option ValueType := x.toInt?.bind ofStored?

/-- The keyword of the type whose number a caller gave; a number that is no type has none. -/
def keywordOfNumber (x : Number) : Except Error String :=
  match x.toInt?.bind fun n => (ofCode n).name?.map fun _ => (ofCode n).keyword with
  | some word => .ok word
  | none => .error .namelessType

end ValueType

end QuakeC
