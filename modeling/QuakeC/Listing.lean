import QuakeC.Record

/-!
# The text of a statement

Arithmetic, comparisons and stores are written as assignments between typed addresses; every other
statement is written as its four parts.

* `*(float *)3 = *(float *)1 + *(float *)2` — an operation: result `c`, operands `a` and `b`;
* `*(vector *)2 = *(vector *)1` — a store of `a` to `b`, which has no use for `c`;
* `(CALL1, 5, 0, 0)` — anything else.
-/

set_option autoImplicit false

namespace QuakeC

/-- How a statement is written. -/
inductive Shape where
  /-- An operation with its symbol and the types of its result and its two operands. -/
  | binary (symbol : String) (result left right : ValueType)
  | store (type : ValueType)
  | raw
  deriving DecidableEq, Repr

/-- The shape of the statements with an opcode. -/
def Opcode.shape : Opcode → Shape
  | .addF => .binary "+" .float .float .float
  | .subF => .binary "-" .float .float .float
  | .mulF => .binary "*" .float .float .float
  | .divF => .binary "/" .float .float .float
  | .bitAnd => .binary "&" .float .float .float
  | .bitOr => .binary "|" .float .float .float
  | .ge => .binary ">=" .float .float .float
  | .le => .binary "<=" .float .float .float
  | .gt => .binary ">" .float .float .float
  | .lt => .binary "<" .float .float .float
  | .and => .binary "&&" .float .float .float
  | .or => .binary "||" .float .float .float
  | .addV => .binary "+" .vector .vector .vector
  | .subV => .binary "-" .vector .vector .vector
  | .mulV => .binary "*" .vector .vector .vector
  | .mulVF => .binary "*vf" .vector .float .vector
  | .mulFV => .binary "*fv" .vector .vector .float
  | .eqF => .binary "==" .float .float .float
  | .eqV => .binary "==" .float .vector .vector
  | .eqS => .binary "==" .float .string .string
  | .eqE => .binary "==" .float .entity .entity
  | .eqFnc => .binary "==" .float .function .function
  | .neF => .binary "!=" .float .float .float
  | .neV => .binary "!=" .float .vector .vector
  | .neS => .binary "!=" .float .string .string
  | .neE => .binary "!=" .float .entity .entity
  | .neFnc => .binary "!=" .float .function .function
  | .storeF => .store .float
  | .storeV => .store .vector
  | .storeS => .store .string
  | .storeEnt => .store .entity
  | .storeFld => .store .field
  | .storeFnc => .store .function
  | _ => .raw

namespace Statement

/-- A typed address. -/
def address (type : ValueType) (operand : Int) : String := s!"*({type.keyword} *){operand}"

/-- The four parts of a statement. -/
def rawText (s : Statement) : String := s!"({s.op.mnemonic}, {s.a}, {s.b}, {s.c})"

/-- The line of a statement in a listing. -/
def text (s : Statement) : String :=
  match s.op.shape with
  | .binary symbol result left right =>
    s!"{address result s.c} = {address left s.a} {symbol} {address right s.b}"
  | .store type => s!"{address type s.b} = {address type s.a}"
  | .raw => s.rawText

end Statement

end QuakeC
