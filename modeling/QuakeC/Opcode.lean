import QuakeC.Numeric.Number

/-!
# Opcodes

The instructions of the machine, numbered from zero in the order of `Opcode.known`.  A number
outside that range is kept as an unknown opcode, so that a statement can be shown whatever it holds.
-/

set_option autoImplicit false

namespace QuakeC

/-- An instruction of the machine, or a number that is none. -/
inductive Opcode where
  | done | mulF | mulV | mulFV | mulVF | divF | addF | addV | subF | subV | eqF | eqV | eqS | eqE
  | eqFnc | neF | neV | neS | neE | neFnc | le | ge | lt | gt | loadF | loadV | loadS | loadEnt
  | loadFld | loadFnc | address | storeF | storeV | storeS | storeEnt | storeFld | storeFnc
  | storePF | storePV | storePS | storePEnt | storePFld | storePFnc | ret | notF | notV | notS
  | notEnt | notFnc | branchIf | branchIfNot | call0 | call1 | call2 | call3 | call4 | call5
  | call6 | call7 | call8 | state | goto | and | or | bitAnd | bitOr
  | unknown (number : Int)
  deriving DecidableEq, Repr

namespace Opcode

/-- All instructions, each at the place of its number. -/
def known : List Opcode :=
  [.done, .mulF, .mulV, .mulFV, .mulVF, .divF, .addF, .addV, .subF, .subV, .eqF, .eqV, .eqS, .eqE,
    .eqFnc, .neF, .neV, .neS, .neE, .neFnc, .le, .ge, .lt, .gt, .loadF, .loadV, .loadS, .loadEnt,
    .loadFld, .loadFnc, .address, .storeF, .storeV, .storeS, .storeEnt, .storeFld, .storeFnc,
    .storePF, .storePV, .storePS, .storePEnt, .storePFld, .storePFnc, .ret, .notF, .notV, .notS,
    .notEnt, .notFnc, .branchIf, .branchIfNot, .call0, .call1, .call2, .call3, .call4, .call5,
    .call6, .call7, .call8, .state, .goto, .and, .or, .bitAnd, .bitOr]

/-- The instruction with the given number. -/
def ofCode? (n : Int) : Option Opcode := if 0 ≤ n then known[n.toNat]? else none

/-- The opcode with the given number, known or not. -/
def ofCode (n : Int) : Opcode := (ofCode? n).getD (.unknown n)

/-- The number of an opcode. -/
def code : Opcode → Int
  | .unknown n => n
  | op => known.idxOf op

/-- The instruction whose number a caller gave. -/
def ofNumber? (x : Number) : Option Opcode := x.toInt?.bind ofCode?

/-- The name in a raw listing. -/
def mnemonic : Opcode → String
  | .done => "DONE"
  | .mulF => "MUL_F"
  | .mulV => "MUL_V"
  | .mulFV => "MUL_FV"
  | .mulVF => "MUL_VF"
  | .divF => "DIV_F"
  | .addF => "ADD_F"
  | .addV => "ADD_V"
  | .subF => "SUB_F"
  | .subV => "SUB_V"
  | .eqF => "EQ_F"
  | .eqV => "EQ_V"
  | .eqS => "EQ_S"
  | .eqE => "EQ_E"
  | .eqFnc => "EQ_FNC"
  | .neF => "NE_F"
  | .neV => "NE_V"
  | .neS => "NE_S"
  | .neE => "NE_E"
  | .neFnc => "NE_FNC"
  | .le => "LE"
  | .ge => "GE"
  | .lt => "LT"
  | .gt => "GT"
  | .loadF => "LOAD_F"
  | .loadV => "LOAD_V"
  | .loadS => "LOAD_S"
  | .loadEnt => "LOAD_ENT"
  | .loadFld => "LOAD_FLD"
  | .loadFnc => "LOAD_FNC"
  | .address => "ADDRESS"
  | .storeF => "STORE_F"
  | .storeV => "STORE_V"
  | .storeS => "STORE_S"
  | .storeEnt => "STORE_ENT"
  | .storeFld => "STORE_FLD"
  | .storeFnc => "STORE_FNC"
  | .storePF => "STOREP_F"
  | .storePV => "STOREP_V"
  | .storePS => "STOREP_S"
  | .storePEnt => "STOREP_ENT"
  | .storePFld => "STOREP_FLD"
  | .storePFnc => "STOREP_FNC"
  | .ret => "RETURN"
  | .notF => "NOT_F"
  | .notV => "NOT_V"
  | .notS => "NOT_S"
  | .notEnt => "NOT_ENT"
  | .notFnc => "NOT_FNC"
  | .branchIf => "IF"
  | .branchIfNot => "IFNOT"
  | .call0 => "CALL0"
  | .call1 => "CALL1"
  | .call2 => "CALL2"
  | .call3 => "CALL3"
  | .call4 => "CALL4"
  | .call5 => "CALL5"
  | .call6 => "CALL6"
  | .call7 => "CALL7"
  | .call8 => "CALL8"
  | .state => "STATE"
  | .goto => "GOTO"
  | .and => "AND"
  | .or => "OR"
  | .bitAnd => "BITAND"
  | .bitOr => "BITOR"
  | .unknown _ => "undefined"

end Opcode

end QuakeC
