/-!
# Scanning arguments

A command knows a list of flags.  `scan` goes through the arguments from left to right and sorts
them into flags with their values, operands, and arguments it does not know.

* `--` ends the scan: what follows is taken over as it stands.
* A known flag counts wherever it stands.  A flag with a value takes the next argument, whatever
  that looks like, or a value attached to it: `-evalue` or `--name=value`.
* In a group such as `-abc` the flag `-a` counts if it is known, and `-bc` is scanned next.
* From the first unknown argument that looks like a flag on, unknown arguments are set aside;
  before it they are operands.
-/

set_option autoImplicit false

namespace QuakeC.CommandLine

/-- A flag of a command. -/
structure Flag where
  /-- The letter of the short form, if it has one. -/
  letter : Option Char
  /-- The long form, with its dashes. -/
  long : String
  /-- The placeholder for the value, if it takes one. -/
  value : Option String := none
  deriving DecidableEq, Repr

namespace Flag

def takesValue (f : Flag) : Bool := f.value.isSome

/-- Whether an argument is the flag. -/
def isWritten (f : Flag) (arg : List Char) : Bool :=
  arg == f.long.toList || f.letter.any fun c => arg == ['-', c]

/-- Both forms of a flag and its value, as usage texts show them. -/
def synopsis (f : Flag) : String :=
  let short := match f.letter with
    | some c => String.ofList ['-', c, ',', ' ']
    | none => ""
  let value := match f.value with
    | some v => s!" <{v}>"
    | none => ""
  s!"{short}{f.long}{value}"

end Flag

/-- What one argument is to a command. -/
inductive Token where
  | flag (f : Flag)
  /-- A flag that takes its value from the next argument. -/
  | wantsValue (f : Flag)
  | attached (f : Flag) (value : List Char)
  /-- A flag without a value in front of further letters. -/
  | group (f : Flag) (more : List Char)
  | other
  deriving DecidableEq, Repr

/-- Whether an argument looks like a flag: a dash with something after it. -/
def looksLikeFlag : List Char → Bool
  | '-' :: _ :: _ => true
  | _ => false

/-- The flag in front of a group of letters. -/
def groupToken (flags : List Flag) : List Char → Token
  | '-' :: c :: d :: more =>
    match flags.find? (·.isWritten ['-', c]) with
    | some f => if c = '-' then .other
      else if f.takesValue then .attached f (d :: more) else .group f (d :: more)
    | none => .other
  | _ => .other

/-- A long flag with its value after an equals sign. -/
def assignedToken (flags : List Flag) (arg : List Char) : Token :=
  match arg.span (· != '=') with
  | (name, _ :: value) =>
    match flags.find? fun f => f.takesValue && f.long.toList == name with
    | some f => .attached f value
    | none => .other
  | (_, []) => .other

/-- What an argument is, the exact flags first, then groups, then assignments. -/
def classify (flags : List Flag) (arg : List Char) : Token :=
  match flags.find? (·.isWritten arg) with
  | some f => if f.takesValue then .wantsValue f else .flag f
  | none =>
    match groupToken flags arg with
    | .other => assignedToken flags arg
    | token => token

/-- The arguments sorted so far. -/
structure Scan where
  /-- The flags found, in order, each with its value or the empty text. -/
  given : List (Flag × String) := []
  operands : List String := []
  unknown : List String := []
  deriving DecidableEq, Repr

namespace Scan

def give (s : Scan) (f : Flag) (value : List Char) : Scan :=
  { s with given := s.given ++ [(f, String.ofList value)] }

/-- Adds arguments after `--`, which is itself kept among unknown arguments. -/
def keepRest (s : Scan) (rest : List (List Char)) : Scan :=
  if s.unknown.isEmpty then { s with operands := s.operands ++ rest.map String.ofList }
  else { s with unknown := s.unknown ++ "--" :: rest.map String.ofList }

/-- Adds an argument that is not a flag of the command. -/
def keep (s : Scan) (arg : List Char) : Scan :=
  if looksLikeFlag arg || !s.unknown.isEmpty then
    { s with unknown := s.unknown ++ [String.ofList arg] }
  else { s with operands := s.operands ++ [String.ofList arg] }

end Scan

theorem length_of_groupToken {flags : List Flag} {arg more : List Char} {f : Flag}
    (h : groupToken flags arg = .group f more) : more.length + 2 = arg.length := by
  unfold groupToken at h
  split at h
  · split at h
    · split at h
      · cases h
      · split at h
        · cases h
        · cases h; simp
    · cases h
  · cases h

theorem length_of_classify {flags : List Flag} {arg more : List Char} {f : Flag}
    (h : classify flags arg = .group f more) : more.length + 2 = arg.length := by
  unfold classify at h
  split at h
  · split at h <;> cases h
  · split at h
    · unfold assignedToken at h
      split at h
      · split at h <;> cases h
      · cases h
    · exact length_of_groupToken h

/-- The room that arguments take up, which every step of the scan reduces. -/
def weight (args : List (List Char)) : Nat := args.flatten.length + args.length

/-- Continues a scan.  It fails with the flag whose value is missing. -/
def scanFrom (flags : List Flag) (s : Scan) (args : List (List Char)) : Except Flag Scan :=
  match args with
  | [] => .ok s
  | arg :: rest =>
    if arg = ['-', '-'] then .ok (s.keepRest rest)
    else
      match _h : classify flags arg with
      | .flag f => scanFrom flags (s.give f []) rest
      | .wantsValue f =>
        match rest with
        | [] => .error f
        | value :: rest => scanFrom flags (s.give f value) rest
      | .attached f value => scanFrom flags (s.give f value) rest
      | .group f more => scanFrom flags (s.give f []) (('-' :: more) :: rest)
      | .other => scanFrom flags (s.keep arg) rest
termination_by weight args
decreasing_by
  all_goals simp only [weight, List.flatten_cons, List.length_append, List.length_cons]
  all_goals try omega
  have shorter := length_of_classify _h
  omega

/-- Sorts the arguments of a command with the given flags. -/
def scan (flags : List Flag) (args : List String) : Except Flag Scan :=
  scanFrom flags {} (args.map String.toList)

end QuakeC.CommandLine
