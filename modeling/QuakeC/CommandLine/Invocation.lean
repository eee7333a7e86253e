import QuakeC.CommandLine.Usage
import QuakeC.Report

/-!
# Invocations

`Invocation.parse` turns the arguments of the program into a command to run, or says why none runs.
The arguments are scanned twice: with the flags of the program, to find the command, and then what
the first scan did not know with the flags of that command.  The version flag acts wherever the
first scan meets it.
-/

set_option autoImplicit false

namespace QuakeC.CommandLine

/-- The command that is to run. -/
inductive Command where
  | dump (sections : Sections) (verbose : Bool)
  | strings
  deriving DecidableEq, Repr

/-- A command with the file it reads and the encoding option, if one was given. -/
structure Invocation where
  command : Command
  file : String
  encoding : Option Text := none
  deriving DecidableEq, Repr

/-- The value of the last occurrence of a flag. -/
def Scan.valueOf? (s : Scan) (f : Flag) : Option String :=
  (s.given.reverse.find? fun g => g.1 == f).map Prod.snd

/-- Whether a flag occurs. -/
def Scan.has (s : Scan) (f : Flag) : Bool := s.given.any fun g => g.1 == f

/-- Whether the arguments that were set aside ask for help. -/
def Scan.asksHelp (s : Scan) : Bool := s.unknown.any fun arg => helpFlag.isWritten arg.toList

namespace Invocation

/-- The command of a topic with the flags of a scan; the program itself is no command. -/
def commandOf (topic : Topic) (s : Scan) : Command :=
  match topic with
  | .strings => .strings
  | _ =>
    .dump
      { functions := !s.has noFunctionsFlag
        statements := !s.has noStatementsFlag
        globals := !s.has noGlobalsFlag
        fields := s.has fieldsFlag
        strings := s.has stringsFlag }
      (s.has verboseFlag)

/-- The invocation of a command, from the operands and unknown arguments of the first scan.  Help
comes before an unknown flag, and that before a missing file; further operands do not matter. -/
def ofCommand (topic : Topic) (operands unknown : List String) : Except Stop Invocation :=
  match scan topic.flags unknown with
  | .error flag => .error (.missingValue flag)
  | .ok s =>
    if s.asksHelp then .error (.helpFlag topic)
    else
      match s.unknown, operands ++ s.operands with
      | flag :: _, _ => .error (.unknownOption topic flag)
      | [], [] => .error (.missingArgument "file")
      | [], file :: _ =>
        .ok {
          command := commandOf topic s
          file
          encoding := (s.valueOf? encodingFlag).map Text.ofString }

/-- How the help command ends, given the name it was asked about; an empty name counts as none. -/
def helpOn : List String → Stop
  | name :: _ =>
    if name.isEmpty then .help .program false
    else
      match Topic.ofCommand? name with
      | some topic => .help topic false
      | none => .help .program true
  | [] => .help .program false

/-- How a command line ends that names no command. -/
def withoutCommand (s : Scan) : Stop :=
  if s.operands.isEmpty && s.unknown.isEmpty then .help .program true
  else if s.asksHelp then .helpFlag .program
  else
    match s.operands, s.unknown with
    | name :: _, _ => .unknownCommand name
    | [], flag :: _ => .unknownOption .program flag
    | [], [] => .help .program true

/-- The invocation that the arguments of the program stand for. -/
def parse (args : List String) : Except Stop Invocation :=
  match scan Topic.program.flags args with
  | .error flag => .error (.missingValue flag)
  | .ok s =>
    if s.has versionFlag then .error .version
    else
      match s.operands with
      | name :: operands =>
        match Topic.ofCommand? name with
        | some topic => ofCommand topic operands s.unknown
        | none =>
          if name = "help" then .error (helpOn operands) else .error (withoutCommand s)
      | [] => .error (withoutCommand s)

end Invocation

end QuakeC.CommandLine
