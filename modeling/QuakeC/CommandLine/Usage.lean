import QuakeC.CommandLine.Scan
import QuakeC.Text.Similar

/-!
# Usage

The flags and help texts of the program and its two commands, and the ways in which a command line
ends before a command runs: help, the version, or a mistake.  A mistyped command or long flag is
answered with the names closest to it.
-/

set_option autoImplicit false

namespace QuakeC.CommandLine

def versionFlag : Flag := ⟨some 'V', "--version", none⟩

def helpFlag : Flag := ⟨some 'h', "--help", none⟩

def encodingFlag : Flag := ⟨some 'e', "--encoding", some "name"⟩

def noFunctionsFlag : Flag := ⟨none, "--no-functions", none⟩

def noStatementsFlag : Flag := ⟨none, "--no-statements", none⟩

def noGlobalsFlag : Flag := ⟨none, "--no-globals", none⟩

def fieldsFlag : Flag := ⟨none, "--fields", none⟩

def stringsFlag : Flag := ⟨none, "--strings", none⟩

def verboseFlag : Flag := ⟨some 'v', "--verbose", none⟩

/-- The program itself or one of its commands. -/
inductive Topic where
  | program
  | dump
  | strings
  deriving DecidableEq, Repr

namespace Topic

/-- The flags that are recognised while scanning; help is asked for by an unrecognised one. -/
def flags : Topic → List Flag
  | program => [versionFlag]
  | dump =>
    [encodingFlag, noFunctionsFlag, noStatementsFlag, noGlobalsFlag, fieldsFlag, stringsFlag,
      verboseFlag]
  | strings => [encodingFlag]

/-- The command of the given name. -/
def ofCommand? : String → Option Topic
  | "dump" => some .dump
  | "strings" => some .strings
  | _ => none

/-- The long flags that a mistyped one may stand for, those of the program last. -/
def longFlags (t : Topic) : List String :=
  let own := (t.flags ++ [helpFlag]).map Flag.long
  match t with
  | program => own
  | _ => own ++ (program.flags ++ [helpFlag]).map Flag.long

def help : Topic → String
  | program => "\n".intercalate
    ["Usage: progs [options] [command]",
      "",
      "Inspect compiled QuakeC progs.dat files",
      "",
      "Options:",
      "  -V, --version             output the version number",
      "  -h, --help                display help for command",
      "",
      "Commands:",
      "  dump [options] <file>     disassemble a progs.dat: functions, statements and",
      "                            global values",
      "  strings [options] <file>  print the string table as offset<TAB>text",
      "  help [command]            display help for command",
      ""]
  | dump => "\n".intercalate
    ["Usage: progs dump [options] <file>",
      "",
      "disassemble a progs.dat: functions, statements and global values",
      "",
      "Arguments:",
      "  file                   path to progs.dat",
      "",
      "Options:",
      "  -e, --encoding <name>  string table encoding (default: PROGS_ENCODING or",
      "                         ascii)",
      "  --no-functions         skip the function list",
      "  --no-statements        skip the disassembly",
      "  --no-globals           skip global definitions",
      "  --fields               also list field definitions",
      "  --strings              also list the string table",
      "  -v, --verbose          log load progress to stderr",
      "  -h, --help             display help for command",
      ""]
  | strings => "\n".intercalate
    ["Usage: progs strings [options] <file>",
      "",
      "print the string table as offset<TAB>text",
      "",
      "Arguments:",
      "  file                   path to progs.dat",
      "",
      "Options:",
      "  -e, --encoding <name>  string table encoding",
      "  -h, --help             display help for command",
      ""]

end Topic

/-- The names that can be typed as a command. -/
def commandNames : List String := ["dump", "strings", "help"]

/-- Guesses at what a mistyped word stands for.  A word that starts with two dashes is compared
without them, and then every candidate loses its first two characters too. -/
def guesses (word : String) (candidates : List String) : List String :=
  match word.toList with
  | '-' :: '-' :: rest =>
    let bare := candidates.eraseDups.map fun c => String.ofList (c.toList.drop 2)
    (Text.similar (String.ofList rest) bare).map ("--" ++ ·)
  | _ => Text.similar word candidates

/-- The guesses as a line of their own, or nothing. -/
def hint (word : String) (candidates : List String) : String :=
  match guesses word candidates with
  | [] => ""
  | [one] => s!"\n(Did you mean {one}?)"
  | several =>
    let listed := String.intercalate ", " several
    s!"\n(Did you mean one of {listed}?)"

/-- The version of the program. -/
def version : String := "0.1.0"

/-- A command line that ends before a command runs. -/
inductive Stop where
  /-- Help through the help command, or because a command is missing or not known to it. -/
  | help (topic : Topic) (isMistake : Bool)
  /-- Help through a flag. -/
  | helpFlag (topic : Topic)
  | version
  | unknownOption (topic : Topic) (flag : String)
  | unknownCommand (name : String)
  | missingArgument (name : String)
  | missingValue (flag : Flag)
  deriving DecidableEq, Repr

namespace Stop

/-- What the stop is about in one line; help speaks for itself. -/
def message : Stop → String
  | help .. | helpFlag _ => "(outputHelp)"
  | version => CommandLine.version
  | unknownOption topic flag =>
    let guess := match flag.toList with
      | '-' :: '-' :: _ => hint flag topic.longFlags
      | _ => ""
    s!"error: unknown option '{flag}'{guess}"
  | unknownCommand name =>
    let guess := hint name commandNames
    s!"error: unknown command '{name}'{guess}"
  | missingArgument name => s!"error: missing required argument '{name}'"
  | missingValue flag => s!"error: option '{flag.synopsis}' argument missing"

/-- Whether the stop is no mistake. -/
def isRegular : Stop → Bool
  | help _ isMistake => !isMistake
  | helpFlag _ | version => true
  | _ => false

def exitCode (s : Stop) : Nat := if s.isRegular then 0 else 1

/-- What is printed: the help text, or the message on a line. -/
def printed : Stop → String
  | help topic _ | helpFlag topic => topic.help
  | s => s.message ++ "\n"

def stdout (s : Stop) : String := if s.isRegular then s.printed else ""

def stderr (s : Stop) : String := if s.isRegular then "" else s.printed

end Stop

end QuakeC.CommandLine
