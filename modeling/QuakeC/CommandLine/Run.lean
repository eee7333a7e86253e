import QuakeC.CommandLine.Invocation
import QuakeC.Load

/-!
# Running a command

A command reads one file, loads it and prints lines.  An image that cannot be loaded is reported in
the log and by exit status 1.  Every other failure — a missing file, an unknown encoding — is passed
on as it is, and then nothing has been printed.

`Outcome` is what a command sent where; `Exit` is what the process shows of it.  `Directory` is a
flat directory and how a path leads to one of its files.
-/

set_option autoImplicit false

namespace QuakeC.CommandLine

/-! ## Commands -/

/-- A line of the log. -/
inductive LogLine where
  | opening (file : String)
  | loading (event : LoadEvent)
  | unreadable (file : String) (message : Text)
  deriving DecidableEq, Repr

/-- The text of a log line, given the milliseconds that the load has taken. -/
def LogLine.text (elapsed : Nat) : LogLine → Text
  | opening file => s!"[PROGS] open: {file}"
  | loading event => event.line elapsed
  | unreadable file message => s!"[PROGS] unreadable: {file}: " ++ message

/-- What a command did. -/
structure Outcome where
  /-- The lines printed; one of them may hold line feeds. -/
  out : List Text := []
  log : List LogLine := []
  /-- The exit statuses set. -/
  codes : List Nat := []
  /-- The error that ended the command, if one did. -/
  failure : Option Error := none
  deriving DecidableEq, Repr

namespace Command

/-- Whether the command logs how the load goes on. -/
def isVerbose : Command → Bool
  | dump _ verbose => verbose
  | strings => false

/-- The lines that a command prints about a program.  The string listing is one of them, unless the
table is empty. -/
def print (command : Command) (lib : CharsetLibrary) (p : Program) : Except Error (List Text) :=
  match command with
  | dump sections _ => p.report lib sections
  | strings =>
    if p.strings.length = 0 then .ok []
    else do
      let text ← p.strings.listing lib
      return [text]

end Command

namespace Invocation

/-- The outcome of loading an image and printing what is wanted. -/
def runOn (inv : Invocation) (lib : CharsetLibrary) (environment : Option Text) (image : Bytes) :
    Outcome :=
  let (result, trace) := Program.load lib image inv.encoding environment
  let log := if inv.command.isVerbose then
      .opening inv.file :: trace.log.map LogLine.loading
    else []
  match result with
  | .error e =>
    if e.inImage then { log := log ++ [.unreadable inv.file e.message], codes := [1] }
    else { log, failure := some e }
  | .ok p =>
    match inv.command.print lib p with
    | .ok out => { out, log }
    | .error e => { log, failure := some e }

/-- The outcome of a command, given what reading its file gave. -/
def run (inv : Invocation) (lib : CharsetLibrary) (environment : Option Text)
    (contents : Except Error Bytes) : Outcome :=
  match contents with
  | .ok image => inv.runOn lib environment image
  | .error e =>
    { log := if inv.command.isVerbose then [.opening inv.file] else [], failure := some e }

end Invocation

/-! ## Processes -/

/-- What a process shows when it ends.  A stream takes no lone surrogates: each is replaced. -/
structure Exit where
  status : Nat
  stdout : String
  stderr : String
  deriving DecidableEq, Repr

namespace Exit

/-- A command line that ends before a command runs. -/
def ofStop (s : Stop) : Exit := ⟨s.exitCode, s.stdout, s.stderr⟩

/-- Printed lines go to one stream, the log and the error that ended the command to the other. -/
def ofOutcome (elapsed : Nat) (o : Outcome) : Exit where
  status := match o.failure with
    | some _ => 1
    | none => o.codes.getLast?.getD 0
  stdout := (Text.terminated o.out).toUnicode
  stderr := (Text.terminated
    (o.log.map (LogLine.text elapsed) ++ o.failure.toList.map Error.line)).toUnicode

end Exit

/-! ## Files

The components of a path are separated by slashes; an empty component or a dot stays where it is.
Nothing can be reached through a file, and a directory knows nothing about the world outside it. -/

/-- Files by name. -/
structure Directory where
  files : List (String × Bytes)
  deriving DecidableEq, Repr

namespace Directory

/-- The file that the components of a path lead to. -/
def follow (d : Directory) (path : String) : List String → Except Error Bytes
  | [] => .error (.noSuchFile path)
  | name :: rest =>
    if name = "" ∨ name = "." then follow d path rest
    else
      match d.files.lookup name with
      | some contents => if rest.isEmpty then .ok contents else .error (.notDirectory path)
      | none => .error (.noSuchFile path)

/-- The contents of the file at a path that starts in the directory. -/
def read (d : Directory) (path : String) : Except Error Bytes :=
  let components := (Text.splitWhere (· == '/') path.toList).map String.ofList
  if path.startsWith "/" then .error (.noSuchFile path) else d.follow path components

end Directory

end QuakeC.CommandLine
