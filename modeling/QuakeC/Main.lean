import QuakeC.Charset.Standard
import QuakeC.CommandLine.Run

/-!
# The program

Reads the arguments, the environment and the file, and prints what `CommandLine` decides.  Strings
are decoded with the standard charsets.
-/

set_option autoImplicit false

namespace QuakeC.CommandLine

/-- The contents of a file.  Failures other than a path that leads nowhere are left to the
caller. -/
def readFile (path : String) : IO (Except Error Bytes) := do
  try
    return .ok (← IO.FS.readBinFile path).data
  catch
    | .noFileOrDirectory .. => return .error (.noSuchFile path)
    | .inappropriateType .. => return .error (.notDirectory path)
    | e => throw e

/-- The end of a process. -/
def finish (e : Exit) : IO UInt32 := do
  (← IO.getStdout).putStr e.stdout
  (← IO.getStderr).putStr e.stderr
  return UInt32.ofNat e.status

end QuakeC.CommandLine

open QuakeC QuakeC.CommandLine in
def main (args : List String) : IO UInt32 := do
  match Invocation.parse args with
  | .error stop => finish (.ofStop stop)
  | .ok inv =>
    let contents ← readFile inv.file
    let environment ← IO.getEnv "PROGS_ENCODING"
    let start ← IO.monoMsNow
    let outcome ← IO.lazyPure fun _ => inv.run .standard (environment.map Text.ofString) contents
    let elapsed := (← IO.monoMsNow) - start
    finish (.ofOutcome elapsed outcome)
