/-
The program: reads the files that the command line asks for, and prints what it answers.
-/
import LesTokens.CommandLine

namespace LesTokens

/-- The number of a system error, which some calls give with its sign turned. -/
def systemError (code : UInt32) : UInt32 := min code (0 - code)

/-- Why reading a file failed. -/
def ReadFailure.ofError : IO.Error → ReadFailure
  | .noFileOrDirectory .. => notFound
  | .permissionDenied .. => permissionDenied
  | .inappropriateType _ code details | .invalidArgument _ code details =>
    if systemError code = 20 then notDirectory
    else if systemError code = 21 then isDirectory
    else if systemError code = 36 then nameTooLong
    else other (details ++ " (os error " ++ toString (systemError code) ++ ")")
  | error => other (toString error)

/-- Reads a file. -/
def readFile (path : String) : IO (Except ReadFailure Text) := do
  try return decodeFile (← IO.FS.readBinFile path)
  catch error => return .error (.ofError error)

/-- Reads the files that a command asks for. -/
def readRequested (args : List String) : IO CommandLine.Reader := do
  let files ← (CommandLine.requested args).mapM fun path => return (path, ← readFile path)
  return fun path => (files.lookup path).getD (.error .notFound)

end LesTokens

def main (args : List String) : IO UInt32 := do
  let outcome := LesTokens.CommandLine.run (← LesTokens.readRequested args) args
  (← IO.getStdout).putStr outcome.stdout
  (← IO.getStderr).putStr outcome.stderr
  return if outcome.success then 0 else 1
