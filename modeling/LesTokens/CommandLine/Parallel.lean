/-
Checking files from several threads at once. The check of a file is a sequence of atomic steps: it
reads the file, takes the next token from its text, or takes a step of the call that interns the
name of a token, in a table that all threads share. Any interleaving of such steps is a run. What is
printed is put together from the results, in the order of the arguments, once each file has one.
-/
import LesTokens.CommandLine
import LesTokens.Symbol.Interning

namespace LesTokens.CommandLine

/-- What checking a file gives: its diagnostics, or why there are none. -/
abbrev FileResult := Except String (List String)

/-! ## One file -/

/-- How far the check of a file has come. -/
inductive FileCheck where
  /-- The file has not been read. -/
  | waiting
  /-- The next token of the text is not yet taken. -/
  | lexing (source : Text) (lexer : Lexer (Array Diagnostic))
  /-- A token is taken, and its name is being interned. -/
  | interning (source : Text) (lexer : Lexer (Array Diagnostic)) (call : InternCall)
  | finished (result : FileResult)

namespace FileCheck

/-- The check of a file that is read. -/
def ofFile (path : String) : Except ReadFailure Text → FileCheck
  | .error failure => finished (.error (errorLine path failure))
  | .ok source => lexing source (.ofText source #[])

/-- The next atomic step of the check of a file. A name that a token brings is handed over to the
table in the given way. -/
def step (read : Reader) (path : String) (handover : Handover) (table : SymbolTable) :
    FileCheck → SymbolTable × FileCheck
  | waiting => (table, ofFile path (read path))
  | lexing source lexer =>
    match lexer.next with
    | (none, lexer) =>
      (table, finished (.ok (lexer.sink.toList.map (diagnosticLine path source))))
    | (some token, lexer) =>
      match token.value with
      | .name name =>
        let (table, call) := InternCall.start table ⟨name, handover⟩
        (table, interning source lexer call)
      | _ => (table, lexing source lexer)
  | interning source lexer (.finished _) => (table, lexing source lexer)
  | interning source lexer call =>
    let (table, call) := call.step table
    (table, interning source lexer call)
  | finished result => (table, finished result)

def result? : FileCheck → Option FileResult
  | finished result => some result
  | _ => none

end FileCheck

/-! ## What is printed -/

/-- What the results of some files come to: whether nothing is wrong so far, the number of
diagnostics, and the lines printed. -/
structure Tally where
  clean : Bool
  total : Nat
  printed : List String

namespace Tally

def empty : Tally := ⟨true, 0, []⟩

/-- Adds the result of one more file. -/
def add (tally : Tally) : FileResult → Tally
  | .ok diagnostics =>
    ⟨tally.clean && diagnostics.isEmpty, tally.total + diagnostics.length,
      tally.printed ++ diagnostics⟩
  | .error line => ⟨false, tally.total, tally.printed ++ [line]⟩

/-- Ends with the number of diagnostics in a number of files, if there are any. -/
def outcome (tally : Tally) (files : Nat) : Outcome :=
  let summary := if tally.total = 0 then [] else
    [toString tally.total ++ " lexical error(s) in " ++ toString files ++ " file(s) checked"]
  ⟨tally.clean, "", lines (tally.printed ++ summary)⟩

end Tally

/-! ## All files -/

/-- The files that are checked, each with its check, and the table they share. -/
structure CheckRun where
  table : SymbolTable
  checks : List (String × FileCheck)

namespace CheckRun

/-- No file has been read. The table may have names from before. -/
def start (table : SymbolTable) (paths : List String) : CheckRun :=
  ⟨table, paths.map (·, .waiting)⟩

/-- One step of the check of the file with a number; nothing if there is no such file. -/
def step (read : Reader) (run : CheckRun) (turn : Nat × Handover) : CheckRun :=
  match run.checks[turn.1]? with
  | none => run
  | some (path, check) =>
    let (table, check) := check.step read path turn.2 run.table
    ⟨table, run.checks.set turn.1 (path, check)⟩

/-- The steps of a schedule, each given by the number of the file that takes it, and by how a name
is handed over should the step bring one. -/
def steps (read : Reader) (run : CheckRun) (schedule : List (Nat × Handover)) : CheckRun :=
  schedule.foldl (step read) run

/-- The results in the order of the arguments, once each file has one. -/
def results? (run : CheckRun) : Option (List FileResult) := run.checks.mapM (·.2.result?)

/-- What is printed in the end. -/
def outcome? (run : CheckRun) : Option Outcome :=
  run.results?.map fun results => (results.foldl Tally.add .empty).outcome results.length

end CheckRun

end LesTokens.CommandLine
