/-
The command line: what it prints and whether it succeeds, as a function of its arguments and of
what reading a file gives.

    lesc lex [--json] <file>     print the tokens of a file
    lesc check <file>...         report what is wrong with files
-/
import LesTokens.Lexer
import LesTokens.Text.Position
import LesTokens.Token.Json

namespace LesTokens

/-- Why a file has no text. -/
inductive ReadFailure where
  | notFound
  | permissionDenied
  | invalidUtf8
  | isDirectory
  /-- A part of the path that should be a directory is none. -/
  | notDirectory
  | nameTooLong
  | other (description : String)
  deriving DecidableEq, Repr

def ReadFailure.message (path : String) : ReadFailure → String
  | notFound => "cannot find file '" ++ path ++ "'"
  | permissionDenied => "permission denied reading '" ++ path ++ "'"
  | invalidUtf8 => "'" ++ path ++ "' contains invalid UTF-8 data"
  | isDirectory => "error reading '" ++ path ++ "': Is a directory (os error 21)"
  | notDirectory => "error reading '" ++ path ++ "': Not a directory (os error 20)"
  | nameTooLong => "error reading '" ++ path ++ "': File name too long (os error 36)"
  | other description => "error reading '" ++ path ++ "': " ++ description

/-- The text of a file with the given bytes. -/
def decodeFile (bytes : ByteArray) : Except ReadFailure Text :=
  match String.fromUTF8? bytes with
  | some s => .ok s.toList
  | none => .error .invalidUtf8

/-- What a command prints, and whether it succeeds. -/
structure Outcome where
  success : Bool
  stdout : String
  stderr : String
  deriving DecidableEq, Repr

namespace CommandLine

/-- What reading a path gives. -/
abbrev Reader := String → Except ReadFailure Text

def lines (ls : List String) : String := ls.foldl (fun out l => out ++ l ++ "\n") ""

/-- A diagnostic of a file: `path:line:column: error: message`. -/
def diagnosticLine (path : String) (source : Text) (d : Diagnostic) : String :=
  let p := Position.ofOffset source d.span.start
  path ++ ":" ++ toString p.line ++ ":" ++ toString p.column ++ ": error: " ++ d.message

/-- The diagnostics of a file. -/
def diagnosticLines (path : String) (source : Text) : List String :=
  source.tokenize.diagnostics.map (diagnosticLine path source)

def errorLine (path : String) (failure : ReadFailure) : String := "error: " ++ failure.message path

/-! ## `lex` -/

/-- The tokens of a file, one on a line. -/
def listing (path : String) (tokens : List Token) : String :=
  lines (("Tokens for '" ++ path ++ "' (" ++ toString tokens.length ++ " tokens):") ::
    tokens.map fun t => "  " ++ t.inspect)

def diagnosticJson (source : Text) (d : Diagnostic) : JsonValue :=
  let p := Position.ofOffset source d.span.start
  .object [("span", d.span.toJson), ("line", .nat p.line), ("column", .nat p.column),
    ("message", .str d.message)]

/-- The tokens and diagnostics of a file. -/
def documentJson (path : String) (source : Text) : JsonValue :=
  let result := source.tokenize
  .object [("path", .str path), ("tokens", .array (result.tokens.map Token.toJson)),
    ("errors", .array (result.diagnostics.map (diagnosticJson source)))]

/-- Prints the tokens of a file, and what is wrong with it. -/
def lex (read : Reader) (path : String) (json : Bool) : Outcome :=
  match read path with
  | .error failure => ⟨false, "", lines [errorLine path failure]⟩
  | .ok source =>
    let result := source.tokenize
    let success := !result.hasErrors
    if json then ⟨success, lines [(documentJson path source).indented], ""⟩
    else ⟨success, listing path result.tokens, lines (diagnosticLines path source)⟩

/-! ## `check` -/

/-- The diagnostics of a file, or why there are none. -/
def checkFile (read : Reader) (path : String) : Except String (List String) :=
  match read path with
  | .error failure => .error (errorLine path failure)
  | .ok source => .ok (diagnosticLines path source)

/-- Reports what is wrong with each file, in the order of the arguments, and then how much. -/
def check (read : Reader) (paths : List String) : Outcome :=
  let results := paths.map (checkFile read)
  let reported := results.flatMap fun
    | .ok diagnostics => diagnostics
    | .error line => [line]
  let total := (results.flatMap fun
    | .ok diagnostics => diagnostics
    | .error _ => []).length
  let summary := if total = 0 then [] else
    [toString total ++ " lexical error(s) in " ++ toString paths.length ++ " file(s) checked"]
  ⟨reported.isEmpty, "", lines (reported ++ summary)⟩

/-! ## All commands -/

def usage : String :=
  lines ["LES tokenizer",
    "",
    "Usage: lesc <command> [options]",
    "",
    "Commands:",
    "  lex [--json] <file>   Tokenize a file and print the tokens",
    "  check <file>...       Report lexical errors (exit 1 if any)",
    "  help                  Show this help message",
    "  version               Show version information"]

def version : String := "0.1.0"

/-- Whether an argument is an option and no path. -/
def isOption (arg : String) : Bool := arg.toList.head? = some '-'

/-- The path of a `lex` command. -/
def lexPath? (args : List String) : Option String := args.find? (!isOption ·)

/-- The paths that a command reads. -/
def requested : List String → List String
  | [] => []
  | command :: args =>
    if command = "lex" then (lexPath? args).toList
    else if command = "check" then args
    else []

/-- Runs a command with its arguments. -/
def run (read : Reader) : List String → Outcome
  | [] => ⟨false, usage, ""⟩
  | command :: args =>
    if command = "lex" then
      match lexPath? args with
      | none => ⟨false, "", lines ["Usage: lesc lex [--json] <file>"]⟩
      | some path => lex read path (args.contains "--json")
    else if command = "check" then
      if args.isEmpty then ⟨false, "", lines ["Usage: lesc check <file>..."]⟩
      else check read args
    else if ["help", "--help", "-h"].contains command then ⟨true, usage, ""⟩
    else if ["version", "--version", "-V"].contains command then
      ⟨true, lines ["lesc " ++ version], ""⟩
    else ⟨false, usage, lines ["Unknown command: " ++ command, ""]⟩

end CommandLine

end LesTokens
