/-
What the commands say about a file, side by side. Each of them renders the diagnostics of a text by
itself: as lines, as a JSON document, or as lines among those of other files. Underneath is one list
of reports (`Text.reports`), and the commands differ in how a report is written and where it goes.

**`check_eq`**: checking files writes the lines of each file in turn, and how many reports there are
if there are any. **`success_check`**: it succeeds exactly if every file is clean.
**`agree_of_path`**: on one file, the commands succeed together and write the same reports.
-/
import LesTokens.CommandLine
import Mathlib

namespace LesTokens

/-! ## Reports -/

/-- Something wrong in a text: the bytes it is about, where they start, and what is wrong. -/
structure Report where
  span : Span
  line : Nat
  column : Nat
  message : String

namespace Report

def ofDiagnostic (source : Text) (d : Diagnostic) : Report :=
  let position := Position.ofOffset source d.span.start
  ⟨d.span, position.line, position.column, d.message⟩

/-- As a line of text. -/
def inFile (path : String) (report : Report) : String :=
  path ++ ":" ++ toString report.line ++ ":" ++ toString report.column ++ ": error: " ++
    report.message

def toJson (report : Report) : JsonValue :=
  .object [("span", report.span.toJson), ("line", .nat report.line),
    ("column", .nat report.column), ("message", .str report.message)]

end Report

/-- What is wrong in a text, in the order in which it is found. -/
def Text.reports (source : Text) : List Report :=
  source.tokenize.diagnostics.map (Report.ofDiagnostic source)

theorem Text.isEmpty_reports (source : Text) :
    source.reports.isEmpty = !source.tokenize.hasErrors := by
  simp [reports, Tokenized.hasErrors]

namespace CommandLine

/-! ## Files -/

/-- The bytes of the files, or why they cannot be read. -/
abbrev Files := String → Except ReadFailure ByteArray

def reader (files : Files) : Reader := fun path => files path >>= decodeFile

/-- A file that can be read and has nothing wrong in it. -/
def Clean (files : Files) (path : String) : Prop :=
  ∃ source : Text, files path = .ok (String.ofList source).toUTF8 ∧
    source.tokenize.diagnostics = []

theorem decodeFile_eq_ok {bytes : ByteArray} {source : Text} :
    decodeFile bytes = .ok source ↔ bytes = (String.ofList source).toUTF8 := by
  rw [decodeFile]
  cases hdecode : String.fromUTF8? bytes with
  | none =>
    refine ⟨nofun, ?_⟩
    rintro rfl
    rw [String.fromUTF8?, String.toUTF8_eq_toByteArray, dif_pos (String.isValidUTF8 _)] at hdecode
    cases hdecode
  | some s =>
    have hbytes : s.toUTF8 = bytes := by
      rw [String.fromUTF8?] at hdecode
      split at hdecode
      · cases hdecode
        rfl
      · cases hdecode
    constructor
    · intro h
      cases h
      rw [String.ofList_toList, hbytes]
    · intro h
      rw [← hbytes] at h
      have hs : s = String.ofList source := String.toByteArray_inj.1 h
      simp [hs]

theorem reader_eq_ok {files : Files} {path : String} {source : Text} :
    reader files path = .ok source ↔ files path = .ok (String.ofList source).toUTF8 := by
  rw [reader]
  cases files path with
  | error failure => simp [bind, Except.bind]
  | ok bytes => simpa [bind, Except.bind] using decodeFile_eq_ok

/-! ## Checking files -/

/-- The lines about a file: what is wrong in it, or why it cannot be read. -/
def fileLines (read : Reader) (path : String) : List String :=
  match read path with
  | .error failure => [errorLine path failure]
  | .ok source => source.reports.map (Report.inFile path)

/-- How much is wrong in a file. -/
def reportCount (read : Reader) (path : String) : Nat :=
  match read path with
  | .error _ => 0
  | .ok source => source.reports.length

/-- The line about all files, if there is anything wrong in them. -/
def summary (total files : Nat) : List String :=
  if total = 0 then []
  else [toString total ++ " lexical error(s) in " ++ toString files ++ " file(s) checked"]

theorem diagnosticLines_eq (path : String) (source : Text) :
    diagnosticLines path source = source.reports.map (Report.inFile path) := by
  rw [Text.reports, List.map_map]
  rfl

theorem checkFile_of_error {read : Reader} {path : String} {failure : ReadFailure}
    (h : read path = .error failure) : checkFile read path = .error (errorLine path failure) := by
  rw [checkFile, h]

theorem checkFile_of_ok {read : Reader} {path : String} {source : Text}
    (h : read path = .ok source) :
    checkFile read path = .ok (source.reports.map (Report.inFile path)) := by
  rw [checkFile, h]
  exact congrArg _ (diagnosticLines_eq path source)

/-- **What checking files prints**: the lines about each file in the order of the arguments, and the
total. -/
theorem check_eq (read : Reader) (paths : List String) :
    check read paths =
      ⟨(paths.flatMap (fileLines read)).isEmpty, "", lines (paths.flatMap (fileLines read) ++
        summary (paths.map (reportCount read)).sum paths.length)⟩ := by
  refine congrArg₂ (fun reported total => (⟨List.isEmpty reported, "",
    lines (reported ++ summary total paths.length)⟩ : Outcome)) ?_ ?_
  · rw [List.flatMap_map]
    refine congrArg (paths.flatMap ·) (funext fun path => ?_)
    rw [fileLines]
    cases hread : read path with
    | error failure => rw [checkFile_of_error hread]
    | ok source => rw [checkFile_of_ok hread]
  · rw [List.flatMap_map, List.length_flatMap]
    refine congrArg (fun count => (paths.map count).sum) (funext fun path => ?_)
    rw [reportCount]
    cases hread : read path with
    | error failure => rw [checkFile_of_error hread, List.length_nil]
    | ok source => rw [checkFile_of_ok hread, List.length_map]

theorem fileLines_eq_nil {files : Files} {path : String} :
    fileLines (reader files) path = [] ↔ Clean files path := by
  rw [fileLines]
  cases hread : reader files path with
  | error failure =>
    refine ⟨nofun, ?_⟩
    rintro ⟨source, hfile, -⟩
    rw [reader_eq_ok.2 hfile] at hread
    cases hread
  | ok source =>
    have hfile := reader_eq_ok.1 hread
    constructor
    · intro h
      exact ⟨source, hfile, by simpa [Text.reports] using h⟩
    · rintro ⟨source', hfile', hclean⟩
      have hsource : source = source' := by
        rw [reader_eq_ok.2 hfile'] at hread
        exact (Except.ok.inj hread).symm
      simp [Text.reports, hsource, hclean]

theorem success_check {files : Files} {paths : List String} :
    (check (reader files) paths).success = true ↔ ∀ path ∈ paths, Clean files path := by
  rw [check_eq, List.isEmpty_iff, List.flatMap_eq_nil_iff]
  simp only [fileLines_eq_nil]

/-! ## One file -/

/-- What the commands give for one file. -/
structure Agree (read : Reader) (path : String) : Prop where
  success_lex : (run read ["lex", path]).success = (run read ["check", path]).success
  success_json : (run read ["lex", "--json", path]).success = (run read ["check", path]).success
  /-- Apart from the total, `check` writes what `lex` writes beside the tokens. -/
  stderr_check : (run read ["check", path]).stderr =
    (run read ["lex", path]).stderr ++ lines (summary (reportCount read path) 1)
  stderr_lex : (run read ["lex", path]).stderr = lines (fileLines read path)
  unreadable {failure : ReadFailure} (h : read path = .error failure) :
    run read ["lex", path] = ⟨false, "", lines [errorLine path failure]⟩ ∧
      run read ["lex", "--json", path] = ⟨false, "", lines [errorLine path failure]⟩
  readable {source : Text} (h : read path = .ok source) :
    (run read ["lex", path]).stderr = lines (source.reports.map (Report.inFile path)) ∧
      (run read ["lex", "--json", path]).stderr = "" ∧
      (run read ["lex", "--json", path]).stdout =
        lines [(JsonValue.object [("path", .str path),
          ("tokens", .array (source.tokenize.tokens.map Token.toJson)),
          ("errors", .array (source.reports.map Report.toJson))]).indented]

theorem foldl_lines (out : String) (ls : List String) :
    ls.foldl (fun out l => out ++ l ++ "\n") out = out ++ lines ls := by
  induction ls generalizing out with
  | nil => exact (String.append_empty).symm
  | cons l ls ih =>
    rw [lines, List.foldl_cons, List.foldl_cons, ih, ih ("" ++ l ++ "\n"), String.empty_append,
      String.append_assoc, String.append_assoc, String.append_assoc]

theorem lines_append (a b : List String) : lines (a ++ b) = lines a ++ lines b := by
  rw [lines, List.foldl_append, foldl_lines]
  rfl

theorem run_check {read : Reader} {paths : List String} (h : paths ≠ []) :
    run read ("check" :: paths) = check read paths := by
  simp [run, h]

/-- Without any file, `check` says how it is used, and fails. -/
theorem run_check_nil (read : Reader) :
    run read ["check"] = ⟨false, "", lines ["Usage: lesc check <file>..."]⟩ := rfl

theorem lexPath?_cons {path : String} (h : isOption path = false) (args : List String) :
    lexPath? (path :: args) = some path := by
  simp [lexPath?, h]

theorem ne_json_of_path {path : String} (h : isOption path = false) : path ≠ "--json" := by
  rintro rfl
  exact absurd h (by decide)

theorem run_lex {read : Reader} {path : String} (h : isOption path = false) :
    run read ["lex", path] = lex read path false := by
  have hjson : ["--json"].contains path = false := by simpa using ne_json_of_path h
  simp [run, lexPath?_cons h, (ne_json_of_path h).symm]

theorem run_lex_json {read : Reader} {path : String} (h : isOption path = false) :
    run read ["lex", "--json", path] = lex read path true := by
  have hpath : lexPath? ["--json", path] = some path := lexPath?_cons h []
  simp [run, hpath]

theorem documentJson_eq (path : String) (source : Text) :
    documentJson path source =
      .object [("path", .str path),
        ("tokens", .array (source.tokenize.tokens.map Token.toJson)),
        ("errors", .array (source.reports.map Report.toJson))] := by
  rw [Text.reports, List.map_map]
  rfl

theorem lex_of_error {read : Reader} {path : String} {failure : ReadFailure}
    (h : read path = .error failure) (json : Bool) :
    lex read path json = ⟨false, "", lines (fileLines read path)⟩ := by
  rw [lex, fileLines, h]

theorem stderr_lex (read : Reader) (path : String) :
    (lex read path false).stderr = lines (fileLines read path) := by
  cases hread : read path with
  | error failure => rw [lex_of_error hread]
  | ok source => simp [lex, fileLines, hread, diagnosticLines_eq]

theorem success_lex (read : Reader) (path : String) (json : Bool) :
    (lex read path json).success = (fileLines read path).isEmpty := by
  cases hread : read path with
  | error failure => rw [lex_of_error hread, fileLines, hread]; rfl
  | ok source =>
    cases json <;> simp [lex, fileLines, hread, Text.isEmpty_reports]

/-- **The commands agree on a file.** -/
theorem agree_of_path {read : Reader} {path : String} (h : isOption path = false) :
    Agree read path := by
  have hcheck : run read ["check", path] =
      ⟨(fileLines read path).isEmpty, "",
        lines (fileLines read path ++ summary (reportCount read path) 1)⟩ := by
    rw [run_check (List.cons_ne_nil _ _), check_eq]
    simp
  constructor
  · rw [run_lex h, hcheck, success_lex]
  · rw [run_lex_json h, hcheck, success_lex]
  · rw [run_lex h, hcheck, lines_append, stderr_lex]
  · rw [run_lex h, stderr_lex]
  · intro failure hread
    have hlines : fileLines read path = [errorLine path failure] := by rw [fileLines, hread]
    rw [run_lex h, run_lex_json h, lex_of_error hread, lex_of_error hread, hlines]
    exact ⟨rfl, rfl⟩
  · intro source hread
    have hlines : fileLines read path = source.reports.map (Report.inFile path) := by
      rw [fileLines, hread]
    have hjson : run read ["lex", "--json", path] =
        ⟨!source.tokenize.hasErrors, lines [(documentJson path source).indented], ""⟩ := by
      rw [run_lex_json h, lex, hread]
      rfl
    rw [run_lex h, stderr_lex, hlines, hjson, documentJson_eq]
    exact ⟨rfl, rfl, rfl⟩

end CommandLine

end LesTokens
