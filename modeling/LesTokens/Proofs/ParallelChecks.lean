/-
Files checked from several threads at once, and one after another. A check shares nothing but the
table with the others, and what the table answers goes into a token and not into what is wrong with
it; so the tokens that a check has yet to take, and what is wrong with them, are the same whatever
the other checks do in between (`FileCheck.Sound`). Each step of its own brings a check closer to
its end (`FileCheck.stepsLeft_step`).

**`CheckRun.outcome?_eq`**: in whatever order the checks take their steps, what is printed in the
end is what checking the files one after another prints. **`CheckRun.outcome?_of_count`**: and there
is such an end once each check has had its turns. **`commands_agree`**: so the commands agree, on one
file and on many.
-/
import LesTokens.CommandLine.Parallel
import LesTokens.Proofs.Commands
import LesTokens.Proofs.Interning
import LesTokens.Proofs.Stream
import Mathlib

namespace LesTokens.CommandLine

variable {read : Reader}

/-! ## One file -/

namespace FileCheck

variable {path : String} {check : FileCheck}

/-- A check from which only the result of its file can come. What a lexer gives from now on, behind
the tokens it has given, is what it gives from the start. -/
inductive Sound (read : Reader) (path : String) : FileCheck → Prop
  | waiting : Sound read path .waiting
  | lexing {source : Text} {lexer : Lexer (Array Diagnostic)} {tokens : Array Token}
    (hread : read path = .ok source)
    (h : lexer.collect tokens = (Lexer.ofText source #[]).collect #[]) :
    Sound read path (.lexing source lexer)
  | interning {source : Text} {lexer : Lexer (Array Diagnostic)} {tokens : Array Token}
    (hread : read path = .ok source)
    (h : lexer.collect tokens = (Lexer.ofText source #[]).collect #[]) (call : InternCall) :
    Sound read path (.interning source lexer call)
  | finished : Sound read path (.finished (checkFile read path))

/-- **Each step is one towards the result of the file.** -/
theorem Sound.step (h : check.Sound read path) (handover : Handover) (table : SymbolTable) :
    (check.step read path handover table).2.Sound read path := by
  cases h with
  | waiting =>
    show (ofFile path (read path)).Sound read path
    cases hread : read path with
    | error failure =>
      have hresult : checkFile read path = .error (errorLine path failure) := by
        rw [checkFile, hread]
      show Sound read path (.finished (.error (errorLine path failure)))
      rw [← hresult]
      exact .finished
    | ok source => exact .lexing hread rfl
  | @lexing source lexer tokens hread hcollect =>
    rcases hnext : lexer.next with ⟨token, lexer'⟩
    cases token with
    | none =>
      have hdiagnostics : lexer'.sink.toList = source.tokenize.diagnostics := by
        rw [Text.tokenize, ← hcollect, Lexer.collect_of_none hnext]
      have hresult : checkFile read path =
          .ok (lexer'.sink.toList.map (diagnosticLine path source)) := by
        rw [checkFile, hread, hdiagnostics]
        rfl
      simp only [FileCheck.step, hnext]
      rw [← hresult]
      exact .finished
    | some token =>
      rw [Lexer.collect_of_some hnext] at hcollect
      simp only [FileCheck.step, hnext]
      cases token.value <;> first | exact .lexing hread hcollect | exact .interning hread hcollect _
  | interning hread hcollect call =>
    cases call with
    | finished symbol => exact .lexing hread hcollect
    | started | missed | inserted => exact .interning hread hcollect _
  | finished => exact .finished

/-- The most steps that a check has yet to take: for each token one to take it, one to start a call
and those of the call, and one to go on. -/
def stepsLeft (read : Reader) (path : String) : FileCheck → Nat
  | .waiting =>
    match read path with
    | .error _ => 1
    | .ok source => 6 * source.length + 2
  | .lexing _ lexer => 6 * lexer.scanner.rest.length + 1
  | .interning _ lexer call => 6 * lexer.scanner.rest.length + 2 + call.stepsLeft
  | .finished _ => 0

/-- **Each step brings a check closer to its end.** -/
theorem stepsLeft_step (read : Reader) (path : String) (handover : Handover) (table : SymbolTable)
    (check : FileCheck) :
    (check.step read path handover table).2.stepsLeft read path ≤
      check.stepsLeft read path - 1 := by
  cases check with
  | waiting =>
    show (ofFile path (read path)).stepsLeft read path ≤ _
    cases hread : read path with
    | error failure => simp [ofFile, stepsLeft]
    | ok source => simp [ofFile, stepsLeft, hread, Lexer.ofText, Scanner.ofText]
  | lexing source lexer =>
    rcases hnext : lexer.next with ⟨token, lexer'⟩
    cases token with
    | none =>
      simp only [step, hnext]
      exact Nat.zero_le _
    | some token =>
      have hlt := Lexer.length_rest_lt hnext
      simp only [step, hnext]
      cases token.value with
      | name name =>
        have hstart (handover : Handover) :
            (InternCall.start table ⟨name, handover⟩).2.stepsLeft = 3 := by
          cases handover <;> rfl
        simp only [stepsLeft, hstart]
        omega
      | _ =>
        simp only [stepsLeft]
        omega
  | interning source lexer call =>
    have hcall := call.stepsLeft_step table
    cases call with
    | finished symbol =>
      simp only [step, stepsLeft]
      omega
    | _ =>
      simp only [step, stepsLeft] at hcall ⊢
      simp only [InternCall.stepsLeft] at hcall ⊢
      omega
  | finished result => exact Nat.zero_le _

theorem Sound.result?_eq (h : check.Sound read path) {result : FileResult}
    (hresult : check.result? = some result) : result = checkFile read path := by
  cases h with
  | finished => exact (Option.some.inj hresult).symm
  | waiting | lexing | interning => cases hresult

theorem Sound.result?_of_stepsLeft (h : check.Sound read path)
    (hleft : check.stepsLeft read path = 0) : check.result? = some (checkFile read path) := by
  cases h with
  | finished => rfl
  | waiting => cases hread : read path <;> simp [stepsLeft, hread] at hleft
  | lexing | interning => simp [stepsLeft] at hleft

end FileCheck

/-! ## What is printed -/

theorem Tally.foldl_add (read : Reader) (paths : List String) (tally : Tally) :
    (paths.map (checkFile read)).foldl add tally =
      ⟨tally.clean && (paths.flatMap (fileLines read)).isEmpty,
        tally.total + (paths.map (reportCount read)).sum,
        tally.printed ++ paths.flatMap (fileLines read)⟩ := by
  induction paths generalizing tally with
  | nil => simp
  | cons path paths ih =>
    rw [List.map_cons, List.foldl_cons, ih]
    cases hread : read path with
    | error failure =>
      rw [checkFile_of_error hread]
      simp [add, fileLines, reportCount, hread]
    | ok source =>
      rw [checkFile_of_ok hread]
      have hempty (a b : List String) : (a ++ b).isEmpty = (a.isEmpty && b.isEmpty) := by
        cases a <;> rfl
      simp [add, fileLines, reportCount, hread, hempty, Bool.and_assoc, Nat.add_assoc]

/-- Results taken one by one, in the order of the files, come to what is printed for all. -/
theorem Tally.outcome_foldl_add (read : Reader) (paths : List String) :
    ((paths.map (checkFile read)).foldl add empty).outcome paths.length = check read paths := by
  rw [foldl_add, check_eq]
  simp [outcome, empty, summary]

/-! ## All files -/

namespace CheckRun

variable {run : CheckRun} {paths : List String}

/-- A run in which only the result of each file can come from its check. -/
structure Sound (read : Reader) (paths : List String) (run : CheckRun) : Prop where
  paths : run.checks.map Prod.fst = paths
  checks : ∀ entry ∈ run.checks, entry.2.Sound read entry.1

theorem Sound.start (read : Reader) (table : SymbolTable) (paths : List String) :
    (CheckRun.start table paths).Sound read paths where
  paths := by simp [CheckRun.start, Function.comp_def]
  checks entry hentry := by
    obtain ⟨path, -, rfl⟩ := List.mem_map.1 hentry
    exact .waiting

theorem Sound.step (h : run.Sound read paths) (turn : Nat × Handover) :
    (run.step read turn).Sound read paths := by
  cases hentry : run.checks[turn.1]? with
  | none => simpa only [CheckRun.step, hentry] using h
  | some entry =>
    obtain ⟨path, check⟩ := entry
    simp only [CheckRun.step, hentry]
    refine ⟨?_, fun other hother => ?_⟩
    · have hpath : (run.checks.map Prod.fst)[turn.1]? = some path := by simp [hentry]
      obtain ⟨_, hget⟩ := List.getElem?_eq_some_iff.1 hpath
      rw [List.map_set, ← h.paths, ← hget, List.set_getElem_self]
    · rcases List.mem_or_eq_of_mem_set hother with hold | rfl
      · exact h.checks other hold
      · exact (h.checks (path, check) (List.mem_of_getElem? hentry)).step turn.2 run.table

theorem Sound.steps (h : run.Sound read paths) (schedule : List (Nat × Handover)) :
    (run.steps read schedule).Sound read paths := by
  induction schedule generalizing run with
  | nil => exact h
  | cons turn schedule ih => exact ih (h.step turn)

theorem mapM_result? {checks : List (String × FileCheck)} {results : List FileResult}
    (h : ∀ entry ∈ checks, entry.2.Sound read entry.1)
    (hresults : checks.mapM (·.2.result?) = some results) :
    results = (checks.map Prod.fst).map (checkFile read) := by
  induction checks generalizing results with
  | nil => cases hresults; rfl
  | cons entry checks ih =>
    rw [List.mapM_cons] at hresults
    obtain ⟨result, hresult, hresults⟩ := Option.bind_eq_some_iff.1 hresults
    obtain ⟨rest, hrest, hresults⟩ := Option.bind_eq_some_iff.1 hresults
    cases hresults
    rw [(h entry List.mem_cons_self).result?_eq hresult,
      ih (fun other hother => h other (List.mem_cons_of_mem _ hother)) hrest]
    rfl

theorem mapM_result?_of_stepsLeft {checks : List (String × FileCheck)}
    (h : ∀ entry ∈ checks, entry.2.Sound read entry.1)
    (hleft : ∀ entry ∈ checks, entry.2.stepsLeft read entry.1 = 0) :
    checks.mapM (·.2.result?) = some ((checks.map Prod.fst).map (checkFile read)) := by
  induction checks with
  | nil => rfl
  | cons entry checks ih =>
    have hresult := (h entry List.mem_cons_self).result?_of_stepsLeft
      (hleft entry List.mem_cons_self)
    have hrest := ih (fun other hother => h other (List.mem_cons_of_mem _ hother))
      fun other hother => hleft other (List.mem_cons_of_mem _ hother)
    rw [List.mapM_cons, hresult, hrest]
    rfl

/-- **The order of the steps does not matter**: what is printed in the end is what checking one file
after another prints. -/
theorem outcome?_eq {table : SymbolTable} {schedule : List (Nat × Handover)} {outcome : Outcome}
    (h : ((start table paths).steps read schedule).outcome? = some outcome) :
    outcome = check read paths := by
  obtain ⟨results, hresults, rfl⟩ := Option.map_eq_some_iff.1 h
  have hsound := (Sound.start read table paths).steps schedule
  rw [mapM_result? hsound.checks hresults, hsound.paths, List.length_map, Tally.outcome_foldl_add]

/-- The most steps that the check of the file with a number has yet to take. -/
def stepsLeft (read : Reader) (run : CheckRun) (i : Nat) : Nat :=
  match run.checks[i]? with
  | none => 0
  | some (path, check) => check.stepsLeft read path

theorem stepsLeft_step (read : Reader) (run : CheckRun) (turn : Nat × Handover) (i : Nat) :
    (run.step read turn).stepsLeft read i ≤
      run.stepsLeft read i - if turn.1 == i then 1 else 0 := by
  cases hentry : run.checks[turn.1]? with
  | none =>
    have hstep : run.step read turn = run := by rw [step, hentry]
    by_cases hi : turn.1 = i
    · subst hi
      simp [hstep, stepsLeft, hentry]
    · simp [hstep, hi]
  | some entry =>
    obtain ⟨path, check⟩ := entry
    obtain ⟨hlt, -⟩ := List.getElem?_eq_some_iff.1 hentry
    have hchecks : (run.step read turn).checks =
        run.checks.set turn.1 (path, (check.step read path turn.2 run.table).2) := by
      rw [step, hentry]
    by_cases hi : turn.1 = i
    · subst hi
      simp only [stepsLeft, hchecks, hentry, List.getElem?_set_self hlt, beq_self_eq_true, if_true]
      exact check.stepsLeft_step read path turn.2 run.table
    · simp [stepsLeft, hchecks, hi]

/-- **Turns of a check bring it to its end**, whatever the others do between them. -/
theorem stepsLeft_steps (read : Reader) (run : CheckRun) (schedule : List (Nat × Handover))
    (i : Nat) :
    (run.steps read schedule).stepsLeft read i ≤
      run.stepsLeft read i - (schedule.map Prod.fst).count i := by
  rw [List.count, List.countP_map]
  exact @foldl_le_sub_countP _ _ (step read) (stepsLeft read · i) ((· == i) ∘ Prod.fst)
    (fun run turn => run.stepsLeft_step read turn i) run schedule

/-- There is an end once each check has had its turns. -/
theorem outcome?_of_count {table : SymbolTable} {schedule : List (Nat × Handover)}
    (h : ∀ i < paths.length,
      (start table paths).stepsLeft read i ≤ (schedule.map Prod.fst).count i) :
    ((start table paths).steps read schedule).outcome? = some (check read paths) := by
  have hsound := (Sound.start read table paths).steps schedule
  have hleft : ∀ entry ∈ ((start table paths).steps read schedule).checks,
      entry.2.stepsLeft read entry.1 = 0 := by
    intro entry hentry
    obtain ⟨i, hget⟩ := List.getElem?_of_mem hentry
    have hsteps := (start table paths).stepsLeft_steps read schedule i
    have hi : i < paths.length := by
      rw [← hsound.paths, List.length_map]
      exact (List.getElem?_eq_some_iff.1 hget).1
    rw [stepsLeft, hget, Nat.sub_eq_zero_of_le (h i hi)] at hsteps
    exact Nat.le_zero.1 hsteps
  have hresults := mapM_result?_of_stepsLeft hsound.checks hleft
  rw [outcome?, results?, hresults, Option.map_some, hsound.paths, List.length_map,
    Tally.outcome_foldl_add]

/-- A number of turns that is enough for each check. -/
def turns (read : Reader) (paths : List String) : Nat :=
  (paths.map (FileCheck.stepsLeft read · .waiting)).sum

theorem stepsLeft_start_le (read : Reader) (table : SymbolTable) (paths : List String) (i : Nat) :
    (start table paths).stepsLeft read i ≤ turns read paths := by
  cases hpath : paths[i]? with
  | none => simp [stepsLeft, start, hpath]
  | some path =>
    have hmem : FileCheck.stepsLeft read path .waiting ∈
        paths.map (FileCheck.stepsLeft read · .waiting) :=
      List.mem_map_of_mem (List.mem_of_getElem? hpath)
    refine le_of_eq_of_le ?_ (List.le_sum_of_mem hmem)
    simp [stepsLeft, start, hpath]

end CheckRun

/-! ## All commands -/

/-- **The commands agree on every set of files.** `check` writes the lines about each file in the
order of the arguments, and the total if there are any reports; it succeeds exactly if every file is
clean; in whatever order the files are lexed, at once or not, it comes to the same; and for each
file, it gives what `lex` gives, as text or as JSON. Without any file, it writes how it is used and
fails. -/
theorem commands_agree (files : Files) {paths : List String} (hne : paths ≠ [])
    (hpaths : ∀ path ∈ paths, isOption path = false) :
    ((run (reader files) ("check" :: paths)).stdout = "" ∧
      (run (reader files) ("check" :: paths)).stderr =
        lines (paths.flatMap (fileLines (reader files)) ++
          summary (paths.map (reportCount (reader files))).sum paths.length)) ∧
    ((run (reader files) ("check" :: paths)).success = true ↔ ∀ path ∈ paths, Clean files path) ∧
    (∃ turns : Nat, ∀ (table : SymbolTable) (schedule : List (Nat × Handover)),
      (∀ outcome, ((CheckRun.start table paths).steps (reader files) schedule).outcome? =
        some outcome → outcome = run (reader files) ("check" :: paths)) ∧
      ((∀ i < paths.length, turns ≤ (schedule.map Prod.fst).count i) →
        ((CheckRun.start table paths).steps (reader files) schedule).outcome? =
          some (run (reader files) ("check" :: paths)))) ∧
    (∀ path ∈ paths, Agree (reader files) path) ∧
    run (reader files) ["check"] = ⟨false, "", lines ["Usage: lesc check <file>..."]⟩ := by
  rw [run_check hne]
  refine ⟨?_, success_check, ?_, fun path hpath => agree_of_path (hpaths path hpath),
    run_check_nil (reader files)⟩
  · rw [check_eq]
    exact ⟨rfl, rfl⟩
  · refine ⟨CheckRun.turns (reader files) paths, fun table schedule => ⟨?_, ?_⟩⟩
    · exact fun outcome => CheckRun.outcome?_eq
    · exact fun hturns => CheckRun.outcome?_of_count fun i hi =>
        (CheckRun.stepsLeft_start_le (reader files) table paths i).trans (hturns i hi)

/-- A file with something wrong in it, one that is no text, and no others. -/
def oddFiles : Files := fun path =>
  if path = "a.les" then .ok (String.ofList ['\x27']).toUTF8
  else if path = "b.les" then .ok ⟨#[0xff]⟩
  else .error .notFound

/-- These files, one that is missing, and the first one again. -/
theorem commands_agree_repeated :
    (∀ path ∈ ["a.les", "b.les", "c.les", "a.les"], isOption path = false) ∧
      (run (reader oddFiles) ["check", "a.les", "b.les", "c.les", "a.les"]).stderr =
        lines ["a.les:1:1: error: unterminated literal: missing closing `'`",
          "error: 'b.les' contains invalid UTF-8 data",
          "error: cannot find file 'c.les'",
          "a.les:1:1: error: unterminated literal: missing closing `'`",
          "2 lexical error(s) in 4 file(s) checked"] ∧
      Agree (reader oddFiles) "a.les" := by
  have hpaths : ∀ path ∈ ["a.les", "b.les", "c.les", "a.les"], isOption path = false := by decide
  obtain ⟨⟨-, hstderr⟩, -, -, hagree, -⟩ := commands_agree oddFiles (List.cons_ne_nil _ _) hpaths
  refine ⟨hpaths, ?_, hagree "a.les" (by decide)⟩
  have ha : reader oddFiles "a.les" = .ok ['\x27'] := reader_eq_ok.2 rfl
  have hlines : fileLines (reader oddFiles) "a.les" =
      ["a.les:1:1: error: unterminated literal: missing closing `'`"] := by
    rw [fileLines, ha]
    decide +kernel
  have hcount : reportCount (reader oddFiles) "a.les" = 1 := by
    rw [reportCount, ha]
    decide +kernel
  rw [hstderr, List.flatMap_cons, List.flatMap_cons, List.flatMap_cons, List.flatMap_cons, hlines,
    List.map_cons, List.map_cons, List.map_cons, List.map_cons, hcount]
  rfl

/-- No file is at fault where there is none, and still `check` fails. -/
theorem not_forall_success_iff :
    ¬∀ (files : Files) (paths : List String), (∀ path ∈ paths, isOption path = false) →
      ((run (reader files) ("check" :: paths)).success = true ↔
        ∀ path ∈ paths, Clean files path) := by
  intro h
  have hclaim := (h (fun _ => .error .notFound) [] nofun).2 nofun
  rw [run_check_nil] at hclaim
  cases hclaim

end LesTokens.CommandLine
