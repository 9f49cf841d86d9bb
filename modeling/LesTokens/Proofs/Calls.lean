/-
What a lexer hands over, call by call. A source can be scanned to its end first, and each extent
then be evaluated where it stands (`Text.evaluated`). The calls of a lexer give the same: one token
with each call, what is wrong with it to the sink, and nothing from the end on (`Lexer.calls_eq`).

A lexer can also be put together from parts that know little of each other (`StagedLexer`): a
scanner that gives tags and lengths, and an evaluator that looks the text up in the source and
gathers diagnostics until it is emptied. It stands where the lexer stands after each call
(`StagedLexer.Matches`), with nothing left in the evaluator.

**`Text.calls_evaluated`**: call by call the lexer refines scanning and then evaluating, for any
sink.
-/
import LesTokens.Proofs.Relexing
import LesTokens.Proofs.Restart

namespace LesTokens

/-! ## Scanning first -/

theorem Lexeme.evaluate_extent {l : Lexeme} {source front rest : Text}
    (h : front ++ (l.text ++ rest) = source) :
    l.extent.evaluate source front.size = l.evaluate front.size := by
  have hslice : source.slice? front.size (front.size + l.text.size) = some l.text := by
    rw [← h, Text.slice?_size_append]
  simp only [Extent.evaluate, Lexeme.evaluate, Lexeme.extent, Span.ofLength, hslice,
    Option.getD_some]

namespace Text

/-- Where an extent of a source starts: behind the lengths of the extents before it. -/
def extentStart (source : Text) (k : Nat) : Nat :=
  ((source.extents.take k).map Extent.length).sum

/-- The tokens of a source, and what is wrong with each, as the evaluations of its extents. -/
def evaluated (source : Text) : List (Token × List Diagnostic) :=
  source.extents.mapIdx fun k e => e.evaluate source (source.extentStart k)

theorem extentStart_eq (source : Text) (k : Nat) :
    source.extentStart k = size ((source.lexemes.take k).flatMap Lexeme.text) := by
  have hsum (ls : List Lexeme) :
      ((ls.map Lexeme.extent).map Extent.length).sum = size (ls.flatMap Lexeme.text) := by
    induction ls with
    | nil => rfl
    | cons l ls ih =>
      rw [List.map_cons, List.map_cons, List.sum_cons, ih, List.flatMap_cons, size_append]
      rfl
  rw [extentStart, extents, ← List.map_take, hsum]

theorem evaluated_getElem? (source : Text) (k : Nat) : source.evaluated[k]? =
    source.extents[k]?.map (·.evaluate source (source.extentStart k)) :=
  List.getElem?_mapIdx

theorem evaluated_eq (source : Text) :
    source.evaluated = Lexeme.evaluateAll 0 source.lexemes := by
  refine List.ext_getElem? fun k => ?_
  rw [evaluated_getElem?, Lexeme.evaluateAll_getElem?, Nat.zero_add, extents, List.getElem?_map,
    Option.map_map, extentStart_eq]
  cases hl : source.lexemes[k]? with
  | none => rfl
  | some l => exact congrArg some (Lexeme.evaluate_extent (append_of_getElem? hl))

end Text

/-! ## Calls -/

namespace Lexer

variable {σ : Type} [DiagnosticSink σ]

theorem after_add (l : Lexer σ) (j k : Nat) : l.after (j + k) = (l.after j).after k := by
  induction k with
  | zero => rfl
  | succ k ih => rw [← Nat.add_assoc, after_succ, after_succ, ih]

theorem after_of_none {l : Lexer σ} (h : l.scanner.next? = none) (k : Nat) :
    (l.after k).next.1 = none ∧ (l.after k).sink = l.sink := by
  have hstay : (l.after k).scanner = l.scanner ∧ (l.after k).sink = l.sink := by
    induction k with
    | zero => exact ⟨rfl, rfl⟩
    | succ k ih =>
      have hk : (l.after k).scanner.next? = none := by rw [ih.1, h]
      rw [after_succ, next_of_none hk]
      exact ih
  have hk : (l.after k).scanner.next? = none := by rw [hstay.1, h]
  exact ⟨by rw [next_of_none hk], hstay.2⟩

theorem after_of_length_le (source : Text) (sink : σ) {k : Nat} (h : source.lexemes.length ≤ k) :
    ((ofText source sink).after k).next.1 = none ∧
      ((ofText source sink).after (k + 1)).sink = ((ofText source sink).after k).sink := by
  obtain ⟨before, rest, reached, hend, hl⟩ := after_eq 0 none source sink (Nat.le_refl _)
  rw [← Text.lexemes_eq] at hend
  have hnone : ((ofText source sink).after source.lexemes.length).scanner.next? = none := by
    rw [ofText, Scanner.ofText, hend]
    cases rest with
    | nil => rfl
    | cons c t =>
      rcases hscan : Lexeme.scan before c t with ⟨l, r⟩
      rw [Text.lexemesAfter_cons hscan, ← Text.lexemes_eq, List.drop_length] at hl
      cases hl
  obtain ⟨j, rfl⟩ := Nat.exists_eq_add_of_le h
  rw [Nat.add_assoc, after_add, after_add, (after_of_none hnone j).1, (after_of_none hnone j).2,
    (after_of_none hnone (j + 1)).2]
  exact ⟨rfl, rfl⟩

/-- **Each call gives what was evaluated there, and the sink takes it**; from the end on both are
nothing. -/
theorem calls_eq (source : Text) (sink : σ) (k : Nat) :
    ((ofText source sink).after k).next.1 = source.evaluated[k]?.map Prod.fst ∧
      ((ofText source sink).after (k + 1)).sink =
        ((source.evaluated[k]?.map Prod.snd).getD []).foldl DiagnosticSink.report
          ((ofText source sink).after k).sink := by
  rw [Text.evaluated_eq, Lexeme.evaluateAll_getElem?]
  cases hl : source.lexemes[k]? with
  | none => exact after_of_length_le source sink (List.getElem?_eq_none_iff.1 hl)
  | some l => exact next_after 0 sink hl

end Lexer

namespace Text

/-- Call `k` of a lexer gives a token, and reports diagnostics with it. -/
structure Yields (source : Text) (k : Nat) (t : Token) (ds : List Diagnostic) : Prop where
  token : ((Lexer.ofText source (#[] : Array Diagnostic)).after k).next.1 = some t
  reported : ((Lexer.ofText source (#[] : Array Diagnostic)).after (k + 1)).sink =
    ((Lexer.ofText source (#[] : Array Diagnostic)).after k).sink ++ ds.toArray

variable {source : Text} {k : Nat} {t : Token} {ds : List Diagnostic}

/-- **A call gives the evaluation of a lexeme**, where the lexemes before it end. -/
theorem yields_iff : source.Yields k t ds ↔ ∃ l, source.lexemes[k]? = some l ∧
    l.evaluate (size ((source.lexemes.take k).flatMap Lexeme.text)) = (t, ds) := by
  constructor
  · rintro ⟨htoken, hreported⟩
    cases hl : source.lexemes[k]? with
    | none =>
      have hend := Lexer.after_of_length_le source (#[] : Array Diagnostic)
        (List.getElem?_eq_none_iff.1 hl)
      rw [hend.1] at htoken
      cases htoken
    | some l =>
      obtain ⟨hcall, hsink⟩ := Lexer.next_after 0 (#[] : Array Diagnostic) hl
      rw [Nat.zero_add] at hcall hsink
      rw [foldl_report] at hsink
      refine ⟨l, rfl, Prod.ext ?_ ?_⟩
      · exact Option.some.inj (hcall.symm.trans htoken)
      · exact congrArg Array.toList ((Array.append_right_inj _).1 (hsink.symm.trans hreported))
  · rintro ⟨l, hl, he⟩
    obtain ⟨hcall, hsink⟩ := Lexer.next_after 0 (#[] : Array Diagnostic) hl
    rw [Nat.zero_add] at hcall hsink
    rw [foldl_report] at hsink
    rw [lexemes_eq] at he
    rw [he] at hcall hsink
    exact ⟨hcall, hsink⟩

theorem exists_yields (h : source.tokenize.tokens[k]? = some t) : ∃ ds, source.Yields k t ds := by
  rw [tokens_getElem?, Option.map_eq_some_iff] at h
  obtain ⟨l, hl, rfl⟩ := h
  exact ⟨_, yields_iff.2 ⟨l, hl, rfl⟩⟩

theorem Yields.exists_lexeme (h : source.Yields k t ds) : ∃ l, source.lexemes[k]? = some l ∧
    l.evaluate (size ((source.lexemes.take k).flatMap Lexeme.text)) = (t, ds) ∧
    source.slice? t.span.start t.span.stop = some l.text := by
  obtain ⟨l, hl, he⟩ := yields_iff.1 h
  refine ⟨l, hl, he, ?_⟩
  have hsource := append_of_getElem? hl
  have hslice := slice?_size_append ((source.lexemes.take k).flatMap Lexeme.text) l.text
    (((source.lexemesAfter none).drop (k + 1)).flatMap Lexeme.text)
  rw [lexemes_eq, hsource] at hslice
  obtain rfl : (l.evaluate (size ((source.lexemes.take k).flatMap Lexeme.text))).1 = t :=
    congrArg Prod.fst he
  exact hslice

end Text

theorem Callback.foldl_report {ρ : Type} (c : Callback ρ) (ds : List Diagnostic) :
    ds.foldl DiagnosticSink.report c =
      ⟨c.call, ds.foldl (fun s d => c.call s d.span d.message) c.state⟩ := by
  induction ds generalizing c with
  | nil => rfl
  | cons d ds ih => exact ih (DiagnosticSink.report c d)

theorem Callback.call_after {ρ : Type} (source : Text) (c : Callback ρ) (k : Nat) :
    ((Lexer.ofText source c).after k).sink.call = c.call := by
  induction k with
  | zero => rfl
  | succ k ih => rw [(Lexer.calls_eq source c k).2, foldl_report, ih]

/-! ## In parts -/

/-- An evaluator of extents, and the diagnostics it has gathered. -/
structure Evaluator where
  source : Text
  gathered : List Diagnostic

namespace Evaluator

/-- The token of an extent; what is wrong with it is gathered. -/
def evaluate (v : Evaluator) (e : Extent) (offset : Nat) : Token × Evaluator :=
  let (token, diagnostics) := e.evaluate v.source offset
  (token, { v with gathered := v.gathered ++ diagnostics })

/-- All that was gathered, and the evaluator without it. -/
def drain (v : Evaluator) : List Diagnostic × Evaluator := (v.gathered, { v with gathered := [] })

end Evaluator

/-- A lexer put together from a scanner of bytes and an evaluator. -/
structure StagedLexer (σ : Type) where
  scanner : ByteScanner
  evaluator : Evaluator
  done : Bool
  sink : σ

namespace StagedLexer

variable {σ : Type} [DiagnosticSink σ]

def ofText (source : Text) (sink : σ) : StagedLexer σ :=
  ⟨⟨0, .ofText source⟩, ⟨source, []⟩, false, sink⟩

/-- The next token: the next extent is evaluated, and what was gathered on the way goes to the
sink. -/
def next (s : StagedLexer σ) : Option Token × StagedLexer σ :=
  if s.done then (none, s)
  else
    let (extent, scanner) := s.scanner.next
    if extent.tag = .endOfInput then (none, { s with scanner := scanner, done := true })
    else
      let (token, evaluator) := s.evaluator.evaluate extent s.scanner.position
      let (diagnostics, evaluator) := evaluator.drain
      (some token, ⟨scanner, evaluator, false, diagnostics.foldl DiagnosticSink.report s.sink⟩)

/-- The staged lexer after a number of calls. -/
def after (s : StagedLexer σ) : Nat → StagedLexer σ
  | 0 => s
  | k + 1 => (s.after k).next.2

/-- A staged lexer stands where a lexer stands in the source, and has nothing gathered. -/
structure Matches (source : Text) (s : StagedLexer σ) (l : Lexer σ) : Prop where
  scanner : s.scanner = ⟨0, l.scanner⟩
  evaluator : s.evaluator = ⟨source, []⟩
  done : s.done = l.done
  sink : s.sink = l.sink
  stands : ∃ front, front ++ l.scanner.rest = source ∧ l.scanner.position = front.size

/-- **A call of each gives the same token, and leaves them at the same place.** -/
theorem Matches.next {source : Text} {s : StagedLexer σ} {l : Lexer σ} (h : Matches source s l) :
    s.next.1 = l.next.1 ∧ Matches source s.next.2 l.next.2 := by
  obtain ⟨hscanner, hevaluator, hdone, hsink, front, hsource, hposition⟩ := h
  rcases s with ⟨scanner, evaluator, staged, taken⟩
  rcases l with ⟨⟨position, before, rest⟩, done, sink⟩
  dsimp only at hscanner hevaluator hdone hsink hsource hposition
  subst scanner evaluator staged taken
  cases done with
  | true => exact ⟨rfl, rfl, rfl, rfl, rfl, front, hsource, hposition⟩
  | false =>
    cases rest with
    | nil => exact ⟨rfl, rfl, rfl, rfl, rfl, front, hsource, hposition⟩
    | cons c t =>
      rcases hscan : Lexeme.scan before c t with ⟨x, r⟩
      have hnext := Scanner.next?_cons hscan position
      have hs : x.text ++ r = c :: t := (Lexeme.Splits.of_scan hscan).2
      have hfront : front ++ (x.text ++ r) = source := by rw [hs, hsource]
      have htag : ¬x.extent.tag = .endOfInput := Lexeme.tag_ne_endOfInput hscan
      have hstaged : (⟨⟨0, position, before, c :: t⟩, ⟨source, []⟩, false, sink⟩ :
          StagedLexer σ).next = (some (x.evaluate position).1,
            ⟨⟨0, position + x.text.size, x.text.getLast?, r⟩, ⟨source, []⟩, false,
              (x.evaluate position).2.foldl DiagnosticSink.report sink⟩) := by
        have he : x.extent.evaluate source position = x.evaluate position := by
          rw [hposition, Lexeme.evaluate_extent hfront]
        simp only [StagedLexer.next, ByteScanner.next_of_some hnext, if_neg htag,
          Evaluator.evaluate, Evaluator.drain, ByteScanner.position, Nat.sub_zero, he,
          List.nil_append, Bool.false_eq_true, if_false]
      rw [hstaged, Lexer.next_of_some rfl hnext]
      refine ⟨rfl, rfl, rfl, rfl, rfl, front ++ x.text, ?_, ?_⟩
      · rw [List.append_assoc, hfront]
      · rw [Text.size_append, hposition]

theorem matches_after (source : Text) (sink : σ) (k : Nat) :
    Matches source ((ofText source sink).after k) ((Lexer.ofText source sink).after k) := by
  induction k with
  | zero => exact ⟨rfl, rfl, rfl, rfl, [], rfl, rfl⟩
  | succ k ih =>
    rw [Lexer.after_succ]
    exact ih.next.2

end StagedLexer

/-! ## All calls -/

/-- **Call by call a lexer gives the evaluations of the extents of its source.** Call `k` gives the
token of extent `k`, which takes up what the extent does, and hands what is wrong with it, in order,
to the sink: to a function as spans and messages. From the end on there is no token and the sink
takes nothing. A lexer in parts gives the same and gathers nothing from one call to the next, and
the tokens of the source are those of the calls. -/
theorem Text.calls_evaluated (source : Text) :
    (∀ (k : Nat) (e : Extent), source.extents[k]? = some e →
      ∃ t ds, e.evaluate source (source.extentStart k) = (t, ds) ∧
        t.span = ⟨source.extentStart k, source.extentStart k + e.length⟩ ∧
        (∀ {σ : Type} [DiagnosticSink σ] (sink : σ),
          ((Lexer.ofText source sink).after k).next.1 = some t ∧
          ((Lexer.ofText source sink).after (k + 1)).sink =
            ds.foldl DiagnosticSink.report ((Lexer.ofText source sink).after k).sink) ∧
        (∀ kept : Array Diagnostic, ((Lexer.ofText source kept).after (k + 1)).sink =
          ((Lexer.ofText source kept).after k).sink ++ ds.toArray) ∧
        ∀ {ρ : Type} (call : ρ → Span → String → ρ) (state : ρ),
          ((Lexer.ofText source (⟨call, state⟩ : Callback ρ)).after (k + 1)).sink =
            ⟨call, (ds.map fun d => (d.span, d.message)).foldl (fun s x => call s x.1 x.2)
              ((Lexer.ofText source (⟨call, state⟩ : Callback ρ)).after k).sink.state⟩) ∧
    (∀ {σ : Type} [DiagnosticSink σ] (sink : σ) (k : Nat), source.extents.length ≤ k →
      ((Lexer.ofText source sink).after k).next.1 = none ∧
      ((Lexer.ofText source sink).after (k + 1)).sink = ((Lexer.ofText source sink).after k).sink) ∧
    (∀ {σ : Type} [DiagnosticSink σ] (sink : σ) (k : Nat),
      ((StagedLexer.ofText source sink).after k).next.1 =
        ((Lexer.ofText source sink).after k).next.1 ∧
      ((StagedLexer.ofText source sink).after k).sink = ((Lexer.ofText source sink).after k).sink ∧
      ((StagedLexer.ofText source sink).after k).evaluator.gathered = []) ∧
    source.tokenize =
      ⟨source.evaluated.map Prod.fst, source.evaluated.flatMap Prod.snd⟩ := by
  refine ⟨fun k e he => ?_, fun sink k h => ?_, fun sink k => ?_, ?_⟩
  · have hk : source.evaluated[k]? = some (e.evaluate source (source.extentStart k)) := by
      rw [evaluated_getElem?, he, Option.map_some]
    have hcalls {σ : Type} [DiagnosticSink σ] (sink : σ) := Lexer.calls_eq source sink k
    simp only [hk, Option.map_some, Option.getD_some] at hcalls
    refine ⟨(e.evaluate source (source.extentStart k)).1,
      (e.evaluate source (source.extentStart k)).2, rfl, rfl, hcalls, fun kept => ?_,
      fun call state => ?_⟩
    · rw [(hcalls kept).2, foldl_report]
    · rw [(hcalls _).2, Callback.foldl_report, Callback.call_after, List.foldl_map]
  · rw [extents, List.length_map] at h
    exact Lexer.after_of_length_le source sink h
  · have hm := StagedLexer.matches_after source sink k
    exact ⟨hm.next.1, hm.sink, by rw [hm.evaluator]⟩
  · rw [evaluated_eq, tokenize_eq]

/-- A bad escape is reported to a function with the token behind a blank, and with no other. -/
theorem Text.calls_evaluated_bad_escape :
    (extents [' ', '\x22', '\\', 'q', '\x22'])[1]? = some ⟨.string, 4⟩ ∧
      ∃ t ds, (⟨.string, 4⟩ : Extent).evaluate [' ', '\x22', '\\', 'q', '\x22'] 1 = (t, ds) ∧
        ds = [⟨⟨2, 4⟩, .unrecognizedEscape ['\\', 'q']⟩] ∧
        ((Lexer.ofText [' ', '\x22', '\\', 'q', '\x22'] (#[] : Array Diagnostic)).after 2).sink =
          ((Lexer.ofText [' ', '\x22', '\\', 'q', '\x22'] (#[] : Array Diagnostic)).after 1).sink ++
            ds.toArray ∧
        ((Lexer.ofText [' ', '\x22', '\\', 'q', '\x22'] (#[] : Array Diagnostic)).after 7).next.1 =
          none := by
  obtain ⟨hcalls, hend, -⟩ := calls_evaluated [' ', '\x22', '\\', 'q', '\x22']
  have he : (extents [' ', '\x22', '\\', 'q', '\x22'])[1]? = some ⟨.string, 4⟩ := by decide +kernel
  obtain ⟨t, ds, heval, -, -, hkept, -⟩ := hcalls 1 _ he
  have hstart : extentStart [' ', '\x22', '\\', 'q', '\x22'] 1 = 1 := by decide +kernel
  rw [hstart] at heval
  have hds : ((⟨.string, 4⟩ : Extent).evaluate [' ', '\x22', '\\', 'q', '\x22'] 1).2 =
      [⟨⟨2, 4⟩, .unrecognizedEscape ['\\', 'q']⟩] := by decide +kernel
  rw [heval] at hds
  exact ⟨he, t, ds, heval, hds, hkept #[], (hend #[] 7 (by decide +kernel)).1⟩

end LesTokens
