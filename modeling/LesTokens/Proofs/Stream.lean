/-
The stream of lexemes and of tokens. What a scanner gives does not depend on the offset it stands
at, so the lexemes of a text are a function of the text and the character before it
(`Text.lexemesAfter`), with an induction of its own (`Text.lexing_induct`): one step for each
lexeme. Tokens and diagnostics are the evaluations of the lexemes, each where it stands
(`Lexeme.evaluateAll`).

**`Text.tokenize_eq`**: the tokens of a source are those of its lexemes. **`Lexer.next_after`**: so
is each call of a lexer.
-/
import LesTokens.Proofs.Dispatch
import LesTokens.Proofs.Shift

namespace LesTokens

/-! ## Lexemes -/

namespace Scanner

theorem next?_nil (position : Nat) (before : Option Char) :
    (⟨position, before, []⟩ : Scanner).next? = none := rfl

theorem next?_cons {before : Option Char} {c : Char} {t r : Text} {l : Lexeme}
    (h : Lexeme.scan before c t = (l, r)) (position : Nat) :
    (⟨position, before, c :: t⟩ : Scanner).next? =
      some (l, ⟨position + l.text.size, l.text.getLast?, r⟩) := by
  simp only [next?, h]

theorem lexemes_of_none {s : Scanner} (h : s.next? = none) : s.lexemes = [] := by
  rw [lexemes]
  split
  · rfl
  · rename_i h'
    simp [h] at h'

theorem lexemes_of_some {s s' : Scanner} {l : Lexeme} (h : s.next? = some (l, s')) :
    s.lexemes = l :: s'.lexemes := by
  rw [lexemes]
  split
  · rename_i h'
    simp [h] at h'
  · rename_i h'
    rw [h, Option.some.injEq, Prod.mk.injEq] at h'
    obtain ⟨rfl, rfl⟩ := h'
    rfl

end Scanner

namespace Text

/-- Induction on the lexemes of a text: it is empty, or a lexeme is scanned at its front and the
rest stands behind the last character of the lexeme. -/
theorem lexing_induct {motive : Option Char → Text → Prop} (nil : ∀ before, motive before [])
    (step : ∀ before c t l r, Lexeme.scan before c t = (l, r) → motive l.text.getLast? r →
      motive before (c :: t)) (before : Option Char) (t : Text) : motive before t :=
  match t with
  | [] => nil before
  | c :: t => step before c t _ _ rfl (lexing_induct nil step _ (Lexeme.scan before c t).2)
termination_by t.length
decreasing_by exact (Lexeme.scan_splits before c t).length_lt

/-- The lexemes of a text that stands behind a character, or at the start of the source. -/
def lexemesAfter (before : Option Char) (t : Text) : List Lexeme :=
  (⟨0, before, t⟩ : Scanner).lexemes

theorem lexemesAfter_nil (before : Option Char) : lexemesAfter before [] = [] :=
  Scanner.lexemes_of_none rfl

end Text

theorem Scanner.lexemes_eq (position : Nat) (before : Option Char) (t : Text) :
    (⟨position, before, t⟩ : Scanner).lexemes = t.lexemesAfter before := by
  induction before, t using Text.lexing_induct generalizing position with
  | nil before => rw [lexemes_of_none (next?_nil ..), Text.lexemesAfter_nil]
  | step before c t l r h ih =>
    rw [Text.lexemesAfter, lexemes_of_some (next?_cons h position), lexemes_of_some (next?_cons h 0),
      ih, ih]

namespace Text

theorem lexemesAfter_cons {before : Option Char} {c : Char} {t r : Text} {l : Lexeme}
    (h : Lexeme.scan before c t = (l, r)) :
    lexemesAfter before (c :: t) = l :: lexemesAfter l.text.getLast? r := by
  rw [lexemesAfter, Scanner.lexemes_of_some (Scanner.next?_cons h 0), Scanner.lexemes_eq]

theorem lexemes_eq (t : Text) : t.lexemes = t.lexemesAfter none := rfl

theorem flatMap_text_lexemesAfter (before : Option Char) (t : Text) :
    (t.lexemesAfter before).flatMap Lexeme.text = t := by
  induction before, t using lexing_induct with
  | nil before => rw [lexemesAfter_nil]; rfl
  | step before c t l r h ih =>
    rw [lexemesAfter_cons h, List.flatMap_cons, ih]
    exact (Lexeme.Splits.of_scan h).2

theorem text_ne_nil_of_mem {before : Option Char} {t : Text} :
    ∀ l ∈ t.lexemesAfter before, l.text ≠ [] := by
  induction before, t using lexing_induct with
  | nil before => simp [lexemesAfter_nil]
  | step before c t l r h ih =>
    rw [lexemesAfter_cons h]
    intro l' hl
    rcases List.mem_cons.1 hl with rfl | hl
    · exact (Lexeme.Splits.of_scan h).1
    · exact ih l' hl

theorem length_lexemesAfter_le (before : Option Char) (t : Text) :
    (t.lexemesAfter before).length ≤ t.length := by
  induction before, t using lexing_induct with
  | nil before => simp [lexemesAfter_nil]
  | step before c t l r h ih =>
    have hlt : r.length < (c :: t).length := (Lexeme.Splits.of_scan h).length_lt
    rw [lexemesAfter_cons h, List.length_cons]
    omega

/-- The lexemes behind the first ones are those of the text behind them, which stands behind the last
character of what the first ones take. -/
theorem drop_lexemesAfter (before : Option Char) (t : Text) (k : Nat) :
    (t.lexemesAfter before).drop k =
      lexemesAfter ((((t.lexemesAfter before).take k).flatMap Lexeme.text).getLast?.or before)
        (((t.lexemesAfter before).drop k).flatMap Lexeme.text) := by
  induction before, t using lexing_induct generalizing k with
  | nil before => simp [lexemesAfter_nil]
  | step before c t l r h ih =>
    cases k with
    | zero =>
      rw [List.drop_zero, flatMap_text_lexemesAfter]
      rfl
    | succ k =>
      obtain ⟨u, hu⟩ := (Lexeme.Splits.of_scan h).exists_tail
      have hlast : l.text.getLast?.or before = l.text.getLast? := by
        simp [hu, List.getLast?_cons]
      rw [lexemesAfter_cons h, List.drop_succ_cons, List.take_succ_cons, List.flatMap_cons,
        List.getLast?_append, Option.or_assoc, hlast]
      exact ih k

theorem drop_of_append {source rest : Text} {k : Nat}
    (h : (source.lexemes.take k).flatMap Lexeme.text ++ rest = source) : source.lexemes.drop k =
      rest.lexemesAfter ((source.lexemes.take k).flatMap Lexeme.text).getLast? := by
  have hall := flatMap_text_lexemesAfter none source
  rw [← lexemes_eq, ← List.take_append_drop k source.lexemes, List.flatMap_append] at hall
  have hrest : (source.lexemes.drop k).flatMap Lexeme.text = rest :=
    List.append_cancel_left (hall.trans h.symm)
  have hdrop := drop_lexemesAfter none source k
  rwa [← lexemes_eq, hrest, Option.or_none] at hdrop

/-- Each lexeme of a text is scanned behind the last character of the lexemes before it, with the
lexemes behind it as the rest. -/
theorem scan_behind_of_getElem? {before : Option Char} {t : Text} {l : Lexeme} {k : Nat}
    (h : (t.lexemesAfter before)[k]? = some l) :
    ∃ c s, Lexeme.scan ((((t.lexemesAfter before).take k).flatMap Lexeme.text).getLast?.or before)
      c s = (l, ((t.lexemesAfter before).drop (k + 1)).flatMap Lexeme.text) := by
  have hdrop := drop_lexemesAfter before t k
  obtain ⟨hk, hl⟩ := List.getElem?_eq_some_iff.1 h
  have hcons := List.drop_eq_getElem_cons hk
  rw [hl] at hcons
  generalize (((t.lexemesAfter before).take k).flatMap Lexeme.text).getLast?.or before = before' at *
  cases htext : ((t.lexemesAfter before).drop k).flatMap Lexeme.text with
  | nil =>
    rw [htext, lexemesAfter_nil, hcons] at hdrop
    cases hdrop
  | cons c s =>
    rcases hscan : Lexeme.scan before' c s with ⟨l', r⟩
    rw [htext, lexemesAfter_cons hscan, hcons, List.cons.injEq] at hdrop
    obtain ⟨rfl, hrest⟩ := hdrop
    exact ⟨c, s, by rw [hscan, hrest, flatMap_text_lexemesAfter]⟩

theorem scan_of_getElem? {before : Option Char} {t : Text} {l : Lexeme} {k : Nat}
    (h : (t.lexemesAfter before)[k]? = some l) :
    ∃ before' c s, Lexeme.scan before' c s =
      (l, ((t.lexemesAfter before).drop (k + 1)).flatMap Lexeme.text) :=
  ⟨_, scan_behind_of_getElem? h⟩

end Text

/-! ## Evaluations -/

namespace Lexeme

/-- The tokens and diagnostics of lexemes that stand one after another from an offset on. -/
def evaluateAll (offset : Nat) : List Lexeme → List (Token × List Diagnostic)
  | [] => []
  | l :: ls => l.evaluate offset :: evaluateAll (offset + l.text.size) ls

theorem length_evaluateAll (offset : Nat) (ls : List Lexeme) :
    (evaluateAll offset ls).length = ls.length := by
  induction ls generalizing offset with
  | nil => rfl
  | cons l ls ih => rw [evaluateAll, List.length_cons, List.length_cons, ih]

theorem evaluateAll_append (offset : Nat) (ls ls' : List Lexeme) :
    evaluateAll offset (ls ++ ls') = evaluateAll offset ls ++
      evaluateAll (offset + Text.size (ls.flatMap text)) ls' := by
  induction ls generalizing offset with
  | nil => simp [evaluateAll]
  | cons l ls ih =>
    simp only [List.cons_append, evaluateAll, ih, List.flatMap_cons, Text.size_append,
      Nat.add_assoc]

theorem evaluateAll_add (offset distance : Nat) (ls : List Lexeme) :
    evaluateAll (offset + distance) ls = (evaluateAll offset ls).map fun (t, ds) =>
      (t.shift distance, ds.map (·.shift distance)) := by
  induction ls generalizing offset with
  | nil => rfl
  | cons l ls ih =>
    rw [evaluateAll, evaluateAll, List.map_cons, evaluate_add, Nat.add_right_comm, ih]

theorem evaluateAll_getElem? (offset : Nat) (ls : List Lexeme) (k : Nat) :
    (evaluateAll offset ls)[k]? =
      ls[k]?.map (·.evaluate (offset + Text.size ((ls.take k).flatMap text))) := by
  induction ls generalizing offset k with
  | nil => rfl
  | cons l ls ih =>
    cases k with
    | zero => rfl
    | succ k =>
      simp only [evaluateAll, List.getElem?_cons_succ, ih, List.take_succ_cons, List.flatMap_cons,
        Text.size_append, Nat.add_assoc]

theorem exists_of_mem_evaluateAll {offset : Nat} {ls : List Lexeme}
    {x : Token × List Diagnostic} (h : x ∈ evaluateAll offset ls) :
    ∃ l ∈ ls, ∃ offset', offset ≤ offset' ∧ l.evaluate offset' = x := by
  obtain ⟨k, hk⟩ := List.mem_iff_getElem?.1 h
  rw [evaluateAll_getElem?, Option.map_eq_some_iff] at hk
  obtain ⟨l, hl, he⟩ := hk
  exact ⟨l, List.mem_of_getElem? hl, _, Nat.le_add_right _ _, he⟩

end Lexeme

/-! ## Tokens -/

namespace Lexer

variable {σ : Type} [DiagnosticSink σ]

theorem next_of_none {l : Lexer σ} (h : l.scanner.next? = none) :
    l.next = (none, { l with done := true }) := by
  rcases l with ⟨scanner, done, sink⟩
  cases done with
  | true => rfl
  | false => simp only [next, Bool.false_eq_true, if_false, h]

theorem next_of_some {l : Lexer σ} {x : Lexeme} {scanner : Scanner} (hd : l.done = false)
    (h : l.scanner.next? = some (x, scanner)) :
    l.next = (some (x.evaluate l.scanner.position).1, ⟨scanner, false,
      (x.evaluate l.scanner.position).2.foldl DiagnosticSink.report l.sink⟩) := by
  simp only [next, hd, Bool.false_eq_true, if_false, h]

theorem collect_of_none {l l' : Lexer σ} (h : l.next = (none, l')) (tokens : Array Token) :
    l.collect tokens = (tokens, l'.sink) := by
  rw [collect]
  split
  · rename_i h'
    rw [h, Prod.mk.injEq] at h'
    rw [h'.2]
  · rename_i h'
    simp [h] at h'

theorem collect_of_some {l l' : Lexer σ} {t : Token} (h : l.next = (some t, l'))
    (tokens : Array Token) : l.collect tokens = l'.collect (tokens.push t) := by
  rw [collect]
  split
  · rename_i h'
    simp [h] at h'
  · rename_i h'
    rw [h, Prod.mk.injEq, Option.some.injEq] at h'
    obtain ⟨rfl, rfl⟩ := h'
    rfl

/-- **A run to the end gives the tokens of the lexemes ahead, and the sink takes their
diagnostics one by one.** -/
theorem collect_eq (position : Nat) (before : Option Char) (t : Text) (sink : σ)
    (tokens : Array Token) :
    (⟨⟨position, before, t⟩, false, sink⟩ : Lexer σ).collect tokens =
      (tokens ++ ((Lexeme.evaluateAll position (t.lexemesAfter before)).map Prod.fst).toArray,
        ((Lexeme.evaluateAll position (t.lexemesAfter before)).flatMap Prod.snd).foldl
          DiagnosticSink.report sink) := by
  induction before, t using Text.lexing_induct generalizing position sink tokens with
  | nil before =>
    rw [collect_of_none (next_of_none (Scanner.next?_nil position before)), Text.lexemesAfter_nil]
    simp [Lexeme.evaluateAll]
  | step before c t l r h ih =>
    rw [collect_of_some (next_of_some rfl (Scanner.next?_cons h position)), ih,
      Text.lexemesAfter_cons h]
    simp [Lexeme.evaluateAll]

/-- The lexer after a number of calls. -/
def after (l : Lexer σ) : Nat → Lexer σ
  | 0 => l
  | k + 1 => l.next.2.after k

theorem after_succ (l : Lexer σ) (k : Nat) : l.after (k + 1) = (l.after k).next.2 := by
  induction k generalizing l with
  | zero => rfl
  | succ k ih => exact ih l.next.2

theorem after_eq (position : Nat) (before : Option Char) (t : Text) (sink : σ) {k : Nat}
    (hk : k ≤ (t.lexemesAfter before).length) :
    ∃ before' t' sink', (⟨⟨position, before, t⟩, false, sink⟩ : Lexer σ).after k =
        ⟨⟨position + Text.size (((t.lexemesAfter before).take k).flatMap Lexeme.text), before', t'⟩,
          false, sink'⟩ ∧
      t'.lexemesAfter before' = (t.lexemesAfter before).drop k := by
  induction before, t using Text.lexing_induct generalizing position sink k with
  | nil before =>
    obtain rfl : k = 0 := by simpa [Text.lexemesAfter_nil] using hk
    exact ⟨before, [], sink, rfl, rfl⟩
  | step before c t l r h ih =>
    cases k with
    | zero => exact ⟨before, c :: t, sink, rfl, rfl⟩
    | succ k =>
      rw [Text.lexemesAfter_cons h, List.length_cons] at hk
      rw [after, next_of_some rfl (Scanner.next?_cons h position), Text.lexemesAfter_cons h]
      simp only [List.take_succ_cons, List.drop_succ_cons, List.flatMap_cons, Text.size_append,
        ← Nat.add_assoc]
      exact ih _ _ (by omega)

/-- **Each call gives the token of the next lexeme**, and the sink takes the diagnostics of that
lexeme. -/
theorem next_after (position : Nat) (sink : σ) {before : Option Char} {t : Text} {k : Nat}
    {x : Lexeme} (hx : (t.lexemesAfter before)[k]? = some x) :
    ((⟨⟨position, before, t⟩, false, sink⟩ : Lexer σ).after k).next.1 =
        some (x.evaluate (position +
          Text.size (((t.lexemesAfter before).take k).flatMap Lexeme.text))).1 ∧
      ((⟨⟨position, before, t⟩, false, sink⟩ : Lexer σ).after (k + 1)).sink =
        (x.evaluate (position +
          Text.size (((t.lexemesAfter before).take k).flatMap Lexeme.text))).2.foldl
            DiagnosticSink.report ((⟨⟨position, before, t⟩, false, sink⟩ : Lexer σ).after k).sink := by
  obtain ⟨hk, -⟩ := List.getElem?_eq_some_iff.1 hx
  obtain ⟨before', t', sink', ha, hl⟩ := after_eq position before t sink (Nat.le_of_lt hk)
  rw [after_succ, ha]
  have hhead : (t'.lexemesAfter before').head? = some x := by
    rw [hl, List.head?_drop, hx]
  cases t' with
  | nil => simp [Text.lexemesAfter_nil] at hhead
  | cons c s =>
    rcases h : Lexeme.scan before' c s with ⟨y, r⟩
    rw [Text.lexemesAfter_cons h, List.head?_cons, Option.some.injEq] at hhead
    subst hhead
    rw [next_of_some rfl (Scanner.next?_cons h _)]
    exact ⟨rfl, rfl⟩

end Lexer

theorem foldl_report (sink : Array Diagnostic) (ds : List Diagnostic) :
    ds.foldl DiagnosticSink.report sink = sink ++ ds.toArray := by
  induction ds generalizing sink with
  | nil => simp
  | cons d ds ih =>
    rw [List.foldl_cons, ih]
    show sink.push d ++ ds.toArray = sink ++ (d :: ds).toArray
    simp

/-- **The tokens of a source are those of its lexemes.** -/
theorem Text.tokenize_eq (source : Text) : source.tokenize =
    ⟨(Lexeme.evaluateAll 0 source.lexemes).map Prod.fst,
      (Lexeme.evaluateAll 0 source.lexemes).flatMap Prod.snd⟩ := by
  rw [tokenize, Lexer.ofText, Scanner.ofText, Lexer.collect_eq, foldl_report]
  simp [lexemes_eq]

theorem Text.tokens_getElem? (source : Text) (k : Nat) : source.tokenize.tokens[k]? =
    source.lexemes[k]?.map fun l =>
      (l.evaluate (size ((source.lexemes.take k).flatMap Lexeme.text))).1 := by
  rw [tokenize_eq, List.getElem?_map, Lexeme.evaluateAll_getElem?, Option.map_map]
  simp only [Nat.zero_add, Function.comp_def]

end LesTokens
