/-
Errors stay in their line. A line feed ends whatever a line leaves open, as the end of the text
does, unless that may go on over many lines: a block comment or a string in three quotes. So a line
after a text is scanned as if it stood alone (`Text.lexemesAfter_line`), and its tokens and
diagnostics come after those of the text, further on (**`Text.tokenize_line`**).
-/
import LesTokens.Proofs.Context
import LesTokens.Proofs.Stream

namespace LesTokens

/-! ## Lexemes -/

namespace Text

/-- A text behind another one has the lexemes it has on its own, but for a `#!`, and for a `-` where
no operand may stand. -/
theorem lexemesAfter_eq_lexemes {before : Option Char} {t : Text}
    (hs : ['#', '!'] <+: t → before = none)
    (hm : t.head? = some '-' → Lexeme.isOperandPosition before = true) :
    t.lexemesAfter before = t.lexemes := by
  cases before with
  | none => rfl
  | some b =>
    cases t with
    | nil => rw [lexemes_eq, lexemesAfter_nil, lexemesAfter_nil]
    | cons c t =>
      have hshebang : c = '#' → opensWith (· = '!') t = false := by
        rintro rfl
        cases t with
        | nil => rfl
        | cons d t =>
          have hd : d ≠ '!' := by
            rintro rfl
            exact absurd (hs ⟨t, rfl⟩) (by simp)
          simpa [opensWith] using hd
      have hscan := Lexeme.scan_before hshebang fun e => hm (by rw [e]; rfl)
      rcases h : Lexeme.scan none c t with ⟨l, r⟩
      rw [h] at hscan
      rw [lexemes_eq, lexemesAfter_cons h, lexemesAfter_cons hscan]

theorem lexemesAfter_lf {b : Text} (hs : ¬['#', '!'] <+: b) :
    b.lexemesAfter (some '\n') = b.lexemes :=
  lexemesAfter_eq_lexemes (fun h => absurd h hs) fun _ => by decide

theorem scan_lf (before : Option Char) {b : Text} (hb : b.head? ≠ some '\n') :
    Lexeme.scan before '\n' b = (⟨.newline, ['\n']⟩, b) := by
  have hrun : LineEnding.run .lf b = ([], b) := by
    refine LineEnding.run_of_ne fun h => ?_
    obtain ⟨s, rfl⟩ := LineEnding.opening?_eq_lf_iff.1 h
    exact hb rfl
  refine Lexeme.scan_eq_iff.2 (.newline rfl ?_)
  simp [Lexeme.newline, LineEnding.run, hrun]

/-- **A line feed and what follows it leave the lexemes of a text as they are**, and what follows
is scanned as if it stood alone. -/
theorem lexemesAfter_line {before : Option Char} {a b : Text}
    (hlast : ∀ c ∈ a.getLast?, isLineEnd c = false)
    (hopen : ∀ l ∈ a.lexemesAfter before,
      l.tag ≠ .unterminatedBlockComment ∧ l.tag ≠ .unterminatedTripleQuote)
    (hb : b.head? ≠ some '\n') (hs : ¬['#', '!'] <+: b) :
    (a ++ '\n' :: b).lexemesAfter before =
      a.lexemesAfter before ++ ⟨.newline, ['\n']⟩ :: b.lexemes := by
  induction before, a using lexing_induct with
  | nil before =>
    rw [List.nil_append, lexemesAfter_cons (scan_lf before hb), lexemesAfter_nil]
    exact congrArg _ (lexemesAfter_lf hs)
  | step before c t l r h ih =>
    rw [lexemesAfter_cons h] at hopen ⊢
    have hat : l.text ++ r = c :: t := (Lexeme.Splits.of_scan h).2
    rw [← hat] at hlast
    have hscan := Lexeme.scan_append h (.line hlast (hopen l List.mem_cons_self) b)
    have hlast' : ∀ c ∈ r.getLast?, isLineEnd c = false := by
      intro c hc
      refine hlast c ?_
      rw [List.getLast?_append, hc]
      rfl
    rw [List.cons_append, lexemesAfter_cons hscan,
      ih hlast' fun l hl => hopen l (List.mem_cons_of_mem _ hl), List.cons_append]

end Text

/-! ## Tokens -/

namespace Lexeme

theorem exists_of_unterminated {l : Lexeme}
    (h : l.tag = .unterminatedBlockComment ∨ l.tag = .unterminatedTripleQuote) (offset : Nat) :
    ∃ d ∈ (l.evaluate offset).2,
      d.defect = .unterminatedComment ∨ ∃ q, d.defect = .unterminatedString (List.replicate 3 q) := by
  rcases l with ⟨tag, t⟩
  rcases h with rfl | rfl
  · exact ⟨_, List.mem_cons_self, .inl rfl⟩
  · exact ⟨_, List.mem_cons_self, .inr ⟨_, rfl⟩⟩

theorem exists_mem_evaluateAll {ls : List Lexeme} {l : Lexeme} (h : l ∈ ls) (offset : Nat) :
    ∃ offset', l.evaluate offset' ∈ evaluateAll offset ls := by
  induction ls generalizing offset with
  | nil => simp at h
  | cons l' ls ih =>
    rcases List.mem_cons.1 h with rfl | h
    · exact ⟨offset, List.mem_cons_self⟩
    · obtain ⟨offset', hm⟩ := ih h (offset + l'.text.size)
      exact ⟨offset', List.mem_cons_of_mem _ hm⟩

end Lexeme

/-- **Errors stay in their line.** A text that does not end with a line ending, and leaves no
comment and no string in three quotes open, has the same tokens and diagnostics before a line feed;
what follows that has its own, further on. -/
theorem Text.tokenize_line {a b : Text} (hlf : a.getLast? ≠ some '\n')
    (hcr : a.getLast? ≠ some '\r') (hb : b.head? ≠ some '\n') (hs : ¬['#', '!'] <+: b)
    (hopen : ∀ d ∈ a.tokenize.diagnostics, d.defect ≠ .unterminatedComment ∧
      ∀ q, d.defect ≠ .unterminatedString (List.replicate 3 q)) :
    (a ++ '\n' :: b).tokenize =
      ⟨a.tokenize.tokens ++ ⟨.newline, ⟨a.size, a.size + 1⟩, .absent⟩ ::
          b.tokenize.tokens.map (·.shift (a.size + 1)),
        a.tokenize.diagnostics ++ b.tokenize.diagnostics.map (·.shift (a.size + 1))⟩ := by
  have hlast : ∀ c ∈ a.getLast?, isLineEnd c = false := by
    intro c hc
    rw [Bool.eq_false_iff]
    intro he
    rcases isLineEnd_iff.1 he with rfl | rfl
    · exact hlf hc
    · exact hcr hc
  rw [tokenize_eq a] at hopen
  have hclosed : ∀ l ∈ a.lexemes,
      l.tag ≠ .unterminatedBlockComment ∧ l.tag ≠ .unterminatedTripleQuote := by
    intro l hl
    rw [← not_or]
    intro htag
    obtain ⟨offset, hmem⟩ := Lexeme.exists_mem_evaluateAll hl 0
    obtain ⟨d, hd, hdefect⟩ := Lexeme.exists_of_unterminated htag offset
    obtain ⟨hcomment, hstring⟩ := hopen d (List.mem_flatMap.2 ⟨_, hmem, hd⟩)
    rcases hdefect with he | ⟨q, he⟩
    · exact hcomment he
    · exact hstring q he
  have hlexemes : (a ++ '\n' :: b).lexemes = a.lexemes ++ ⟨.newline, ['\n']⟩ :: b.lexemes :=
    lexemesAfter_line hlast hclosed hb hs
  have hsize : Text.size (a.lexemes.flatMap Lexeme.text) = a.size := by
    rw [lexemes_eq, flatMap_text_lexemesAfter]
  have hfeed : (⟨.newline, ['\n']⟩ : Lexeme).evaluate a.size =
      (⟨.newline, ⟨a.size, a.size + 1⟩, .absent⟩, []) := rfl
  have hshift := Lexeme.evaluateAll_add 0 (a.size + 1) b.lexemes
  have heval : Lexeme.evaluateAll 0 (a ++ '\n' :: b).lexemes =
      Lexeme.evaluateAll 0 a.lexemes ++ (⟨.newline, ⟨a.size, a.size + 1⟩, .absent⟩, []) ::
        Lexeme.evaluateAll (0 + (a.size + 1)) b.lexemes := by
    rw [hlexemes, Lexeme.evaluateAll_append, hsize, Nat.zero_add, Lexeme.evaluateAll, hfeed,
      Nat.zero_add]
    rfl
  rw [hshift] at heval
  rw [tokenize_eq, tokenize_eq, tokenize_eq, heval]
  simp [List.map_flatMap, List.flatMap_map, Function.comp_def]

/-- A string left open before a line with a negative number. -/
theorem Text.tokenize_line_open_string :
    tokenize (['\x22', 'x'] ++ '\n' :: ['-', '1']) =
      ⟨[⟨.string, ⟨0, 2⟩, .string ['x']⟩, ⟨.newline, ⟨2, 3⟩, .absent⟩,
          ⟨.number, ⟨3, 5⟩, .integer .int32 (-1)⟩],
        [⟨⟨0, 2⟩, .unterminatedString ['\x22']⟩]⟩ := by
  have ha : tokenize ['\x22', 'x'] =
      ⟨[⟨.string, ⟨0, 2⟩, .string ['x']⟩], [⟨⟨0, 2⟩, .unterminatedString ['\x22']⟩]⟩ := by
    decide +kernel
  have hb : tokenize ['-', '1'] = ⟨[⟨.number, ⟨0, 2⟩, .integer .int32 (-1)⟩], []⟩ := by
    decide +kernel
  rw [tokenize_line (by decide) (by decide) (by decide) (by decide) (by simp [ha]), ha, hb]
  rfl

end LesTokens
