/-
A token on its own. What a lexeme is depends on its own text alone, once that is cut out: scanned
with nothing before and nothing behind it, it is the same lexeme (`Text.lexemes_of_mem`). So the
text of a token is a source of that one token, with the same diagnostics
(**`Text.tokenize_slice`**).
-/
import LesTokens.Proofs.Context
import LesTokens.Proofs.Stream

namespace LesTokens.Text

/-- **The text of a lexeme has that one lexeme.** -/
theorem lexemes_of_mem {before : Option Char} {t : Text} {l : Lexeme}
    (h : l ∈ t.lexemesAfter before) : l.text.lexemes = [l] := by
  induction before, t using lexing_induct with
  | nil before => simp [lexemesAfter_nil] at h
  | step before c t l' r hscan ih =>
    rw [lexemesAfter_cons hscan] at h
    rcases List.mem_cons.1 h with rfl | h
    · obtain ⟨u, hu, hcut⟩ := Lexeme.scan_replace hscan .cut
      rw [List.append_nil] at hcut
      rw [hu, lexemes_eq, lexemesAfter_cons (Lexeme.scan_alone hcut), lexemesAfter_nil]
    · exact ih h

theorem append_of_getElem? {before : Option Char} {t : Text} {l : Lexeme} {k : Nat}
    (h : (t.lexemesAfter before)[k]? = some l) :
    ((t.lexemesAfter before).take k).flatMap Lexeme.text ++
      (l.text ++ ((t.lexemesAfter before).drop (k + 1)).flatMap Lexeme.text) = t := by
  obtain ⟨hk, hl⟩ := List.getElem?_eq_some_iff.1 h
  have hs : (t.lexemesAfter before).take k ++ l :: (t.lexemesAfter before).drop (k + 1) =
      t.lexemesAfter before := by
    rw [← hl, ← List.drop_eq_getElem_cons hk, List.take_append_drop]
  have ht := congrArg (List.flatMap Lexeme.text) hs
  rwa [List.flatMap_append, List.flatMap_cons, flatMap_text_lexemesAfter] at ht

/-- **The text of a token is a source of that one token**, and what is wrong with it there is what
the lexer reports with the token, at its place in the source. -/
theorem tokenize_slice {source : Text} {k : Nat} {t : Token}
    (h : source.tokenize.tokens[k]? = some t) :
    ∃ text diagnostics, source.slice? t.span.start t.span.stop = some text ∧
      text.tokenize =
        ⟨[⟨t.kind, ⟨0, t.span.stop - t.span.start⟩, t.value⟩], diagnostics⟩ ∧
      ((Lexer.ofText source (#[] : Array Diagnostic)).after k).next.1 = some t ∧
      ((Lexer.ofText source (#[] : Array Diagnostic)).after (k + 1)).sink =
        ((Lexer.ofText source (#[] : Array Diagnostic)).after k).sink ++
          (diagnostics.map (·.shift t.span.start)).toArray := by
  rw [tokenize_eq, List.getElem?_map, Lexeme.evaluateAll_getElem?, Option.map_map,
    Option.map_eq_some_iff] at h
  obtain ⟨l, hl, ht⟩ := h
  obtain ⟨htoken, hsink⟩ := Lexer.next_after 0 (#[] : Array Diagnostic) hl
  have hsource := append_of_getElem? hl
  rw [lexemes_eq] at ht
  generalize ((source.lexemesAfter none).take k).flatMap Lexeme.text = front at *
  have heval := l.evaluate_add 0 (size front)
  rw [Function.comp_apply, heval] at ht
  subst ht
  rw [heval] at htoken hsink
  refine ⟨l.text, (l.evaluate 0).2, ?_, ?_, htoken, ?_⟩
  · show source.slice? (0 + size front) (0 + l.text.size + size front) = some l.text
    rw [← hsource, Nat.zero_add, Nat.zero_add, Nat.add_comm l.text.size,
      slice?_size_append]
  · have hone : l.text.lexemes = [l] := lexemes_of_mem (List.mem_of_getElem? hl)
    have hlen : 0 + l.text.size + size front - (0 + size front) = 0 + l.text.size := by omega
    rw [tokenize_eq, hone]
    show (⟨[(l.evaluate 0).1], (l.evaluate 0).2 ++ []⟩ : Tokenized) =
      ⟨[⟨(l.evaluate 0).1.kind, ⟨0, 0 + l.text.size + size front - (0 + size front)⟩,
        (l.evaluate 0).1.value⟩], (l.evaluate 0).2⟩
    rw [List.append_nil, hlen]
    rfl
  · rw [foldl_report] at hsink
    show _ = _ ++ ((l.evaluate 0).2.map (·.shift (0 + size front))).toArray
    rw [Nat.zero_add]
    exact hsink

/-- A string with a bad escape, behind a number. -/
theorem tokenize_slice_bad_escape :
    ∃ text diagnostics, slice? ['1', '\x22', '\\', 'q', '\x22'] 1 5 = some text ∧
      text.tokenize = ⟨[⟨.string, ⟨0, 4⟩, .string ['\\', 'q']⟩], diagnostics⟩ ∧
      ((Lexer.ofText ['1', '\x22', '\\', 'q', '\x22'] (#[] : Array Diagnostic)).after 1).next.1 =
        some ⟨.string, ⟨1, 5⟩, .string ['\\', 'q']⟩ ∧
      ((Lexer.ofText ['1', '\x22', '\\', 'q', '\x22'] (#[] : Array Diagnostic)).after 2).sink =
        ((Lexer.ofText ['1', '\x22', '\\', 'q', '\x22'] (#[] : Array Diagnostic)).after 1).sink ++
          (diagnostics.map (·.shift 1)).toArray := by
  have h : (tokenize ['1', '\x22', '\\', 'q', '\x22']).tokens[1]? =
      some ⟨.string, ⟨1, 5⟩, .string ['\\', 'q']⟩ := by decide +kernel
  exact tokenize_slice h

end LesTokens.Text
