/-
Line endings are grouped. A newline lexeme is one ending repeated (`LineEnding.exists_repeated`) and
goes on as long as the text opens with that ending, so the next newline has another one. Any other
lexeme stays in its line (`Text.InLine`) or is a block comment or a string in three quotes, which
ends with its closer or with the text. So no lexeme ends between a `\r` and a `\n`
(`Lexeme.scan_grouped`).

**`Text.newlines_grouped`**: so it is with the tokens of a source.
-/
import LesTokens.Proofs.Calls
import LesTokens.Proofs.NegativeNumbers
import LesTokens.Proofs.TokenKinds

namespace LesTokens

/-! ## Repeated endings -/

/-- Whether a cut between two texts parts a `\r` from the `\n` behind it. -/
structure Text.PartsPair (front behind : Text) : Prop where
  cr : front.getLast? = some '\r'
  lf : behind.head? = some '\n'

theorem Text.PartsPair.of_append {u front behind : Text} (hne : front ≠ [])
    (h : PartsPair (u ++ front) behind) : PartsPair front behind := by
  have hcr := h.cr
  rw [List.getLast?_append_of_ne_nil u hne] at hcr
  exact ⟨hcr, h.lf⟩

namespace LineEnding

/-- One ending, a number of times. -/
def repeated (ending : LineEnding) (n : Nat) : Text := (List.replicate n ending.text).flatten

theorem repeated_succ (ending : LineEnding) (n : Nat) :
    ending.repeated (n + 1) = ending.text ++ ending.repeated n := by
  rw [repeated, List.replicate_succ, List.flatten_cons, repeated]

/-- **A run is its ending repeated**, and ends where the text no longer opens with it. -/
theorem exists_repeated (ending : LineEnding) (t : Text) :
    (∃ n, (run ending t).1 = ending.repeated n) ∧ opening? (run ending t).2 ≠ some ending := by
  fun_induction run ending t with
  | case1 t he taken rest hrun ih | case3 t ht he taken rest hrun ih
  | case5 t he taken rest hrun ih =>
    obtain ⟨⟨n, hn⟩, hstops⟩ := ih
    rw [hrun] at hn hstops
    subst he
    refine ⟨⟨n + 1, ?_⟩, hstops⟩
    rw [repeated_succ, ← hn]
    rfl
  | case2 | case4 | case6 | case7 =>
    exact ⟨⟨0, rfl⟩, by simp_all [opening?, eq_comm]⟩

/-- **A repeated ending opens with that ending** and no other. -/
theorem opening?_repeated (ending : LineEnding) (n : Nat) :
    opening? (ending.repeated (n + 1)) = some ending := by
  rw [repeated_succ]
  cases ending with
  | lf | crlf => rfl
  | cr =>
    cases n with
    | zero => rfl
    | succ n => rfl

theorem eq_of_repeated {ending other : LineEnding} {n m : Nat}
    (h : ending.repeated (n + 1) = other.repeated (m + 1)) : ending = other := by
  have hopening := congrArg opening? h
  rw [opening?_repeated, opening?_repeated] at hopening
  exact Option.some.inj hopening

/-- **A run does not end between a `\r` and a `\n`.** -/
theorem run_keeps_pair (ending : LineEnding) (t : Text) :
    ¬Text.PartsPair (run ending t).1 (run ending t).2 := by
  fun_induction run ending t with
  | case1 t he taken rest hrun ih =>
    rw [hrun] at ih
    by_cases hne : taken = []
    · subst hne
      rintro ⟨hcr, -⟩
      cases hcr
    · exact fun h => ih (.of_append (u := ['\r', '\n']) hne h)
  | case3 t ht he taken rest hrun ih =>
    rw [hrun] at ih
    by_cases hne : taken = []
    · -- The rest of a lone `\r` is what made it one.
      subst hne
      rintro ⟨-, hlf⟩
      have happend := run_append ending t
      rw [hrun] at happend
      obtain rfl : rest = t := happend
      obtain ⟨s, rfl⟩ := List.head?_eq_some_iff.1 hlf
      exact ht s rfl
    · exact fun h => ih (.of_append (u := ['\r']) hne h)
  | case5 t he taken rest hrun ih =>
    rw [hrun] at ih
    by_cases hne : taken = []
    · subst hne
      rintro ⟨hcr, -⟩
      cases hcr
    · exact fun h => ih (.of_append (u := ['\n']) hne h)
  | case2 | case4 | case6 | case7 =>
    rintro ⟨hcr, -⟩
    cases hcr

end LineEnding

/-! ## Lexemes that stay in their line -/

/-- Whether a text has no line end in it. -/
def Text.InLine (t : Text) : Prop := ∀ c ∈ t, isLineEnd c = false

namespace Text

theorem InLine.nil : InLine [] := List.forall_mem_nil _

theorem InLine.cons {c : Char} {t : Text} (hc : isLineEnd c = false) (h : t.InLine) :
    InLine (c :: t) :=
  List.forall_mem_cons.2 ⟨hc, h⟩

theorem InLine.append {t u : Text} (ht : t.InLine) (hu : u.InLine) : InLine (t ++ u) :=
  List.forall_mem_append.2 ⟨ht, hu⟩

theorem inLine_of_class {p : Char → Bool} {t : Text} (h : ∀ c ∈ t, p c = true)
    (hp : p '\n' = false ∧ p '\r' = false) : t.InLine := by
  intro c hc
  rw [Bool.eq_false_iff]
  intro hl
  rcases isLineEnd_iff.1 hl with e | e
  · exact ne_of_class (h c hc) hp.1 e
  · exact ne_of_class (h c hc) hp.2 e

theorem inLine_restOfLine (t : Text) : (restOfLine t).InLine := by
  intro c hc
  simpa using List.all_eq_true.1 List.all_takeWhile c hc

theorem InLine.getLast?_ne {t : Text} (h : t.InLine) : t.getLast? ≠ some '\r' := by
  intro hlast
  exact absurd (h _ (List.mem_of_getLast? hlast)) (by decide)

end Text

theorem QuotedBody.Content.inLine {quote : Char} {closed : Bool} {t : Text}
    (h : Content quote closed t) : t.InLine := by
  induction h with
  | nil => exact .nil
  | @plain c t hc ht ih =>
    have hline : isLineEnd c = false := by
      simp only [isPlain, Bool.not_eq_true', Bool.or_eq_false_iff] at hc
      exact hc.2
    exact .cons hline ih
  | pair hc ht ih => exact .cons (by decide) (.cons hc ih)
  | lone h => exact .cons (by decide) .nil

namespace Segments

variable {n : Segments}

theorem WellFormed.inLine (h : n.WellFormed) : n.text.InLine := by
  have hrun (base : Base) :
      Literal.isRunChar base '\n' = false ∧ Literal.isRunChar base '\r' = false := by
    cases base <;> decide
  refine .append (.append (.append (.append ?basePrefix ?integer) ?fraction) ?exponent) ?suffix
  case basePrefix =>
    have hcases := scanBase_prefix n.text
    rw [h.base] at hcases
    rcases hcases with ⟨hnil, -⟩ | ⟨d, hd, hletters⟩
    · rw [show n.basePrefix = [] from hnil]
      exact .nil
    · rw [show n.basePrefix = ['0', d] from hletters]
      have hletter : isLineEnd d = false :=
        (excludes_of_class hd (by decide)).1
      exact .cons (by decide) (.cons hletter .nil)
  case integer => exact Text.inLine_of_class h.integer (hrun _)
  case fraction =>
    have hdigits := h.fraction
    cases hf : n.fraction with
    | none => exact .nil
    | some ds =>
      rw [hf] at hdigits
      exact .cons (by decide) (Text.inLine_of_class hdigits (hrun _))
  case exponent =>
    cases he : n.exponent with
    | none => exact .nil
    | some e =>
      obtain ⟨hmarker, hsign, hdigits, -⟩ := h.exponent e he
      have hletter : isLineEnd e.marker = false := by
        rcases eq_of_isExponentMarker hmarker with hm | hm | hm | hm <;> rw [hm] <;> decide
      have hsigns : Text.InLine e.sign.toList :=
        Text.inLine_of_class (fun c hc => hsign c (Option.mem_toList.1 hc)) (by decide)
      exact .cons hletter (.append hsigns (Text.inLine_of_class hdigits (hrun _)))
  case suffix =>
    have hall : suffixes.all fun s => s.all (!isLineEnd ·) := by decide
    have hsuffix := List.all_eq_true.1 (List.all_eq_true.1 hall n.suffix h.suffix)
    simpa [Text.InLine] using hsuffix

theorem inLine_scan {t : Text} (h : opensNumber t = true) : (scan t).1.text.InLine :=
  (wellFormed_of_scan (Lexeme.number_describes h false).proper.2).inLine

end Segments

namespace Lexeme

/-! ## Where lexemes end -/

/-- How a scanned lexeme ends. A newline is one ending repeated, which the rest does not go on with;
and no other lexeme ends with a `\r`, unless it is the last. -/
inductive Grouped (x : Lexeme × Text) : Prop
  | newline {ending : LineEnding} {n : Nat} (htag : x.1.tag = .newline)
      (htext : x.1.text = ending.repeated (n + 1))
      (hopens : LineEnding.opening? (x.1.text ++ x.2) = some ending)
      (hstops : LineEnding.opening? x.2 ≠ some ending) (hpair : ¬Text.PartsPair x.1.text x.2)
  | other (htag : x.1.tag ≠ .newline) (hends : x.2 = [] ∨ x.1.text.getLast? ≠ some '\r')

theorem Grouped.inLine {tag : Tag} {t r : Text} (htag : tag ≠ .newline) (h : t.InLine) :
    Grouped (⟨tag, t⟩, r) :=
  .other htag (.inr h.getLast?_ne)

theorem newline_grouped {ending : LineEnding} {t : Text} (h : LineEnding.opening? t = some ending) :
    Grouped (newline ending t) := by
  obtain ⟨⟨n, hn⟩, hstops⟩ := LineEnding.exists_repeated ending t
  have hopens : LineEnding.opening? ((ending.run t).1 ++ (ending.run t).2) = some ending := by
    rw [LineEnding.run_append, h]
  cases n with
  | zero => exact absurd hn (LineEnding.run_ne_nil h)
  | succ n => exact .newline rfl hn hopens hstops (LineEnding.run_keeps_pair ending t)

theorem run_grouped {tag : Tag} {p : Char → Bool} {c : Char} (htag : tag ≠ .newline)
    (hp : p '\n' = false ∧ p '\r' = false) (hc : isLineEnd c = false) (t : Text) :
    Grouped (run tag p c t) :=
  .inLine htag (.cons hc (Text.inLine_of_class (List.all_eq_true.1 List.all_takeWhile) hp))

theorem single_grouped {tag : Tag} {c : Char} (htag : tag ≠ .newline) (hc : isLineEnd c = false)
    (t : Text) : Grouped (single tag c t) :=
  .inLine htag (.cons hc .nil)

theorem enclosed_grouped {closed unclosed : Tag} {closer : Text} (hne : closer ≠ [])
    (hclosed : closed ≠ .newline) (hunclosed : unclosed ≠ .newline)
    (hcloser : closer.getLast? ≠ some '\r') (opener t : Text) :
    Grouped (enclosed closed unclosed opener closer t) := by
  obtain ⟨body, isClosed, hbody, hl, hr⟩ := enclosed_spec closer hne closed unclosed opener t
  cases isClosed with
  | false => exact .other (by rw [hl]; exact hunclosed) (.inl (hr rfl))
  | true =>
    refine .other (by rw [hl]; exact hclosed) (.inr ?_)
    obtain ⟨content, rfl⟩ := hbody.closes rfl
    rw [hl, ← List.append_assoc, List.getLast?_append_of_ne_nil _ hne]
    exact hcloser

theorem quotedForm_grouped {closed unclosed : Tag} {opener : Text} {quote : Char}
    (hclosed : closed ≠ .newline) (hunclosed : unclosed ≠ .newline) (hopener : opener.InLine)
    (hquote : isLineEnd quote = false) (t : Text) :
    Grouped (quotedForm closed unclosed opener quote t) := by
  obtain ⟨content, h, he⟩ := QuotedBody.exists_content quote t
  rw [quotedForm, QuotedBody.scan_eq_read]
  rw [he]
  refine .inLine (by split <;> assumption) (.append hopener (.append h.inLine ?_))
  unfold QuotedBody.closing
  split
  · exact .cons hquote .nil
  · exact .nil

theorem operator_grouped {c : Char} (hc : isOperatorChar c = true) (t : Text) :
    Grouped (operator c t) := by
  have hline := (excludes_of_isOperatorChar hc).1
  rw [operator_eq]
  split
  · exact run_grouped (by decide) (by decide) hline t
  · refine .inLine (by decide) (.cons hline ?_)
    rw [operatorTail_eq_spanBy]
    refine Text.inLine_of_class (p := isOperatorChar) (Text.forall_mem_spanBy (fun d u h => ?_) t)
      (by decide)
    simp only [opensOperatorTail, Bool.and_eq_true] at h
    exact h.1.1

theorem minus_grouped (before : Option Char) (t : Text) : Grouped (minus before t) := by
  cases htried : opensNumber t && isOperandPosition before with
  | false =>
    rw [minus_of_not htried]
    exact operator_grouped (by decide) t
  | true =>
    obtain ⟨hopens, hbefore⟩ := Bool.and_eq_true_iff.1 htried
    rw [minus_of_opensNumber hopens hbefore]
    split
    · exact single_grouped (by decide) (by decide) t
    · exact .inLine (by decide) (.cons (by decide) (Segments.inLine_scan hopens))

theorem slash_grouped (t : Text) : Grouped (slash t) := by
  unfold slash
  split
  · exact .inLine (by decide) (.cons (by decide) (.cons (by decide) (Text.inLine_restOfLine _)))
  · exact enclosed_grouped (by decide) (by decide) (by decide) (by decide) _ _
  · exact operator_grouped (by decide) _

theorem tripleQuoted_grouped {quote : Char} (hquote : quote ≠ '\r') (opener t : Text) :
    Grouped (enclosed .tripleQuote .unterminatedTripleQuote opener [quote, quote, quote] t) :=
  enclosed_grouped (by simp) (by decide) (by decide) (by simpa using hquote) _ _

theorem doubleQuote_grouped (t : Text) : Grouped (doubleQuote t) := by
  unfold doubleQuote
  split
  · exact tripleQuoted_grouped (by decide) _ _
  · exact quotedForm_grouped (by decide) (by decide) (.cons (by decide) .nil) (by decide) _

theorem singleQuote_grouped (t : Text) : Grouped (singleQuote t) := by
  unfold singleQuote
  split
  · exact tripleQuoted_grouped (by decide) _ _
  · exact .inLine (by decide) (.cons (by decide) (.cons (by decide) (Text.inLine_restOfLine _)))
  · exact quotedForm_grouped (by decide) (by decide) (.cons (by decide) .nil) (by decide) _

theorem inLine_escapeRun (t : Text) : Text.InLine (escapeRun t).1 :=
  Text.inLine_of_class (isEscapeRunChar_of_mem t) (by decide)

theorem doubleAt_grouped (t : Text) : Grouped (doubleAt t) := by
  unfold doubleAt
  split
  · rename_i c t
    split
    · rename_i hc
      have hline : isLineEnd c = false := by
        simp only [Bool.or_eq_true, decide_eq_true_eq] at hc
        rcases hc with rfl | rfl <;> decide
      exact quotedForm_grouped (by decide) (by decide)
        (.cons (by decide) (.cons (by decide) (.cons hline .nil))) hline _
    · dsimp only
      split
      · exact single_grouped (by decide) (by decide) _
      · exact .inLine (by decide) (.cons (by decide) (.cons (by decide) (inLine_escapeRun _)))
  · exact single_grouped (by decide) (by decide) _

theorem atSign_grouped (t : Text) : Grouped (atSign t) := by
  unfold atSign
  split
  · exact doubleAt_grouped _
  · exact quotedForm_grouped (by decide) (by decide) (.cons (by decide) (.cons (by decide) .nil))
      (by decide) _
  · dsimp only
    split
    · exact single_grouped (by decide) (by decide) _
    · exact .inLine (by decide) (.cons (by decide) (inLine_escapeRun _))

/-- **Whatever is scanned leaves line endings whole.** -/
theorem scan_grouped (before : Option Char) (c : Char) (t : Text) : Grouped (scan before c t) := by
  cases scanned before c t with
  | newline h hx =>
    rw [← hx]
    exact newline_grouped h
  | spaces h hx =>
    rw [← hx]
    have hline : isLineEnd c = false := by
      rcases isBlank_iff.1 h with rfl | rfl <;> decide
    exact run_grouped (by decide) (by decide) hline t
  | shebang hc hb ht hx =>
    rw [← hx]
    subst hc
    exact .inLine (by decide) (.cons (by decide) (Text.inLine_restOfLine t))
  | ident h hs hx =>
    rw [← hx]
    exact run_grouped (by decide) (by decide) (excludes_of_class h (by decide)).1 t
  | number h hx =>
    rw [← hx]
    exact .inLine (by decide) (Segments.inLine_scan h)
  | minus hc hx =>
    rw [← hx]
    exact minus_grouped _ _
  | slash hc hx =>
    rw [← hx]
    exact slash_grouped _
  | doubleQuote hc hx =>
    rw [← hx]
    exact doubleQuote_grouped _
  | singleQuote hc hx =>
    rw [← hx]
    exact singleQuote_grouped _
  | backQuote hc hx =>
    rw [← hx]
    exact quotedForm_grouped (by decide) (by decide) (.cons (by decide) .nil) (by decide) _
  | atSign hc hx =>
    rw [← hx]
    exact atSign_grouped _
  | punctuation h hx =>
    rw [← hx]
    revert h
    fun_cases punctuation? c <;> intro h <;> cases h <;>
      exact single_grouped (by decide) (by decide) t
  | operator h hm hs hf hx =>
    rw [← hx]
    exact operator_grouped h t
  | unknown h hx =>
    rw [← hx]
    refine single_grouped (by decide) ?_ t
    simp only [startsLexeme, Bool.or_eq_false_iff] at h
    obtain ⟨⟨⟨⟨⟨⟨hline, -⟩, -⟩, -⟩, -⟩, -⟩, -⟩ := h
    exact hline

theorem Grouped.not_partsPair {x : Lexeme × Text} (h : Grouped x) :
    ¬Text.PartsPair x.1.text x.2 := by
  rintro ⟨hcr, hlf⟩
  cases h with
  | newline _ _ _ _ hpair => exact hpair ⟨hcr, hlf⟩
  | other _ hends =>
    rcases hends with hnil | hlast
    · rw [hnil] at hlf
      cases hlf
    · exact hlast hcr

theorem Grouped.newline_spec {x : Lexeme × Text} (h : Grouped x) (htag : x.1.tag = .newline) :
    ∃ ending n, x.1.text = ending.repeated (n + 1) ∧
      LineEnding.opening? (x.1.text ++ x.2) = some ending ∧
      LineEnding.opening? x.2 ≠ some ending := by
  cases h with
  | newline _ htext hopens hstops _ => exact ⟨_, _, htext, hopens, hstops⟩
  | other hne _ => exact absurd htag hne

end Lexeme

/-! ## Sources -/

theorem Evaluation.tag_of_kind_newline {tag : Tag} {t : Text} {span : Span}
    (h : (ofLexeme tag t span).kind = .newline) : tag = .newline := by
  have hkind := kind?_of_kind h rfl
  cases tag with
  | newline => rfl
  | _ => cases hkind

/-- Whether a token takes up a line ending, one or more times, and nothing else. -/
def Token.Repeats (source : Text) (t : Token) (ending : LineEnding) : Prop :=
  ∃ n, source.slice? t.span.start t.span.stop = some (ending.repeated (n + 1))

namespace Text

theorem grouped_of_getElem? {source : Text} {k : Nat} {l : Lexeme}
    (h : source.lexemes[k]? = some l) :
    Lexeme.Grouped (l, (source.lexemes.drop (k + 1)).flatMap Lexeme.text) := by
  obtain ⟨before, c, t, hscan⟩ := scan_of_getElem? h
  have hgrouped := Lexeme.scan_grouped before c t
  rwa [hscan] at hgrouped

theorem flatMap_drop_of_getElem? {ls : List Lexeme} {k : Nat} {l : Lexeme} (h : ls[k]? = some l) :
    (ls.drop k).flatMap Lexeme.text = l.text ++ (ls.drop (k + 1)).flatMap Lexeme.text := by
  obtain ⟨hk, rfl⟩ := List.getElem?_eq_some_iff.1 h
  rw [List.drop_eq_getElem_cons hk, List.flatMap_cons]

/-- No lexeme of a source starts between a `\r` and a `\n`, since none ends there. -/
theorem not_partsPair_start (source : Text) (k : Nat) :
    ¬PartsPair ((source.lexemes.take k).flatMap Lexeme.text)
      ((source.lexemes.drop k).flatMap Lexeme.text) := by
  cases k with
  | zero =>
    rintro ⟨hcr, -⟩
    cases hcr
  | succ k =>
    cases hl : source.lexemes[k]? with
    | none =>
      rintro ⟨-, hlf⟩
      have hlength := List.getElem?_eq_none_iff.1 hl
      rw [List.drop_eq_nil_of_le (by omega)] at hlf
      cases hlf
    | some l =>
      rintro ⟨hcr, hlf⟩
      have hgrouped := grouped_of_getElem? hl
      obtain ⟨before, c, t, hscan⟩ := scan_of_getElem? hl
      have hne : l.text ≠ [] := (Lexeme.Splits.of_scan hscan).1
      rw [List.take_add_one, hl, Option.toList_some, List.flatMap_append,
        List.flatMap_singleton] at hcr
      exact hgrouped.not_partsPair (.of_append hne ⟨hcr, hlf⟩)

theorem exists_lexeme_of_token {source : Text} {k : Nat} {t : Token}
    (h : source.tokenize.tokens[k]? = some t) : ∃ l, source.lexemes[k]? = some l ∧
      t.span = Span.ofLength (size ((source.lexemes.take k).flatMap Lexeme.text)) l.text.size ∧
      source.slice? t.span.start t.span.stop = some l.text ∧
      (t.kind = .newline → l.tag = .newline) := by
  obtain ⟨ds, hyields⟩ := exists_yields h
  obtain ⟨l, hl, he, hslice⟩ := hyields.exists_lexeme
  obtain rfl := congrArg Prod.fst he
  exact ⟨l, hl, rfl, hslice, Evaluation.tag_of_kind_newline⟩

/-- **Line endings are grouped.** A newline token takes up one ending, one or more times, and a
newline behind it takes up another one. No token starts or ends between a `\r` and a `\n`. -/
theorem newlines_grouped {source : Text} {k : Nat} {t : Token}
    (h : source.tokenize.tokens[k]? = some t) :
    (t.kind = .newline → ∃! ending, t.Repeats source ending) ∧
    (∀ t' ending, source.tokenize.tokens[k + 1]? = some t' → t.kind = .newline →
      t'.kind = .newline → t.Repeats source ending → ¬t'.Repeats source ending) ∧
    ∃ front text behind, front ++ (text ++ behind) = source ∧ front.size = t.span.start ∧
      front.size + text.size = t.span.stop ∧ ¬PartsPair front (text ++ behind) ∧
      ¬PartsPair (front ++ text) behind := by
  obtain ⟨l, hl, hspan, hslice, htag⟩ := exists_lexeme_of_token h
  have hgrouped := grouped_of_getElem? hl
  -- What a token repeats is the ending that its lexeme repeats.
  have repeats {u : Token} {x : Text} (hx : source.slice? u.span.start u.span.stop = some x)
      {ending other : LineEnding} {n : Nat} (hr : u.Repeats source ending)
      (htext : x = other.repeated (n + 1)) : ending = other := by
    obtain ⟨m, hm⟩ := hr
    rw [hx, htext] at hm
    exact (LineEnding.eq_of_repeated (Option.some.inj hm)).symm
  refine ⟨fun hkind => ?_, fun t' ending h' hkind hkind' hr hr' => ?_, ?_⟩
  · obtain ⟨ending, n, htext, -, -⟩ := hgrouped.newline_spec (htag hkind)
    refine ⟨ending, ⟨n, by rw [hslice, htext]⟩, fun other hr => ?_⟩
    exact repeats hslice hr htext
  · obtain ⟨l', hl', -, hslice', htag'⟩ := exists_lexeme_of_token h'
    obtain ⟨one, n, htext, -, hstops⟩ := hgrouped.newline_spec (htag hkind)
    obtain ⟨two, n', htext', hopens, -⟩ :=
      (grouped_of_getElem? hl').newline_spec (htag' hkind')
    obtain rfl : ending = one := repeats hslice hr htext
    obtain rfl : ending = two := repeats hslice' hr' htext'
    rw [← flatMap_drop_of_getElem? hl'] at hopens
    exact hstops hopens
  · have hsource := append_of_getElem? hl
    have hstart := not_partsPair_start source k
    rw [flatMap_drop_of_getElem? hl] at hstart
    have hstop := not_partsPair_start source (k + 1)
    rw [List.take_add_one, hl, Option.toList_some, List.flatMap_append,
      List.flatMap_singleton] at hstop
    rw [hspan]
    exact ⟨_, _, _, hsource, rfl, rfl, hstart, hstop⟩

/-- Behind an empty character literal stand two `\r`, then two pairs, then a `\n`. -/
theorem newlines_grouped_mixed :
    (tokenize "''a\r\r\r\n\r\n\n".toList).tokens =
        [⟨.char, ⟨0, 3⟩, .char '\x00'⟩, ⟨.newline, ⟨3, 5⟩, .absent⟩,
          ⟨.newline, ⟨5, 9⟩, .absent⟩, ⟨.newline, ⟨9, 10⟩, .absent⟩] ∧
      (∃! ending, Token.Repeats "''a\r\r\r\n\r\n\n".toList ⟨.newline, ⟨3, 5⟩, .absent⟩ ending) ∧
      Token.Repeats "''a\r\r\r\n\r\n\n".toList ⟨.newline, ⟨3, 5⟩, .absent⟩ .cr ∧
      ¬Token.Repeats "''a\r\r\r\n\r\n\n".toList ⟨.newline, ⟨5, 9⟩, .absent⟩ .cr := by
  have htokens : (tokenize "''a\r\r\r\n\r\n\n".toList).tokens =
      [⟨.char, ⟨0, 3⟩, .char '\x00'⟩, ⟨.newline, ⟨3, 5⟩, .absent⟩,
        ⟨.newline, ⟨5, 9⟩, .absent⟩, ⟨.newline, ⟨9, 10⟩, .absent⟩] := by decide +kernel
  have hone : (tokenize "''a\r\r\r\n\r\n\n".toList).tokens[1]? =
      some ⟨.newline, ⟨3, 5⟩, .absent⟩ := by rw [htokens]; rfl
  have htwo : (tokenize "''a\r\r\r\n\r\n\n".toList).tokens[1 + 1]? =
      some ⟨.newline, ⟨5, 9⟩, .absent⟩ := by rw [htokens]; rfl
  have hcr : Token.Repeats "''a\r\r\r\n\r\n\n".toList ⟨.newline, ⟨3, 5⟩, .absent⟩ .cr :=
    ⟨1, by decide +kernel⟩
  obtain ⟨hunique, hnext, -⟩ := newlines_grouped hone
  exact ⟨htokens, hunique rfl, hcr, hnext _ _ htwo rfl rfl hcr⟩

end Text
end LesTokens
