/-
What a diagnostic points at. A diagnostic says something of the text at its span: that it is an
escape, a character, an opened form, or the whole token (`Defect.Fits`). Spans of escapes are put
together from the offset of the lexeme, the length of what opens it and the lengths of the units
before the escape; that they meet the escape's own text is
`exists_unit_of_mem_escapeDiagnostics`.

**`Text.diagnostics_point`**: with each token the lexer reports only diagnostics that point into
the token and fit the text they point at.
-/
import LesTokens.Proofs.EscapeGrammar

namespace LesTokens

/-- Whether a defect fits the part of a source that stands at a span of a token: a form that is not
closed goes on to the end of the source, or of its line if one character closes it. -/
def Defect.Fits (source : Text) (token span : Span) (part : Text) : Defect → Prop
  | unterminatedString delimiter => delimiter <+: part ∧ span.stop = token.stop ∧
    (token.stop = source.size ∨
      delimiter.length = 1 ∧ opensWith isLineEnd (source.dropBytes token.stop) = true)
  | unterminatedComment =>
    span = token ∧ ['/', '*'] <+: part ∧ token.stop = source.size
  | malformedNumber _ | characterCount _ => span = token
  | unrecognizedEscape escape => escape = part
  | unexpectedCharacter c => [c] = part

/-- A diagnostic points at a part of a token that is not empty, and its defect fits the part. -/
structure Diagnostic.PointsInto (source : Text) (t : Token) (d : Diagnostic) : Prop where
  nonempty : d.span.start < d.span.stop
  inside : t.span.start ≤ d.span.start ∧ d.span.stop ≤ t.span.stop
  part : ∃ part, source.slice? d.span.start d.span.stop = some part ∧
    d.defect.Fits source t.span d.span part

/-! ## Parts of a lexeme -/

/-- A source around a lexeme with a rest behind it. -/
structure Around (source front text rest : Text) : Prop where
  append : front ++ (text ++ rest) = source

namespace Around

variable {source front text rest : Text}

theorem size (h : Around source front text rest) :
    source.size = front.size + text.size + rest.size := by
  rw [← h.append, Text.size_append, Text.size_append, Nat.add_assoc]

theorem dropBytes (h : Around source front text rest) :
    source.dropBytes (front.size + text.size) = rest := by
  rw [← h.append, ← List.append_assoc, ← Text.size_append, Text.dropBytes,
    Text.splitAt?_size_append]
  rfl

theorem slice? (h : Around source front text rest) {a part b : Text}
    (ht : a ++ (part ++ b) = text) :
    source.slice? (front.size + a.size) (front.size + a.size + part.size) = some part := by
  have hs : front ++ a ++ (part ++ (b ++ rest)) = source := by
    rw [← h.append, ← ht]
    simp
  rw [← hs, ← Text.size_append, Text.slice?_size_append]

theorem pointsInto (h : Around source front text rest) {t : Token}
    (htoken : t.span = Span.ofLength front.size text.size) {d : Diagnostic} {a part b : Text}
    (ht : a ++ (part ++ b) = text) (hne : part ≠ [])
    (hspan : d.span = Span.ofLength (front.size + a.size) part.size)
    (hfits : d.defect.Fits source t.span d.span part) : d.PointsInto source t := by
  have hpos := Text.size_pos hne
  have hsize : a.size + (part.size + b.size) = text.size := by
    rw [← ht, Text.size_append, Text.size_append]
  constructor
  case nonempty =>
    simp only [hspan, Span.ofLength]
    omega
  case inside =>
    simp only [hspan, htoken, Span.ofLength]
    omega
  case part =>
    refine ⟨part, ?_, hfits⟩
    rw [hspan]
    exact h.slice? ht

theorem pointsInto_whole (h : Around source front text rest) (hne : text ≠ []) {t : Token}
    (htoken : t.span = Span.ofLength front.size text.size) {d : Diagnostic}
    (hspan : d.span = t.span) (hfits : d.defect.Fits source t.span t.span text) :
    d.PointsInto source t := by
  refine h.pointsInto htoken (a := []) (b := []) (by simp) hne ?_ ?_
  · rw [hspan, htoken]
    rfl
  · rwa [hspan]

end Around

/-! ## Escapes -/

/-- What is reported of escapes is one of the units, where it stands behind those before it. -/
theorem exists_unit_of_mem_escapeDiagnostics {offset : Nat} {units : List EscapeUnit}
    {d : Diagnostic} (h : d ∈ escapeDiagnostics offset units) :
    ∃ us u us', units = us ++ u :: us' ∧
      d = ⟨.ofLength (offset + Text.size (us.flatMap EscapeUnit.text)) u.text.size,
        .unrecognizedEscape u.text⟩ := by
  rw [EscapeUnit.escapeDiagnostics_eq] at h
  obtain ⟨place, hplace, rfl⟩ := List.mem_map.1 h
  obtain ⟨k, hk⟩ := List.mem_iff_getElem?.1 (List.mem_filter.1 hplace).1
  rw [EscapeUnit.getElem?_placed, Option.map_eq_some_iff] at hk
  obtain ⟨u, hu, rfl⟩ := hk
  obtain ⟨hlt, hu⟩ := List.getElem?_eq_some_iff.1 hu
  refine ⟨units.take k, u, units.drop (k + 1), ?_, rfl⟩
  rw [← hu, ← List.drop_eq_getElem_cons hlt, List.take_append_drop]

theorem exists_part_of_mem_escapeDiagnostics {offset : Nat} {content : Text} {d : Diagnostic}
    (h : d ∈ escapeDiagnostics offset (EscapeUnit.units content)) :
    ∃ a escape b, a ++ (escape ++ b) = content ∧ escape ≠ [] ∧
      d = ⟨.ofLength (offset + Text.size a) escape.size, .unrecognizedEscape escape⟩ := by
  obtain ⟨us, u, us', hunits, hd⟩ := exists_unit_of_mem_escapeDiagnostics h
  have hcontent := EscapeUnit.flatMap_text_units content
  rw [hunits, List.flatMap_append, List.flatMap_cons] at hcontent
  have hmem : u ∈ EscapeUnit.units content := by simp [hunits]
  exact ⟨_, u.text, _, hcontent, EscapeUnit.text_ne_nil_of_mem u hmem, hd⟩

/-! ## Forms -/

namespace Form

variable {source front rest : Text} {t : Token} {d : Diagnostic}

/-- What is reported of a form between quotes points at the open quote and what follows it, at an
escape, or at all of it. -/
theorem pointsInto_quoted {kind : QuotedKind} {content : Text} {closed : Bool}
    (hs : Around source front (quoted kind content closed).lexeme.text rest)
    (hstops : (quoted kind content closed).StopsBefore rest)
    (ht : t.span = Span.ofLength front.size (Text.size (quoted kind content closed).lexeme.text))
    (h : d ∈ (quoted kind content closed).diagnostics front.size) : d.PointsInto source t := by
  have htext : (quoted kind content closed).lexeme.text =
      kind.opener ++ (content ++ QuotedBody.closing kind.quote closed) := rfl
  simp only [diagnostics, List.mem_append] at h
  rcases h with (h | h) | h
  · cases closed with
    | true => simp at h
    | false =>
      obtain rfl := List.mem_singleton.1 h
      have hpart : kind.sigil ++ ((kind.quote :: content) ++ []) =
          (quoted kind content false).lexeme.text := by
        simp [htext, QuotedKind.opener, QuotedBody.closing]
      have hsize := congrArg Text.size hpart
      rw [Text.size_append, Text.size_append, Text.size_nil] at hsize
      refine hs.pointsInto ht hpart (by simp) ?_ ⟨⟨content, rfl⟩, ?_, ?_⟩
      · simp only [Span.ofLength, Span.mk.injEq, true_and]
        omega
      · rw [ht]
      · -- The form goes on to the end of the source or of the line.
        rw [ht]
        simp only [Span.ofLength]
        rcases hstops with hend | hline
        · left
          rw [hs.size, hend, Text.size_nil, Nat.add_zero]
        · exact .inr ⟨rfl, by rwa [hs.dropBytes]⟩
  · obtain ⟨a, escape, b, hcontent, hne, rfl⟩ := exists_part_of_mem_escapeDiagnostics h
    have hpart : (kind.opener ++ a) ++ (escape ++ (b ++ QuotedBody.closing kind.quote closed)) =
        (quoted kind content closed).lexeme.text := by
      rw [htext, ← hcontent]
      simp
    refine hs.pointsInto ht hpart hne ?_ rfl
    rw [Text.size_append, ← Nat.add_assoc]
  · obtain ⟨defect, hdefect, rfl⟩ := List.mem_map.1 h
    have hne : (quoted kind content closed).lexeme.text ≠ [] := by
      simp [htext, QuotedKind.opener]
    refine hs.pointsInto_whole hne ht ht.symm ?_
    unfold QuotedKind.countDefects at hdefect
    split at hdefect
    · obtain rfl := List.mem_singleton.1 hdefect
      rfl
    · simp at hdefect

/-- **What is reported of a form points into its token.** -/
theorem pointsInto {form : Form} (hproper : form.Proper) (hstops : form.StopsBefore rest)
    (hs : Around source front form.lexeme.text rest)
    (ht : t.span = Span.ofLength front.size form.lexeme.text.size)
    (h : d ∈ form.diagnostics front.size) : d.PointsInto source t := by
  have hwhole (hne : form.lexeme.text ≠ [])
      (h : d ∈ form.defects.map fun defect => ⟨.ofLength front.size form.lexeme.text.size, defect⟩)
      (hfits : ∀ defect ∈ form.defects, defect.Fits source t.span t.span form.lexeme.text) :
      d.PointsInto source t := by
    obtain ⟨defect, hdefect, rfl⟩ := List.mem_map.1 h
    exact hs.pointsInto_whole hne ht ht.symm (hfits defect hdefect)
  -- A form that is open over many lines has nothing behind it.
  have hend (hr : rest = []) : t.span.stop = source.size := by
    rw [hs.size, hr, ht, Text.size_nil, Nat.add_zero]
    rfl
  cases form with
  | faultless tag text => simp [diagnostics, defects] at h
  | bareIdent name => simp [diagnostics, defects] at h
  | bareSymbol name => simp [diagnostics, defects] at h
  | quoted kind content closed => exact pointsInto_quoted hs hstops ht h
  | number n negative =>
    have hne : n.signed negative ≠ [] := by
      intro hnil
      have hopens := hproper.1
      cases negative with
      | true => simp [Segments.signed] at hnil
      | false =>
        have hn : n.text = [] := hnil
        rw [hn] at hopens
        exact absurd hopens (by decide)
    refine hwhole hne h fun defect hdefect => ?_
    rw [defects] at hdefect
    split at hdefect
    · simp at hdefect
    · obtain rfl := List.mem_singleton.1 hdefect
      rfl
  | unknown c =>
    refine hwhole (by simp [lexeme]) h fun defect hdefect => ?_
    obtain rfl := List.mem_singleton.1 hdefect
    rfl
  | comment body closed =>
    refine hwhole (by simp [lexeme]) h fun defect hdefect => ?_
    cases closed with
    | true => simp [defects] at hdefect
    | false =>
      obtain rfl := List.mem_singleton.1 hdefect
      exact ⟨rfl, ⟨body, rfl⟩, hend hstops⟩
  | tripleQuoted quote body closed =>
    refine hwhole (by simp [lexeme]) h fun defect hdefect => ?_
    cases closed with
    | true => simp [defects] at hdefect
    | false =>
      obtain rfl := List.mem_singleton.1 hdefect
      exact ⟨⟨body, rfl⟩, rfl, .inl (hend hstops)⟩
  | emptyCharacter line =>
    refine hwhole (by simp [lexeme]) h fun defect hdefect => ?_
    obtain rfl := List.mem_singleton.1 hdefect
    rfl

end Form

/-! ## Runs -/

theorem Lexeme.pointsInto {source : Text} {l : Lexeme} {k : Nat}
    (hl : source.lexemes[k]? = some l) :
    ∀ d ∈ (l.evaluate (Text.size ((source.lexemes.take k).flatMap text))).2,
      d.PointsInto source
        (l.evaluate (Text.size ((source.lexemes.take k).flatMap text))).1 := by
  intro d hd
  obtain ⟨before, c, s, hscan⟩ := Text.scan_of_getElem? hl
  obtain ⟨form, hform, hproper, hstops⟩ := exists_form before c s
  rw [hscan] at hform hstops
  obtain rfl : form.lexeme = l := hform
  rw [form.evaluate_eq hproper] at hd
  exact Form.pointsInto hproper hstops ⟨Text.append_of_getElem? hl⟩ rfl hd

/-- **Diagnostics describe the text they point at**: those that the lexer reports with a token point
into the token, and every diagnostic of the source is reported with some token. -/
theorem Text.diagnostics_point (source : Text) :
    (∀ (k : Nat) (t : Token), source.tokenize.tokens[k]? = some t →
      ∃ diagnostics : List Diagnostic,
        ((Lexer.ofText source (#[] : Array Diagnostic)).after k).next.1 = some t ∧
        ((Lexer.ofText source (#[] : Array Diagnostic)).after (k + 1)).sink =
          ((Lexer.ofText source (#[] : Array Diagnostic)).after k).sink ++ diagnostics.toArray ∧
        ∀ d ∈ diagnostics, d.PointsInto source t) ∧
    ∀ d ∈ source.tokenize.diagnostics, ∃ t ∈ source.tokenize.tokens, d.PointsInto source t := by
  constructor
  · intro k t h
    rw [tokens_getElem?, Option.map_eq_some_iff] at h
    obtain ⟨l, hl, rfl⟩ := h
    obtain ⟨htoken, hsink⟩ := Lexer.next_after 0 (#[] : Array Diagnostic) hl
    rw [Nat.zero_add, ← lexemes_eq] at htoken hsink
    rw [foldl_report] at hsink
    exact ⟨_, htoken, hsink, Lexeme.pointsInto hl⟩
  · intro d hd
    rw [tokenize_eq] at hd ⊢
    obtain ⟨x, hx, hdx⟩ := List.mem_flatMap.1 hd
    obtain ⟨k, hk⟩ := List.mem_iff_getElem?.1 hx
    rw [Lexeme.evaluateAll_getElem?, Nat.zero_add, Option.map_eq_some_iff] at hk
    obtain ⟨l, hl, rfl⟩ := hk
    exact ⟨_, List.mem_map_of_mem hx, Lexeme.pointsInto hl d hdx⟩

/-- Behind a name of one character of two bytes, an open quoted name has an escape cut short. -/
theorem Text.diagnostics_point_short_escape :
    ∀ d ∈ [⟨⟨4, 10⟩, .unterminatedString ['\x22']⟩,
        ⟨⟨7, 10⟩, .unrecognizedEscape ['\\', 'u', '1']⟩],
      Diagnostic.PointsInto ['é', '@', '@', '\x22', 'é', '\\', 'u', '1', '\n']
        ⟨.symbol, ⟨2, 10⟩, .name ['é', '\\', 'u', '1']⟩ d := by
  obtain ⟨ds, -, hsink, hds⟩ := (diagnostics_point
    ['é', '@', '@', '\x22', 'é', '\\', 'u', '1', '\n']).1 1
    ⟨.symbol, ⟨2, 10⟩, .name ['é', '\\', 'u', '1']⟩ (by decide +kernel)
  have hbefore : ((Lexer.ofText ['é', '@', '@', '\x22', 'é', '\\', 'u', '1', '\n']
      (#[] : Array Diagnostic)).after 1).sink = #[] := by decide +kernel
  have hafter : ((Lexer.ofText ['é', '@', '@', '\x22', 'é', '\\', 'u', '1', '\n']
      (#[] : Array Diagnostic)).after 2).sink =
        #[⟨⟨4, 10⟩, .unterminatedString ['\x22']⟩,
          ⟨⟨7, 10⟩, .unrecognizedEscape ['\\', 'u', '1']⟩] := by decide +kernel
  rw [hbefore, hafter, Array.empty_append] at hsink
  rwa [← List.toArray_inj hsink] at hds

end LesTokens
