/-
The order of the reports. What is wrong with one lexeme is reported before what is wrong with the
next, and within a lexeme from left to right, with one exception: that a closed character literal
is not one character is said of the whole literal, and after what is said of its escapes.

**`Text.diagnostics_ordered_iff`**: so the reports of a source stand in its order exactly if no
closed character literal of it has an escape that is invalid.
-/
import LesTokens.Proofs.Defects

namespace LesTokens

/-- Diagnostics in the order in which what they are about starts. -/
def Ordered (diagnostics : List Diagnostic) : Prop :=
  diagnostics.Pairwise fun d d' => d.span.start ≤ d'.span.start

theorem ordered_append_iff {ds ds' : List Diagnostic} : Ordered (ds ++ ds') ↔
    Ordered ds ∧ Ordered ds' ∧ ∀ d ∈ ds, ∀ d' ∈ ds', d.span.start ≤ d'.span.start :=
  List.pairwise_append

theorem ordered_map (span : Span) (defects : List Defect) :
    Ordered (defects.map fun defect => ⟨span, defect⟩) := by
  rw [Ordered, List.pairwise_map]
  exact List.pairwise_of_forall fun _ _ => Nat.le_refl _

/-! ## Escapes -/

namespace EscapeUnit

theorem isPrefix_text_first (c : Char) (t : Text) : (first c t).text <+: c :: t := by
  unfold first
  split
  · simp
  · cases t with
    | nil => exact List.prefix_refl _
    | cons letter t =>
      dsimp only
      split
      · simp
      · split
        · simpa using List.take_prefix _ t
        · simpa [presentDigits] using (List.takeWhile_prefix _).trans (List.take_prefix _ t)
      · simp

theorem flatMap_text_units (content : Text) : (units content).flatMap text = content := by
  fun_induction units content with
  | case1 => rfl
  | case2 c t u ih =>
    rw [List.flatMap_cons, ih]
    exact List.prefix_iff_eq_append.1 (isPrefix_text_first c t)

theorem text_ne_nil_of_mem {content : Text} : ∀ u ∈ units content, u.text ≠ [] := by
  fun_induction units content with
  | case1 => simp
  | case2 c t u ih =>
    intro v hv
    rcases List.mem_cons.1 hv with rfl | hv
    · exact text_first_ne_nil c t
    · exact ih v hv

theorem decoded_ne_nil {u : EscapeUnit} (h : u.text ≠ []) : u.decoded ≠ [] := by
  unfold decoded
  split
  · simp
  · exact h

/-- A closed content with an invalid unit is never one character: the only such unit of one
character is a backslash at the end, which would take the closing quote. -/
theorem length_decodedText_ne_one {quote : Char} {content : Text}
    (h : QuotedBody.Content quote true content) {u : EscapeUnit} (hu : u ∈ units content)
    (hc : u.char = none) : (decodedText content).length ≠ 1 := by
  intro hone
  have hpos (v : EscapeUnit) (hv : v ∈ units content) : 0 < v.decoded.length :=
    List.length_pos_iff.2 (decoded_ne_nil (text_ne_nil_of_mem v hv))
  have htext := flatMap_text_units content
  obtain ⟨hunits, hsingle⟩ : units content = [u] ∧ u.text.length = 1 := by
    rw [decodedText] at hone
    rcases hus : units content with - | ⟨v, - | ⟨w, us⟩⟩
    · simp [hus] at hu
    · obtain rfl : u = v := by simpa [hus] using hu
      refine ⟨rfl, ?_⟩
      simpa [hus, decoded, hc] using hone
    · have hv := hpos v (by simp [hus])
      have hw := hpos w (by simp [hus])
      simp only [hus, List.flatMap_cons, List.length_append] at hone
      omega
  rw [hunits] at htext
  cases h with
  | nil => simp [units] at hunits
  | @plain c t hplain ht =>
    have hback : c ≠ '\\' := by
      rintro rfl
      simp [QuotedBody.isPlain] at hplain
    rw [units_cons, first_of_ne hback, List.cons.injEq] at hunits
    rw [← hunits.1] at hc
    simp at hc
  | pair hend ht =>
    rw [List.flatMap_singleton] at htext
    simp [htext] at hsingle
  | lone hclosed => simp at hclosed

end EscapeUnit

theorem start_of_mem_escapeDiagnostics {offset : Nat} {units : List EscapeUnit} {d : Diagnostic}
    (h : d ∈ escapeDiagnostics offset units) : offset ≤ d.span.start ∧
      d.span.start ≤ offset + Text.size (units.flatMap EscapeUnit.text) := by
  induction units generalizing offset with
  | nil => simp [escapeDiagnostics] at h
  | cons u units ih =>
    have hrest (h : d ∈ escapeDiagnostics (offset + u.text.size) units) :
        offset ≤ d.span.start ∧
          d.span.start ≤ offset + Text.size ((u :: units).flatMap EscapeUnit.text) := by
      have hi := ih h
      rw [List.flatMap_cons, Text.size_append]
      omega
    unfold escapeDiagnostics at h
    dsimp only at h
    split at h
    · exact hrest h
    · rcases List.mem_cons.1 h with rfl | h
      · exact ⟨Nat.le_refl _, Nat.le_add_right _ _⟩
      · exact hrest h

theorem escapeDiagnostics_ordered (offset : Nat) (units : List EscapeUnit) :
    Ordered (escapeDiagnostics offset units) := by
  induction units generalizing offset with
  | nil => exact List.Pairwise.nil
  | cons u units ih =>
    unfold escapeDiagnostics
    dsimp only
    split
    · exact ih _
    · refine List.Pairwise.cons (fun d hd => ?_) (ih _)
      exact Nat.le_trans (Nat.le_add_right _ _) (start_of_mem_escapeDiagnostics hd).1

theorem escapeDiagnostics_ne_nil {u : EscapeUnit} {units : List EscapeUnit} (h : u ∈ units)
    (hc : u.char = none) (offset : Nat) : escapeDiagnostics offset units ≠ [] := by
  intro he
  have hd := map_defect_escapeDiagnostics offset units
  rw [he, List.map_nil, eq_comm, List.map_eq_nil_iff, List.filter_eq_nil_iff] at hd
  simpa [hc] using hd u h

/-! ## Forms -/

namespace Form

/-- Whether the diagnostics of a form are in order: all but those of a closed character literal with
an invalid escape are. -/
def InOrder : Form → Prop
  | quoted .character content true => ∀ u ∈ EscapeUnit.units content, u.char ≠ none
  | _ => True

theorem start_of_mem_diagnostics {form : Form} {offset : Nat} {d : Diagnostic}
    (h : d ∈ form.diagnostics offset) :
    offset ≤ d.span.start ∧ d.span.start ≤ offset + form.lexeme.text.size := by
  have hwhole {span : Span} {defects : List Defect} (hs : span.start = offset)
      (h : d ∈ defects.map fun defect => ⟨span, defect⟩) :
      offset ≤ d.span.start ∧ d.span.start ≤ offset + form.lexeme.text.size := by
    obtain ⟨defect, -, rfl⟩ := List.mem_map.1 h
    exact ⟨Nat.le_of_eq hs.symm, hs ▸ Nat.le_add_right _ _⟩
  cases form with
  | quoted kind content closed =>
    have hopener : kind.opener.size = kind.sigil.size + 1 := by
      rw [QuotedKind.opener, Text.size_append, Text.size_cons, kind.utf8Size_quote]
      rfl
    have hsize : Text.size (quoted kind content closed).lexeme.text = kind.opener.size +
        (content.size + (QuotedBody.closing kind.quote closed).size) := by
      rw [lexeme, Text.size_append, Text.size_append]
    simp only [diagnostics, List.mem_append] at h
    rcases h with (h | h) | h
    · cases closed with
      | true => simp at h
      | false =>
        obtain rfl := List.mem_singleton.1 h
        dsimp only
        omega
    · have hd := start_of_mem_escapeDiagnostics h
      rw [EscapeUnit.flatMap_text_units] at hd
      omega
    · exact hwhole rfl h
  | _ => exact hwhole rfl h

/-- The count of a closed character literal is reported at its start, behind its escapes. -/
theorem ordered_character_iff {content : Text} (h : QuotedBody.Content '\x27' true content)
    (offset : Nat) : Ordered ((quoted .character content true).diagnostics offset) ↔
      ∀ u ∈ EscapeUnit.units content, u.char ≠ none := by
  simp only [diagnostics, if_true, List.nil_append]
  refine ⟨fun ho u hu hc => ?_, fun hvalid => ?_⟩
  · obtain ⟨d, hd⟩ := List.exists_mem_of_ne_nil _
      (escapeDiagnostics_ne_nil hu hc (offset + QuotedKind.character.opener.size))
    have hcount : QuotedKind.character.countDefects content true =
        [.characterCount (EscapeUnit.decodedText content).length] :=
      if_pos ⟨rfl, rfl, EscapeUnit.length_decodedText_ne_one h hu hc⟩
    rw [hcount] at ho
    have hle := (ordered_append_iff.1 ho).2.2 d hd _ (List.mem_singleton.2 rfl)
    have hge := (start_of_mem_escapeDiagnostics hd).1
    have hopener : QuotedKind.character.opener.size = 1 := by decide
    simp only [Span.ofLength] at hle
    omega
  · rw [escapeDiagnostics_of_valid hvalid, List.nil_append]
    exact ordered_map _ _

theorem ordered_quoted {kind : QuotedKind} {closed : Bool}
    (hk : ¬(kind = .character ∧ closed = true)) (content : Text) (offset : Nat) :
    Ordered ((quoted kind content closed).diagnostics offset) := by
  have hcount : kind.countDefects content closed = [] := if_neg fun hc => hk ⟨hc.1, hc.2.1⟩
  rw [diagnostics, hcount, List.map_nil, List.append_nil, ordered_append_iff]
  refine ⟨?_, escapeDiagnostics_ordered _ _, fun d hd d' hd' => ?_⟩
  · cases closed <;> simp [Ordered]
  · have hge := (start_of_mem_escapeDiagnostics hd').1
    rw [QuotedKind.opener, Text.size_append] at hge
    cases closed with
    | true => simp at hd
    | false =>
      obtain rfl := List.mem_singleton.1 hd
      dsimp only
      omega

/-- **The diagnostics of a form are in order, those of a closed character literal with an invalid
escape apart.** -/
theorem ordered_diagnostics_iff {form : Form} (h : form.Proper) (offset : Nat) :
    Ordered (form.diagnostics offset) ↔ form.InOrder := by
  cases form with
  | quoted kind content closed =>
    by_cases hk : kind = .character ∧ closed = true
    · obtain ⟨rfl, rfl⟩ := hk
      exact ordered_character_iff h.1 offset
    · refine iff_of_true (ordered_quoted hk content offset) ?_
      unfold InOrder
      split
      · rename_i heq
        cases heq
        exact absurd ⟨rfl, rfl⟩ hk
      · trivial
  | _ => exact iff_of_true (ordered_map _ _) trivial

end Form

/-! ## Runs -/

namespace Lexeme

theorem start_of_mem_evaluateAll {offset : Nat} {ls : List Lexeme}
    (hls : ∀ l ∈ ls, ∃ form : Form, form.Proper ∧ form.lexeme = l) {d : Diagnostic}
    (h : d ∈ (evaluateAll offset ls).flatMap Prod.snd) : offset ≤ d.span.start := by
  obtain ⟨x, hx, hd⟩ := List.mem_flatMap.1 h
  obtain ⟨l, hl, offset', hle, rfl⟩ := exists_of_mem_evaluateAll hx
  obtain ⟨form, hproper, rfl⟩ := hls l hl
  rw [form.evaluate_eq hproper] at hd
  exact Nat.le_trans hle (Form.start_of_mem_diagnostics hd).1

/-- What is wrong with one lexeme is reported before what is wrong with the next. -/
theorem ordered_evaluateAll_iff {ls : List Lexeme}
    (hls : ∀ l ∈ ls, ∃ form : Form, form.Proper ∧ form.lexeme = l) (offset : Nat) :
    Ordered ((evaluateAll offset ls).flatMap Prod.snd) ↔
      ∀ form : Form, form.Proper → form.lexeme ∈ ls → form.InOrder := by
  induction ls generalizing offset with
  | nil => simp [evaluateAll, Ordered]
  | cons l ls ih =>
    have hrest (l' : Lexeme) (hl' : l' ∈ ls) := hls l' (List.mem_cons_of_mem l hl')
    obtain ⟨form, hproper, rfl⟩ := hls l List.mem_cons_self
    have hbetween : ∀ d ∈ (form.lexeme.evaluate offset).2,
        ∀ d' ∈ (evaluateAll (offset + form.lexeme.text.size) ls).flatMap Prod.snd,
          d.span.start ≤ d'.span.start := by
      intro d hd d' hd'
      rw [form.evaluate_eq hproper] at hd
      exact Nat.le_trans (Form.start_of_mem_diagnostics hd).2 (start_of_mem_evaluateAll hrest hd')
    rw [evaluateAll, List.flatMap_cons, ordered_append_iff, ih hrest]
    constructor
    · rintro ⟨ho, hi, -⟩ form' hproper' hmem
      rcases List.mem_cons.1 hmem with he | hmem
      · rw [← he, form'.evaluate_eq hproper'] at ho
        exact (Form.ordered_diagnostics_iff hproper' offset).1 ho
      · exact hi form' hproper' hmem
    · intro hi
      refine ⟨?_, fun form' hproper' hmem => hi form' hproper' (List.mem_cons_of_mem _ hmem),
        hbetween⟩
      rw [form.evaluate_eq hproper]
      exact (Form.ordered_diagnostics_iff hproper offset).2 (hi form hproper List.mem_cons_self)

end Lexeme

/-- **The reports of a source stand in its order exactly if no closed character literal of it has an
invalid escape.** -/
theorem Text.diagnostics_ordered_iff (source : Text) :
    (source.tokenize.diagnostics.map (·.span.start)).Pairwise (· ≤ ·) ↔
      ∀ content : Text, QuotedBody.Content '\x27' true content →
        ⟨.char, '\x27' :: (content ++ ['\x27'])⟩ ∈ source.lexemes →
        ∀ u ∈ EscapeUnit.units content, u.char ≠ none := by
  have hforms : Ordered source.tokenize.diagnostics ↔
      ∀ form : Form, form.Proper → form.lexeme ∈ source.lexemes → form.InOrder := by
    rw [tokenize_eq]
    exact Lexeme.ordered_evaluateAll_iff (fun l hl => exists_form_of_mem hl) 0
  rw [List.pairwise_map]
  refine hforms.trans ⟨fun h content hcontent hmem u hu => ?_, fun h form hproper hmem => ?_⟩
  · have hne : content ≠ [] := by
      rintro rfl
      simp [EscapeUnit.units] at hu
    exact h (.quoted .character content true) ⟨hcontent, fun _ _ => hne⟩ hmem u hu
  · unfold Form.InOrder
    split
    · rename_i content
      exact h content hproper.1 hmem
    · trivial

/-- A bad escape in a character literal is two characters, which is reported after it. -/
theorem Text.diagnostics_unordered :
    ¬((tokenize ['\x27', '\\', 'q', '\x27']).diagnostics.map (·.span.start)).Pairwise (· ≤ ·) := by
  decide +kernel

end LesTokens
