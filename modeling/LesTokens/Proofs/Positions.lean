/-
Positions identify offsets. With each scalar the position moves on, in the line or to the next one
(`Position.after_concat`), so of two offsets between scalars the later one has the later position
(`Position.ofOffset_before`), and the line and column it is shown with belong to no other offset.

**`Text.positions_identify`**: so it is for all offsets between scalars, and every diagnostic starts
at such an offset.
-/
import LesTokens.CommandLine
import LesTokens.Proofs.Pointing
import Mathlib

namespace LesTokens

namespace Position

/-- Whether a position comes before another one: in a line before, or in the same line. -/
def Before (p q : Position) : Prop := p.line < q.line ∨ p.line = q.line ∧ p.column < q.column

theorem Before.trans {p q r : Position} (h : p.Before q) (h' : q.Before r) : p.Before r := by
  unfold Before at *
  omega

theorem Before.ne {p q : Position} (h : p.Before q) : p ≠ q := by
  rintro rfl
  unfold Before at h
  omega

/-! ## One scalar after another -/

theorem after_concat (t : Text) (c : Char) : after (t ++ [c]) =
    if c = '\n' then ⟨(after t).line + 1, 1⟩ else ⟨(after t).line, (after t).column + 1⟩ := by
  by_cases hc : c = '\n'
  · simp [after, hc]
  · simp [after, hc]

theorem after_before_concat (t : Text) (c : Char) : (after t).Before (after (t ++ [c])) := by
  rw [after_concat]
  split
  · exact .inl (Nat.lt_succ_self _)
  · exact .inr ⟨rfl, Nat.lt_succ_self _⟩

theorem after_before_append (t : Text) {u : Text} (hu : u ≠ []) :
    (after t).Before (after (t ++ u)) := by
  induction u generalizing t with
  | nil => exact absurd rfl hu
  | cons c u ih =>
    have hstep := after_before_concat t c
    by_cases hnil : u = []
    · rwa [hnil]
    · have hrest := ih (t ++ [c]) hnil
      rw [List.append_assoc] at hrest
      exact hstep.trans hrest

/-- A text behind the last `\n` is the line that its end stands in. -/
structure OnLine (front line : Text) : Prop where
  starts : front = [] ∨ front.getLast? = some '\n'
  inside : '\n' ∉ line

/-- **A position counts the `\n` before it, and the scalars behind the last of them.** -/
theorem exists_onLine (t : Text) : ∃ front line, front ++ line = t ∧ OnLine front line ∧
    after t = ⟨1 + t.count '\n', 1 + line.length⟩ := by
  induction t using List.reverseRecOn with
  | nil => exact ⟨[], [], rfl, ⟨.inl rfl, by simp⟩, rfl⟩
  | append_singleton t c ih =>
    obtain ⟨front, line, rfl, ⟨hstarts, hinside⟩, hafter⟩ := ih
    rw [after_concat, hafter]
    by_cases hc : c = '\n'
    · refine ⟨front ++ line ++ [c], [], by simp, ⟨.inr (by simp [hc]), by simp⟩, ?_⟩
      simp [hc, Nat.add_assoc]
    · refine ⟨front, line ++ [c], by simp, ⟨hstarts, ?_⟩, ?_⟩
      · simpa [hinside] using Ne.symm hc
      · simp [hc, Nat.add_assoc]

/-! ## Offsets -/

theorem ofOffset_size (front behind : Text) :
    ofOffset (front ++ behind) front.size = after front := by
  rw [ofOffset, Text.splitAt?_size_append]

end Position

/-- Whether an offset lies between two scalars of a text, or at an end of it. -/
def Text.IsBoundary (source : Text) (offset : Nat) : Prop :=
  ∃ front behind, front ++ behind = source ∧ front.size = offset

namespace Position

variable {source : Text}

/-- **Of two boundaries the later one has the later position.** -/
theorem ofOffset_before {o o' : Nat} (h : source.IsBoundary o) (h' : source.IsBoundary o')
    (hlt : o < o') : (ofOffset source o).Before (ofOffset source o') := by
  obtain ⟨front, behind, rfl, rfl⟩ := h
  obtain ⟨front', behind', happend, rfl⟩ := h'
  rw [ofOffset_size, ← happend, ofOffset_size]
  rcases List.append_eq_append_iff.1 happend with ⟨u, rfl, -⟩ | ⟨u, rfl, -⟩
  · rw [Text.size_append] at hlt
    omega
  · refine after_before_append front ?_
    rintro rfl
    simp at hlt

theorem ofOffset_inj {o o' : Nat} (h : source.IsBoundary o) (h' : source.IsBoundary o') :
    ofOffset source o = ofOffset source o' ↔ o = o' := by
  refine ⟨fun he => ?_, congrArg _⟩
  rcases Nat.lt_trichotomy o o' with hlt | heq | hgt
  · exact absurd he (ofOffset_before h h' hlt).ne
  · exact heq
  · exact absurd he.symm (ofOffset_before h' h hgt).ne

/-! ## Positions as they are shown -/

/-- A line and a column with a colon between them. -/
def shown (p : Position) : String := toString p.line ++ ":" ++ toString p.column

/-- **What is shown tells the position**: no number has a colon in it. -/
theorem shown_inj {p q : Position} : p.shown = q.shown ↔ p = q := by
  refine ⟨fun h => ?_, congrArg _⟩
  have hcolon (n : Nat) : ':' ∉ n.repr.toList := by
    intro hmem
    rw [Nat.toList_repr] at hmem
    exact absurd (Nat.isDigit_of_mem_toDigits (by decide) (by decide) hmem) (by decide)
  have hlist := congrArg String.toList h
  simp only [shown, String.toList_append, Nat.toString_eq_repr, List.append_assoc,
    show ":".toList = [':'] from rfl, List.singleton_append] at hlist
  obtain ⟨hline, -, hcolumn⟩ :=
    (List.append_cons_inj_of_notMem (hcolon p.line) (hcolon p.column)).1 hlist
  rcases p with ⟨line, column⟩
  rcases q with ⟨line', column'⟩
  obtain rfl : line = line' := Nat.repr_inj.1 (String.toList_inj.1 hline)
  obtain rfl : column = column' := Nat.repr_inj.1 (String.toList_inj.1 hcolumn)
  rfl

end Position

/-! ## Diagnostics -/

theorem CommandLine.diagnosticLine_eq (path : String) (source : Text) (d : Diagnostic) :
    diagnosticLine path source d =
      path ++ ":" ++ (Position.ofOffset source d.span.start).shown ++ ": error: " ++ d.message := by
  simp only [diagnosticLine, Position.shown, String.append_assoc]

namespace Text

variable {source : Text}

theorem isBoundary_iff {offset : Nat} :
    source.IsBoundary offset ↔ (source.splitAt? offset).isSome = true := by
  constructor
  · rintro ⟨front, behind, rfl, rfl⟩
    rw [splitAt?_size_append]
    rfl
  · intro h
    obtain ⟨⟨front, behind⟩, hsplit⟩ := Option.isSome_iff_exists.1 h
    exact ⟨front, behind, append_of_splitAt? hsplit⟩

theorem isBoundary_of_slice? {start stop : Nat} {part : Text}
    (h : source.slice? start stop = some part) : source.IsBoundary start := by
  rw [isBoundary_iff]
  unfold slice? at h
  split at h
  · cases hsplit : source.splitAt? start with
    | none => simp [hsplit] at h
    | some x => rfl
  · cases h

theorem isBoundary_of_mem_diagnostics {d : Diagnostic} (h : d ∈ source.tokenize.diagnostics) :
    source.IsBoundary d.span.start := by
  rw [tokenize_eq] at h
  obtain ⟨x, hx, hd⟩ := List.mem_flatMap.1 h
  obtain ⟨k, hk⟩ := List.mem_iff_getElem?.1 hx
  rw [Lexeme.evaluateAll_getElem?, Nat.zero_add, Option.map_eq_some_iff] at hk
  obtain ⟨l, hl, rfl⟩ := hk
  obtain ⟨part, hpart, -⟩ := (Lexeme.pointsInto hl d hd).part
  exact isBoundary_of_slice? hpart

/-- **Positions identify offsets.** The position of an offset between scalars counts the `\n` before
it and the scalars behind the last of them, and of two such offsets the later one has the later
position. Every diagnostic starts at one of them, and two diagnostics are shown at the same line and
column exactly if they start at the same byte. -/
theorem positions_identify (source : Text) :
    (∀ offset, source.IsBoundary offset → ∃ front line behind,
      front ++ line ++ behind = source ∧ size (front ++ line) = offset ∧
      Position.OnLine front line ∧ Position.ofOffset source offset =
        ⟨1 + (front ++ line).count '\n', 1 + line.length⟩) ∧
    (∀ o o', source.IsBoundary o → source.IsBoundary o' → o < o' →
      (Position.ofOffset source o).Before (Position.ofOffset source o')) ∧
    (∀ d ∈ source.tokenize.diagnostics, source.IsBoundary d.span.start ∧
      (source.splitAt? d.span.start).isSome = true ∧
      ∀ path, CommandLine.diagnosticLine path source d = path ++ ":" ++
        (Position.ofOffset source d.span.start).shown ++ ": error: " ++ d.message) ∧
    ∀ d ∈ source.tokenize.diagnostics, ∀ d' ∈ source.tokenize.diagnostics,
      ((Position.ofOffset source d.span.start).shown =
          (Position.ofOffset source d'.span.start).shown ↔ d.span.start = d'.span.start) ∧
      (Position.ofOffset source d.span.start = Position.ofOffset source d'.span.start ↔
        d.span.start = d'.span.start) := by
  refine ⟨fun offset h => ?_, fun o o' h h' hlt => Position.ofOffset_before h h' hlt,
    fun d hd => ?_, fun d hd d' hd' => ?_⟩
  · obtain ⟨before, behind, rfl, rfl⟩ := h
    obtain ⟨front, line, rfl, honLine, hafter⟩ := Position.exists_onLine before
    exact ⟨front, line, behind, rfl, rfl, honLine, by rw [Position.ofOffset_size, hafter]⟩
  · have hboundary := isBoundary_of_mem_diagnostics hd
    exact ⟨hboundary, isBoundary_iff.1 hboundary,
      fun path => CommandLine.diagnosticLine_eq path source d⟩
  · have hinj := Position.ofOffset_inj (isBoundary_of_mem_diagnostics hd)
      (isBoundary_of_mem_diagnostics hd')
    exact ⟨by rw [Position.shown_inj, hinj], hinj⟩

/-- Behind a line with a character of two bytes, a bad escape is not shown at the place of the
character literal it stands in. -/
theorem positions_identify_bad_escape :
    (tokenize ['é', '\n', '\x27', '\\', 'q', '\x27']).diagnostics =
        [⟨⟨4, 6⟩, .unrecognizedEscape ['\\', 'q']⟩, ⟨⟨3, 7⟩, .characterCount 2⟩] ∧
      (Position.ofOffset ['é', '\n', '\x27', '\\', 'q', '\x27'] 3).Before
        (Position.ofOffset ['é', '\n', '\x27', '\\', 'q', '\x27'] 4) ∧
      (Position.ofOffset ['é', '\n', '\x27', '\\', 'q', '\x27'] 4).shown ≠
        (Position.ofOffset ['é', '\n', '\x27', '\\', 'q', '\x27'] 3).shown := by
  obtain ⟨-, hordered, hstarts, hshown⟩ :=
    positions_identify ['é', '\n', '\x27', '\\', 'q', '\x27']
  have hds : (tokenize ['é', '\n', '\x27', '\\', 'q', '\x27']).diagnostics =
      [⟨⟨4, 6⟩, .unrecognizedEscape ['\\', 'q']⟩, ⟨⟨3, 7⟩, .characterCount 2⟩] := by
    decide +kernel
  rw [hds] at hstarts hshown
  have hfour := (hstarts _ List.mem_cons_self).1
  have hthree := (hstarts _ (List.mem_cons_of_mem _ List.mem_cons_self)).1
  refine ⟨hds, hordered 3 4 hthree hfour (by decide), fun h => ?_⟩
  have hstart := ((hshown _ List.mem_cons_self _
    (List.mem_cons_of_mem _ List.mem_cons_self)).1.1 h : (4 : Nat) = 3)
  exact absurd hstart (by decide)

end Text
end LesTokens
