/-
How far a scanner looks past what it takes: at most two characters, and behind a line feed, a
letter of an integer suffix or a quote it looks no further. So the rest of a text can be replaced by
any other that opens with nothing new (`Ahead`): by nothing at all, by itself with more text after
two characters, or by itself with a line feed where it ends.

One lemma for each kind of run: what is taken before a rest is taken before the other one.
-/
import LesTokens.Proofs.Runs

namespace LesTokens

/-- The characters behind which no scanner looks. -/
def finals : List Char := ['\n', 'u', 'U', 'l', 'L', '\x22', '\x60']

theorem eq_false_of_mem_finals {p : Char → Bool} (h : finals.any p = false) {c : Char}
    (hc : c ∈ finals) : p c = false :=
  Bool.eq_false_iff.2 (List.any_eq_false.1 h c hc)

/-- A rest `r'` opens with nothing that another rest `r` does not open with, the end of a line
apart. -/
structure Ahead (r r' : Text) : Prop where
  head : ∀ p, p '\n' = false → opensWith p r' = true → opensWith p r = true
  pair : ∀ p q, finals.any p = false → q '\n' = false →
    opensPair p q r' = true → opensPair p q r = true

namespace Ahead

variable {r r' : Text}

theorem nil (r : Text) : Ahead r [] := ⟨by simp [opensWith], by simp [opensPair]⟩

theorem cons (c : Char) (h : Ahead r r') : Ahead (c :: r) (c :: r') := by
  refine ⟨fun p _ hc => hc, fun p q _ hq hc => ?_⟩
  simp only [opensPair, Bool.and_eq_true] at hc ⊢
  exact ⟨hc.1, h.head q hq hc.2⟩

theorem append (u : Text) (h : Ahead r r') : Ahead (u ++ r) (u ++ r') := by
  induction u with
  | nil => exact h
  | cons c u ih => exact ih.cons c

theorem of_two (c d : Char) (r r' : Text) : Ahead (c :: d :: r) (c :: d :: r') :=
  ⟨fun _ _ hc => hc, fun _ _ _ _ hc => hc⟩

theorem more (h : 2 ≤ r.length) (b : Text) : Ahead r (r ++ b) := by
  match r, h with
  | c :: d :: r, _ => exact of_two c d r (r ++ b)

/-- A line feed ends a line as the end of the text does. -/
theorem line (r b : Text) : Ahead r (r ++ '\n' :: b) := by
  have h : Ahead [] ('\n' :: b) := by
    refine ⟨fun p hp hc => ?_, fun p q hp _ hc => ?_⟩
    · simp [opensWith, hp] at hc
    · simp [opensPair, eq_false_of_mem_finals hp (c := '\n') (by decide)] at hc
  simpa using h.append r

theorem final {c : Char} (hc : c ∈ finals) (r r' : Text) : Ahead (c :: r) (c :: r') := by
  refine ⟨fun _ _ h => h, fun p q hp _ h => ?_⟩
  simp [opensPair, eq_false_of_mem_finals hp hc] at h

theorem opensWith_eq_false {p : Char → Bool} (h : Ahead r r') (hp : p '\n' = false)
    (hr : opensWith p r = false) : opensWith p r' = false := by
  rw [Bool.eq_false_iff] at hr ⊢
  exact fun hc => hr (h.head p hp hc)

theorem opensPair_eq_false {p q : Char → Bool} (h : Ahead r r') (hp : finals.any p = false)
    (hq : q '\n' = false) (hr : opensPair p q r = false) : opensPair p q r' = false := by
  rw [Bool.eq_false_iff] at hr ⊢
  exact fun hc => hr (h.pair p q hp hq hc)

theorem opensComment_eq_false (h : Ahead r r') (hr : opensComment r = false) :
    opensComment r' = false := by
  rw [opensComment_eq] at hr ⊢
  exact h.opensPair_eq_false (by decide) (by decide) hr

theorem opensFraction_eq_false (h : Ahead r r') (hr : opensFraction r = false) :
    opensFraction r' = false := by
  rw [opensFraction_eq] at hr ⊢
  exact h.opensPair_eq_false (by decide) (by decide) hr

end Ahead

/-! ## Runs -/

theorem dropWhile_replace {p : Char → Bool} (hp : p '\n' = false) {t r' : Text}
    (ha : Ahead (t.dropWhile p) r') : (t.takeWhile p ++ r').dropWhile p = r' := by
  have hs : t.takeWhile p ++ t.dropWhile p = t := List.takeWhile_append_dropWhile
  have h := dropWhile_append_eq_iff.1 (congrArg (List.dropWhile p) hs)
  exact dropWhile_append_eq_iff.2 ⟨h.1, ha.opensWith_eq_false hp h.2⟩

theorem takeWhile_replace {p : Char → Bool} (hp : p '\n' = false) {t r' : Text}
    (ha : Ahead (t.dropWhile p) r') : (t.takeWhile p ++ r').takeWhile p = t.takeWhile p :=
  takeWhile_eq_of_dropWhile (dropWhile_replace hp ha)

/-- A run that stopped at a comment or a fraction stops there whatever else follows, but not where
the text is cut behind the `/` or the `.`. -/
theorem operatorTail_replace {t u r r' : Text} (h : operatorTail t = (u, r)) (ha : Ahead r r')
    (hw : r' = [] ∨ r <+: r') : operatorTail (u ++ r') = (u, r') := by
  have ht : u ++ r = t := by simpa [h] using operatorTail_append t
  subst ht
  rw [operatorTail_eq_spanBy] at h ⊢
  have hr := (Text.spanBy_eq_nil_iff rfl).1 (Text.spanBy_rest h)
  refine Text.spanBy_replace (fun c w hc => ?_) ?_ h
  · simp only [opensOperatorTail, Bool.and_eq_true, Bool.not_eq_true'] at hc ⊢
    have hcw := ha.append (c :: w)
    exact ⟨⟨hc.1.1, hcw.opensComment_eq_false hc.1.2⟩, hcw.opensFraction_eq_false hc.2⟩
  · rcases hw with rfl | ⟨b, rfl⟩
    · rfl
    · simp only [opensOperatorTail, Bool.and_eq_false_iff, Bool.not_eq_false'] at hr ⊢
      rw [opensComment_eq, opensFraction_eq] at hr ⊢
      rcases hr with (hr | hr) | hr
      · exact .inl (.inl (ha.opensWith_eq_false (by decide) hr))
      · exact .inl (.inr (opensPair_append hr b))
      · exact .inr (opensPair_append hr b)

theorem escapeRunTail_replace {t u r r' : Text} (h : escapeRunTail t = (u, r)) (ha : Ahead r r')
    (hw : r' = [] ∨ r <+: r') : escapeRunTail (u ++ r') = (u, r') := by
  have ht : u ++ r = t := by simpa [h] using escapeRunTail_append t
  subst ht
  rw [escapeRunTail_eq_spanBy] at h ⊢
  have hr := (Text.spanBy_eq_nil_iff rfl).1 (Text.spanBy_rest h)
  refine Text.spanBy_replace (fun c w hc => ?_) ?_ h
  · simp only [opensEscapeRun, Bool.and_eq_true, Bool.not_eq_true'] at hc ⊢
    exact ⟨hc.1, (ha.append (c :: w)).opensComment_eq_false hc.2⟩
  · rcases hw with rfl | ⟨b, rfl⟩
    · rfl
    · simp only [opensEscapeRun, Bool.and_eq_false_iff, Bool.not_eq_false'] at hr ⊢
      rw [opensComment_eq] at hr ⊢
      rcases hr with hr | hr
      · exact .inl (ha.opensWith_eq_false (by decide) hr)
      · exact .inr (opensPair_append hr b)

theorem escapeRun_replace {t u r r' : Text} (h : escapeRun t = (u, r)) (ha : Ahead r r')
    (hw : r' = [] ∨ r <+: r') : escapeRun (u ++ r') = (u, r') := by
  have ht : u ++ r = t := by simpa [h] using escapeRun_append t
  subst ht
  unfold escapeRun at h ⊢
  split at h
  · rename_i hq
    simp only [Prod.mk.injEq] at h
    obtain ⟨rfl, -⟩ := h
    rcases hw with rfl | ⟨b, rfl⟩
    · rfl
    · exact if_pos (opensWith_append hq b)
  · rename_i hq
    rw [if_neg]
    · exact escapeRunTail_replace h ha hw
    · rw [Bool.not_eq_true] at hq ⊢
      exact (ha.append u).opensWith_eq_false (by decide) hq

end LesTokens
