/-
Runs of one line ending. A run goes on exactly as long as the text opens with its ending
(`LineEnding.run_eq_nil_iff`), and it is taken before any other rest that opens with the same line
ending as its own, or is empty (`LineEnding.run_replace`).
-/
import LesTokens.Proofs.Dispatch

namespace LesTokens.LineEnding

theorem opening?_append {t : Text} (h : 2 ≤ t.length) (b : Text) :
    opening? (t ++ b) = opening? t := by
  match t, h with
  | c :: d :: t, _ =>
    by_cases hr : c = '\r'
    · subst hr
      by_cases hn : d = '\n'
      · subst hn
        rfl
      · simp [opening?, hn]
    · by_cases hn : c = '\n'
      · subst hn
        rfl
      · simp [opening?, hr, hn]

/-- Two characters decide on a line ending, and one does unless it is a `\r`. -/
theorem opening?_append_lf {t : Text} (h : t ≠ []) (hr : t ≠ ['\r']) (b : Text) :
    opening? (t ++ '\n' :: b) = opening? t := by
  match t, h with
  | [c], _ =>
    have hc : c ≠ '\r' := by simpa using hr
    by_cases hn : c = '\n'
    · subst hn
      rfl
    · have hl : isLineEnd c = false := by simp [isLineEnd, hc, hn]
      rw [opening?_eq_none_iff.2 hl]
      exact opening?_eq_none_iff.2 hl
  | c :: d :: t, _ => exact opening?_append (by simp) _

theorem opening?_eq_lf_iff {t : Text} : opening? t = some .lf ↔ ∃ s, t = '\n' :: s := by
  fun_cases opening? t <;> simp_all

theorem run_of_ne {ending : LineEnding} {t : Text} (h : opening? t ≠ some ending) :
    run ending t = ([], t) := by
  fun_cases run ending t <;> simp_all [opening?]

theorem run_eq_nil_iff {ending : LineEnding} {t : Text} :
    run ending t = ([], t) ↔ opening? t ≠ some ending := by
  refine ⟨fun h ho => run_ne_nil ho ?_, run_of_ne⟩
  rw [h]

theorem isLineEnd_of_mem_run {ending : LineEnding} {t : Text} :
    ∀ c ∈ (run ending t).1, isLineEnd c = true := by
  fun_induction run ending t <;> simp_all [isLineEnd]

theorem opening?_of_run {ending : LineEnding} {t : Text} (h : (run ending t).1 ≠ []) :
    opening? t = some ending := by
  by_cases ho : opening? t = some ending
  · exact ho
  · rw [run_of_ne ho] at h
    exact absurd rfl h

theorem run_cr {t : Text} (h : opening? t ≠ some .lf) :
    run .cr ('\r' :: t) = ('\r' :: (run .cr t).1, (run .cr t).2) := by
  cases t with
  | nil => rfl
  | cons c t =>
    have hc : c ≠ '\n' := by
      rintro rfl
      exact h rfl
    simp [run, hc]

/-- **A run is taken before another rest**, if that opens with the same line ending or is empty. -/
theorem run_replace {ending : LineEnding} {t u r r' : Text} (h : run ending t = (u, r))
    (hr : r' = [] ∨ opening? r' = opening? r) : run ending (u ++ r') = (u, r') := by
  have stop (hs : run ending r = ([], r)) : run ending r' = ([], r') := by
    rcases hr with rfl | hr
    · rfl
    · exact run_of_ne (hr ▸ run_eq_nil_iff.1 hs)
  fun_induction run ending t generalizing u with
  | case1 t he taken rest hrun ih =>
    simp only [Prod.mk.injEq] at h
    obtain ⟨rfl, rfl⟩ := h
    subst he
    simp [run, ih hrun]
  | case3 t ht he taken rest hrun ih =>
    simp only [Prod.mk.injEq] at h
    obtain ⟨rfl, rfl⟩ := h
    subst he
    -- The last `\r` of the run does not turn into the first half of a `\r\n`.
    have ho : opening? (taken ++ r') ≠ some .lf := by
      cases taken with
      | nil =>
        have hrest : rest = t := by simpa [hrun] using run_append .cr t
        rcases hr with rfl | hr
        · simp [opening?]
        · rw [List.nil_append, hr, hrest, ne_eq, opening?_eq_lf_iff]
          rintro ⟨s, e⟩
          exact ht s e
      | cons c taken =>
        rw [opening?_of_run (by rw [ih hrun]; simp)]
        simp
    rw [List.cons_append, run_cr ho, ih hrun]
  | case5 t he taken rest hrun ih =>
    simp only [Prod.mk.injEq] at h
    obtain ⟨rfl, rfl⟩ := h
    subst he
    simp [run, ih hrun]
  | case2 | case4 | case6 | case7 =>
    simp only [Prod.mk.injEq] at h
    obtain ⟨rfl, rfl⟩ := h
    exact stop (by simp_all [run])

end LesTokens.LineEnding
