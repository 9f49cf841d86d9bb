/-
Texts up to a delimiter. A quoted body is read one character at a time by `QuotedBody.read`, which
has a case for each thing a character can be; `QuotedBody.scan`, which skips ordinary characters
all at once, is the same function (`QuotedBody.scan_eq_read`). The split after a first occurrence
is described the same way, by its first character (`Text.splitAfter?_cons`).

What is read up to a delimiter does not depend on what follows the delimiter (`read_replace`,
`splitAfter?_replace`).
-/
import LesTokens.Lexeme
import LesTokens.Proofs.Runs

namespace LesTokens

namespace QuotedBody

/-- The body at the front of a text, read one character at a time. -/
@[grind =]
def read (quote : Char) : Text → QuotedBody
  | [] => ⟨[], false, []⟩
  | c :: t =>
    if c = quote then ⟨[c], true, t⟩
    else if isLineEnd c then ⟨[], false, c :: t⟩
    else if c = '\\' then
      match t with
      | [] => ⟨[c], false, []⟩
      | d :: t =>
        if isLineEnd d then ⟨[c], false, d :: t⟩
        else (read quote t).prepend [c, d]
    else (read quote t).prepend [c]

/-! ## One character at a time -/

theorem read_closing (quote : Char) (t : Text) : read quote (quote :: t) = ⟨[quote], true, t⟩ := by
  rw [read.eq_def]
  exact if_pos rfl

theorem read_lineEnd {quote c : Char} (hq : c ≠ quote) (hc : isLineEnd c = true) (t : Text) :
    read quote (c :: t) = ⟨[], false, c :: t⟩ := by
  rw [read.eq_def]
  dsimp only
  rw [if_neg hq, if_pos hc]

theorem read_backslash {quote d : Char} (hq : '\\' ≠ quote) (hd : isLineEnd d = false) (t : Text) :
    read quote ('\\' :: d :: t) = (read quote t).prepend ['\\', d] := by
  rw [read.eq_def]
  simp [hq, hd, show isLineEnd '\\' = false by decide]

theorem read_backslash_stop {quote : Char} (hq : '\\' ≠ quote) {t : Text}
    (ht : t = [] ∨ opensWith isLineEnd t = true) :
    read quote ('\\' :: t) = ⟨['\\'], false, t⟩ := by
  have hb : isLineEnd '\\' = false := by decide
  rw [read.eq_def]
  cases t with
  | nil => simp [hq, hb]
  | cons d t =>
    have hd : isLineEnd d = true := by simpa [opensWith] using ht
    simp [hq, hb, hd]

theorem read_plain {quote c : Char} (h : isPlain quote c = true) (t : Text) :
    read quote (c :: t) = (read quote t).prepend [c] := by
  have hc : ¬c = quote ∧ ¬c = '\\' ∧ isLineEnd c = false := by simpa [isPlain, and_assoc] using h
  rw [read.eq_def]
  simp [hc]

theorem prepend_prepend (u v : Text) (b : QuotedBody) :
    (b.prepend v).prepend u = b.prepend (u ++ v) := by
  simp [prepend]

theorem read_append {quote : Char} {u : Text} (h : ∀ c ∈ u, isPlain quote c = true) (t : Text) :
    read quote (u ++ t) = (read quote t).prepend u := by
  induction u with
  | nil => rfl
  | cons c u ih =>
    rw [List.cons_append, read_plain (h c (by simp)), ih fun d hd => h d (by simp [hd]),
      prepend_prepend]
    rfl

/-- **Skipping ordinary characters reads the same body.** -/
theorem scan_eq_read (quote : Char) (t : Text) : scan quote t = read quote t := by
  -- What is skipped is read one by one, and then both look at the same character.
  have skip (t : Text) : read quote t =
      (read quote (t.dropWhile (isPlain quote))).prepend (t.takeWhile (isPlain quote)) := by
    rw [← read_append (List.all_eq_true.1 List.all_takeWhile), List.takeWhile_append_dropWhile]
  fun_induction scan quote t with
  | case1 t plain h =>
    rw [skip, h]
    simp [read, prepend, plain]
  | case2 t plain after h =>
    rw [skip, h, read_closing]
    rfl
  | case3 t plain hq _ h =>
    rw [skip, h, read_backslash_stop hq (.inl rfl)]
    rfl
  | case4 t plain d after hd hq _ h =>
    rw [skip, h, read_backslash_stop hq (.inr (by simpa [opensWith] using hd))]
    rfl
  | case5 t plain d after hd hq _ h ih =>
    rw [skip t, h, ih, read_backslash hq (by simpa using hd), prepend_prepend]
  | case6 t plain c after h hq hb =>
    -- What stopped the skipping is a line end, being neither the quote nor a backslash.
    have hs := opensWith_dropWhile (isPlain quote) t
    have hc : isLineEnd c = true := by simpa [h, opensWith, isPlain, hq, hb] using hs
    rw [skip, h, read_lineEnd hq hc]
    simp [prepend, plain]

/-! ## Another rest -/

theorem rest_of_not_closed {quote : Char} {t : Text} (h : (read quote t).closed = false) :
    (read quote t).rest = [] ∨ opensWith isLineEnd (read quote t).rest = true := by
  fun_induction read quote t with
  | case1 => exact .inl rfl
  | case2 t => simp at h
  | case3 c t hc hl => exact .inr hl
  | case4 hc hl => exact .inl rfl
  | case5 d t hd hc hl => exact .inr hd
  | case6 d t hd hc hl ih => exact ih h
  | case7 c t hc hl hb ih => exact ih h

/-- **What is read up to the closing quote, or up to a stop before another stop, does not depend on
what follows.** -/
theorem read_replace {quote : Char} {t r' : Text} (hq : isLineEnd quote = false)
    (hr : (read quote t).closed = true ∨ r' = [] ∨ opensWith isLineEnd r' = true) :
    read quote ((read quote t).text ++ r') = { read quote t with rest := r' } := by
  have stop {w : Text} (hw : w = [] ∨ opensWith isLineEnd w = true) :
      read quote w = ⟨[], false, w⟩ := by
    cases w with
    | nil => rfl
    | cons c w =>
      have hc : isLineEnd c = true := by simpa [opensWith] using hw
      exact read_lineEnd (by rintro rfl; simp [hc] at hq) hc w
  fun_induction read quote t with
  | case1 => exact stop (by simpa using hr)
  | case2 t => exact read_closing quote r'
  | case3 c t hc hl => exact stop (by simpa using hr)
  | case4 hc hl => exact read_backslash_stop hc (by simpa using hr)
  | case5 d t hd hc hl => exact read_backslash_stop hc (by simpa using hr)
  | case6 d t hd hc hl ih =>
    simp only [prepend, List.cons_append, List.nil_append]
    rw [read_backslash hc (by simpa using hd), ih hr]
    rfl
  | case7 c t hc hl hb ih =>
    simp only [prepend, List.cons_append, List.nil_append]
    rw [read_plain (by simp [isPlain, hc, hl, hb]), ih hr]
    rfl

end QuotedBody

/-! ## The first occurrence -/

namespace Text

theorem occurrenceFrom?_eq_map (needle : Text) (i : Nat) (t : Text) :
    occurrenceFrom? needle i t = (occurrenceFrom? needle 0 t).map (· + i) := by
  induction t generalizing i with
  | nil =>
    simp only [occurrenceFrom?]
    split <;> simp
  | cons c t ih =>
    simp only [occurrenceFrom?]
    split
    · simp
    · rw [ih (i + 1), ih (0 + 1), Option.map_map]
      congr 1
      funext n
      simp
      omega

theorem splitAfter?_nil {needle : Text} (hn : needle ≠ []) : splitAfter? needle [] = none := by
  simp [splitAfter?, occurrence?, occurrenceFrom?, hn]

theorem splitAfter?_cons (needle : Text) (c : Char) (t : Text) :
    splitAfter? needle (c :: t) =
      if needle.isPrefixOf (c :: t) then some ((c :: t).splitAt needle.length)
      else (splitAfter? needle t).map fun (a, b) => (c :: a, b) := by
  rw [splitAfter?, occurrence?, occurrenceFrom?]
  split
  · simp
  · rw [occurrenceFrom?_eq_map, splitAfter?, occurrence?, Option.map_map, Option.map_map]
    congr 1
    funext i
    simp [show i + 1 + needle.length = i + needle.length + 1 by omega]

/-- **A text is split where the needle ends for the first time.** -/
theorem splitAfter?_eq_some_iff {needle t a b : Text} (hn : needle ≠ []) :
    splitAfter? needle t = some (a, b) ↔
      a ++ b = t ∧ needle <:+ a ∧ ∀ u v, a = u ++ needle ++ v → v = [] := by
  induction t generalizing a with
  | nil =>
    rw [splitAfter?_nil hn]
    refine iff_of_false (by simp) ?_
    rintro ⟨hab, hs, -⟩
    obtain ⟨rfl, -⟩ := List.append_eq_nil_iff.1 hab
    exact hn (List.suffix_nil.1 hs)
  | cons c t ih =>
    rw [splitAfter?_cons]
    split
    · rename_i hp
      obtain ⟨w, hw⟩ := List.isPrefixOf_iff_prefix.1 hp
      rw [← hw]
      simp only [List.splitAt_eq, List.take_left, List.drop_left, Option.some.injEq, Prod.mk.injEq]
      constructor
      · rintro ⟨rfl, rfl⟩
        refine ⟨rfl, List.suffix_refl _, fun u v h => ?_⟩
        have hl := congrArg List.length h
        simp only [List.length_append] at hl
        exact List.eq_nil_of_length_eq_zero (by omega)
      · rintro ⟨hab, hs, hfirst⟩
        obtain ⟨v, rfl⟩ : needle <+: a :=
          List.prefix_of_prefix_length_le ⟨w, rfl⟩ ⟨b, hab⟩ hs.length_le
        obtain rfl := hfirst [] v rfl
        simpa using hab.symm
    · rename_i hp
      rw [List.isPrefixOf_iff_prefix] at hp
      rw [Option.map_eq_some_iff]
      constructor
      · rintro ⟨⟨a', b'⟩, h, e⟩
        simp only [Prod.mk.injEq] at e
        obtain ⟨rfl, rfl⟩ := e
        obtain ⟨hab, hs, hfirst⟩ := ih.1 h
        refine ⟨by rw [List.cons_append, hab], hs.trans (List.suffix_cons c a'), fun u v e => ?_⟩
        cases u with
        | nil =>
          refine absurd ⟨v ++ b', ?_⟩ hp
          rw [← hab, ← List.cons_append, e]
          simp
        | cons d u =>
          simp only [List.cons_append, List.cons.injEq] at e
          exact hfirst u v e.2
      · rintro ⟨hab, hs, hfirst⟩
        cases a with
        | nil => exact absurd (List.suffix_nil.1 hs) hn
        | cons d a =>
          simp only [List.cons_append, List.cons.injEq] at hab
          obtain ⟨rfl, rfl⟩ := hab
          refine ⟨(a, b), ih.2 ⟨rfl, ?_, fun u v e => ?_⟩, rfl⟩
          · rcases List.suffix_cons_iff.1 hs with rfl | hs
            · exact absurd ⟨b, rfl⟩ hp
            · exact hs
          · exact hfirst (d :: u) v (by rw [e]; rfl)

theorem splitAfter?_eq_none_iff {needle t : Text} (hn : needle ≠ []) :
    splitAfter? needle t = none ↔ ¬needle <:+: t := by
  induction t with
  | nil => simp [splitAfter?_nil hn, hn]
  | cons c t ih =>
    rw [splitAfter?_cons, List.infix_cons_iff, not_or, ← ih, ← List.isPrefixOf_iff_prefix]
    split <;> simp_all

theorem splitAfter?_replace {needle t a b : Text} (hn : needle ≠ [])
    (h : splitAfter? needle t = some (a, b)) (r : Text) :
    splitAfter? needle (a ++ r) = some (a, r) :=
  (splitAfter?_eq_some_iff hn).2 ⟨rfl, ((splitAfter?_eq_some_iff hn).1 h).2⟩

end Text

end LesTokens
