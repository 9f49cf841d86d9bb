/-
Scanning covers the source. Wherever a scanner starts, inside a character too, it stands in the
source after each call (`ByteScanner.StandsIn`), as many bytes further on as the extent it gave is
long. So its extents add up to what there was ahead, and at the end it stays where it is
(`ByteScanner.Covers`).

**`Text.scan_covers`** has both readings: the calls of a scanner from any offset, and the spans of
the tokens of a source.
-/
import Mathlib
import LesTokens.Proofs.Stream

namespace LesTokens

namespace ByteScanner

/-- The scanner after a number of calls. -/
def after (s : ByteScanner) : Nat → ByteScanner
  | 0 => s
  | k + 1 => (s.after k).next.2

/-- What a call gives, counted from none. -/
def extentAt (s : ByteScanner) (k : Nat) : Extent := (s.after k).next.1

/-- A scanner stands in a source: behind a part of it, at most all of which it has still to pass as
stray bytes. -/
structure StandsIn (source : Text) (s : ByteScanner) : Prop where
  split : ∃ front, front ++ s.scanner.rest = source ∧ s.scanner.position = Text.size front
  stray_le : s.stray ≤ s.scanner.position

/-- The number of calls until the end. -/
def remaining (s : ByteScanner) : Nat := s.stray + s.scanner.lexemes.length

/-- A run of `n` calls from an offset covers the rest of a source: each call gives at least a byte
and moves by what it gives, the bytes add up to the rest, every call after that gives the end of
the input and does not move, and from a boundary between characters every call leads to another. -/
structure Covers (source : Text) (offset : Nat) (s : ByteScanner) (n : Nat) : Prop where
  starts : s.position = offset
  advances : ∀ k < n, 1 ≤ (s.extentAt k).length
  moves : ∀ k, (s.after (k + 1)).position = (s.after k).position + (s.extentAt k).length
  within : ∀ k, (s.after k).position ≤ source.size
  total : ((List.range n).map fun k => (s.extentAt k).length).sum = source.size - offset
  stops : ∀ k, n ≤ k → s.extentAt k = ⟨.endOfInput, 0⟩ ∧ s.after (k + 1) = s.after k
  boundaries : (source.splitAt? offset).isSome →
    ∀ k, (source.splitAt? (s.after k).position).isSome

/-! ## One call -/

theorem next_of_stray (stray : Nat) (scanner : Scanner) :
    next ⟨stray + 1, scanner⟩ = (⟨.unknown, 1⟩, ⟨stray, scanner⟩) := rfl

theorem next_of_none {scanner : Scanner} (h : scanner.next? = none) :
    next ⟨0, scanner⟩ = (⟨.endOfInput, 0⟩, ⟨0, scanner⟩) := by
  simp only [next, h]

theorem next_of_some {scanner scanner' : Scanner} {l : Lexeme}
    (h : scanner.next? = some (l, scanner')) :
    next ⟨0, scanner⟩ = (l.extent, ⟨0, scanner'⟩) := by
  simp only [next, h]

theorem StandsIn.next {source : Text} {s : ByteScanner} (h : StandsIn source s) :
    StandsIn source s.next.2 ∧ s.next.2.position = s.position + s.next.1.length := by
  obtain ⟨⟨front, hsource, hposition⟩, hstray⟩ := h
  rcases s with ⟨stray, position, before, rest⟩
  dsimp only at hsource hposition hstray
  cases stray with
  | succ stray =>
    rw [next_of_stray]
    refine ⟨⟨⟨front, hsource, hposition⟩, Nat.le_of_succ_le hstray⟩, ?_⟩
    simp only [ByteScanner.position]
    omega
  | zero =>
    cases rest with
    | nil =>
      rw [next_of_none (Scanner.next?_nil ..)]
      exact ⟨⟨⟨front, hsource, hposition⟩, hstray⟩, rfl⟩
    | cons c t =>
      rcases hscan : Lexeme.scan before c t with ⟨l, r⟩
      rw [next_of_some (Scanner.next?_cons hscan position)]
      have hs : l.text ++ r = c :: t := (Lexeme.Splits.of_scan hscan).2
      refine ⟨⟨⟨front ++ l.text, ?_, ?_⟩, Nat.zero_le _⟩, rfl⟩
      · rw [List.append_assoc, hs, hsource]
      · rw [Text.size_append, hposition]

/-- Only the start of a scanner has stray bytes. -/
theorem stray_next {s : ByteScanner} (h : s.stray = 0) : s.next.2.stray = 0 := by
  rcases s with ⟨stray, scanner⟩
  obtain rfl : stray = 0 := h
  cases hn : scanner.next? with
  | none => rw [next_of_none hn]
  | some x => rw [next_of_some (hn : _ = some (x.1, x.2))]

theorem next_of_remaining {s : ByteScanner} {n : Nat} (h : s.remaining = n + 1) :
    1 ≤ s.next.1.length ∧ s.next.2.remaining = n := by
  rcases s with ⟨stray, position, before, rest⟩
  cases stray with
  | succ stray =>
    rw [next_of_stray]
    refine ⟨Nat.le_refl 1, ?_⟩
    simp only [remaining] at h ⊢
    omega
  | zero =>
    cases rest with
    | nil => simp [remaining, Scanner.lexemes_of_none (Scanner.next?_nil ..)] at h
    | cons c t =>
      rcases hscan : Lexeme.scan before c t with ⟨l, r⟩
      have hnext := Scanner.next?_cons hscan position
      have hne : l.text ≠ [] := (Lexeme.Splits.of_scan hscan).1
      rw [next_of_some hnext]
      refine ⟨Text.size_pos hne, ?_⟩
      simp only [remaining, Scanner.lexemes_of_some hnext, List.length_cons] at h ⊢
      omega

theorem rest_of_remaining {s : ByteScanner} (h : s.remaining = 0) :
    s.stray = 0 ∧ s.scanner.rest = [] ∧ s.next = (⟨.endOfInput, 0⟩, s) := by
  rcases s with ⟨stray, position, before, rest⟩
  simp only [remaining, Nat.add_eq_zero_iff, List.length_eq_zero_iff] at h
  obtain ⟨rfl, hl⟩ := h
  cases rest with
  | nil => exact ⟨rfl, rfl, next_of_none (Scanner.next?_nil ..)⟩
  | cons c t =>
    rcases hscan : Lexeme.scan before c t with ⟨l, r⟩
    rw [Scanner.lexemes_of_some (Scanner.next?_cons hscan position)] at hl
    simp at hl

/-! ## Many calls -/

theorem StandsIn.after {source : Text} {s : ByteScanner} (h : StandsIn source s) (k : Nat) :
    StandsIn source (s.after k) := by
  induction k with
  | zero => exact h
  | succ k ih => exact ih.next.1

theorem stray_after {s : ByteScanner} (h : s.stray = 0) (k : Nat) : (s.after k).stray = 0 := by
  induction k with
  | zero => exact h
  | succ k ih => exact stray_next ih

theorem remaining_after (s : ByteScanner) {k : Nat} (h : k ≤ s.remaining) :
    (s.after k).remaining = s.remaining - k := by
  induction k with
  | zero => rfl
  | succ k ih =>
    refine (next_of_remaining ?_).2
    rw [ih (Nat.le_of_succ_le h)]
    omega

theorem remaining_after_of_le {s : ByteScanner} {k : Nat} (h : s.remaining ≤ k) :
    (s.after k).remaining = 0 := by
  induction k with
  | zero => exact Nat.le_zero.1 h
  | succ k ih =>
    by_cases hk : s.remaining ≤ k
    · rw [after, (rest_of_remaining (ih hk)).2.2]
      exact ih hk
    · rw [remaining_after s (by omega)]
      omega

theorem StandsIn.position_le {source : Text} {s : ByteScanner} (h : StandsIn source s) :
    s.position ≤ source.size ∧ (s.remaining = 0 → s.position = source.size) := by
  obtain ⟨⟨front, hsource, hposition⟩, hstray⟩ := h
  have hsize : Text.size front + s.scanner.rest.size = source.size := by
    rw [← hsource, Text.size_append]
  constructor
  · rw [position]
    omega
  · intro hr
    obtain ⟨hz, hrest, -⟩ := rest_of_remaining hr
    rw [hrest, Text.size_nil] at hsize
    rw [position]
    omega

theorem StandsIn.boundary {source : Text} {s : ByteScanner} (h : StandsIn source s)
    (hz : s.stray = 0) : (source.splitAt? s.position).isSome := by
  obtain ⟨⟨front, hsource, hposition⟩, -⟩ := h
  rw [position, hz, Nat.sub_zero, hposition, ← hsource, Text.splitAt?_size_append]
  rfl

/-- **A scanner that stands in a source covers the rest of it.** -/
theorem StandsIn.covers {source : Text} {s : ByteScanner} (h : StandsIn source s)
    (hb : (source.splitAt? s.position).isSome → s.stray = 0) :
    Covers source s.position s s.remaining := by
  have hmoves (k : Nat) : (s.after (k + 1)).position =
      (s.after k).position + (s.extentAt k).length := (h.after k).next.2
  have hsum (n : Nat) : s.position + ((List.range n).map fun k => (s.extentAt k).length).sum =
      (s.after n).position := by
    induction n with
    | zero => rfl
    | succ n ih =>
      rw [List.range_succ, List.map_append, List.sum_append, hmoves, ← ih]
      simp [Nat.add_assoc]
  refine ⟨rfl, fun k hk => ?_, hmoves, fun k => (h.after k).position_le.1, ?_, fun k hk => ?_,
    fun hp k => (h.after k).boundary (stray_after (hb hp) k)⟩
  · refine (next_of_remaining (n := s.remaining - k - 1) ?_).1
    rw [remaining_after s (Nat.le_of_lt hk)]
    omega
  · have hend := (h.after s.remaining).position_le.2 (remaining_after_of_le (Nat.le_refl _))
    have hn := hsum s.remaining
    omega
  · have hnext := (rest_of_remaining (remaining_after_of_le hk)).2.2
    rw [extentAt, ByteScanner.after, hnext]
    exact ⟨rfl, rfl⟩

/-! ## Where a scanner starts -/

/-- A scanner that is to start at an offset of a text stands in the text at that offset, and has
stray bytes only if that lies inside a character. -/
theorem startFrom_spec (passed : Nat) (before : Option Char) (t : Text) {offset : Nat}
    (h : offset ≤ t.size) :
    (∃ front, front ++ (startFrom passed before t offset).scanner.rest = t ∧
      (startFrom passed before t offset).scanner.position = passed + Text.size front ∧
      Text.size front = offset + (startFrom passed before t offset).stray) ∧
    ((t.splitAt? offset).isSome → (startFrom passed before t offset).stray = 0) := by
  fun_induction startFrom passed before t offset with
  | case1 passed before offset =>
    obtain rfl : offset = 0 := Nat.le_zero.1 h
    exact ⟨⟨[], rfl, rfl, rfl⟩, fun _ => rfl⟩
  | case2 passed before c t => exact ⟨⟨[], rfl, rfl, rfl⟩, fun _ => rfl⟩
  | case3 passed before c t offset hc ih =>
    rw [Text.size_cons] at h
    obtain ⟨⟨front, hsource, hposition, hsize⟩, hb⟩ := ih (by omega)
    refine ⟨⟨c :: front, by rw [List.cons_append, hsource], ?_, ?_⟩, fun hs => hb ?_⟩
    · rw [hposition, Text.size_cons, Nat.add_assoc]
    · rw [Text.size_cons]
      omega
    · rwa [Text.splitAt?_cons t hc, Option.isSome_map] at hs
  | case4 passed before c t offset hc =>
    refine ⟨⟨[c], rfl, rfl, ?_⟩, fun hs => ?_⟩
    · simp only [Text.size_cons, Text.size_nil]
      omega
    · simp [Text.splitAt?, hc] at hs

theorem standsIn_start {source : Text} {offset : Nat} (h : offset ≤ source.size) :
    StandsIn source (start source offset) ∧ (start source offset).position = offset ∧
      ((source.splitAt? offset).isSome → (start source offset).stray = 0) := by
  obtain ⟨⟨front, hsource, hposition, hsize⟩, hb⟩ := startFrom_spec 0 none source h
  rw [Nat.zero_add] at hposition
  refine ⟨⟨⟨front, hsource, hposition⟩, ?_⟩, ?_, hb⟩
  · show (startFrom 0 none source offset).stray ≤ (startFrom 0 none source offset).scanner.position
    omega
  · show (startFrom 0 none source offset).scanner.position -
      (startFrom 0 none source offset).stray = offset
    omega

end ByteScanner

/-! ## Tokens -/

/-- Spans that follow one another from an offset to another, none of them empty. -/
def Tiles : Nat → Nat → List Span → Prop
  | lo, hi, [] => lo = hi
  | lo, hi, s :: spans => s.start = lo ∧ s.start < s.stop ∧ Tiles s.stop hi spans

theorem Lexeme.evaluateAll_tiles (offset : Nat) {ls : List Lexeme} (h : ∀ l ∈ ls, l.text ≠ []) :
    Tiles offset (offset + Text.size (ls.flatMap text))
      ((evaluateAll offset ls).map (·.1.span)) := by
  induction ls generalizing offset with
  | nil => rfl
  | cons l ls ih =>
    have hpos := Text.size_pos (h l List.mem_cons_self)
    refine ⟨rfl, ?_, ?_⟩
    · show offset < offset + l.text.size
      omega
    · have hrest := ih (offset + l.text.size) fun l' hl => h l' (List.mem_cons_of_mem l hl)
      rw [List.flatMap_cons, Text.size_append, ← Nat.add_assoc]
      exact hrest

/-- **Scanning covers the source**: the calls of a scanner from any offset cover what is ahead, and
the tokens of the source tile it. -/
theorem Text.scan_covers (source : Text) :
    (∀ offset ≤ source.size,
      ∃ n, ByteScanner.Covers source offset (ByteScanner.start source offset) n) ∧
    Tiles 0 source.size (source.tokenize.tokens.map (·.span)) := by
  constructor
  · intro offset h
    obtain ⟨hs, hposition, hb⟩ := ByteScanner.standsIn_start h
    refine ⟨(ByteScanner.start source offset).remaining, ?_⟩
    have hc := hs.covers (by rwa [hposition])
    rwa [hposition] at hc
  · have ht := @Lexeme.evaluateAll_tiles 0 source.lexemes text_ne_nil_of_mem
    rw [lexemes_eq, flatMap_text_lexemesAfter, Nat.zero_add] at ht
    rw [tokenize_eq, lexemes_eq, List.map_map]
    exact ht

/-- From inside a character, before a NUL. -/
theorem Text.scan_covers_inside :
    ∃ n, ByteScanner.Covers ['é', '\x00'] 1 (ByteScanner.start ['é', '\x00'] 1) n :=
  (scan_covers ['é', '\x00']).1 1 (by decide)

end LesTokens
