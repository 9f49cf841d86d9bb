/-
Where the separators of a number stand. A run of digits takes a separator if a digit follows it, and
does not look at what stands before it. Inside a run that is a digit as well; at the front of a run
it is what the run follows (`digitRun_separator`). A run that is entered at a digit has no separator
at its front: the integer run of a number without a base prefix, a fraction, an exponent without a
sign. The integer run behind a base prefix and the digits behind the sign of an exponent are entered
at any character.

**`Text.separators_placed`**: each separator of a number is followed by a digit of its run, and
preceded by one, by a base prefix or by the sign of an exponent.
-/
import LesTokens.Proofs.NumberParts

namespace LesTokens

/-! ## Separators of a run -/

/-- Whether a text ends with a character of a class. -/
def endsWith (p : Char → Bool) (t : Text) : Bool := t.getLast?.any p

theorem endsWith_cons {p : Char → Bool} {c : Char} {t : Text} (h : endsWith p t = true) :
    endsWith p (c :: t) = true := by
  cases t with
  | nil => cases h
  | cons d t =>
    rw [endsWith, List.getLast?_cons_cons]
    exact h

/-- How a separator stands in a run: a digit follows it, and precedes it unless it is the first
character. -/
def SeparatesRun (base : Base) (u v : Text) : Prop :=
  opensWith base.isDigit v = true ∧ (u = [] ∨ endsWith base.isDigit u = true)

theorem not_isDigit_separator (base : Base) : base.isDigit '_' = false := by
  cases base <;> decide

/-- **A separator of a run stands before a digit**, and behind one if it is not the first. -/
theorem digitRun_separator {base : Base} {t u v : Text} (h : (digitRun base t).1 = u ++ '_' :: v) :
    SeparatesRun base u v := by
  induction t generalizing u with
  | nil => cases u <;> cases h
  | cons c t ih =>
    unfold digitRun at h
    split at h
    · rename_i hc
      simp only [Bool.or_eq_true, Bool.and_eq_true, decide_eq_true_eq] at hc
      cases u with
      | nil =>
        obtain ⟨rfl, rfl⟩ := List.cons.inj h
        rw [not_isDigit_separator] at hc
        exact ⟨opensWith_digitRun (hc.resolve_left Bool.false_ne_true).2, .inl rfl⟩
      | cons d u =>
        obtain ⟨rfl, hrun⟩ := List.cons.inj h
        obtain ⟨hnext, hu⟩ := ih hrun
        refine ⟨hnext, .inr ?_⟩
        rcases hu with rfl | hu
        · -- What stands before the second character of a run is a digit, or a digit would follow it.
          rcases hc with hc | ⟨-, ht⟩
          · exact hc
          · have hopens := opensWith_digitRun ht
            rw [hrun] at hopens
            exact absurd hopens (by simp [opensWith_cons, not_isDigit_separator])
        · exact endsWith_cons hu
    · cases u <;> cases h

theorem append_eq_append_cons {α : Type} {xs ys u v : List α} {a : α} (h : xs ++ ys = u ++ a :: v) :
    (∃ w, xs = u ++ a :: w ∧ v = w ++ ys) ∨ ∃ w, u = xs ++ w ∧ ys = w ++ a :: v := by
  rcases List.append_eq_append_iff.1 h with ⟨w, hu, hys⟩ | ⟨w, hxs, hv⟩
  · exact .inr ⟨w, hu, hys⟩
  · cases w with
    | nil =>
      rw [List.append_nil] at hxs
      exact .inr ⟨[], by simp [hxs], by simpa using hv.symm⟩
    | cons b w =>
      obtain ⟨rfl, rfl⟩ := List.cons.inj hv
      exact .inl ⟨w, hxs, rfl⟩

theorem integerRun_separator {base : Base} {t u v : Text}
    (h : (integerRun base t).1 = u ++ '_' :: v) : SeparatesRun base u v := by
  unfold integerRun at h
  dsimp only at h
  split at h
  · rcases append_eq_append_cons h with ⟨w, hdigits, rfl⟩ | ⟨w, -, hstray⟩
    · obtain ⟨hnext, hu⟩ := digitRun_separator hdigits
      exact ⟨opensWith_append hnext _, hu⟩
    · -- The digits that base two does not have are taken without separators.
      have hmem : '_' ∈ (digitRun base t).2.takeWhile Char.isDigit := by simp [hstray]
      exact absurd (List.all_eq_true.1 List.all_takeWhile _ hmem) (by decide)
  · exact digitRun_separator h

theorem opensWith_separator {base : Base} {t : Text} (h : opensWith base.isDigit t = true) :
    opensWith (· = '_') t = false := by
  cases t with
  | nil => rfl
  | cons c t =>
    rw [opensWith_cons] at h ⊢
    refine decide_eq_false ?_
    rintro rfl
    rw [not_isDigit_separator] at h
    cases h

/-! ## The places of a number -/

/-- A character of a number, and the base of the run of digits it stands in, if it stands in one. -/
structure Place where
  char : Char
  base? : Option Base
  deriving DecidableEq, Repr

/-- A digit of a run. -/
structure Place.IsDigit (p : Place) (base : Base) : Prop where
  inRun : p.base? = some base
  digit : base.isDigit p.char = true

/-- The characters of a segment. -/
def Text.places (base? : Option Base) (t : Text) : List Place := t.map fun c => ⟨c, base?⟩

/-- A separator of a run, and the places before and behind it: a digit of the run follows it, and one
precedes it unless the run starts there, behind a base prefix or a sign. -/
structure Separates (before : List Place) (base : Base) (behind : List Place) : Prop where
  followed : ∃ p, behind.head? = some p ∧ p.IsDigit base
  preceded : (∃ p, before.getLast? = some p ∧ p.IsDigit base) ∨
    ∃ c, before.getLast? = some ⟨c, none⟩ ∧ (isBaseLetter c || isSign c) = true

/-- Whether each separator of some places is one of a run, with places before and behind them. -/
def Separated (before places behind : List Place) : Prop :=
  ∀ u base? v, places = u ++ ⟨'_', base?⟩ :: v →
    ∃ base, base? = some base ∧ Separates (before ++ u) base (v ++ behind)

theorem Separated.append {before behind ps qs : List Place} (hp : Separated before ps (qs ++ behind))
    (hq : Separated (before ++ ps) qs behind) : Separated before (ps ++ qs) behind := by
  intro u base? v h
  rcases append_eq_append_cons h with ⟨w, hps, rfl⟩ | ⟨w, rfl, hqs⟩
  · rw [List.append_assoc]
    exact hp u base? w hps
  · rw [← List.append_assoc]
    exact hq w base? v hqs

theorem separated_of_not_mem {base? : Option Base} {t : Text} (h : '_' ∉ t)
    (before behind : List Place) : Separated before (t.places base?) behind := by
  intro u run? v hu
  have hmem : ⟨'_', run?⟩ ∈ t.places base? := by simp [hu]
  obtain ⟨c, hc, hplace⟩ := List.mem_map.1 hmem
  rw [Place.mk.injEq] at hplace
  exact absurd (hplace.1 ▸ hc) h

theorem separated_nil (before behind : List Place) : Separated before [] behind := by
  intro u run? v hu
  simp at hu

theorem separated_of_run {base : Base} {t : Text} {before behind : List Place}
    (h : ∀ u v, t = u ++ '_' :: v → SeparatesRun base u v)
    (hfirst : opensWith (· = '_') t = true →
      ∃ c, before.getLast? = some ⟨c, none⟩ ∧ (isBaseLetter c || isSign c) = true) :
    Separated before (t.places (some base)) behind := by
  intro u base? v hu
  obtain ⟨a, r, rfl, rfl, hr⟩ := List.map_eq_append_iff.1 hu
  obtain ⟨c, b, rfl, hplace, rfl⟩ := List.map_eq_cons_iff.1 hr
  rw [Place.mk.injEq] at hplace
  obtain ⟨rfl, rfl⟩ := hplace
  obtain ⟨hnext, ha⟩ := h a b rfl
  refine ⟨base, rfl, ?_, ?_⟩
  · cases b with
    | nil => cases hnext
    | cons d b => exact ⟨⟨d, some base⟩, rfl, rfl, hnext⟩
  · rcases ha with rfl | ha
    · rw [List.map_nil, List.append_nil]
      exact .inr (hfirst rfl)
    · obtain ⟨d, hd, hdigit⟩ := (Option.any_eq_true _ _).1 ha
      refine .inl ⟨⟨d, some base⟩, ?_, rfl, hdigit⟩
      rw [List.getLast?_append, List.getLast?_map, hd]
      rfl

namespace Segments

def fractionPlaces (n : Segments) : List Place :=
  (n.fraction.map fun ds => Text.places none ['.'] ++ ds.places n.base).getD []

def exponentPlaces (n : Segments) : List Place :=
  (n.exponent.map fun e =>
    Text.places none (e.marker :: e.sign.toList) ++ e.digits.places (some .decimal)).getD []

/-- The characters of a number. -/
def places (n : Segments) : List Place :=
  n.basePrefix.places none ++ (n.integer.places n.base ++
    (n.fractionPlaces ++ (n.exponentPlaces ++ n.suffix.places none)))

theorem map_char_places (n : Segments) : n.places.map Place.char = n.text := by
  have hplaces (base? : Option Base) (t : Text) : (t.places base?).map Place.char = t := by
    rw [Text.places, List.map_map]
    exact List.map_id t
  unfold places fractionPlaces exponentPlaces text
  cases n.fraction <;> cases n.exponent <;>
    simp [hplaces, ExponentSegment.text]

end Segments

/-! ## Scanned numbers -/

theorem fractionRun_digits {base : Base} {t r ds : Text} (h : fractionRun base t = (some ds, r)) :
    ∃ s, ds = (digitRun base s).1 ∧ opensWith base.isDigit ds = true := by
  unfold fractionRun at h
  split at h
  · rename_i s
    split at h
    · rename_i hs
      obtain ⟨hds, -⟩ := Prod.mk.inj h
      obtain rfl := Option.some.inj hds
      exact ⟨s, rfl, opensWith_digitRun hs⟩
    · cases h
  · cases h

theorem exponentRun_digits {base : Base} {t r : Text} {e : ExponentSegment}
    (h : exponentRun base t = (some e, r)) : ∃ s, e.digits = (digitRun .decimal s).1 ∧
      (e.sign = none → opensWith (Base.isDigit .decimal) e.digits = true) := by
  unfold exponentRun at h
  split at h
  · rename_i marker c s
    split at h
    · rename_i hcond
      rw [Bool.and_eq_true, Bool.or_eq_true] at hcond
      split at h
      · obtain ⟨he, -⟩ := Prod.mk.inj h
        obtain rfl := Option.some.inj he
        exact ⟨s, rfl, nofun⟩
      · rename_i hsign
        obtain ⟨he, -⟩ := Prod.mk.inj h
        obtain rfl := Option.some.inj he
        have hdigit : Base.isDigit .decimal c = true := hcond.2.resolve_right hsign
        exact ⟨c :: s, rfl, fun _ => opensWith_digitRun (t := c :: s) hdigit⟩
    · cases h
  · cases h

theorem opensNumber_of_separator {t : Text} (h : opensWith (· = '_') t = true) :
    opensNumber t = false := by
  cases t with
  | nil => cases h
  | cons c t =>
    obtain rfl : c = '_' := of_decide_eq_true h
    rfl

namespace Segments

/-- **The separators of a scanned number stand in its runs**, before a digit, and behind a digit, a
base prefix or a sign. -/
theorem separated_places {n : Segments} (hopens : opensNumber n.text = true)
    (h : scan n.text = (n, [])) : Separated [] n.places [] := by
  have hn := wellFormed_of_scan h
  have hparts : n.EndsBefore [] := scan_eq_iff.1 (by rw [List.append_nil, h])
  have hprefix := scanBase_prefix (n.text ++ [])
  rw [hparts.base, List.append_nil] at hprefix
  have hbase : n.basePrefix = [] ∧ n.integer ++ n.afterInteger = n.text ∨
      ∃ c, isBaseLetter c = true ∧ n.basePrefix = ['0', c] := by
    simpa using hprefix
  unfold places
  refine .append ?basePrefix (.append ?integer (.append ?fraction (.append ?exponent ?suffix)))
  case basePrefix =>
    refine separated_of_not_mem ?_ _ _
    rcases hbase with ⟨hnil, -⟩ | ⟨c, hc, hpre⟩
    · simp [hnil]
    · have hc : '_' ≠ c := by
        rintro rfl
        exact absurd hc (by decide)
      simpa [hpre] using hc
  case integer =>
    have hrun := congrArg Prod.fst hparts.integer
    refine separated_of_run (fun u v huv => integerRun_separator (hrun.trans huv)) fun hfirst => ?_
    rcases hbase with ⟨-, htext⟩ | ⟨c, hc, hpre⟩
    · -- Without a prefix the run starts where the number does, at a digit or a point.
      have hstart := opensWith_append hfirst n.afterInteger
      rw [htext] at hstart
      rw [opensNumber_of_separator hstart] at hopens
      cases hopens
    · exact ⟨c, by rw [hpre]; rfl, by rw [hc, Bool.true_or]⟩
  case fraction =>
    unfold fractionPlaces
    cases hf : n.fraction with
    | none => exact separated_nil _ _
    | some ds =>
      have hfraction := hparts.fraction
      rw [hf] at hfraction
      obtain ⟨s, rfl, hdigit⟩ := fractionRun_digits hfraction
      refine .append (separated_of_not_mem (by decide) _ _) ?_
      refine separated_of_run (fun u v => digitRun_separator) fun hfirst => ?_
      rw [opensWith_separator hdigit] at hfirst
      cases hfirst
  case exponent =>
    unfold exponentPlaces
    cases he : n.exponent with
    | none => exact separated_nil _ _
    | some e =>
      have hexponent := hparts.exponent
      rw [he] at hexponent
      obtain ⟨s, hdigits, hunsigned⟩ := exponentRun_digits hexponent
      obtain ⟨hmarker, hsign, -, -⟩ := hn.exponent e he
      refine .append (separated_of_not_mem ?_ _ _) ?_
      · intro hmem
        rcases List.mem_cons.1 hmem with hc | hc
        · rw [← hc] at hmarker
          exact absurd (eq_of_isExponentMarker hmarker) (by decide)
        · exact absurd (hsign _ (Option.mem_toList.1 hc)) (by decide)
      · refine separated_of_run (fun u v huv => digitRun_separator (hdigits.symm.trans huv)) ?_
        intro hfirst
        cases hc : e.sign with
        | none =>
          rw [opensWith_separator (hunsigned hc)] at hfirst
          cases hfirst
        | some c =>
          refine ⟨c, ?_, by rw [hsign c hc, Bool.or_true]⟩
          rw [List.getLast?_append]
          rfl
  case suffix =>
    have hall : ∀ s ∈ suffixes, '_' ∉ s := by decide
    exact separated_of_not_mem (hall n.suffix hn.suffix) _ _

end Segments

/-- **The separators of a number stand in its runs of digits.** A digit of the run follows each of
them, and precedes each of them but for the first of a run that follows a base prefix or the sign of
an exponent. -/
theorem Text.separators_placed {source : Text} {k : Nat} {l : Lexeme}
    (hl : source.lexemes[k]? = some l) (htag : l.tag = .number) :
    ∃ (rest : Text) (n : Segments) (negative : Bool),
      (source.lexemes.take k).flatMap Lexeme.text ++ (l.text ++ rest) = source ∧
      l.text = n.signed negative ∧ Segments.scan (n.text ++ rest) = (n, rest) ∧
      n.places.map Place.char = n.text ∧
      ∀ before base? behind, n.places = before ++ ⟨'_', base?⟩ :: behind →
        ∃ base, base? = some base ∧ Separates before base behind := by
  obtain ⟨rest, n, negative, hsource, htext, hproper, hscan⟩ := exists_number_of_getElem? hl htag
  refine ⟨rest, n, negative, hsource, htext, hscan, n.map_char_places, ?_⟩
  intro u base? v h
  obtain ⟨base, hbase, hseparates⟩ := Segments.separated_places hproper.1 hproper.2 u base? v h
  rw [List.append_nil] at hseparates
  exact ⟨base, hbase, hseparates⟩

/-- Separators within each run, behind the prefix and behind the sign. -/
theorem Text.separators_placed_everywhere :
    (Text.lexemes "-0x_1f.8_0p+_1_0".toList)[0]? = some ⟨.number, "-0x_1f.8_0p+_1_0".toList⟩ ∧
      ∃ (rest : Text) (n : Segments) (negative : Bool),
        "-0x_1f.8_0p+_1_0".toList ++ rest = "-0x_1f.8_0p+_1_0".toList ∧
        "-0x_1f.8_0p+_1_0".toList = n.signed negative ∧
        Segments.scan (n.text ++ rest) = (n, rest) ∧
        ∀ before base? behind, n.places = before ++ ⟨'_', base?⟩ :: behind →
          ∃ base, base? = some base ∧ Separates before base behind := by
  have hl : (Text.lexemes "-0x_1f.8_0p+_1_0".toList)[0]? =
      some ⟨.number, "-0x_1f.8_0p+_1_0".toList⟩ := by decide +kernel
  obtain ⟨rest, n, negative, hsource, htext, hscan, -, hseparates⟩ := separators_placed hl rfl
  exact ⟨hl, rest, n, negative, hsource, htext, hscan, hseparates⟩

/-- A separator directly behind the prefix of base sixteen. -/
theorem Text.not_forall_preceded :
    ¬∀ (source : Text) (k : Nat) (l : Lexeme) (rest : Text) (n : Segments) (negative : Bool),
      source.lexemes[k]? = some l → l.tag = .number → l.text = n.signed negative →
      Segments.scan (n.text ++ rest) = (n, rest) →
      ∀ before base? behind, n.places = before ++ ⟨'_', base?⟩ :: behind →
        ∃ base, base? = some base ∧ (∃ p, before.getLast? = some p ∧ p.IsDigit base) ∧
          ∃ p, behind.head? = some p ∧ p.IsDigit base := by
  intro h
  let n : Segments := ⟨.hexadecimal, ['0', 'x'], ['_', '1'], none, none, []⟩
  have hl : (Text.lexemes ['0', 'x', '_', '1'])[0]? = some ⟨.number, ['0', 'x', '_', '1']⟩ := by
    decide +kernel
  have hscan : Segments.scan (n.text ++ []) = (n, []) := by decide +kernel
  obtain ⟨base, -, ⟨p, hp, hdigit⟩, -⟩ := h _ 0 _ [] n false hl rfl rfl hscan
    [⟨'0', none⟩, ⟨'x', none⟩] (some .hexadecimal) [⟨'1', some .hexadecimal⟩] rfl
  obtain rfl : ⟨'x', none⟩ = p := Option.some.inj hp
  cases hdigit.inRun

end LesTokens
