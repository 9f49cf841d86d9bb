/-
The extent of a number, as the segments it is made of: a base prefix, an integer run, a fraction,
an exponent and a suffix. Whether the digits mean anything is decided elsewhere.

`Segments.scan_append`: the segments, written one after another, and what follows them make up the
text.
-/
import LesTokens.Lexeme.Run

namespace LesTokens

/-- An exponent as written: its marker, its sign if it has one, and its digits, of which there may
be none after a sign. -/
structure ExponentSegment where
  marker : Char
  sign : Option Char
  digits : Text
  deriving DecidableEq, Repr

/-- A number as written, without a minus sign. -/
structure Segments where
  base : Base
  basePrefix : Text
  integer : Text
  fraction : Option Text
  exponent : Option ExponentSegment
  suffix : Text
  deriving DecidableEq, Repr

def ExponentSegment.text (e : ExponentSegment) : Text := e.marker :: (e.sign.toList ++ e.digits)

/-- The segments, one after another. -/
def Segments.text (n : Segments) : Text :=
  n.basePrefix ++ n.integer ++ (n.fraction.map ('.' :: ·)).getD [] ++
    (n.exponent.map ExponentSegment.text).getD [] ++ n.suffix

/-! ## Scanning -/

/-- The base a number is written in, and its prefix. -/
def scanBase : Text → Base × Text × Text
  | '0' :: c :: t =>
    if c = 'x' || c = 'X' then (.hexadecimal, ['0', c], t)
    else if c = 'b' || c = 'B' then (.binary, ['0', c], t)
    else (.decimal, [], '0' :: c :: t)
  | t => (.decimal, [], t)

/-- Digits of a base, with a `_` wherever a digit follows it. -/
def digitRun (base : Base) : Text → Text × Text
  | [] => ([], [])
  | c :: t =>
    if base.isDigit c || (c = '_' && opensWith base.isDigit t) then
      let (taken, rest) := digitRun base t
      (c :: taken, rest)
    else ([], c :: t)

/-- The integer part. After binary digits it takes decimal ones too, to be reported as invalid. -/
def integerRun (base : Base) (t : Text) : Text × Text :=
  let (digits, rest) := digitRun base t
  if base = .binary then (digits ++ rest.takeWhile Char.isDigit, rest.dropWhile Char.isDigit)
  else (digits, rest)

/-- A point and the digits after it, if a digit follows the point. -/
def fractionRun (base : Base) : Text → Option Text × Text
  | '.' :: t =>
    if opensWith base.isDigit t then
      let (digits, rest) := digitRun base t
      (some digits, rest)
    else (none, '.' :: t)
  | t => (none, t)

/-- Whether a character marks an exponent: `e` in decimal, `p` in the other bases. -/
def isExponentMarker (base : Base) (c : Char) : Bool :=
  if base = .decimal then c = 'e' || c = 'E' else c = 'p' || c = 'P'

def isSign (c : Char) : Bool := c = '+' || c = '-'

/-- An exponent, if a digit or a sign follows its marker. -/
def exponentRun (base : Base) : Text → Option ExponentSegment × Text
  | marker :: c :: t =>
    if isExponentMarker base marker && (c.isDigit || isSign c) then
      if isSign c then
        let (digits, rest) := digitRun .decimal t
        (some ⟨marker, some c, digits⟩, rest)
      else
        let (digits, rest) := digitRun .decimal (c :: t)
        (some ⟨marker, none, digits⟩, rest)
    else (none, marker :: c :: t)
  | t => (none, t)

/-- The second letter of a two-letter suffix. -/
def suffixTail (second : Char → Bool) (first : Char) : Text → Text × Text
  | c :: t => if second c then ([first, c], t) else ([first], c :: t)
  | [] => ([first], [])

/-- A type suffix: `u`, `l`, `ul`, `lu`, `f`, `d` or `m` in either case. -/
def suffixRun : Text → Text × Text
  | c :: t =>
    if c = 'u' || c = 'U' then suffixTail (fun d => d = 'l' || d = 'L') c t
    else if c = 'l' || c = 'L' then suffixTail (fun d => d = 'u' || d = 'U') c t
    else if ['f', 'F', 'd', 'D', 'm', 'M'].contains c then ([c], t)
    else ([], c :: t)
  | [] => ([], [])

/-- The number at the front of a text, and what follows it. -/
def Segments.scan (t : Text) : Segments × Text :=
  let (base, basePrefix, t) := scanBase t
  let (integer, t) := integerRun base t
  let (fraction, t) := fractionRun base t
  let (exponent, t) := exponentRun base t
  let (suffix, t) := suffixRun t
  (⟨base, basePrefix, integer, fraction, exponent, suffix⟩, t)

/-! ## Nothing is lost -/

theorem scanBase_append (t : Text) : (scanBase t).2.1 ++ (scanBase t).2.2 = t := by
  fun_cases scanBase t <;> simp_all

theorem digitRun_append (base : Base) (t : Text) :
    (digitRun base t).1 ++ (digitRun base t).2 = t := by
  induction t with
  | nil => rfl
  | cons c t ih =>
    unfold digitRun
    split <;> simp [ih]

theorem integerRun_append (base : Base) (t : Text) :
    (integerRun base t).1 ++ (integerRun base t).2 = t := by
  have h := digitRun_append base t
  unfold integerRun
  dsimp only
  split <;> simp [h]

theorem fractionRun_append (base : Base) (t : Text) :
    (((fractionRun base t).1.map ('.' :: ·)).getD []) ++ (fractionRun base t).2 = t := by
  unfold fractionRun
  split
  · split
    · simp [digitRun_append]
    · rfl
  · rfl

theorem exponentRun_append (base : Base) (t : Text) :
    (((exponentRun base t).1.map ExponentSegment.text).getD []) ++ (exponentRun base t).2 = t := by
  unfold exponentRun
  split
  · split
    · split <;> simp [ExponentSegment.text, digitRun_append]
    · rfl
  · rfl

theorem suffixTail_append (second : Char → Bool) (first : Char) (t : Text) :
    (suffixTail second first t).1 ++ (suffixTail second first t).2 = first :: t := by
  fun_cases suffixTail second first t <;> simp

theorem suffixRun_append (t : Text) : (suffixRun t).1 ++ (suffixRun t).2 = t := by
  unfold suffixRun
  split
  · split
    · exact suffixTail_append _ _ _
    · split
      · exact suffixTail_append _ _ _
      · split <;> rfl
  · rfl

theorem Segments.scan_append (t : Text) : (Segments.scan t).1.text ++ (Segments.scan t).2 = t := by
  simp only [Segments.scan, Segments.text, List.append_assoc, suffixRun_append,
    exponentRun_append, fractionRun_append, integerRun_append, scanBase_append]

/-! ## A number is not empty -/

theorem opensWith_cons (p : Char → Bool) (c : Char) (t : Text) : opensWith p (c :: t) = p c := rfl

theorem Segments.text_scan_ne_nil_of_digit {c : Char} {t : Text} (h : c.isDigit = true) :
    (Segments.scan (c :: t)).1.text ≠ [] := by
  have key : (scanBase (c :: t)).2.1 ≠ [] ∨ scanBase (c :: t) = (.decimal, [], c :: t) := by
    fun_cases scanBase (c :: t) <;> simp_all
  rcases key with key | key
  · simp [Segments.scan, Segments.text, key]
  · have hd : Base.isDigit .decimal c = true := h
    simp [Segments.scan, Segments.text, key, integerRun, digitRun, hd]

theorem Segments.text_scan_ne_nil_of_fraction {t : Text} (h : opensFraction t = true) :
    (Segments.scan t).1.text ≠ [] := by
  fun_cases opensFraction t <;> simp_all [opensFraction]
  rename_i c t
  have hd : Base.isDigit .decimal c = true := h
  simp [Segments.scan, Segments.text, scanBase, integerRun, digitRun, fractionRun, opensWith, hd,
    show Base.isDigit .decimal '.' = false by decide]

end LesTokens
