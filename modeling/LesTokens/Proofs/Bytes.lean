/-
Texts as bytes. A character below 128 is one byte, and no byte of any other character is below 128.
So a class of characters below 128 can be asked of bytes (`Text.OfBytes`): the first byte of a class
in the encoding of a text is the first character of the class, and a run of bytes of a class is a
run of characters (`findIdx?_bytes`, `takeWhile_bytes`).
-/
import LesTokens.Cursor

namespace LesTokens

namespace Text

@[simp] theorem bytes_nil : bytes [] = [] := rfl

theorem bytes_append (a b : Text) : bytes (a ++ b) = a.bytes ++ b.bytes := List.flatMap_append

theorem bytes_cons (c : Char) (t : Text) : bytes (c :: t) = String.utf8EncodeChar c ++ t.bytes :=
  List.flatMap_cons

theorem bytes_singleton (c : Char) : bytes [c] = String.utf8EncodeChar c := by simp [bytes]

theorem length_bytes (t : Text) : t.bytes.length = t.size := by
  induction t with
  | nil => rfl
  | cons c t ih => rw [bytes_cons, List.length_append, String.length_utf8EncodeChar, ih, size_cons]

theorem dropBytes_size_append (a b : Text) : dropBytes (a ++ b) a.size = b := by
  rw [dropBytes, splitAt?_size_append]
  rfl

/-! ## Single characters -/

theorem utf8EncodeChar_of_lt {c : Char} (h : c.toNat < 128) :
    String.utf8EncodeChar c = [UInt8.ofNat c.toNat] := by
  have hle : c.val.toNat ≤ 127 := Nat.le_of_lt_succ h
  unfold String.utf8EncodeChar
  exact if_pos hle

theorem le_of_mem_utf8EncodeChar {c : Char} (h : 128 ≤ c.toNat) :
    ∀ b ∈ String.utf8EncodeChar c, 128 ≤ b.toNat := by
  have hc : ¬c.val.toNat ≤ 127 := Nat.not_le.2 h
  unfold String.utf8EncodeChar
  dsimp only
  rw [if_neg hc]
  -- Each byte is at least the mark of its place, and none wraps around.
  split
  · simp
    omega
  · split <;> simp <;> omega

theorem exists_cons_utf8EncodeChar (c : Char) : ∃ b bs, String.utf8EncodeChar c = b :: bs := by
  refine List.exists_cons_of_ne_nil fun hnil => ?_
  have hlength := String.length_utf8EncodeChar c
  have hpos := c.utf8Size_pos
  rw [hnil, List.length_nil] at hlength
  omega

theorem headD_bytes_of_lt {c : Char} (h : c.toNat < 128) (t : Text) :
    (bytes (c :: t)).headD 0 = UInt8.ofNat c.toNat := by
  rw [bytes_cons, utf8EncodeChar_of_lt h]
  rfl

theorem ofNat_toNat_inj {c d : Char} (hc : c.toNat < 128) (hd : d.toNat < 128) :
    UInt8.ofNat c.toNat = UInt8.ofNat d.toNat ↔ c = d := by
  constructor
  · intro h
    have hn := congrArg UInt8.toNat h
    rw [UInt8.toNat_ofNat', UInt8.toNat_ofNat', Nat.mod_eq_of_lt (by omega),
      Nat.mod_eq_of_lt (by omega)] at hn
    exact Char.toNat_inj.1 hn
  · rintro rfl
    rfl

theorem utf8Size_of_lt {c : Char} (h : c.toNat < 128) : c.utf8Size = 1 := by
  rw [← String.length_utf8EncodeChar, utf8EncodeChar_of_lt h]
  rfl

/-! ## Classes -/

/-- A class of characters, all of them below 128, as a class of bytes. -/
structure OfBytes (p : Char → Bool) (q : UInt8 → Bool) : Prop where
  low : ∀ c : Char, c.toNat < 128 → q (UInt8.ofNat c.toNat) = p c
  highChar : ∀ c : Char, 128 ≤ c.toNat → p c = false
  highByte : ∀ b : UInt8, 128 ≤ b.toNat → q b = false

namespace OfBytes

variable {p : Char → Bool} {q : UInt8 → Bool}

theorem lt (h : OfBytes p q) {c : Char} (hc : p c = true) : c.toNat < 128 := by
  by_cases hlt : c.toNat < 128
  · exact hlt
  · rw [h.highChar c (Nat.le_of_not_lt hlt)] at hc
    cases hc

theorem utf8Size (h : OfBytes p q) {c : Char} (hc : p c = true) : c.utf8Size = 1 :=
  utf8Size_of_lt (h.lt hc)

/-- A character of the class is one byte of the class, and the bytes of any other are not in it. -/
theorem encode_cases (h : OfBytes p q) (c : Char) :
    (p c = true ∧ String.utf8EncodeChar c = [UInt8.ofNat c.toNat] ∧
      q (UInt8.ofNat c.toNat) = true) ∨
    (p c = false ∧ ∀ b ∈ String.utf8EncodeChar c, q b = false) := by
  by_cases hc : c.toNat < 128
  · have hq := h.low c hc
    cases hp : p c with
    | true => exact .inl ⟨rfl, utf8EncodeChar_of_lt hc, hq.trans hp⟩
    | false =>
      refine .inr ⟨rfl, fun b hb => ?_⟩
      rw [utf8EncodeChar_of_lt hc, List.mem_singleton] at hb
      rw [hb, hq, hp]
  · have hle := Nat.le_of_not_lt hc
    exact .inr ⟨h.highChar c hle, fun b hb => h.highByte b (le_of_mem_utf8EncodeChar hle b hb)⟩

theorem union {p' : Char → Bool} {q' : UInt8 → Bool} (h : OfBytes p q) (h' : OfBytes p' q') :
    OfBytes (fun c => p c || p' c) (fun b => q b || q' b) where
  low c hc := by rw [h.low c hc, h'.low c hc]
  highChar c hc := by rw [h.highChar c hc, h'.highChar c hc]; rfl
  highByte b hb := by rw [h.highByte b hb, h'.highByte b hb]; rfl

theorem eq {d : Char} (hd : d.toNat < 128) :
    OfBytes (fun c => c = d) (fun b => b = UInt8.ofNat d.toNat) where
  low _ hc := decide_eq_decide.2 (ofNat_toNat_inj hc hd)
  highChar c hc := by
    refine decide_eq_false ?_
    rintro rfl
    omega
  highByte b hb := by
    refine decide_eq_false ?_
    rintro rfl
    rw [UInt8.toNat_ofNat'] at hb
    omega

/-! ## Searches and runs -/

/-- The first byte of the class is the first character of the class. -/
theorem findIdx?_bytes (h : OfBytes p q) (t : Text) : t.bytes.findIdx? q =
    if t.dropWhile (fun c => !p c) = [] then none else some (size (t.takeWhile fun c => !p c)) := by
  induction t with
  | nil => rfl
  | cons c t ih =>
    rw [bytes_cons]
    rcases h.encode_cases c with ⟨hp, he, hq⟩ | ⟨hp, hq⟩
    · simp [he, List.findIdx?_cons, hq, hp]
    · have hnone : (String.utf8EncodeChar c).findIdx? q = none := by
        rw [List.findIdx?_eq_none_iff]
        exact hq
      rw [List.findIdx?_append, hnone, ih, String.length_utf8EncodeChar]
      by_cases ht : t.dropWhile (fun c => !p c) = [] <;> simp [hp, ht, Nat.add_comm]

theorem takeWhile_bytes (h : OfBytes p q) (t : Text) :
    t.bytes.takeWhile q = bytes (t.takeWhile p) := by
  induction t with
  | nil => rfl
  | cons c t ih =>
    rw [bytes_cons]
    rcases h.encode_cases c with ⟨hp, he, hq⟩ | ⟨hp, hq⟩
    · rw [he, List.singleton_append, List.takeWhile_cons_of_pos hq, List.takeWhile_cons_of_pos hp,
        ih, bytes_cons, he, List.singleton_append]
    · obtain ⟨b, bs, he⟩ := exists_cons_utf8EncodeChar c
      have hb : q b = false := hq b (by simp [he])
      simp [he, hb, hp]

theorem size_eq_length (h : OfBytes p q) {t : Text} (ht : ∀ c ∈ t, p c = true) :
    t.size = t.length := by
  induction t with
  | nil => rfl
  | cons c t ih =>
    rw [size_cons, h.utf8Size (ht c List.mem_cons_self), List.length_cons,
      ih fun d hd => ht d (List.mem_cons_of_mem c hd), Nat.add_comm]

theorem all_bytes (h : OfBytes p q) (t : Text) : t.bytes.all q = t.all p := by
  induction t with
  | nil => rfl
  | cons c t ih =>
    rw [bytes_cons, List.all_append, ih, List.all_cons]
    rcases h.encode_cases c with ⟨hp, he, hq⟩ | ⟨hp, hq⟩
    · rw [he, hp, List.all_cons, hq]
      rfl
    · obtain ⟨b, bs, he⟩ := exists_cons_utf8EncodeChar c
      have hb : q b = false := hq b (by simp [he])
      simp [he, hb, hp]

end OfBytes

end Text

theorem ByteClass.ofBytes {k : ByteClass} (h : ∀ c : Char, 128 ≤ c.toNat → k.holdsChar c = false) :
    Text.OfBytes k.holdsChar k.holds where
  low c hc := by
    have hn : (UInt8.ofNat c.toNat).toNat = c.toNat := by
      rw [UInt8.toNat_ofNat']
      omega
    have hlt : UInt8.ofNat c.toNat < 128 := by
      rw [UInt8.lt_iff_toNat_lt, hn]
      exact hc
    rw [holds, hn, Char.ofNat_toNat, decide_eq_true hlt, Bool.true_and]
  highChar := h
  highByte b hb := by
    have hlt : ¬b < 128 := by
      rw [UInt8.lt_iff_toNat_lt]
      exact Nat.not_lt.2 hb
    rw [holds, decide_eq_false hlt, Bool.false_and]

end LesTokens
