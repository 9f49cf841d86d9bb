/-
Interning from several threads gives one symbol for each text. Two calls may both look for a text
that is not there yet, and both miss it; the second look, with the shard to itself, is what keeps
the second of them from adding it again.

A step of a thread does one of seven things (`InternThread.Step`). What holds of the table is kept
by each of them: symbols stand in the shard of their text, where they are looked for
(`SymbolTable.Sound`), and no address is in use twice, be it that of a symbol or of a text that was
given away (`SymbolTable.Apart`). A run keeps that together with what the threads have and wait for
(`InternRun.Inv`).

**`InternRun.canonical`**: in whatever order any number of threads take their steps, each text has
at most one symbol, each call that is finished got the symbol of its text, with no call under way
the table counts the texts that were interned, and each thread ends after five steps of its own for
each text (`InternThread.Step.stepsLeft_le`).
-/
import LesTokens.Symbol.Interning
import Mathlib.Data.Finset.Dedup
import Mathlib.Data.Finset.Card

namespace LesTokens

/-! ## Tables -/

namespace SymbolTable

variable {table : SymbolTable} {t : Text} {s : Symbol}

/-- All symbols of a table. -/
def symbols (table : SymbolTable) : List Symbol := table.shards.toList.flatten

theorem mem_symbols_iff : s ∈ table.symbols ↔ ∃ i : Fin shardCount, s ∈ table.shards[i] := by
  rw [symbols, List.mem_flatten]
  constructor
  · intro h
    obtain ⟨shard, hshard, hs⟩ := h
    obtain ⟨i, hi, rfl⟩ := Vector.mem_iff_getElem.1 (Vector.mem_toList_iff.1 hshard)
    exact ⟨⟨i, hi⟩, hs⟩
  · intro h
    obtain ⟨i, hs⟩ := h
    exact ⟨_, Vector.mem_toList_iff.2 (Vector.getElem_mem i.isLt), hs⟩

theorem text_of_find? (h : table.find? t = some s) : s.text = t := by
  simpa using List.find?_some h

theorem mem_of_find? (h : table.find? t = some s) : s ∈ table.symbols :=
  mem_symbols_iff.2 ⟨shardOf t, List.mem_of_find?_eq_some h⟩

/-! ### Adding a symbol -/

theorem flatten_set_cons_perm {α : Type} (x : α) (shards : List (List α)) {i : Nat}
    (hi : i < shards.length) :
    (shards.set i (x :: shards[i])).flatten.Perm (x :: shards.flatten) := by
  induction shards generalizing i with
  | nil => simp at hi
  | cons shard shards ih =>
    cases i with
    | zero => exact .refl _
    | succ i =>
      have hrest := ih (Nat.lt_of_succ_lt_succ hi)
      simp only [List.set_cons_succ, List.flatten_cons, List.getElem_cons_succ]
      exact (hrest.append_left shard).trans List.perm_middle

theorem shards_insert (table : SymbolTable) (home : Option Nat) {i : Fin shardCount}
    (hi : shardOf t = i) : (table.insert t home).2.shards =
      table.shards.set i ((table.insert t home).1 :: table.shards[i]) i.isLt := by
  subst hi
  cases home <;> rfl

theorem symbols_insert (table : SymbolTable) (t : Text) (home : Option Nat) :
    (table.insert t home).2.symbols.Perm ((table.insert t home).1 :: table.symbols) := by
  have hi : (shardOf t).val < table.shards.toList.length := by
    rw [Vector.length_toList]
    exact (shardOf t).isLt
  have hperm := flatten_set_cons_perm (table.insert t home).1 table.shards.toList hi
  rwa [symbols, shards_insert table home rfl, Vector.toList_set]

theorem mem_symbols_insert {home : Option Nat} : s ∈ (table.insert t home).2.symbols ↔
    s = (table.insert t home).1 ∨ s ∈ table.symbols := by
  rw [(symbols_insert table t home).mem_iff, List.mem_cons]

theorem text_insert (table : SymbolTable) (t : Text) (home : Option Nat) :
    (table.insert t home).1.text = t := rfl

theorem id_insert (table : SymbolTable) (t : Text) (home : Option Nat) :
    (table.insert t home).2.id = table.id := by
  cases home <;> rfl

theorem count_insert (table : SymbolTable) (t : Text) (home : Option Nat) :
    (table.insert t home).2.count = table.count := by
  cases home <;> rfl

theorem id_receive (table : SymbolTable) (handover : Handover) :
    (table.receive handover).2.id = table.id := by
  cases handover <;> rfl

theorem count_receive (table : SymbolTable) (handover : Handover) :
    (table.receive handover).2.count = table.count := by
  cases handover <;> rfl

theorem shards_receive (table : SymbolTable) (handover : Handover) :
    (table.receive handover).2.shards = table.shards := by
  cases handover <;> rfl

theorem symbols_receive (table : SymbolTable) (handover : Handover) :
    (table.receive handover).2.symbols = table.symbols := by
  cases handover <;> rfl

/-! ### What is kept -/

/-- A table in which every symbol is found by its text, is one of this table's own, and is the only
one of its text. -/
structure Sound (table : SymbolTable) : Prop where
  sharded : ∀ (i : Fin shardCount), ∀ s ∈ table.shards[i], shardOf s.text = i
  own : ∀ s ∈ table.symbols, s.table = table.id
  distinct : (table.symbols.map Symbol.text).Nodup

namespace Sound

theorem empty (id : Nat) : (empty id).Sound := by
  constructor
  case sharded => simp [SymbolTable.empty]
  case own => simp [SymbolTable.empty, symbols]
  case distinct => simp [SymbolTable.empty, symbols]

theorem of_shards {table' : SymbolTable} (h : table.Sound) (hs : table'.shards = table.shards)
    (hid : table'.id = table.id) : table'.Sound := by
  obtain ⟨hsharded, hown, hdistinct⟩ := h
  constructor
  case sharded => rwa [hs]
  case own => rwa [symbols, hs, hid]
  case distinct => rwa [symbols, hs]

/-- **What is not found is not there.** -/
theorem text_ne_of_find? (h : table.Sound) (hf : table.find? t = none) :
    ∀ s ∈ table.symbols, s.text ≠ t := by
  intro s hs ht
  obtain ⟨i, hi⟩ := mem_symbols_iff.1 hs
  obtain rfl : shardOf t = i := by rw [← ht, h.sharded i s hi]
  simpa [ht] using List.find?_eq_none.1 hf s hi

theorem insert (h : table.Sound) (hf : table.find? t = none) (home : Option Nat) :
    (table.insert t home).2.Sound := by
  constructor
  case sharded =>
    intro i s hs
    rw [shards_insert table home rfl, Fin.getElem_fin, Vector.getElem_set] at hs
    split at hs
    · rename_i hi
      obtain rfl : shardOf t = i := Fin.ext hi
      rcases List.mem_cons.1 hs with rfl | hs
      · rw [text_insert]
      · exact h.sharded _ s hs
    · exact h.sharded i s hs
  case own =>
    intro s hs
    rw [id_insert]
    rcases mem_symbols_insert.1 hs with rfl | hs
    · cases home <;> rfl
    · exact h.own s hs
  case distinct =>
    rw [((symbols_insert table t home).map Symbol.text).nodup_iff, List.map_cons, text_insert,
      List.nodup_cons, List.mem_map]
    refine ⟨?_, h.distinct⟩
    intro hmem
    obtain ⟨s, hs, ht⟩ := hmem
    exact h.text_ne_of_find? hf s hs ht

end Sound

/-! ### Addresses -/

/-- No two of a table's symbols and of the texts given away to it have one address, and new
addresses are new to all of them. -/
structure Apart (table : SymbolTable) (homes : List Nat) : Prop where
  distinct : (table.symbols.map Symbol.address ++ homes).Nodup
  fresh : ∀ a ∈ table.symbols.map Symbol.address ++ homes, a < table.nextAddress

namespace Apart

variable {homes homes' : List Nat}

theorem of_perm {table' : SymbolTable} (h : table.Apart homes)
    (hp : (table'.symbols.map Symbol.address ++ homes').Perm
      (table.symbols.map Symbol.address ++ homes))
    (hnext : table.nextAddress ≤ table'.nextAddress) : table'.Apart homes' := by
  constructor
  case distinct => exact hp.nodup_iff.2 h.distinct
  case fresh =>
    intro a ha
    have hlt := h.fresh a (hp.mem_iff.1 ha)
    omega

theorem perm (h : table.Apart homes) (hp : homes'.Perm homes) : table.Apart homes' :=
  h.of_perm (hp.append_left _) (Nat.le_refl _)

theorem drop (h : table.Apart (homes ++ homes')) : table.Apart homes' := by
  have hsub : (table.symbols.map Symbol.address ++ homes').Sublist
      (table.symbols.map Symbol.address ++ (homes ++ homes')) :=
    (List.sublist_append_right homes homes').append_left _
  exact ⟨h.distinct.sublist hsub, fun a ha => h.fresh a (hsub.mem ha)⟩

theorem allocate (h : table.Apart homes) : table.allocate.2.Apart (table.allocate.1 :: homes) := by
  have hperm : (table.symbols.map Symbol.address ++ table.nextAddress :: homes).Perm
      (table.nextAddress :: (table.symbols.map Symbol.address ++ homes)) := List.perm_middle
  constructor
  case distinct =>
    refine hperm.nodup_iff.2 (List.nodup_cons.2 ⟨fun hmem => ?_, h.distinct⟩)
    exact Nat.lt_irrefl _ (h.fresh _ hmem)
  case fresh =>
    intro a ha
    show a < table.nextAddress + 1
    rcases List.mem_cons.1 (hperm.mem_iff.1 ha) with rfl | ha
    · omega
    · have hlt := h.fresh a ha
      omega

theorem receive (h : table.Apart homes) (handover : Handover) :
    (table.receive handover).2.Apart ((table.receive handover).1.toList ++ homes) := by
  cases handover with
  | lent => exact h
  | given => exact h.allocate

/-- A symbol takes over the address of its text, or a new one. -/
theorem insert {home : Option Nat} (h : table.Apart (home.toList ++ homes)) (t : Text) :
    (table.insert t home).2.Apart homes := by
  have hkeep : (table.keep home).2.Apart ((table.keep home).1 :: homes) := by
    cases home with
    | none => exact h.allocate
    | some address => exact h
  have hshards : (table.keep home).2.symbols = table.symbols := by cases home <;> rfl
  refine hkeep.of_perm ?_ (Nat.le_refl _)
  have hp := ((symbols_insert table t home).map Symbol.address).append_right homes
  rw [hshards]
  exact hp.trans List.perm_middle.symm

end Apart

end SymbolTable

/-! ## Threads -/

namespace InternCall

/-- The address of a text that was given away and is not kept yet. -/
def homes : InternCall → List Nat
  | started _ home | missed _ home => home.toList
  | inserted _ | finished _ => []

/-- The text that has no symbol yet. -/
def waiting : InternCall → List Text
  | started t _ | missed t _ => [t]
  | inserted _ | finished _ => []

/-- The symbol of the text, whether or not it is counted. -/
def obtained : InternCall → List Symbol
  | started .. | missed .. => []
  | inserted symbol | finished symbol => [symbol]

/-- The symbol that a finished call gives. -/
def answer : InternCall → List Symbol
  | finished symbol => [symbol]
  | _ => []

/-- Whether the symbol was added and is not counted yet. -/
def isUncounted : InternCall → Bool
  | inserted _ => true
  | _ => false

/-- The most steps that a call has yet to take. -/
def stepsLeft : InternCall → Nat
  | started .. => 3
  | missed .. => 2
  | inserted _ => 1
  | finished _ => 0

theorem stepsLeft_step (table : SymbolTable) (call : InternCall) :
    (call.step table).2.stepsLeft ≤ call.stepsLeft - 1 := by
  cases call with
  | started t home => cases hf : table.find? t <;> simp [step, hf, stepsLeft]
  | missed t home => cases hf : table.find? t <;> simp [step, hf, stepsLeft]
  | inserted symbol | finished symbol => exact Nat.le_refl 0

/-- A call without others beside it gives what interning gives. -/
theorem alone (table : SymbolTable) (request : InternRequest) :
    (fun x => step x.1 x.2)^[3] (start table request) =
      ((table.internAs request.handover request.text).2,
        finished (table.internAs request.handover request.text).1) := by
  unfold SymbolTable.internAs start
  cases hf : (table.receive request.handover).2.find? request.text with
  | some symbol => simp [step, hf]
  | none => simp [step, hf]

end InternCall

namespace InternThread

def homes (thread : InternThread) : List Nat := thread.call.toList.flatMap InternCall.homes

/-- The symbols of the texts that were interned so far. -/
def obtained (thread : InternThread) : List Symbol :=
  thread.symbols ++ thread.call.toList.flatMap InternCall.obtained

/-- The symbols that the finished calls gave. -/
def results (thread : InternThread) : List Symbol :=
  thread.symbols ++ thread.call.toList.flatMap InternCall.answer

def isUncounted (thread : InternThread) : Bool := thread.call.any InternCall.isUncounted

/-- The texts of a thread: those that have a symbol, the one that waits for its symbol, and those
that no call was started for. -/
def texts (thread : InternThread) : List Text :=
  thread.obtained.map Symbol.text ++
    (thread.call.toList.flatMap InternCall.waiting ++ thread.pending.map InternRequest.text)

/-- A thread without a call under way: its last one, if there is one, is finished. -/
def Rests (thread : InternThread) : Prop :=
  ∀ call, thread.call = some call → ∃ symbol, call = .finished symbol

theorem results_prefix (thread : InternThread) : thread.results <+: thread.obtained := by
  unfold results obtained
  rw [List.prefix_append_right_inj]
  cases thread.call with
  | none => exact List.prefix_rfl
  | some call => cases call <;> simp [InternCall.answer, InternCall.obtained]

theorem Rests.isUncounted_eq {thread : InternThread} (h : thread.Rests) :
    thread.isUncounted = false := by
  cases hc : thread.call with
  | none => simp [isUncounted, hc]
  | some call =>
    obtain ⟨symbol, rfl⟩ := h call hc
    simp [isUncounted, hc, InternCall.isUncounted]

theorem Rests.results_eq {thread : InternThread} (h : thread.Rests) :
    thread.results = thread.obtained := by
  cases hc : thread.call with
  | none => simp [results, obtained, hc]
  | some call =>
    obtain ⟨symbol, rfl⟩ := h call hc
    simp [results, obtained, hc, InternCall.answer, InternCall.obtained]

/-- The most steps that a thread has yet to take: for each request one to start a call, those of the
call, and one to keep its answer. -/
def stepsLeft (thread : InternThread) : Nat :=
  5 * thread.pending.length + (thread.call.map fun call => call.stepsLeft + 1).getD 0

theorem stepsLeft_le_texts (thread : InternThread) :
    thread.stepsLeft ≤ 5 * thread.texts.length := by
  unfold stepsLeft texts obtained
  simp only [List.length_append, List.length_map]
  cases thread.call with
  | none =>
    simp only [Option.map_none, Option.getD_none, Option.toList_none, List.flatMap_nil,
      List.length_nil]
    omega
  | some call =>
    simp only [Option.map_some, Option.getD_some, Option.toList_some, List.flatMap_cons,
      List.flatMap_nil, List.append_nil]
    cases call <;> simp only [InternCall.stepsLeft, InternCall.obtained, InternCall.waiting,
      List.length_cons, List.length_nil] <;> omega

theorem results_of_stepsLeft {thread : InternThread} (h : thread.stepsLeft = 0) :
    thread.Rests ∧ thread.results.map Symbol.text = thread.texts := by
  have hpending : thread.pending = [] := by
    rw [← List.length_eq_zero_iff]
    unfold stepsLeft at h
    omega
  have hcall : thread.call = none := by
    cases hc : thread.call with
    | none => rfl
    | some call => simp [stepsLeft, hc] at h
  have hrests : thread.Rests := by simp [Rests, hcall]
  refine ⟨hrests, ?_⟩
  rw [hrests.results_eq, texts, hcall, hpending]
  simp

/-- What a step of a thread does to the table and to the thread. -/
inductive Step (table : SymbolTable) (thread : InternThread) : SymbolTable → InternThread → Prop
  | idle (hc : thread.call = none) (hp : thread.pending = []) : Step table thread table thread
  | starts {request : InternRequest} {requests : List InternRequest} (hc : thread.call = none)
    (hp : thread.pending = request :: requests) :
    Step table thread (table.receive request.handover).2
      { thread with
        pending := requests
        call := some (.started request.text (table.receive request.handover).1) }
  | finds {call : InternCall} {t : Text} {home : Option Nat} {symbol : Symbol}
    (hc : thread.call = some call) (hcall : call = .started t home ∨ call = .missed t home)
    (hf : table.find? t = some symbol) :
    Step table thread table { thread with call := some (.finished symbol) }
  | misses {t : Text} {home : Option Nat} (hc : thread.call = some (.started t home))
    (hf : table.find? t = none) :
    Step table thread table { thread with call := some (.missed t home) }
  | inserts {t : Text} {home : Option Nat} (hc : thread.call = some (.missed t home))
    (hf : table.find? t = none) :
    Step table thread (table.insert t home).2
      { thread with call := some (.inserted (table.insert t home).1) }
  | counts {symbol : Symbol} (hc : thread.call = some (.inserted symbol)) :
    Step table thread table.increment { thread with call := some (.finished symbol) }
  | keeps {symbol : Symbol} (hc : thread.call = some (.finished symbol)) :
    Step table thread table
      { thread with call := none, symbols := thread.symbols ++ [symbol] }

/-- **A step of a thread does one of these things.** -/
theorem step_spec (table : SymbolTable) (thread : InternThread) :
    Step table thread (thread.step table).1 (thread.step table).2 := by
  unfold step
  split
  · rename_i symbol hc
    exact .keeps hc
  · rename_i call hne hc
    cases call with
    | started t home =>
      cases hf : table.find? t with
      | some symbol =>
        simp only [InternCall.step, hf]
        exact .finds hc (.inl rfl) hf
      | none =>
        simp only [InternCall.step, hf]
        exact .misses hc hf
    | missed t home =>
      cases hf : table.find? t with
      | some symbol =>
        simp only [InternCall.step, hf]
        exact .finds hc (.inr rfl) hf
      | none =>
        simp only [InternCall.step, hf]
        exact .inserts hc hf
    | inserted symbol => exact .counts hc
    | finished symbol => exact absurd rfl (hne symbol)
  · rename_i hc
    split
    · rename_i hp
      exact .idle hc hp
    · rename_i request requests hp
      exact .starts hc hp

namespace Step

variable {table table' : SymbolTable} {thread thread' : InternThread}

theorem texts_eq (h : Step table thread table' thread') : thread'.texts = thread.texts := by
  cases h with
  | idle hc hp => rfl
  | starts hc hp => simp [texts, obtained, InternCall.obtained, InternCall.waiting, hc, hp]
  | finds hc hcall hf =>
    have ht := SymbolTable.text_of_find? hf
    rcases hcall with rfl | rfl <;>
      simp [texts, obtained, InternCall.obtained, InternCall.waiting, hc, ht]
  | misses hc hf => simp [texts, obtained, InternCall.obtained, InternCall.waiting, hc]
  | inserts hc hf =>
    simp [texts, obtained, InternCall.obtained, InternCall.waiting, hc, SymbolTable.text_insert]
  | counts hc => simp [texts, obtained, InternCall.obtained, InternCall.waiting, hc]
  | keeps hc => simp [texts, obtained, InternCall.obtained, InternCall.waiting, hc]

/-- The symbols of a table after a step are those before it, and perhaps one that the thread got. -/
theorem mem_symbols (h : Step table thread table' thread') {s : Symbol} (hs : s ∈ table'.symbols) :
    s ∈ table.symbols ∨ s ∈ thread'.obtained := by
  cases h with
  | starts hc hp =>
    rw [SymbolTable.symbols, SymbolTable.shards_receive] at hs
    exact .inl hs
  | inserts hc hf =>
    rcases SymbolTable.mem_symbols_insert.1 hs with rfl | hs
    · exact .inr (by simp [obtained, InternCall.obtained])
    · exact .inl hs
  | idle | finds | misses | counts | keeps => exact .inl hs

theorem symbols_subset (h : Step table thread table' thread') : table.symbols ⊆ table'.symbols := by
  intro s hs
  cases h with
  | starts hc hp => rwa [SymbolTable.symbols, SymbolTable.shards_receive]
  | inserts hc hf => exact SymbolTable.mem_symbols_insert.2 (.inr hs)
  | idle | finds | misses | counts | keeps => exact hs

theorem obtained_subset (h : Step table thread table' thread') :
    thread.obtained ⊆ thread'.obtained := by
  cases h with
  | idle hc hp => exact fun s hs => hs
  | finds hc hcall hf =>
    rcases hcall with rfl | rfl <;> simp [obtained, InternCall.obtained, hc]
  | starts hc | misses hc | inserts hc | counts hc | keeps hc =>
    simp [obtained, InternCall.obtained, hc]

theorem mem_of_obtained (h : Step table thread table' thread')
    (hobtained : ∀ s ∈ thread.obtained, s ∈ table.symbols) :
    ∀ s ∈ thread'.obtained, s ∈ table'.symbols := by
  intro s hs
  have hgrows := h.symbols_subset
  -- It had the symbol before, or found it, or added it.
  have hcases : s ∈ thread.obtained ∨ s ∈ table'.symbols := by
    cases h with
    | idle hc hp => exact .inl hs
    | @finds _ _ _ symbol hc hcall hf =>
      have hcall : s ∈ thread.symbols ∨ s = symbol := by
        simpa [obtained, InternCall.obtained] using hs
      rcases hcall with hs | rfl
      · exact .inl (List.mem_append_left _ hs)
      · exact .inr (SymbolTable.mem_of_find? hf)
    | @inserts t home hc hf =>
      have hcall : s ∈ thread.symbols ∨ s = (table.insert t home).1 := by
        simpa [obtained, InternCall.obtained] using hs
      rcases hcall with hs | rfl
      · exact .inl (List.mem_append_left _ hs)
      · exact .inr (SymbolTable.mem_symbols_insert.2 (.inl rfl))
    | starts hc | misses hc | counts hc | keeps hc =>
      left
      simpa [obtained, InternCall.obtained, hc] using hs
  exact hcases.elim (fun hs => hgrows (hobtained s hs)) id

theorem sound (h : Step table thread table' thread') (hs : table.Sound) : table'.Sound := by
  cases h with
  | starts hc hp =>
    exact hs.of_shards (SymbolTable.shards_receive _ _) (SymbolTable.id_receive _ _)
  | inserts hc hf => exact hs.insert hf _
  | counts hc => exact hs.of_shards rfl rfl
  | idle | finds | misses | keeps => exact hs

theorem apart (h : Step table thread table' thread') {homes : List Nat}
    (ha : table.Apart (thread.homes ++ homes)) : table'.Apart (thread'.homes ++ homes) := by
  cases h with
  | idle hc hp => exact ha
  | starts hc hp =>
    have hbefore : thread.homes = [] := by simp [InternThread.homes, hc]
    rw [hbefore] at ha
    simpa [InternThread.homes, InternCall.homes] using ha.receive _
  | finds hc hcall hf => exact ha.drop
  | misses hc hf => simpa [InternThread.homes, InternCall.homes, hc] using ha
  | @inserts t home hc hf =>
    have hbefore : thread.homes = home.toList := by
      simp [InternThread.homes, InternCall.homes, hc]
    rw [hbefore] at ha
    exact ha.insert _
  | counts hc =>
    have hbefore : thread.homes = [] := by simp [InternThread.homes, InternCall.homes, hc]
    rw [hbefore] at ha
    exact ha.of_perm (.refl _) (Nat.le_refl _)
  | keeps hc => simpa [InternThread.homes, InternCall.homes, hc] using ha

/-- **A symbol is added with one more to count, and counted once.** -/
theorem counted (h : Step table thread table' thread') :
    table'.count + thread'.isUncounted.toNat + table.symbols.length =
      table.count + thread.isUncounted.toNat + table'.symbols.length := by
  cases h with
  | idle hc hp => rfl
  | starts hc hp =>
    rw [SymbolTable.symbols_receive, SymbolTable.count_receive]
    simp [isUncounted, InternCall.isUncounted, hc]
  | finds hc hcall hf =>
    rcases hcall with rfl | rfl <;> simp [isUncounted, InternCall.isUncounted, hc]
  | misses hc hf => simp [isUncounted, InternCall.isUncounted, hc]
  | @inserts t home hc hf =>
    rw [(SymbolTable.symbols_insert table t home).length_eq, SymbolTable.count_insert,
      List.length_cons]
    simp [isUncounted, InternCall.isUncounted, hc]
    omega
  | counts hc =>
    have hcount : table.increment.count = table.count + 1 := rfl
    have hsymbols : table.increment.symbols = table.symbols := rfl
    simp [isUncounted, InternCall.isUncounted, hc, hcount, hsymbols]
  | keeps hc => simp [isUncounted, InternCall.isUncounted, hc]

/-- **Each step brings a thread closer to its end.** -/
theorem stepsLeft_le (h : Step table thread table' thread') :
    thread'.stepsLeft ≤ thread.stepsLeft - 1 := by
  cases h with
  | idle hc hp => simp [stepsLeft, hc, hp]
  | starts hc hp =>
    simp only [stepsLeft, InternCall.stepsLeft, hc, hp, Option.map_none, Option.map_some,
      Option.getD_none, Option.getD_some, List.length_cons]
    omega
  | finds hc hcall hf =>
    rcases hcall with rfl | rfl <;> simp [stepsLeft, InternCall.stepsLeft, hc]
  | misses hc hf | inserts hc hf => simp [stepsLeft, InternCall.stepsLeft, hc]
  | counts hc | keeps hc => simp [stepsLeft, InternCall.stepsLeft, hc]

end Step

end InternThread

/-- What each turn that counts brings down by one, all of them bring down by their number. -/
theorem foldl_le_sub_countP {σ τ : Type} {step : σ → τ → σ} {left : σ → Nat} {counts : τ → Bool}
    (h : ∀ s turn, left (step s turn) ≤ left s - if counts turn then 1 else 0) (s : σ)
    (turns : List τ) : left (turns.foldl step s) ≤ left s - turns.countP counts := by
  induction turns generalizing s with
  | nil => exact Nat.le_refl _
  | cons turn turns ih =>
    have hstep := h s turn
    have hrest := ih (step s turn)
    rw [List.foldl_cons, List.countP_cons]
    omega

/-! ## Runs -/

namespace InternRun

variable {requests : List (List InternRequest)}

/-- The symbols that the finished calls of all threads gave. -/
def results (run : InternRun) : List Symbol := run.threads.flatMap InternThread.results

theorem step_cases (run : InternRun) (i : Nat) : run.step i = run ∨
    ∃ front thread back table thread', run.threads = front ++ thread :: back ∧
      InternThread.Step run.table thread table thread' ∧
      run.step i = ⟨table, front ++ thread' :: back⟩ := by
  unfold step
  cases hi : run.threads[i]? with
  | none => exact .inl rfl
  | some thread =>
    right
    obtain ⟨hlt, rfl⟩ := List.getElem?_eq_some_iff.1 hi
    have hspec := InternThread.step_spec run.table run.threads[i]
    rcases hnext : InternThread.step run.table run.threads[i] with ⟨table, thread'⟩
    rw [hnext] at hspec
    obtain ⟨front, back, hthreads, -, hset⟩ : ∃ front back,
        run.threads = front ++ run.threads[i] :: back ∧ front.length = i ∧
          run.threads.set i thread' = front ++ thread' :: back := List.exists_of_set hlt
    refine ⟨front, _, back, table, thread', hthreads, hspec, ?_⟩
    simp only [hnext, hset]

/-- What holds of threads with requests and of the table they share: it is sound, no address is in
use twice, what it counts and what the threads still have to count are all its symbols, those are
the symbols that the threads got, and no text of a thread is lost. -/
structure Inv (requests : List (List InternRequest)) (run : InternRun) : Prop where
  sound : run.table.Sound
  apart : run.table.Apart (run.threads.flatMap InternThread.homes)
  counted : run.table.count + run.threads.countP InternThread.isUncounted =
    run.table.symbols.length
  obtained : ∀ thread ∈ run.threads, ∀ s ∈ thread.obtained, s ∈ run.table.symbols
  covered : ∀ s ∈ run.table.symbols, ∃ thread ∈ run.threads, s ∈ thread.obtained
  texts : run.threads.map InternThread.texts = requests.map (·.map InternRequest.text)

theorem Inv.start (id : Nat) (requests : List (List InternRequest)) :
    (start id requests).Inv requests := by
  have hsymbols : (InternRun.start id requests).table.symbols = [] := by
    simp [InternRun.start, SymbolTable.empty, SymbolTable.symbols]
  have hhomes : (InternRun.start id requests).threads.flatMap InternThread.homes = [] := by
    simp [InternRun.start, InternThread.homes, InternThread.ofRequests]
  constructor
  case sound => exact .empty id
  case apart => constructor <;> simp [hsymbols, hhomes]
  case counted =>
    rw [hsymbols]
    simp [InternRun.start, SymbolTable.empty, List.countP_eq_zero, InternThread.isUncounted,
      InternThread.ofRequests]
  case obtained =>
    intro thread hthread s hs
    obtain ⟨rs, -, rfl⟩ := List.mem_map.1 hthread
    simp [InternThread.obtained, InternThread.ofRequests] at hs
  case covered => simp [hsymbols]
  case texts =>
    simp [InternRun.start, InternThread.texts, InternThread.obtained, InternThread.ofRequests,
      Function.comp_def]

/-- **A step keeps what holds of a run.** -/
theorem Inv.step {run : InternRun} (h : run.Inv requests) (i : Nat) :
    (run.step i).Inv requests := by
  rcases run.step_cases i with heq | ⟨front, thread, back, table, thread', hthreads, hstep, heq⟩
  · rwa [heq]
  · rw [heq]
    obtain ⟨hsound, hapart, hcounted, hobtained, hcovered, htexts⟩ := h
    rw [hthreads] at hapart hcounted hobtained hcovered htexts
    have hgrows := hstep.symbols_subset
    constructor
    case sound => exact hstep.sound hsound
    case apart =>
      have hsplit (thread : InternThread) :
          ((front ++ thread :: back).flatMap InternThread.homes).Perm
            (thread.homes ++ (front.flatMap InternThread.homes ++
              back.flatMap InternThread.homes)) := by
        rw [List.flatMap_append, List.flatMap_cons]
        exact List.perm_append_comm_assoc _ _ _
      exact (hstep.apart (hapart.perm (hsplit thread).symm)).perm (hsplit thread')
    case counted =>
      have hone := hstep.counted
      have hsplit (thread : InternThread) :
          (front ++ thread :: back).countP InternThread.isUncounted =
            front.countP InternThread.isUncounted + back.countP InternThread.isUncounted +
              thread.isUncounted.toNat := by
        cases hu : thread.isUncounted <;> simp [List.countP_append, hu, Nat.add_assoc]
      rw [hsplit] at hcounted ⊢
      dsimp only at hcounted ⊢
      omega
    case obtained =>
      intro th hth s hs
      rcases List.mem_append.1 hth with hth | hth
      · exact hgrows (hobtained th (List.mem_append_left _ hth) s hs)
      · rcases List.mem_cons.1 hth with rfl | hth
        · exact hstep.mem_of_obtained (hobtained thread (by simp)) s hs
        · exact hgrows (hobtained th (by simp [hth]) s hs)
    case covered =>
      intro s hs
      rcases hstep.mem_symbols hs with hs | hs
      · obtain ⟨th, hth, hs⟩ := hcovered s hs
        rcases List.mem_append.1 hth with hth | hth
        · exact ⟨th, by simp [hth], hs⟩
        · rcases List.mem_cons.1 hth with rfl | hth
          · exact ⟨thread', by simp, hstep.obtained_subset hs⟩
          · exact ⟨th, by simp [hth], hs⟩
      · exact ⟨thread', by simp, hs⟩
    case texts =>
      rw [← htexts]
      simp [hstep.texts_eq]

theorem Inv.steps {run : InternRun} (h : run.Inv requests) (schedule : List Nat) :
    (run.steps schedule).Inv requests := by
  induction schedule generalizing run with
  | nil => exact h
  | cons i schedule ih => exact ih (h.step i)

theorem symbols_subset_steps (run : InternRun) (schedule : List Nat) :
    run.table.symbols ⊆ (run.steps schedule).table.symbols := by
  induction schedule generalizing run with
  | nil => exact fun s hs => hs
  | cons i schedule ih =>
    have hstep : run.table.symbols ⊆ (run.step i).table.symbols := by
      rcases run.step_cases i with heq | ⟨front, thread, back, table, thread', -, hstep, heq⟩
      · rw [heq]
        exact fun s hs => hs
      · rw [heq]
        exact hstep.symbols_subset
    exact fun s hs => ih _ (hstep hs)

/-! ### Turns -/

/-- The most steps that the thread with a number has yet to take. -/
def stepsLeft (run : InternRun) (k : Nat) : Nat :=
  (run.threads[k]?.map InternThread.stepsLeft).getD 0

theorem stepsLeft_step (run : InternRun) (i k : Nat) :
    (run.step i).stepsLeft k ≤ run.stepsLeft k - if i == k then 1 else 0 := by
  cases hi : run.threads[i]? with
  | none =>
    have hstep : run.step i = run := by rw [step, hi]
    by_cases hik : i = k
    · subst hik
      simp [hstep, stepsLeft, hi]
    · simp [hstep, hik]
  | some thread =>
    obtain ⟨hlt, -⟩ := List.getElem?_eq_some_iff.1 hi
    have hthreads : (run.step i).threads = run.threads.set i (thread.step run.table).2 := by
      rw [step, hi]
    by_cases hik : i = k
    · subst hik
      simp only [stepsLeft, hthreads, hi, List.getElem?_set_self hlt, Option.map_some,
        Option.getD_some, beq_self_eq_true, if_true]
      exact (InternThread.step_spec run.table thread).stepsLeft_le
    · simp [stepsLeft, hthreads, hik]

/-- **Turns of a thread bring it to its end**, whatever the others do between them. -/
theorem stepsLeft_steps (run : InternRun) (schedule : List Nat) (k : Nat) :
    (run.steps schedule).stepsLeft k ≤ run.stepsLeft k - schedule.count k :=
  @foldl_le_sub_countP _ _ step (stepsLeft · k) (· == k) (fun run i => run.stepsLeft_step i k) run
    schedule

/-! ## What the calls gave -/

namespace Inv

variable {run : InternRun}

theorem mem_of_results (h : run.Inv requests) {thread : InternThread} (hth : thread ∈ run.threads) :
    ∀ s ∈ thread.results, s ∈ run.table.symbols :=
  fun s hs => h.obtained thread hth s (thread.results_prefix.subset hs)

theorem mem_symbols (h : run.Inv requests) : ∀ s ∈ run.results, s ∈ run.table.symbols := by
  intro s hs
  obtain ⟨thread, hth, hs⟩ := List.mem_flatMap.1 hs
  exact h.mem_of_results hth s hs

theorem texts_getElem? (h : run.Inv requests) (k : Nat) :
    run.threads[k]?.map InternThread.texts = requests[k]?.map (·.map InternRequest.text) := by
  rw [← List.getElem?_map, h.texts, List.getElem?_map]

theorem texts_prefix (h : run.Inv requests) {k : Nat} {thread : InternThread}
    (hk : run.threads[k]? = some thread) : ∃ rs, requests[k]? = some rs ∧
      thread.results.map Symbol.text <+: rs.map InternRequest.text := by
  have htexts := h.texts_getElem? k
  rw [hk, Option.map_some] at htexts
  obtain ⟨rs, hrs, heq⟩ := Option.map_eq_some_iff.1 htexts.symm
  refine ⟨rs, hrs, ?_⟩
  rw [heq]
  exact (thread.results_prefix.map _).trans (List.prefix_append _ _)

theorem exists_thread (h : run.Inv requests) {k : Nat} {rs : List InternRequest}
    (hk : requests[k]? = some rs) : ∃ thread, run.threads[k]? = some thread ∧
      thread.texts = rs.map InternRequest.text := by
  have htexts := h.texts_getElem? k
  rw [hk, Option.map_some] at htexts
  exact Option.map_eq_some_iff.1 htexts

/-- **A thread is done after five steps of its own for each request.** -/
theorem done (h : run.Inv requests) {schedule : List Nat} {k : Nat} {rs : List InternRequest}
    (hk : requests[k]? = some rs) (hturns : 5 * rs.length ≤ schedule.count k) :
    ∃ thread, (run.steps schedule).threads[k]? = some thread ∧ thread.Rests ∧
      thread.results.map Symbol.text = rs.map InternRequest.text := by
  obtain ⟨thread, hthread, htexts⟩ := h.exists_thread hk
  obtain ⟨thread', hthread', htexts'⟩ := (h.steps schedule).exists_thread hk
  have hbound := thread.stepsLeft_le_texts
  have hsteps := run.stepsLeft_steps schedule k
  simp only [stepsLeft, hthread, hthread', Option.map_some, Option.getD_some] at hsteps
  rw [htexts, List.length_map] at hbound
  have hleft : thread'.stepsLeft = 0 := by omega
  obtain ⟨hrests, hresults⟩ := InternThread.results_of_stepsLeft hleft
  exact ⟨thread', hthread', hrests, hresults.trans htexts'⟩

/-- **Symbols of the table are the same if and only if their texts are.** -/
theorem same_iff (h : run.Inv requests) {a b : Symbol} (ha : a ∈ run.table.symbols)
    (hb : b ∈ run.table.symbols) : a.same b = true ↔ a.text = b.text := by
  have hid : a.table = b.table := by rw [h.sound.own a ha, h.sound.own b hb]
  have haddresses := h.apart.distinct.sublist (List.sublist_append_left _ _)
  have hsame : a.same b = true ↔ a.address = b.address := by simp [Symbol.same, hid]
  rw [hsame]
  constructor
  · intro heq
    rw [List.inj_on_of_nodup_map haddresses ha hb heq]
  · intro heq
    rw [List.inj_on_of_nodup_map h.sound.distinct ha hb heq]

/-- When no call is under way, all symbols of the table were given by calls. -/
theorem texts_eq (h : run.Inv requests) (hrests : ∀ thread ∈ run.threads, thread.Rests) :
    (run.results.map Symbol.text).toFinset = (run.table.symbols.map Symbol.text).toFinset := by
  ext t
  simp only [List.mem_toFinset, List.mem_map]
  constructor
  · intro ht
    obtain ⟨s, hs, rfl⟩ := ht
    exact ⟨s, h.mem_symbols s hs, rfl⟩
  · intro ht
    obtain ⟨s, hs, rfl⟩ := ht
    obtain ⟨thread, hth, hs⟩ := h.covered s hs
    refine ⟨s, List.mem_flatMap.2 ⟨thread, hth, ?_⟩, rfl⟩
    rwa [(hrests thread hth).results_eq]

/-- **When no call is under way, the count of the table is that of the texts.** -/
theorem size_eq (h : run.Inv requests) (hrests : ∀ thread ∈ run.threads, thread.Rests) :
    run.table.size = (run.results.map Symbol.text).toFinset.card := by
  have hcounted : run.threads.countP InternThread.isUncounted = 0 := by
    rw [List.countP_eq_zero]
    exact fun thread hth => Bool.eq_false_iff.1 (hrests thread hth).isUncounted_eq
  have hcount := h.counted
  rw [hcounted, Nat.add_zero] at hcount
  rw [h.texts_eq hrests, List.toFinset_card_of_nodup h.sound.distinct, List.length_map]
  exact hcount

end Inv

/-- A run in which each text has one symbol. -/
structure Canonical (requests : List (List InternRequest)) (run : InternRun) : Prop where
  /-- No text occurs twice in the table. -/
  distinct : (run.table.symbols.map Symbol.text).Nodup
  /-- Whatever steps come next, the table keeps its symbols. -/
  kept : ∀ schedule, run.table.symbols ⊆ (run.steps schedule).table.symbols
  /-- The finished calls of a thread gave the symbols of its first texts, as the table has them. -/
  given : ∀ (k : Nat) (thread : InternThread), run.threads[k]? = some thread →
    ∃ rs, requests[k]? = some rs ∧
      thread.results.map Symbol.text <+: rs.map InternRequest.text ∧
      ∀ s ∈ thread.results, s ∈ run.table.symbols
  /-- Two symbols that calls gave are the same if and only if their texts are equal. -/
  same_iff : ∀ a ∈ run.results, ∀ b ∈ run.results, a.same b = true ↔ a.text = b.text
  /-- With no call under way, the table counts the texts that calls were given. -/
  counted : (∀ thread ∈ run.threads, thread.Rests) →
    run.table.size = (run.results.map Symbol.text).toFinset.card
  /-- A thread that takes five more steps for each of its requests has symbols for all of them,
  whatever the others do between them. -/
  done : ∀ (schedule : List Nat) (k : Nat) (rs : List InternRequest), requests[k]? = some rs →
    5 * rs.length ≤ schedule.count k →
    ∃ thread, (run.steps schedule).threads[k]? = some thread ∧ thread.Rests ∧
      thread.results.map Symbol.text = rs.map InternRequest.text
  /-- A call that runs through without others beside it gives what interning gives. -/
  alone : ∀ request : InternRequest,
    (fun x => InternCall.step x.1 x.2)^[3] (InternCall.start run.table request) =
      ((run.table.internAs request.handover request.text).2,
        .finished (run.table.internAs request.handover request.text).1)

/-- **Interning is canonical**: whatever texts any number of threads intern, in whatever order they
take their steps, and it comes to an end for each thread that has its turns. -/
theorem canonical (id : Nat) (requests : List (List InternRequest)) (schedule : List Nat) :
    ((start id requests).steps schedule).Canonical requests := by
  have hinv := (Inv.start id requests).steps schedule
  constructor
  case distinct => exact hinv.sound.distinct
  case kept => exact symbols_subset_steps _
  case given =>
    intro k thread hk
    obtain ⟨rs, hrs, htexts⟩ := hinv.texts_prefix hk
    exact ⟨rs, hrs, htexts, hinv.mem_of_results (List.mem_of_getElem? hk)⟩
  case same_iff =>
    intro a ha b hb
    exact hinv.same_iff (hinv.mem_symbols a ha) (hinv.mem_symbols b hb)
  case counted => exact hinv.size_eq
  case done => exact fun schedule k rs => hinv.done
  case alone => exact InternCall.alone _

/-- Both threads miss the text before one of them adds it. -/
example : ((start 0 [[⟨['a'], .lent⟩], [⟨['a'], .given⟩]]).steps [0, 1, 0, 1, 1, 0, 1]).results =
    [⟨0, 0, ['a']⟩, ⟨0, 0, ['a']⟩] := by decide

end InternRun

end LesTokens
