/-
Interning from several threads at once. A call is a few atomic steps on the table: look the text up
among the readers of its shard; if it is not there, look again as the only writer and add it; then
count it. Any interleaving of such steps is a run.
-/
import LesTokens.Symbol

namespace LesTokens

/-- A text to intern, and how it is handed over. -/
structure InternRequest where
  text : Text
  handover : Handover
  deriving DecidableEq, Repr

/-- How far a call has come. A text that is given away has its address from the start. -/
inductive InternCall where
  /-- Nothing has been looked up yet. -/
  | started (text : Text) (home : Option Nat)
  /-- A reader has not found the text. -/
  | missed (text : Text) (home : Option Nat)
  /-- A writer has added the text, which is not counted yet. -/
  | inserted (symbol : Symbol)
  | finished (symbol : Symbol)
  deriving DecidableEq, Repr

namespace InternCall

/-- The call that a request starts. -/
def start (table : SymbolTable) (request : InternRequest) : SymbolTable × InternCall :=
  let (home, table) := table.receive request.handover
  (table, started request.text home)

/-- The next atomic step of a call. -/
def step (table : SymbolTable) : InternCall → SymbolTable × InternCall
  | started t home =>
    match table.find? t with
    | some symbol => (table, finished symbol)
    | none => (table, missed t home)
  | missed t home =>
    match table.find? t with
    | some symbol => (table, finished symbol)
    | none =>
      let (symbol, table) := table.insert t home
      (table, inserted symbol)
  | inserted symbol => (table.increment, finished symbol)
  | finished symbol => (table, finished symbol)

end InternCall

/-- A thread: the texts it has yet to intern, the call it is in, and the symbols it got. -/
structure InternThread where
  pending : List InternRequest
  call : Option InternCall
  symbols : List Symbol
  deriving DecidableEq, Repr

namespace InternThread

/-- A thread that has not started. -/
def ofRequests (requests : List InternRequest) : InternThread := ⟨requests, none, []⟩

/-- A thread that will intern texts that are lent to the table. -/
def ofTexts (texts : List Text) : InternThread := ofRequests (texts.map (⟨·, .lent⟩))

/-- The next step of a thread: it starts a call, takes a step of it, or keeps its answer. -/
def step (table : SymbolTable) (thread : InternThread) : SymbolTable × InternThread :=
  match thread.call with
  | some (.finished symbol) =>
    (table, { thread with call := none, symbols := thread.symbols ++ [symbol] })
  | some call =>
    let (table, call) := call.step table
    (table, { thread with call := some call })
  | none =>
    match thread.pending with
    | [] => (table, thread)
    | request :: requests =>
      let (table, call) := InternCall.start table request
      (table, { thread with pending := requests, call := some call })

end InternThread

/-- Threads and the table they share. -/
structure InternRun where
  table : SymbolTable
  threads : List InternThread

namespace InternRun

/-- A new table, and threads that have not started. -/
def start (id : Nat) (requests : List (List InternRequest)) : InternRun :=
  ⟨.empty id, requests.map .ofRequests⟩

/-- One step of the thread with a number; nothing if there is no such thread. -/
def step (run : InternRun) (i : Nat) : InternRun :=
  match run.threads[i]? with
  | none => run
  | some thread =>
    let (table, thread) := thread.step run.table
    ⟨table, run.threads.set i thread⟩

/-- The steps of a schedule, each given by the number of the thread that takes it. -/
def steps (run : InternRun) (schedule : List Nat) : InternRun := schedule.foldl step run

/-- Threads that take turns, as often as the longest call takes for each text. -/
def inTurns (threads texts : Nat) : List Nat :=
  (List.replicate (5 * texts) (List.range threads)).flatten

end InternRun

/-- The symbols that each of some threads gets for the same texts, and the table after them. -/
def SymbolTable.internInThreads (table : SymbolTable) (threads : Nat) (texts : List Text) :
    List (List Symbol) × SymbolTable :=
  let start : InternRun := ⟨table, List.replicate threads (.ofTexts texts)⟩
  let run := start.steps (InternRun.inTurns threads texts.length)
  (run.threads.map (·.symbols), run.table)

end LesTokens
