/-
Symbols: names that are compared by identity. A table keeps one symbol for each text it was given,
so within a table two symbols are one exactly if their texts are equal; symbols of different
tables are always different.

A table is split into shards by a hash of the text, so that calls on different shards need not wait
for each other.
-/
import LesTokens.Text

namespace LesTokens

/-- A name in a table: the table, the address the name was given there, and its text. -/
structure Symbol where
  table : Nat
  address : Nat
  text : Text
  deriving DecidableEq, Repr

/-- Whether two symbols are the same one. -/
def Symbol.same (a b : Symbol) : Bool := a.table = b.table && a.address = b.address

/-- How a text comes to a table. -/
inductive Handover where
  /-- The text is lent, and copied if it has to be kept. -/
  | lent
  /-- The text is given away, and stays where it is if it has to be kept. -/
  | given
  deriving DecidableEq, Repr

def shardCount : Nat := 16

/-- A symbol table. Addresses are never used twice; `count` is the number of names as far as it has
been counted. -/
structure SymbolTable where
  id : Nat
  shards : Vector (List Symbol) shardCount
  nextAddress : Nat
  count : Nat

namespace SymbolTable

/-- A table without names. -/
def empty (id : Nat) : SymbolTable := ⟨id, Vector.replicate shardCount [], 0, 0⟩

/-- A hash of the first eight bytes of a text. -/
def hash (t : Text) : UInt32 :=
  (t.bytes.take 8).foldl (fun h b => h * 31 + b.toUInt32) 0

/-- The shard that a text belongs to. -/
def shardOf (t : Text) : Fin shardCount :=
  ⟨(hash t).toNat % shardCount, Nat.mod_lt _ (by decide)⟩

/-- The symbol of a text, if the table has one. -/
def find? (table : SymbolTable) (t : Text) : Option Symbol :=
  table.shards[shardOf t].find? (·.text = t)

/-- An address that nothing has had yet. -/
def allocate (table : SymbolTable) : Nat × SymbolTable :=
  (table.nextAddress, { table with nextAddress := table.nextAddress + 1 })

/-- Where a text that is handed over stands, if it may stay there. -/
def receive (table : SymbolTable) : Handover → Option Nat × SymbolTable
  | .lent => (none, table)
  | .given =>
    let (home, table) := table.allocate
    (some home, table)

/-- Where a text is kept: where it stands if it may stay there, else in a copy. -/
def keep (table : SymbolTable) : Option Nat → Nat × SymbolTable
  | some home => (home, table)
  | none => table.allocate

/-- Adds a symbol for a text, without counting it. -/
def insert (table : SymbolTable) (t : Text) (home : Option Nat) : Symbol × SymbolTable :=
  let (address, table) := table.keep home
  let symbol : Symbol := ⟨table.id, address, t⟩
  let shard := shardOf t
  (symbol, { table with shards := table.shards.set shard (symbol :: table.shards[shard]) })

/-- Counts one more name. -/
def increment (table : SymbolTable) : SymbolTable := { table with count := table.count + 1 }

/-- The symbol of a text that is handed over, which is added if the table has none. -/
def internAs (table : SymbolTable) (handover : Handover) (t : Text) : Symbol × SymbolTable :=
  let (home, table) := table.receive handover
  match table.find? t with
  | some symbol => (symbol, table)
  | none =>
    let (symbol, table) := table.insert t home
    (symbol, table.increment)

/-- The symbol of a text, which is copied if it has to be added. -/
def intern (table : SymbolTable) (t : Text) : Symbol × SymbolTable := table.internAs .lent t

/-- The symbol of a text that is given away, which stays where it is if it has to be added. -/
def internOwned (table : SymbolTable) (t : Text) : Symbol × SymbolTable := table.internAs .given t

/-- The symbols of texts, one after another. -/
def internAll (table : SymbolTable) : List Text → List Symbol × SymbolTable
  | [] => ([], table)
  | t :: ts =>
    let (symbol, table) := table.intern t
    let (symbols, table) := table.internAll ts
    (symbol :: symbols, table)

/-- The number of names. -/
def size (table : SymbolTable) : Nat := table.count

def isEmpty (table : SymbolTable) : Bool := table.count = 0

end SymbolTable

end LesTokens
