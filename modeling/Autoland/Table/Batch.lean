import Autoland.Table.Store

/-! Several entries of a table read and written together. -/

namespace Autoland.Table

def ascending (numbers : List Nat) : List Nat := (numbers.mergeSort (· ≤ ·)).eraseReps

/-- The locks that are taken for entries: their own ones, or those of the shards they lie in, with
the number of all shards. -/
inductive Locks where
  | entries (indices : List Nat)
  | shards (count : Nat) (numbers : List Nat)
  deriving DecidableEq, Repr

def Locks.opens : Locks → Nat → Bool
  | entries indices, index => index ∈ indices
  | shards count numbers, index => index % count ∈ numbers

variable {φ : Type}

def Cells.locks (cells : Cells φ) (members : List Nat) : Locks :=
  match cells with
  | dense _ => .entries members
  | sparse shards => .shards shards.size (ascending (members.map (· % shards.size)))

theorem Cells.locks_set (cells : Cells φ) (index : Nat) (value : φ) (members : List Nat) :
    (cells.set index value).locks members = cells.locks members := by
  cases cells with
  | dense values => rfl
  | sparse shards => simp only [set, locks, Array.size_modify]

/-- A store of which some entries are held, in order and distinct, by their locks. -/
structure Batch (φ : Type) where
  members : List Nat
  store : Store φ
  locks : Locks
  locked : locks = store.cells.locks members

def Store.hold (store : Store φ) (members : List Nat) : Batch φ :=
  ⟨members, store, store.cells.locks members, rfl⟩

/-- Takes hold of entries. One that is named twice is held once, and one outside the table refuses
them all. -/
def Store.batch (store : Store φ) (indices : List Nat) : Except Error (Batch φ) := do
  indices.forM store.check
  return store.hold (ascending indices)

namespace Batch

def write (batch : Batch φ) (index : Nat) (value : φ) : Batch φ where
  members := batch.members
  store := { batch.store with cells := batch.store.cells.set index value }
  locks := batch.locks
  locked := by rw [batch.locked, Cells.locks_set]

variable [TableValue φ]

def get? (batch : Batch φ) (index : Nat) : Option φ :=
  if index ∉ batch.members then none
  else if batch.locks.opens index then some (batch.store.cells.get index)
  else none

def set (batch : Batch φ) (index : Nat) (value : φ) : Bool × Batch φ :=
  if index ∉ batch.members then (false, batch)
  else if batch.locks.opens index then (true, batch.write index value)
  else (false, batch)

end Batch

end Autoland.Table
