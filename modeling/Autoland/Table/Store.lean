import Autoland.Table.Image
import Std.Data.TreeMap

/-!
The learned values of one definition. A dense store has a cell for every index. A sparse one holds
the written entries, each in the shard that its index has modulo the number of shards.
-/

namespace Autoland.Table

inductive Cells (φ : Type) where
  | dense (values : Array φ)
  | sparse (shards : Array (Std.TreeMap Nat φ))

structure Store (φ : Type) where
  name : String
  size : Nat
  cells : Cells φ

namespace Cells

variable {φ : Type} [TableValue φ]

def backing : Cells φ → Grid.Backing
  | dense _ => .dense
  | sparse _ => .sparse

def zero (size shards : Nat) : Grid.Backing → Cells φ
  | .dense => dense (Array.replicate size TableValue.zero)
  | .sparse => sparse (Array.replicate (max shards 1) ∅)

def get (index : Nat) : Cells φ → φ
  | dense values => values[index]?.getD TableValue.zero
  | sparse shards =>
    (shards[index % shards.size]?.bind (·[index]?)).getD TableValue.zero

def set (index : Nat) (value : φ) : Cells φ → Cells φ
  | dense values => dense (values.setIfInBounds index value)
  | sparse shards =>
    let shard := index % shards.size
    sparse (shards.modify shard (·.insert index value))

/-- How many cells differ from zero, or how many entries were written. -/
def populated : Cells φ → Nat
  | dense values => values.countP (· != TableValue.zero)
  | sparse shards => shards.foldl (fun count shard => count + shard.size) 0

/-- A copy of the values. Those of a sparse store are in the order of their indices. -/
def entries : Cells φ → Entries φ
  | dense values => .dense values.toList
  | sparse shards =>
    .sparse ((shards.toList.flatMap (·.toList)).mergeSort fun a b => a.1 ≤ b.1)

def clear : Cells φ → Cells φ
  | dense values => dense (Array.replicate values.size TableValue.zero)
  | sparse shards => sparse (Array.replicate shards.size ∅)

/-- Writes pairs over cleared cells. A sparse store passes over zeros. -/
def load (cells : Cells φ) (pairs : List (Nat × φ)) : Cells φ :=
  match cells.clear with
  | dense values =>
    pairs.foldl (fun cells (index, value) => cells.set index value) (dense values)
  | sparse shards =>
    (pairs.filter fun (_, value) => value != TableValue.zero).foldl
      (fun cells (index, value) => cells.set index value) (sparse shards)

end Cells

namespace Store

variable {φ : Type} [TableValue φ]

def ofLayout (name : String) (layout : Grid.Layout) (shards : Nat) : Store φ :=
  ⟨name, layout.total, .zero layout.total shards layout.backing⟩

def backing (store : Store φ) : Grid.Backing := store.cells.backing

def check (store : Store φ) (index : Nat) : Except Error Unit :=
  if index < store.size then .ok () else .error (.indexOutOfRange index store.size)

def get (store : Store φ) (index : Nat) : Except Error φ :=
  (store.check index).map fun _ => store.cells.get index

def update (store : Store φ) (index : Nat) (f : φ → φ) : Except Error φ × Store φ :=
  match store.check index with
  | .error error => (.error error, store)
  | .ok () =>
    let value := f (store.cells.get index)
    (.ok value, { store with cells := store.cells.set index value })

def put (store : Store φ) (index : Nat) (value : φ) : Except Error Unit × Store φ :=
  match store.update index fun _ => value with
  | (result, store) => (result.map fun _ => (), store)

def populated (store : Store φ) : Nat := store.cells.populated

def save (store : Store φ) (time : Timestamp) : Image φ :=
  ⟨formatVersion, store.name, store.size, store.backing, time, store.cells.entries⟩

/-- Puts a copy that fits the table in place of all its values, however the copy is kept. -/
def attach (store : Store φ) (image : Image φ) : Except Error Unit × Store φ :=
  match image.checkShape store.name store.size with
  | .error error => (.error error, store)
  | .ok () => (.ok (), { store with cells := store.cells.load image.pairs })

end Store

end Autoland.Table
