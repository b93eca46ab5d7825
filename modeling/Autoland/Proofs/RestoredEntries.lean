import Autoland.Proofs.TableCopies

/-! Tables that are saved and attached to a fresh table of the same kind. A dense table comes back
entry by entry. A sparse one counts every entry that was ever written, and loses those among them
that hold zero. -/

namespace Autoland.Table

variable {φ : Type}

def HeldCall.writes (members : List Nat) : HeldCall φ → List Nat
  | .get _ => []
  | .set index _ => if index ∈ members then [index] else []

def Call.writes (size : Nat) : Call φ → List Nat
  | .get _ => []
  | .put index _ => if index < size then [index] else []
  | .update index _ => if index < size then [index] else []
  | .batch indices calls =>
    if ∀ index ∈ indices, index < size then calls.flatMap (·.writes indices) else []

theorem HeldCall.writes_members (indices : List Nat) (call : HeldCall φ) :
    call.writes (ascending indices) = call.writes indices := by
  cases call with
  | get index => rfl
  | set index value => simp only [writes, mem_ascending]

variable [TableValue φ]

namespace Cells

def counts : Cells φ → φ → Bool
  | dense _, value => value != TableValue.zero
  | sparse _, _ => true

theorem loads_eq (cells : Cells φ) (value : φ) :
    cells.loads value = (decide (cells.backing = .dense) || value != TableValue.zero) := by
  cases cells <;> rfl

omit [TableValue φ] in
theorem sum_sizes (shards : List (Std.TreeMap Nat φ)) (count : Nat) :
    shards.foldl (fun count shard => count + shard.size) count =
      count + (shards.flatMap (·.toList)).length := by
  induction shards generalizing count with
  | nil => rfl
  | cons shard shards ih =>
      rw [List.foldl_cons, ih, List.flatMap_cons, List.length_append, Std.TreeMap.length_toList,
        Nat.add_assoc]

theorem populated_eq (cells : Cells φ) :
    cells.populated = cells.entries.pairs.countP fun pair => cells.counts pair.2 := by
  cases cells with
  | dense values =>
      have listed : values.toList = values.toList.zipIdx.map Prod.fst := by simp
      simp only [populated, entries, Entries.pairs, counts, List.countP_map]
      rw [← Array.countP_toList]
      conv_lhs => rw [listed, List.countP_map]
      rfl
  | sparse shards =>
      simp only [populated, entries, Entries.pairs, counts, List.countP_true, List.length_mergeSort]
      rw [← Array.foldl_toList, sum_sizes, Nat.zero_add]

theorem populated_of_sparse (cells : Cells φ) (few : cells.backing = .sparse) :
    cells.populated = cells.entries.pairs.length := by
  rw [populated_eq]
  cases cells with
  | dense values => cases few
  | sparse shards => exact congrFun List.countP_true _

theorem backing_zero (size shards : Nat) (backing : Grid.Backing) :
    (zero size shards backing : Cells φ).backing = backing := by
  cases backing <;> rfl

omit [TableValue φ] in
theorem backing_set (cells : Cells φ) (index : Nat) (value : φ) :
    (cells.set index value).backing = cells.backing := by
  cases cells <;> rfl

theorem load_keeps {α : Type} (view : Cells φ → α)
    (cleared : ∀ cells : Cells φ, view cells.clear = view cells)
    (written : ∀ (cells : Cells φ) (index : Nat) (value : φ),
      view (cells.set index value) = view cells)
    (cells : Cells φ) (pairs : List (Nat × φ)) : view (cells.load pairs) = view cells := by
  have kept : ∀ (pairs : List (Nat × φ)) (cells : Cells φ),
      view (pairs.foldl (fun cells pair => cells.set pair.1 pair.2) cells) = view cells := by
    intro pairs
    induction pairs with
    | nil => exact fun _ => rfl
    | cons pair pairs ih => exact fun cells => (ih _).trans (written cells _ _)
  rw [load_eq, kept, cleared]

theorem backing_load (cells : Cells φ) (pairs : List (Nat × φ)) :
    (cells.load pairs).backing = cells.backing :=
  load_keeps backing (fun cells => by cases cells <;> rfl) backing_set cells pairs

omit [TableValue φ] in
theorem entries_eq_iff (first second : Cells φ) (alike : first.backing = second.backing) :
    first.entries = second.entries ↔ first.entries.pairs = second.entries.pairs := by
  refine ⟨congrArg Entries.pairs, ?_⟩
  intro same
  cases first with
  | dense values =>
      cases second with
      | dense others =>
          have listed : ∀ values : Array φ,
              (entries (.dense values)).pairs.map Prod.snd = values.toList := by
            intro values
            simp [entries, Entries.pairs, Function.comp_def]
          simp only [entries, Entries.dense.injEq]
          rw [← listed, ← listed, same]
      | sparse shards => cases alike
  | sparse shards =>
      cases second with
      | dense values => cases alike
      | sparse others => exact congrArg Entries.sparse same

section Loaded

variable {size : Nat} {cells other : Cells φ} (placed : cells.Placed size) (fits : other.Fits size)
  (alike : other.backing = cells.backing)

include placed fits alike

/-- Cells that take a copy of others of their kind keep what these keep, but for zeros that a sparse
store passes over. -/
theorem kept?_load_pairs (index : Nat) :
    (other.load cells.entries.pairs).kept? index = (cells.kept? index).filter other.loads := by
  rw [load_eq, kept?_foldl_set _ (fun pair member => below_pairs placed pair
      (List.mem_of_mem_filter member)) (placed_clear fits).fits, lookup_filter_pairs placed]
  cases other with
  | sparse shards =>
      have cleared : (clear (.sparse shards) : Cells φ).kept? index = none := by
        simp only [clear, kept?, Array.getElem?_replicate]
        split <;> simp
      rw [cleared, Option.or_none]
  | dense others =>
      cases cells with
      | sparse shards => cases alike
      | dense values =>
          have every : loads (.dense others : Cells φ) = fun _ => true := rfl
          have sized : others.size = values.size := Eq.trans fits (Eq.symm placed)
          simp only [every, clear, kept?, Array.getElem?_replicate, sized]
          by_cases below : index < values.size
          · -- a dense table lists every entry, so nothing shows of the cleared one
            rw [Array.getElem?_eq_getElem below, Option.filter_some, if_pos rfl, Option.some_or]
          · rw [if_neg below, Option.or_none, Array.getElem?_eq_none (Nat.le_of_not_lt below),
              Option.filter_none]

/-- Such cells list what the others list, but for these zeros. -/
theorem pairs_load_pairs :
    (other.load cells.entries.pairs).entries.pairs =
      cells.entries.pairs.filter fun pair => other.loads pair.2 := by
  have loaded : (other.load cells.entries.pairs).Placed size :=
    placed_load fits _ (below_pairs placed)
  refine eq_of_increasing (·.1) _ _ (sorted_pairs loaded) ((sorted_pairs placed).filter _) ?_
  rintro ⟨index, value⟩
  rw [mem_pairs loaded, kept?_load_pairs placed fits alike, List.mem_filter, mem_pairs placed,
    Option.filter_eq_some_iff]

theorem populated_load_pairs :
    (other.load cells.entries.pairs).populated =
      cells.entries.pairs.countP fun pair => pair.2 != TableValue.zero := by
  rw [populated_eq, pairs_load_pairs placed fits alike, List.countP_filter]
  congr 1
  funext pair
  have kind := other.backing_load cells.entries.pairs
  cases other with
  | dense values =>
      cases loaded : load (.dense values) cells.entries.pairs with
      | dense _ => simp [counts, loads]
      | sparse _ => simp [loaded, backing] at kind
  | sparse shards =>
      cases loaded : load (.sparse shards) cells.entries.pairs with
      | dense _ => simp [loaded, backing] at kind
      | sparse _ => simp [counts, loads]

theorem populated_load_pairs_iff :
    (other.load cells.entries.pairs).populated = cells.populated ↔
      ∀ pair ∈ cells.entries.pairs, other.loads pair.2 = true := by
  rw [populated_load_pairs placed fits alike, populated_eq]
  cases other with
  | dense others =>
      cases cells with
      | sparse shards => cases alike
      | dense values => exact iff_of_true rfl fun _ _ => rfl
  | sparse others =>
      cases cells with
      | dense values => cases alike
      | sparse shards =>
          simp only [counts, List.countP_true, loads]
          exact List.countP_eq_length

theorem entries_load_pairs_iff :
    (other.load cells.entries.pairs).entries = cells.entries ↔
      ∀ pair ∈ cells.entries.pairs, other.loads pair.2 = true := by
  rw [entries_eq_iff _ _ ((backing_load _ _).trans alike), pairs_load_pairs placed fits alike,
    List.filter_eq_self]

end Loaded

end Cells

namespace Store

/-- What a store keeps when some of its entries are written: its name, its size, its kind and the
entries that are present, to which the written ones come. -/
structure Extends (before after : Store φ) (written : List Nat) : Prop where
  name : after.name = before.name
  size : after.size = before.size
  backing : after.cells.backing = before.cells.backing
  present : ∀ index, (after.cells.kept? index).isSome =
    ((before.cells.kept? index).isSome || decide (index ∈ written))

omit [TableValue φ] in
theorem Extends.refl (store : Store φ) : Extends store store [] :=
  ⟨rfl, rfl, rfl, by simp⟩

omit [TableValue φ] in
theorem Extends.trans {first second third : Store φ} {earlier later : List Nat}
    (one : Extends first second earlier) (two : Extends second third later) :
    Extends first third (earlier ++ later) := by
  refine ⟨two.name.trans one.name, two.size.trans one.size, two.backing.trans one.backing, ?_⟩
  intro index
  rw [two.present, one.present, Bool.or_assoc]
  simp

omit [TableValue φ] in
theorem Extends.set {store : Store φ} (placed : store.Placed) (index : Nat)
    (below : index < store.size) (value : φ) :
    Extends store { store with cells := store.cells.set index value } [index] := by
  refine ⟨rfl, rfl, store.cells.backing_set index value, ?_⟩
  intro other
  rw [Cells.kept?_set placed.fits index other below]
  by_cases same : other = index <;> simp [same]

theorem Extends.update {store : Store φ} (placed : store.Placed) (index : Nat) (f : φ → φ) :
    Extends store (store.update index f).2 (if index < store.size then [index] else []) := by
  unfold Store.update Store.check
  split_ifs with below
  · exact .set placed index below _
  · exact .refl store

omit [TableValue φ] in
theorem Extends.setHeld {batch : Batch φ} (placed : batch.Placed) (index : Nat) (value : φ) :
    Extends batch.store (batch.set index value).2.store
      (if index ∈ batch.members then [index] else []) := by
  rw [Batch.set_eq]
  split_ifs with member
  · exact .set placed.store index (placed.members index member) value
  · exact .refl batch.store

theorem Extends.held {batch : Batch φ} (placed : batch.Placed) (calls : List (HeldCall φ)) :
    Extends batch.store (batch.run calls).2.store (calls.flatMap (·.writes batch.members)) := by
  induction calls generalizing batch with
  | nil => exact .refl batch.store
  | cons call calls ih =>
      cases call with
      | get index => exact ih placed
      | set index value =>
          have later := ih (placed.set index value)
          rw [show (batch.set index value).2.members = batch.members by
            rw [Batch.set_eq]
            split <;> rfl] at later
          exact (Extends.setHeld placed index value).trans later

/-- One call keeps the store but for the entries that it writes, which are present from then on. -/
theorem Extends.call {store : Store φ} (placed : store.Placed) (call : Call φ) :
    Extends store (store.call call).2 (call.writes store.size) := by
  cases call with
  | get index => exact .refl store
  | put index value => exact .update placed index fun _ => value
  | update index f => exact .update placed index f
  | batch indices calls =>
      simp only [Store.call, Call.writes]
      cases held : store.batch indices with
      | ok batch =>
          have written := Extends.held (placed.batch indices batch held) calls
          rcases (store.batch_eq_ok indices batch).mp held with ⟨below, rfl⟩
          simp only [Store.hold, HeldCall.writes_members] at written
          rw [if_pos below]
          exact written
      | error error =>
          have outside : ¬∀ index ∈ indices, index < store.size := by
            intro below
            cases held.symm.trans ((store.batch_eq_ok indices _).mpr ⟨below, rfl⟩)
          rw [if_neg outside]
          exact .refl store

theorem Placed.run {store : Store φ} (placed : store.Placed) (calls : List (Call φ)) :
    (store.run calls).2.Placed := by
  induction calls generalizing store with
  | nil => exact placed
  | cons call calls ih => exact ih (placed.call call)

theorem Extends.run {store : Store φ} (placed : store.Placed) (calls : List (Call φ)) :
    Extends store (store.run calls).2 (calls.flatMap (·.writes store.size)) := by
  induction calls generalizing store with
  | nil => exact .refl store
  | cons call calls ih =>
      have first := Extends.call placed call
      have later := ih (placed.call call)
      rw [first.size] at later
      exact first.trans later

theorem Placed.get_of_listed {store : Store φ} (placed : store.Placed) (pair : Nat × φ)
    (listed : pair ∈ store.cells.entries.pairs) : store.get pair.1 = .ok pair.2 := by
  have below := Cells.below_pairs placed pair listed
  have held := (Cells.mem_pairs placed pair.1 pair.2).mp listed
  rw [get, (store.check_eq_ok pair.1 ()).mpr below, Cells.get_eq_kept?, held]
  rfl

theorem written_iff_listed (name : String) (layout : Grid.Layout) (shards : Nat)
    (few : layout.backing = .sparse) (calls : List (Call φ)) (index : Nat) :
    (∃ value, (index, value) ∈ ((ofLayout name layout shards).run calls).2.cells.entries.pairs) ↔
      index ∈ calls.flatMap (·.writes layout.total) := by
  have fresh : (ofLayout name layout shards : Store φ).Placed := Cells.placed_zero ..
  have empty : (ofLayout name layout shards : Store φ).cells.kept? index = none := by
    simp only [ofLayout, few, Cells.zero, Cells.kept?, Array.getElem?_replicate]
    split <;> simp
  have present := (Extends.run fresh calls).present index
  rw [empty, Option.isSome_none, Bool.false_or] at present
  simp only [Cells.mem_pairs (fresh.run calls), ← Option.isSome_iff_exists]
  rw [present, decide_eq_true_eq]
  rfl

/-- A table that any calls have led to is saved and attached to a fresh table of its kind. A dense
table comes back with all its entries; a sparse one with those that are not zero, though it lists
and counts every entry that was written. So the entries and the count of populated entries survive
exactly if the table is dense or no entry that was written holds zero. -/
theorem attach_save_entries_iff (name : String) (layout : Grid.Layout) (shards : Nat)
    (calls : List (Call φ)) (time again : Timestamp) :
    let fresh : Store φ := .ofLayout name layout shards
    let written := calls.flatMap (·.writes layout.total)
    let store := (fresh.run calls).2
    let resumed := fresh.attach (store.save time)
    let keepsAll := layout.backing = .sparse → ∀ index ∈ written, ∀ value,
      store.get index = .ok value → (value == TableValue.zero) = false
    (layout.backing = .sparse → store.populated = (store.save time).pairs.length ∧
        ∀ index, (∃ value, (index, value) ∈ (store.save time).pairs) ↔ index ∈ written) ∧
      resumed.1 = .ok () ∧
      (resumed.2.save again).pairs = ((store.save time).pairs.filter fun pair =>
        decide (layout.backing = .dense) || pair.2 != TableValue.zero) ∧
      resumed.2.populated = (store.save time).nonZero ∧
      ((resumed.2.save again).entries = (store.save time).entries ↔ keepsAll) ∧
      (resumed.2.populated = store.populated ↔ keepsAll) := by
  intro fresh written store resumed keepsAll
  have empty : fresh.Placed := Cells.placed_zero ..
  have placed : store.Placed := empty.run calls
  have kept := Extends.run empty calls
  have kind : fresh.cells.backing = layout.backing := Cells.backing_zero ..
  rcases placed.attach_save empty time kept.name.symm kept.size.symm with ⟨attached, _⟩
  have fits : fresh.cells.Fits store.size := by
    rw [show store.size = fresh.size from kept.size]
    exact empty.fits
  have alike : fresh.cells.backing = store.cells.backing := kept.backing.symm
  have listed := fun few => written_iff_listed (φ := φ) name layout shards few calls
  -- Loading passes over the zeros of a sparse table, and what such a table lists was written.
  have all : (∀ pair ∈ store.cells.entries.pairs, fresh.cells.loads pair.2 = true) ↔ keepsAll := by
    simp only [Cells.loads_eq, kind]
    constructor
    · intro loaded few index member value found
      rcases (listed few index).mpr member with ⟨other, inside⟩
      have same : value = other :=
        Except.ok.inj (found.symm.trans (placed.get_of_listed _ inside))
      have nonzero := loaded _ inside
      simpa [few, same, bne] using nonzero
    · intro nonzero pair inside
      cases few : layout.backing with
      | dense => rfl
      | sparse =>
          have member := (listed few pair.1).mp ⟨pair.2, inside⟩
          simp [bne, nonzero few pair.1 member pair.2 (placed.get_of_listed pair inside)]
  have counted := fun few => store.cells.populated_of_sparse (kept.backing.trans (kind.trans few))
  refine ⟨fun few => ⟨counted few, listed few⟩, ?_⟩
  rw [show resumed = _ from attached]
  refine ⟨rfl, ?_, Cells.populated_load_pairs placed fits alike,
    (Cells.entries_load_pairs_iff placed fits alike).trans all,
    (Cells.populated_load_pairs_iff placed fits alike).trans all⟩
  refine (Cells.pairs_load_pairs placed fits alike).trans ?_
  simp only [Cells.loads_eq, kind]
  rfl

/-- Half is written and a zero entry is doubled. The sparse table counts two entries, and one when
it is back; the dense table comes back as it was. -/
theorem attach_save_entries_iff_doubled_zero :
    let layout : Grid.Backing → Grid.Layout := fun kind => ⟨[⟨"x", 0, 3⟩], [], [1], 4, kind⟩
    let calls : List (Call Float32) := [.put 1 0.5, .update 3 fun value => value + value]
    let fresh : Grid.Backing → Store Float32 := fun kind => .ofLayout "table" (layout kind) 2
    let store := fun kind => ((fresh kind).run calls).2
    let resumed := fun kind => ((fresh kind).attach ((store kind).save .epoch)).2
    (store .sparse).populated = 2 ∧ (resumed .sparse).populated ≠ 2 ∧
      ((resumed .sparse).save .epoch).entries ≠ ((store .sparse).save .epoch).entries ∧
      (resumed .dense).populated = (store .dense).populated ∧
      ((resumed .dense).save .epoch).entries = ((store .dense).save .epoch).entries := by
  intro layout calls fresh store resumed
  rcases attach_save_entries_iff "table" (layout .sparse) 2 calls .epoch .epoch with
    ⟨_, _, _, _, entries, counts⟩
  rcases attach_save_entries_iff "table" (layout .dense) 2 calls .epoch .epoch with
    ⟨_, _, _, _, same, counted⟩
  have two : (store .sparse).populated = 2 := by decide +kernel
  have lost : ¬(Grid.Backing.sparse = .sparse → ∀ index ∈ calls.flatMap (·.writes 4), ∀ value,
      (store .sparse).get index = .ok value → (value == TableValue.zero) = false) := by
    intro keepsAll
    have zero := keepsAll rfl 3 (by decide) 0.0 (eq_ok_of_toOption (by decide +kernel))
    exact absurd zero (by decide +kernel)
  refine ⟨two, ?_, ?_, counted.mpr (fun sparse => nomatch sparse),
    same.mpr fun sparse => nomatch sparse⟩
  · exact fun counted => lost (counts.mp (counted.trans two.symm))
  · exact fun kept => lost (entries.mp kept)

end Store

end Autoland.Table
