import Autoland.Number.Binary
import Autoland.Proofs.Pairs
import Autoland.Table.Batch
import Mathlib.Data.List.Sort
import Mathlib.Tactic

/-! Stores as functions from indices to values. A dense store and a sparse one answer every call as
the function does, whatever calls came before. -/

namespace Autoland.Table

inductive HeldCall (φ : Type) where
  | get (index : Nat)
  | set (index : Nat) (value : φ)

inductive HeldAnswer (φ : Type) where
  | value (found : Option φ)
  | written (done : Bool)

/-- A call on a store. A batch comes with the calls that are made while it is held. -/
inductive Call (φ : Type) where
  | get (index : Nat)
  | put (index : Nat) (value : φ)
  | update (index : Nat) (f : φ → φ)
  | batch (indices : List Nat) (calls : List (HeldCall φ))

inductive Answer (φ : Type) where
  | value (result : Except Error φ)
  | done (result : Except Error Unit)
  | batch (result : Except Error (List Nat × List (HeldAnswer φ)))

def Answer.isError {φ : Type} : Answer φ → Bool
  | value (.error _) => true
  | done (.error _) => true
  | batch (.error _) => true
  | _ => false

variable {φ : Type} [TableValue φ]

namespace Batch

def call (batch : Batch φ) : HeldCall φ → HeldAnswer φ × Batch φ
  | .get index => (.value (batch.get? index), batch)
  | .set index value =>
    let (done, batch) := batch.set index value
    (.written done, batch)

def run : List (HeldCall φ) → Batch φ → List (HeldAnswer φ) × Batch φ
  | [], batch => ([], batch)
  | call :: calls, batch =>
    let (answer, batch) := batch.call call
    let (answers, batch) := run calls batch
    (answer :: answers, batch)

end Batch

namespace Store

def call (store : Store φ) : Call φ → Answer φ × Store φ
  | .get index => (.value (store.get index), store)
  | .put index value =>
    let (result, store) := store.put index value
    (.done result, store)
  | .update index f =>
    let (result, store) := store.update index f
    (.value result, store)
  | .batch indices calls =>
    match store.batch indices with
    | .error error => (.batch (.error error), store)
    | .ok batch =>
      let (answers, after) := batch.run calls
      (.batch (.ok (batch.members, answers)), after.store)

def run : List (Call φ) → Store φ → List (Answer φ) × Store φ
  | [], store => ([], store)
  | call :: calls, store =>
    let (answer, store) := store.call call
    let (answers, store) := run calls store
    (answer :: answers, store)

end Store

abbrev Plain (size : Nat) (φ : Type) := Fin size → φ

namespace Plain

variable {size : Nat}

def zero : Plain size φ := fun _ => TableValue.zero

def at? {α : Type} (index : Nat) (work : Fin size → α) : Except Error α :=
  if below : index < size then .ok (work ⟨index, below⟩)
  else .error (.indexOutOfRange index size)

def heldCall (members : List Nat) (plain : Plain size φ) :
    HeldCall φ → HeldAnswer φ × Plain size φ
  | .get index =>
    if inside : index ∈ members ∧ index < size then
      (.value (some (plain ⟨index, inside.2⟩)), plain)
    else (.value none, plain)
  | .set index value =>
    if inside : index ∈ members ∧ index < size then
      (.written true, Function.update plain ⟨index, inside.2⟩ value)
    else (.written false, plain)

def heldRun (members : List Nat) :
    List (HeldCall φ) → Plain size φ → List (HeldAnswer φ) × Plain size φ
  | [], plain => ([], plain)
  | call :: calls, plain =>
    let (answer, plain) := plain.heldCall members call
    let (answers, plain) := heldRun members calls plain
    (answer :: answers, plain)

def call (plain : Plain size φ) : Call φ → Answer φ × Plain size φ
  | .get index => (.value (at? index plain), plain)
  | .put index value =>
    match at? index fun place => Function.update plain place value with
    | .error error => (.done (.error error), plain)
    | .ok plain => (.done (.ok ()), plain)
  | .update index f =>
    match at? index fun place =>
        (f (plain place), Function.update plain place (f (plain place))) with
    | .error error => (.value (.error error), plain)
    | .ok (value, plain) => (.value (.ok value), plain)
  | .batch indices calls =>
    match indices.find? (size ≤ ·) with
    | some index => (.batch (.error (.indexOutOfRange index size)), plain)
    | none =>
      let (answers, after) := plain.heldRun indices calls
      (.batch (.ok ((List.range size).filter (· ∈ indices), answers)), after)

def run : List (Call φ) → Plain size φ → List (Answer φ) × Plain size φ
  | [], plain => ([], plain)
  | call :: calls, plain =>
    let (answer, plain) := plain.call call
    let (answers, plain) := run calls plain
    (answer :: answers, plain)

end Plain

namespace Cells

/-- Whether cells have the shape of a table: a dense one has a cell for each index, a sparse one a
shard. -/
def Fits (size : Nat) : Cells φ → Prop
  | dense values => values.size = size
  | sparse shards => 0 < shards.size

theorem fits_zero (size shards : Nat) (backing : Grid.Backing) :
    (zero size shards backing : Cells φ).Fits size := by
  cases backing with
  | dense => exact Array.size_replicate
  | sparse =>
      simp only [zero, Fits, Array.size_replicate]
      omega

theorem get_zero (size shards index : Nat) (backing : Grid.Backing) :
    (zero size shards backing : Cells φ).get index = TableValue.zero := by
  cases backing with
  | dense =>
      simp only [zero, get, Array.getElem?_replicate]
      split <;> rfl
  | sparse =>
      simp only [zero, get, Array.getElem?_replicate]
      split <;> simp

omit [TableValue φ] in
theorem fits_set (cells : Cells φ) (size index : Nat) (value : φ) (fits : cells.Fits size) :
    (cells.set index value).Fits size := by
  cases cells with
  | dense values => exact (Array.size_setIfInBounds ..).trans fits
  | sparse shards =>
      simp only [set, Fits, Array.size_modify]
      exact fits

def kept? (index : Nat) : Cells φ → Option φ
  | dense values => values[index]?
  | sparse shards => shards[index % shards.size]?.bind (·[index]?)

theorem get_eq_kept? (cells : Cells φ) (index : Nat) :
    cells.get index = (cells.kept? index).getD TableValue.zero := by
  cases cells with
  | dense values => rfl
  | sparse shards => rfl

omit [TableValue φ] in
theorem kept?_set {size : Nat} {cells : Cells φ} (fits : cells.Fits size) (index other : Nat)
    (below : index < size) (value : φ) :
    (cells.set index value).kept? other =
      if other = index then some value else cells.kept? other := by
  cases cells with
  | dense values =>
      have inside : index < values.size := lt_of_lt_of_eq below (Eq.symm fits)
      simp only [set, kept?, Array.getElem?_setIfInBounds]
      by_cases same : other = index
      · rw [if_pos same, if_pos same.symm, if_pos inside]
      · rw [if_neg same, if_neg (Ne.symm same)]
  | sparse shards =>
      have present : index % shards.size < shards.size := Nat.mod_lt _ fits
      simp only [set, kept?, Array.size_modify, Array.getElem?_modify]
      by_cases same : other = index
      · rw [if_pos same, same, if_pos rfl, Array.getElem?_eq_getElem present]
        simp
      · rw [if_neg same]
        by_cases shard : index % shards.size = other % shards.size
        · rw [if_pos shard, ← shard, Array.getElem?_eq_getElem present]
          simp [Std.TreeMap.getElem?_insert, Ne.symm same]
        · rw [if_neg shard]

theorem get_set (cells : Cells φ) (size index other : Nat) (value : φ) (fits : cells.Fits size)
    (below : index < size) :
    (cells.set index value).get other = if other = index then value else cells.get other := by
  rw [get_eq_kept?, get_eq_kept?, kept?_set fits index other below,
    apply_ite (Option.getD · TableValue.zero), Option.getD_some]

end Cells

section Members

theorem mem_eraseReps_loop (items : List Nat) (item next : Nat) (found : List Nat) :
    next ∈ List.eraseRepsBy.loop (· == ·) item items found ↔
      next = item ∨ next ∈ items ∨ next ∈ found := by
  induction items generalizing item found with
  | nil => simp [List.eraseRepsBy.loop, or_comm]
  | cons head items ih =>
      rw [List.eraseRepsBy.loop]
      by_cases same : item = head
      · subst same
        simp only [beq_self_eq_true, ih, List.mem_cons]
        tauto
      · simp only [beq_eq_false_iff_ne.mpr same, ih, List.mem_cons]
        tauto

theorem pairwise_eraseReps_loop (items : List Nat) (item : Nat) (found : List Nat)
    (sorted : (item :: items).Pairwise (· ≤ ·)) (strict : (item :: found).Pairwise (· > ·)) :
    (List.eraseRepsBy.loop (· == ·) item items found).Pairwise (· < ·) := by
  induction items generalizing item found with
  | nil => exact List.pairwise_reverse.mpr strict
  | cons head items ih =>
      rw [List.eraseRepsBy.loop]
      have below := (List.pairwise_cons.mp sorted).1 head List.mem_cons_self
      by_cases same : item = head
      · subst same
        simp only [beq_self_eq_true]
        exact ih item found (List.pairwise_cons.mp sorted).2 strict
      · simp only [beq_eq_false_iff_ne.mpr same]
        refine ih head (item :: found) (List.pairwise_cons.mp sorted).2 ?_
        refine List.pairwise_cons.mpr ⟨?_, strict⟩
        intro next member
        rcases List.mem_cons.mp member with rfl | member
        · omega
        · have smaller := (List.pairwise_cons.mp strict).1 next member
          omega

theorem mem_ascending (indices : List Nat) (index : Nat) :
    index ∈ ascending indices ↔ index ∈ indices := by
  have sorted : index ∈ indices.mergeSort (· ≤ ·) ↔ index ∈ indices := List.mem_mergeSort
  rw [← sorted]
  unfold ascending List.eraseReps
  cases indices.mergeSort (· ≤ ·) with
  | nil => rfl
  | cons item items =>
      rw [List.eraseRepsBy, mem_eraseReps_loop]
      simp

theorem pairwise_ascending (indices : List Nat) : (ascending indices).Pairwise (· < ·) := by
  have sorted : (indices.mergeSort (· ≤ ·)).Pairwise (· ≤ ·) :=
    List.pairwise_mergeSort' (· ≤ ·) indices
  unfold ascending List.eraseReps
  cases order : indices.mergeSort (· ≤ ·) with
  | nil => exact .nil
  | cons item items =>
      rw [order] at sorted
      exact pairwise_eraseReps_loop items item [] sorted (List.pairwise_singleton _ _)

/-- The members of a batch are its indices, each once and in order. -/
theorem ascending_eq_filter (size : Nat) (indices : List Nat) (below : ∀ i ∈ indices, i < size) :
    ascending indices = (List.range size).filter (· ∈ indices) := by
  refine eq_of_increasing id _ _ (pairwise_ascending indices)
    (List.Pairwise.filter _ List.pairwise_lt_range) fun index => ?_
  rw [mem_ascending, List.mem_filter, List.mem_range, decide_eq_true_eq]
  exact ⟨fun member => ⟨below index member, member⟩, And.right⟩

end Members

namespace Batch

omit [TableValue φ] in
theorem opens_of_mem (batch : Batch φ) {index : Nat} (member : index ∈ batch.members) :
    batch.locks.opens index = true := by
  rw [batch.locked]
  cases batch.store.cells with
  | dense values => exact decide_eq_true member
  | sparse shards => exact decide_eq_true ((mem_ascending _ _).mpr (List.mem_map_of_mem member))

theorem get?_eq (batch : Batch φ) (index : Nat) :
    batch.get? index =
      if index ∈ batch.members then some (batch.store.cells.get index) else none := by
  by_cases member : index ∈ batch.members
  · rw [get?, if_neg (not_not_intro member), if_pos (batch.opens_of_mem member), if_pos member]
  · rw [get?, if_pos member, if_neg member]

omit [TableValue φ] in
theorem set_eq (batch : Batch φ) (index : Nat) (value : φ) :
    batch.set index value =
      if index ∈ batch.members then (true, batch.write index value) else (false, batch) := by
  by_cases member : index ∈ batch.members
  · rw [set, if_neg (not_not_intro member), if_pos (batch.opens_of_mem member), if_pos member]
  · rw [set, if_pos member, if_neg member]

end Batch

structure Store.Agrees {size : Nat} (store : Store φ) (plain : Plain size φ) : Prop where
  size_eq : store.size = size
  fits : store.cells.Fits size
  values : ∀ place : Fin size, store.cells.get place = plain place

namespace Store.Agrees

variable {size : Nat} {store : Store φ} {plain : Plain size φ}

theorem check_eq (agrees : store.Agrees plain) (index : Nat) :
    store.check index =
      if index < size then .ok () else .error (.indexOutOfRange index size) := by
  rw [Store.check, agrees.size_eq]

theorem set (agrees : store.Agrees plain) (place : Fin size) (value : φ) :
    { store with cells := store.cells.set place value }.Agrees
      (Function.update plain place value) := by
  refine ⟨agrees.size_eq, store.cells.fits_set _ _ _ agrees.fits, ?_⟩
  intro other
  rw [store.cells.get_set _ _ _ _ agrees.fits place.isLt, Function.update_apply, agrees.values]
  simp only [Fin.ext_iff]

theorem forM_check (agrees : store.Agrees plain) (indices : List Nat) :
    indices.forM store.check =
      match indices.find? (size ≤ ·) with
      | some index => .error (.indexOutOfRange index size)
      | none => .ok () := by
  induction indices with
  | nil => rfl
  | cons index indices ih =>
      change (store.check index >>= fun _ => indices.forM store.check) = _
      rw [agrees.check_eq, List.find?_cons]
      by_cases below : index < size
      · rw [if_pos below, decide_eq_false (by omega)]
        exact ih
      · rw [if_neg below, decide_eq_true (by omega)]
        rfl

end Store.Agrees

structure Batch.Agrees {size : Nat} (batch : Batch φ) (members : List Nat)
    (plain : Plain size φ) : Prop where
  held : ∀ index, index ∈ batch.members ↔ index ∈ members ∧ index < size
  store : batch.store.Agrees plain

theorem Batch.Agrees.call {size : Nat} {batch : Batch φ} {members : List Nat}
    {plain : Plain size φ} (agrees : batch.Agrees members plain) (call : HeldCall φ) :
    (batch.call call).1 = (plain.heldCall members call).1 ∧
      (batch.call call).2.Agrees members (plain.heldCall members call).2 := by
  cases call with
  | get index =>
      simp only [Batch.call, Batch.get?_eq, Plain.heldCall, agrees.held]
      by_cases inside : index ∈ members ∧ index < size
      · rw [if_pos inside, dif_pos inside]
        exact ⟨by rw [← agrees.store.values], agrees⟩
      · rw [if_neg inside, dif_neg inside]
        exact ⟨rfl, agrees⟩
  | set index value =>
      simp only [Batch.call, Batch.set_eq, Plain.heldCall, agrees.held]
      by_cases inside : index ∈ members ∧ index < size
      · rw [if_pos inside, dif_pos inside]
        exact ⟨rfl, agrees.held, agrees.store.set ⟨index, inside.2⟩ value⟩
      · rw [if_neg inside, dif_neg inside]
        exact ⟨rfl, agrees⟩

theorem Batch.Agrees.run {size : Nat} {members : List Nat} (calls : List (HeldCall φ))
    {batch : Batch φ} {plain : Plain size φ} (agrees : batch.Agrees members plain) :
    (batch.run calls).1 = (plain.heldRun members calls).1 ∧
      (batch.run calls).2.Agrees members (plain.heldRun members calls).2 := by
  induction calls generalizing batch plain with
  | nil => exact ⟨rfl, agrees⟩
  | cons call calls ih =>
      rcases agrees.call call with ⟨answer, after⟩
      rcases ih after with ⟨answers, final⟩
      simp only [Batch.run, Plain.heldRun]
      exact ⟨by rw [answer, answers], final⟩

/-- One call is answered alike and leaves both sides in agreement. -/
theorem Store.Agrees.call {size : Nat} {store : Store φ} {plain : Plain size φ}
    (agrees : store.Agrees plain) (call : Call φ) :
    (store.call call).1 = (plain.call call).1 ∧
      (store.call call).2.Agrees (plain.call call).2 := by
  cases call with
  | get index =>
      simp only [Store.call, Store.get, Plain.call, Plain.at?, agrees.check_eq]
      by_cases below : index < size
      · rw [if_pos below, dif_pos below, ← agrees.values]
        exact ⟨rfl, agrees⟩
      · rw [if_neg below, dif_neg below]
        exact ⟨rfl, agrees⟩
  | put index value =>
      simp only [Store.call, Store.put, Store.update, Plain.call, Plain.at?, agrees.check_eq]
      by_cases below : index < size
      · rw [if_pos below, dif_pos below]
        exact ⟨rfl, agrees.set ⟨index, below⟩ value⟩
      · rw [if_neg below, dif_neg below]
        exact ⟨rfl, agrees⟩
  | update index f =>
      simp only [Store.call, Store.update, Plain.call, Plain.at?, agrees.check_eq]
      by_cases below : index < size
      · have value := agrees.values ⟨index, below⟩
        rw [if_pos below, dif_pos below, ← value]
        exact ⟨rfl, agrees.set ⟨index, below⟩ _⟩
      · rw [if_neg below, dif_neg below]
        exact ⟨rfl, agrees⟩
  | batch indices calls =>
      simp only [Store.call, Store.batch, Plain.call, agrees.forM_check]
      cases outside : indices.find? (size ≤ ·) with
      | some index => exact ⟨rfl, agrees⟩
      | none =>
          have below : ∀ i ∈ indices, i < size := by
            intro i member
            have small := List.find?_eq_none.mp outside i member
            simpa using small
          have held : (store.hold (ascending indices)).Agrees indices plain := by
            refine ⟨?_, agrees⟩
            intro index
            refine (mem_ascending indices index).trans ?_
            exact ⟨fun member => ⟨member, below index member⟩, And.left⟩
          rcases held.run calls with ⟨answers, after⟩
          have members := ascending_eq_filter size indices below
          simp only [bind, Except.bind, pure, Except.pure]
          exact ⟨congrArg _ (congrArg _ (Prod.ext members answers)), after.store⟩

theorem Store.Agrees.run {size : Nat} (calls : List (Call φ)) {store : Store φ}
    {plain : Plain size φ} (agrees : store.Agrees plain) :
    (store.run calls).1 = (plain.run calls).1 ∧
      (store.run calls).2.Agrees (plain.run calls).2 := by
  induction calls generalizing store plain with
  | nil => exact ⟨rfl, agrees⟩
  | cons call calls ih =>
      rcases agrees.call call with ⟨answer, after⟩
      rcases ih after with ⟨answers, final⟩
      simp only [Store.run, Plain.run]
      exact ⟨by rw [answer, answers], final⟩

theorem Store.agrees_ofLayout (name : String) (layout : Grid.Layout) (shards : Nat) :
    (Store.ofLayout name layout shards : Store φ).Agrees (Plain.zero : Plain layout.total φ) :=
  ⟨rfl, Cells.fits_zero .., fun _ => Cells.get_zero ..⟩

theorem Store.call_of_isError (store : Store φ) (call : Call φ)
    (failed : (store.call call).1.isError = true) : (store.call call).2 = store := by
  cases call with
  | get index => rfl
  | put index value =>
      simp only [Store.call, Store.put, Store.update] at failed ⊢
      cases checked : store.check index with
      | error error => rfl
      | ok _ =>
          rw [checked] at failed
          cases failed
  | update index f =>
      simp only [Store.call, Store.update] at failed ⊢
      cases checked : store.check index with
      | error error => rfl
      | ok _ =>
          rw [checked] at failed
          cases failed
  | batch indices calls =>
      simp only [Store.call] at failed ⊢
      cases held : store.batch indices with
      | error error => rfl
      | ok batch =>
          rw [held] at failed
          cases failed

omit [TableValue φ] in
theorem Batch.set_of_not_written (batch : Batch φ) (index : Nat) (value : φ)
    (refused : (batch.set index value).1 = false) : (batch.set index value).2 = batch := by
  rw [set_eq] at refused ⊢
  split
  · rename_i member
    rw [if_pos member] at refused
    cases refused
  · rfl

/-- Fresh stores of one size answer every sequence of calls as the zero function does, the dense
one and the sparse one with any number of shards. A call that fails, and a write that a batch
refuses, changes nothing. -/
theorem fresh_stores_agree (name : String) (size denseShards sparseShards : Nat)
    (dense sparse : Grid.Layout) (large : dense.backing = .dense) (small : sparse.backing = .sparse)
    (first : dense.total = size) (second : sparse.total = size) (calls : List (Call φ)) :
    ((Store.ofLayout name dense denseShards).run calls).1 =
        ((Plain.zero : Plain size φ).run calls).1 ∧
      ((Store.ofLayout name sparse sparseShards).run calls).1 =
        ((Plain.zero : Plain size φ).run calls).1 ∧
      ((Store.ofLayout name dense denseShards : Store φ).backing = .dense ∧
        (Store.ofLayout name sparse sparseShards : Store φ).backing = .sparse) ∧
      (∀ (store : Store φ) (call : Call φ), (store.call call).1.isError = true →
        (store.call call).2 = store) ∧
      (∀ (batch : Batch φ) (index : Nat) (value : φ), (batch.set index value).1 = false →
        (batch.set index value).2 = batch) := by
  refine ⟨?_, ?_, ⟨?_, ?_⟩, Store.call_of_isError, Batch.set_of_not_written⟩
  · subst first
    exact ((Store.agrees_ofLayout name dense denseShards).run calls).1
  · subst second
    exact ((Store.agrees_ofLayout name sparse sparseShards).run calls).1
  · simp only [Store.ofLayout, large, Cells.zero, Store.backing, Cells.backing]
  · simp only [Store.ofLayout, small, Cells.zero, Store.backing, Cells.backing]

/-- A batch that names an entry twice, writes it and one it does not hold, and one that is refused,
on a store without a shard of its own. -/
theorem fresh_stores_agree_on_four_entries :
    ((Store.ofLayout "table" ⟨[⟨"x", 0, 3⟩], [], [1], 4, .sparse⟩ 0 : Store Float32).run
      [.batch [2, 1, 2] [.set 2 1.5, .set 0 2.5, .get 2, .get 0], .batch [1, 4] [.set 1 3.5],
        .get 2, .get 1, .put 7 4.5]).1 =
      [.batch (.ok ([1, 2],
        [.written true, .written false, .value (some 1.5), .value none])),
        .batch (.error (.indexOutOfRange 4 4)), .value (.ok 1.5), .value (.ok 0.0),
        .done (.error (.indexOutOfRange 7 4))] :=
  (fresh_stores_agree "table" 4 3 0 ⟨[⟨"x", 0, 3⟩], [], [1], 4, .dense⟩
    ⟨[⟨"x", 0, 3⟩], [], [1], 4, .sparse⟩ rfl rfl rfl rfl _).2.1.trans rfl

end Autoland.Table
