import Autoland.Proofs.Pairs
import Autoland.Proofs.Results
import Autoland.Proofs.SinglePrecision
import Autoland.Proofs.TableRefinement

/-! Copies of tables. A copy lists every entry once, and another table of the same size that takes
it reads as the first one did, whatever either held before and however either keeps its entries. -/

namespace Autoland.Table

variable {φ : Type}

namespace Cells

/-- Whether cells have the shape of a table and every entry is in its place: below the size and, in
a sparse store, in the shard of its index. -/
def Placed (size : Nat) : Cells φ → Prop
  | dense values => values.size = size
  | sparse shards => 0 < shards.size ∧
    ∀ (shard : Nat) (entries : Std.TreeMap Nat φ), shards[shard]? = some entries →
      ∀ index ∈ entries, index < size ∧ index % shards.size = shard

theorem Placed.fits {size : Nat} {cells : Cells φ} (placed : cells.Placed size) :
    cells.Fits size := by
  cases cells with
  | dense values => exact placed
  | sparse shards => exact placed.1

theorem placed_empty (size shards : Nat) (positive : 0 < shards) :
    (sparse (Array.replicate shards ∅) : Cells φ).Placed size := by
  refine ⟨by rwa [Array.size_replicate], ?_⟩
  intro shard entries found index member
  rw [Array.getElem?_replicate] at found
  split at found
  · cases found
    exact absurd member Std.TreeMap.not_mem_emptyc
  · cases found

theorem placed_set {size : Nat} {cells : Cells φ} (placed : cells.Placed size) (index : Nat)
    (below : index < size) (value : φ) : (cells.set index value).Placed size := by
  cases cells with
  | dense values => exact (Array.size_setIfInBounds ..).trans placed
  | sparse shards =>
      refine ⟨by rw [Array.size_modify]; exact placed.1, ?_⟩
      intro shard entries found other member
      rw [Array.size_modify]
      rw [Array.getElem?_modify] at found
      split at found
      · rename_i own
        rcases Option.map_eq_some_iff.mp found with ⟨before, held, rfl⟩
        rcases Std.TreeMap.mem_insert.mp member with same | member
        · rw [← Std.LawfulEqCmp.eq_of_compare same]
          exact ⟨below, own⟩
        · exact placed.2 shard before held other member
      · exact placed.2 shard entries found other member

theorem distinct_shards {size : Nat} {shards : Array (Std.TreeMap Nat φ compare)}
    (placed : (sparse shards).Placed size) :
    (shards.toList.flatMap (·.toList)).Pairwise fun first second => first.1 ≠ second.1 := by
  have home : ∀ (place : Nat) (here : place < shards.size) (pair : Nat × φ),
      pair ∈ shards[place].toList → pair.1 % shards.size = place := by
    intro place here pair member
    refine (placed.2 place _ (Array.getElem?_eq_getElem here) pair.1 ?_).2
    rw [Std.TreeMap.mem_iff_isSome_getElem?,
      Std.TreeMap.mem_toList_iff_getElem?_eq_some.mp member, Option.isSome_some]
  rw [List.pairwise_flatMap]
  constructor
  · intro shard _
    exact shard.distinct_keys_toList.imp fun differs same => differs (by simp [same])
  · rw [List.pairwise_iff_getElem]
    intro left right low high less first member second inside same
    rw [Array.length_toList] at low high
    have one := home left low first (by simpa using member)
    have two := home right high second (by simpa using inside)
    rw [same] at one
    omega

section Copied

variable {size : Nat} {cells : Cells φ} (placed : cells.Placed size)

include placed

theorem mem_pairs (index : Nat) (value : φ) :
    (index, value) ∈ cells.entries.pairs ↔ cells.kept? index = some value := by
  cases cells with
  | dense values =>
      simp only [entries, Entries.pairs, kept?, List.mem_map, Prod.mk.injEq]
      constructor
      · intro listed
        rcases listed with ⟨pair, member, rfl, rfl⟩
        simpa using List.mem_zipIdx_iff_getElem?.mp member
      · intro held
        exact ⟨(value, index), List.mem_zipIdx_iff_getElem?.mpr (by simpa using held), rfl, rfl⟩
  | sparse shards =>
      simp only [entries, Entries.pairs, kept?, List.mem_mergeSort, List.mem_flatMap,
        Std.TreeMap.mem_toList_iff_getElem?_eq_some, Option.bind_eq_some_iff]
      constructor
      · intro listed
        rcases listed with ⟨shard, member, found⟩
        rcases List.getElem?_of_mem member with ⟨place, here⟩
        rw [Array.getElem?_toList] at here
        have inside : index ∈ shard := by
          rw [Std.TreeMap.mem_iff_isSome_getElem?, found, Option.isSome_some]
        exact ⟨shard, by rw [(placed.2 place shard here index inside).2, here], found⟩
      · intro held
        rcases held with ⟨shard, here, found⟩
        exact ⟨shard, Array.mem_toList_iff.mpr (Array.mem_of_getElem? here), found⟩

theorem below_pairs (pair : Nat × φ) (member : pair ∈ cells.entries.pairs) : pair.1 < size := by
  have held := (mem_pairs placed pair.1 pair.2).mp member
  cases cells with
  | dense values =>
      rcases Array.getElem?_eq_some_iff.mp held with ⟨below, _⟩
      rw [← show values.size = size from placed]
      exact below
  | sparse shards =>
      rcases Option.bind_eq_some_iff.mp held with ⟨shard, here, found⟩
      refine (placed.2 _ shard here pair.1 ?_).1
      rw [Std.TreeMap.mem_iff_isSome_getElem?, found, Option.isSome_some]

theorem sorted_pairs : cells.entries.pairs.Pairwise (fun first second => first.1 < second.1) := by
  cases cells with
  | dense values =>
      have positions : (entries (dense values)).pairs.map (·.1) = List.range values.size := by
        simp only [entries, Entries.pairs, List.map_map, Function.comp_def]
        rw [List.zipIdx_map_snd, Array.length_toList, List.range_eq_range']
      have ascending : ((entries (dense values)).pairs.map (·.1)).Pairwise (· < ·) :=
        positions ▸ List.pairwise_lt_range
      exact List.pairwise_map.mp ascending
  | sparse shards =>
      have order : (entries (sparse shards)).pairs.Pairwise fun first second =>
          first.1 ≤ second.1 := by
        have sorted := @List.pairwise_mergeSort (Nat × φ) (fun a b => decide (a.1 ≤ b.1))
          (fun a b c one two => by
            rw [decide_eq_true_iff] at one two ⊢
            exact one.trans two)
          (fun a b => by simp [Nat.le_total]) (shards.toList.flatMap (·.toList))
        exact sorted.imp of_decide_eq_true
      have kept : (entries (sparse shards)).pairs.Pairwise fun first second =>
          first.1 ≠ second.1 :=
        ((List.mergeSort_perm _ _).pairwise_iff fun differs => Ne.symm differs).mpr
          (distinct_shards placed)
      exact (order.and kept).imp fun both => lt_of_le_of_ne both.1 both.2

theorem distinct_pairs : (cells.entries.pairs.map (·.1)).Nodup := by
  rw [List.Nodup, List.pairwise_map]
  exact (sorted_pairs placed).imp Nat.ne_of_lt

theorem lookup_filter_pairs (takes : φ → Bool) (index : Nat) :
    (cells.entries.pairs.filter fun pair => takes pair.2).reverse.lookup index =
      (cells.kept? index).filter takes := by
  have distinct : ((cells.entries.pairs.filter fun pair => takes pair.2).reverse.map
      (·.1)).Nodup := by
    rw [List.map_reverse, List.nodup_reverse]
    exact (distinct_pairs placed).sublist (List.filter_sublist.map _)
  have listed : ∀ value,
      (index, value) ∈ (cells.entries.pairs.filter fun pair => takes pair.2).reverse ↔
        cells.kept? index = some value ∧ takes value = true := by
    intro value
    rw [List.mem_reverse, List.mem_filter, mem_pairs placed]
  cases held : cells.kept? index with
  | none =>
      rw [lookup_eq_none_of_not_mem _ _ fun value member => by
        rw [listed, held] at member
        cases member.1]
      rfl
  | some value =>
      by_cases taken : takes value = true
      · rw [lookup_eq_some_of_mem _ _ _ distinct ((listed value).mpr ⟨held, taken⟩),
          Option.filter_some, if_pos taken]
      · rw [lookup_eq_none_of_not_mem _ _ fun other member => by
          rw [listed, held] at member
          exact taken (Option.some.inj member.1 ▸ member.2), Option.filter_some, if_neg taken]

end Copied

variable [TableValue φ]

theorem placed_zero (size shards : Nat) (backing : Grid.Backing) :
    (zero size shards backing : Cells φ).Placed size := by
  cases backing with
  | dense => exact Array.size_replicate
  | sparse => exact placed_empty size (max shards 1) (by omega)

theorem placed_clear {size : Nat} {cells : Cells φ} (fits : cells.Fits size) :
    cells.clear.Placed size := by
  cases cells with
  | dense values => exact Array.size_replicate.trans fits
  | sparse shards => exact placed_empty size shards.size fits

theorem get_clear (cells : Cells φ) (index : Nat) : cells.clear.get index = TableValue.zero := by
  cases cells with
  | dense values =>
      simp only [clear, get, Array.getElem?_replicate]
      split <;> rfl
  | sparse shards =>
      simp only [clear, get, Array.getElem?_replicate]
      split <;> simp

def loads : Cells φ → φ → Bool
  | dense _, _ => true
  | sparse _, value => value != TableValue.zero

theorem load_eq (cells : Cells φ) (pairs : List (Nat × φ)) :
    cells.load pairs = (pairs.filter fun pair => cells.loads pair.2).foldl
      (fun cells pair => cells.set pair.1 pair.2) cells.clear := by
  cases cells with
  | dense values =>
      simp only [loads, List.filter_true]
      rfl
  | sparse shards => rfl

section Fold

variable {size : Nat} (pairs : List (Nat × φ)) (below : ∀ pair ∈ pairs, pair.1 < size)

include below

omit [TableValue φ] in
theorem placed_foldl_set {cells : Cells φ} (placed : cells.Placed size) :
    (pairs.foldl (fun cells pair => cells.set pair.1 pair.2) cells).Placed size := by
  induction pairs generalizing cells with
  | nil => exact placed
  | cons pair pairs ih =>
      rcases List.forall_mem_cons.mp below with ⟨first, others⟩
      exact ih others (placed_set placed pair.1 first pair.2)

omit [TableValue φ] in
theorem kept?_foldl_set {cells : Cells φ} (fits : cells.Fits size) (index : Nat) :
    (pairs.foldl (fun cells pair => cells.set pair.1 pair.2) cells).kept? index =
      (pairs.reverse.lookup index).or (cells.kept? index) := by
  induction pairs generalizing cells with
  | nil => rfl
  | cons pair pairs ih =>
      rcases List.forall_mem_cons.mp below with ⟨first, others⟩
      rw [List.foldl_cons, ih others (cells.fits_set size _ _ fits), kept?_set fits _ _ first,
        List.reverse_cons, List.lookup_append]
      cases pairs.reverse.lookup index with
      | some value => rfl
      | none =>
          rw [Option.none_or, Option.none_or, lookup_cons_eq]
          by_cases same : index = pair.1
          · rw [if_pos same, if_pos same]
            rfl
          · rw [if_neg same, if_neg same]
            rfl

theorem get_foldl_set {cells : Cells φ} (fits : cells.Fits size) (index : Nat) :
    (pairs.foldl (fun cells pair => cells.set pair.1 pair.2) cells).get index =
      (pairs.reverse.lookup index).getD (cells.get index) := by
  rw [get_eq_kept?, get_eq_kept?, kept?_foldl_set pairs below fits, Option.getD_or]

end Fold

theorem placed_load {size : Nat} {cells : Cells φ} (fits : cells.Fits size)
    (pairs : List (Nat × φ)) (below : ∀ pair ∈ pairs, pair.1 < size) :
    (cells.load pairs).Placed size := by
  rw [load_eq]
  apply placed_foldl_set _ _ (placed_clear fits)
  intro pair member
  exact below pair (List.mem_of_mem_filter member)

theorem get_load {size : Nat} {cells : Cells φ} (fits : cells.Fits size)
    (pairs : List (Nat × φ)) (below : ∀ pair ∈ pairs, pair.1 < size) (index : Nat) :
    (cells.load pairs).get index =
      ((pairs.filter fun pair => cells.loads pair.2).reverse.lookup index).getD
        TableValue.zero := by
  rw [load_eq, get_foldl_set _ _ (placed_clear fits).fits, get_clear]
  intro pair member
  exact below pair (List.mem_of_mem_filter member)

/-- Cells that take a copy read as the copied ones, but for zeros that a sparse store passes
over. -/
theorem get_load_pairs {size : Nat} {cells other : Cells φ} (placed : cells.Placed size)
    (fits : other.Fits size) (index : Nat) :
    (other.load cells.entries.pairs).get index =
      match cells.kept? index with
      | some value => if other.loads value then value else TableValue.zero
      | none => TableValue.zero := by
  rw [get_load fits _ (below_pairs placed), lookup_filter_pairs placed]
  cases cells.kept? index with
  | none => rfl
  | some value =>
      rw [Option.filter_some]
      dsimp only
      split <;> rfl

end Cells

namespace Store

def Placed (store : Store φ) : Prop := store.cells.Placed store.size

theorem check_eq_ok (store : Store φ) (index : Nat) (done : Unit) :
    store.check index = .ok done ↔ index < store.size := by
  unfold check
  split
  · rename_i below
    exact iff_of_true rfl below
  · rename_i outside
    exact iff_of_false (fun passed => nomatch passed) outside

theorem forM_check_eq_ok (store : Store φ) (indices : List Nat) (done : Unit) :
    indices.forM store.check = .ok done ↔ ∀ index ∈ indices, index < store.size := by
  induction indices with
  | nil => exact iff_of_true rfl (fun _ member => nomatch member)
  | cons index indices ih =>
      change (store.check index >>= fun _ => indices.forM store.check) = .ok done ↔ _
      rw [bind_eq_ok, List.forall_mem_cons, ← ih]
      simp only [check_eq_ok]
      exact ⟨fun both => both.choose_spec, fun both => ⟨(), both⟩⟩

theorem below_of_checkShape (store : Store φ) (image : Image φ)
    (fits : image.checkShape store.name store.size = .ok ()) (pair : Nat × φ)
    (member : pair ∈ image.pairs) : pair.1 < store.size := by
  unfold Image.checkShape at fits
  unfold Image.pairs at member
  dsimp only at fits
  split at fits
  · cases fits
  · split at fits
    · cases fits
    · split at fits
      · cases fits
      · cases kept : image.entries with
        | dense values =>
            rw [kept] at fits member
            dsimp only at fits
            split at fits
            · rename_i counted
              rcases List.mem_map.mp member with ⟨item, inside, rfl⟩
              rw [← counted]
              exact (List.getElem?_eq_some_iff.mp (List.mem_zipIdx_iff_getElem?.mp inside)).1
            · cases fits
        | sparse pairs =>
            rw [kept] at fits member
            dsimp only at fits
            split at fits
            · cases fits
            · rename_i none
              have inside := List.find?_eq_none.mp none pair member
              simpa using inside

theorem Placed.checkShape_save {store : Store φ} (placed : store.Placed) (time : Timestamp) :
    (store.save time).checkShape store.name store.size = .ok () := by
  simp only [Image.checkShape, save, ne_eq, not_true_eq_false, if_false]
  cases cells : store.cells with
  | dense values =>
      have sized : values.size = store.size := by
        have fits := placed.fits
        rwa [cells] at fits
      simp only [Cells.entries, Array.length_toList, sized, if_true]
  | sparse shards =>
      have none : (store.cells.entries.pairs.find? fun pair => decide (store.size ≤ pair.1)) =
          none := by
        rw [List.find?_eq_none]
        intro pair member
        have below := Cells.below_pairs placed pair member
        simp [below]
      rw [cells] at none
      simp only [Cells.entries, Entries.pairs] at none ⊢
      rw [none]

theorem batch_eq_ok (store : Store φ) (indices : List Nat) (batch : Batch φ) :
    store.batch indices = .ok batch ↔ (∀ index ∈ indices, index < store.size) ∧
      batch = store.hold (ascending indices) := by
  unfold Store.batch
  rw [bind_eq_ok]
  simp only [forM_check_eq_ok]
  constructor
  · intro held
    rcases held with ⟨_, below, made⟩
    cases made
    exact ⟨below, rfl⟩
  · intro held
    rcases held with ⟨below, rfl⟩
    exact ⟨(), below, rfl⟩

end Store

structure Batch.Placed (batch : Batch φ) : Prop where
  members : ∀ index ∈ batch.members, index < batch.store.size
  store : batch.store.Placed

theorem Batch.Placed.set {batch : Batch φ} (placed : batch.Placed) (index : Nat) (value : φ) :
    (batch.set index value).2.Placed := by
  rw [Batch.set_eq]
  split
  · rename_i member
    exact ⟨placed.members, Cells.placed_set placed.store index (placed.members index member) value⟩
  · exact placed

theorem Store.Placed.batch {store : Store φ} (placed : store.Placed) (indices : List Nat)
    (batch : Batch φ) (held : store.batch indices = .ok batch) : batch.Placed := by
  rcases (store.batch_eq_ok indices batch).mp held with ⟨below, rfl⟩
  refine ⟨?_, placed⟩
  intro index member
  exact below index ((mem_ascending indices index).mp member)

variable [TableValue φ]

theorem Batch.Placed.run {batch : Batch φ} (placed : batch.Placed) (calls : List (HeldCall φ)) :
    (batch.run calls).2.Placed := by
  induction calls generalizing batch with
  | nil => exact placed
  | cons call calls ih =>
      cases call with
      | get index => exact ih placed
      | set index value => exact ih (placed.set index value)

namespace Store

theorem Placed.update {store : Store φ} (placed : store.Placed) (index : Nat) (f : φ → φ) :
    (store.update index f).2.Placed := by
  unfold Store.update Store.check
  split
  · exact placed
  · rename_i checked
    split at checked
    · rename_i below
      exact Cells.placed_set placed index below _
    · cases checked

theorem Placed.attach {store : Store φ} (placed : store.Placed) (image : Image φ) :
    (store.attach image).2.Placed := by
  unfold Store.attach
  split
  · exact placed
  · rename_i fits
    exact Cells.placed_load placed.fits _ (store.below_of_checkShape image fits)

theorem Placed.call {store : Store φ} (placed : store.Placed) (call : Call φ) :
    (store.call call).2.Placed := by
  cases call with
  | get index => exact placed
  | put index value => exact placed.update index fun _ => value
  | update index f => exact placed.update index f
  | batch indices calls =>
      unfold Store.call
      dsimp only
      split
      · exact placed
      · rename_i batch held
        exact ((placed.batch indices batch held).run calls).store

inductive Reached : Store φ → Prop where
  | fresh (name : String) (layout : Grid.Layout) (shards : Nat) :
      Reached (.ofLayout name layout shards)
  | call (store : Store φ) (call : Call φ) (reached : Reached store) : Reached (store.call call).2
  | attach (store : Store φ) (image : Image φ) (reached : Reached store) :
      Reached (store.attach image).2

theorem Reached.placed {store : Store φ} (reached : store.Reached) : store.Placed := by
  induction reached with
  | fresh name layout shards => exact Cells.placed_zero layout.total shards layout.backing
  | call store call _ ih => exact ih.call call
  | attach store image _ ih => exact ih.attach image

theorem Placed.attach_save {first second : Store φ} (one : first.Placed) (two : second.Placed)
    (time : Timestamp) (named : second.name = first.name) (sized : second.size = first.size) :
    second.attach (first.save time) =
        (.ok (), { second with cells := second.cells.load first.cells.entries.pairs }) ∧
      ∀ index, (second.cells.load first.cells.entries.pairs).get index = first.cells.get index ∨
        (first.cells.get index == TableValue.zero) = true ∧
          (second.cells.load first.cells.entries.pairs).get index = TableValue.zero := by
  constructor
  · have fits := one.checkShape_save time
    rw [← named, ← sized] at fits
    rw [Store.attach, fits]
    rfl
  · intro index
    have fits : second.cells.Fits first.size := sized ▸ two.fits
    rw [Cells.get_load_pairs one fits, Cells.get_eq_kept?]
    cases first.cells.kept? index with
    | none => exact .inl rfl
    | some value =>
        by_cases loaded : second.cells.loads value = true
        · simp [loaded]
        · right
          simp only [loaded]
          refine ⟨?_, rfl⟩
          cases cells : second.cells with
          | dense values => exact absurd (by rw [cells]; rfl) loaded
          | sparse shards =>
              rw [cells] at loaded
              simpa [Cells.loads, bne] using loaded

/-- Any store of the same name and size takes the copy of a store, and then reads at every index as
that store does, whatever it held before. Only minus zero may read as zero. -/
theorem attach_save_reads (first second : Store Float32) (one : first.Reached)
    (two : second.Reached) (time : Timestamp) (named : second.name = first.name)
    (sized : second.size = first.size) :
    (second.attach (first.save time)).1 = .ok () ∧
      ∀ index < first.size, ∃ value read, first.get index = .ok value ∧
        (second.attach (first.save time)).2.get index = .ok read ∧
          (read = value ∨ value = -0.0 ∧ read = 0.0) := by
  rcases one.placed.attach_save two.placed time named sized with ⟨attached, reads⟩
  rw [attached]
  refine ⟨rfl, ?_⟩
  intro index below
  refine ⟨first.cells.get index, (second.cells.load first.cells.entries.pairs).get index,
    ?_, ?_, ?_⟩
  · rw [get, (first.check_eq_ok index ()).mpr below]
    rfl
  · have inside : index < second.size := sized ▸ below
    have checked : ({ second with cells := second.cells.load first.cells.entries.pairs } :
        Store Float32).check index = .ok () := if_pos inside
    rw [get, checked]
    rfl
  · rcases reads index with same | ⟨zero, read⟩
    · exact .inl same
    · rw [read]
      rcases eq_zero_of_beq_zero _ zero with plain | minus
      · exact .inl plain.symm
      · exact .inr ⟨minus, rfl⟩

/-- A sparse store with an entry of its own takes the copy of a dense one that holds minus zero. -/
theorem attach_save_reads_minus_zero :
    let dense : Grid.Layout := ⟨[⟨"x", 0, 5⟩], [], [1], 6, .dense⟩
    let sparse : Grid.Layout := ⟨[⟨"x", 0, 5⟩], [], [1], 6, .sparse⟩
    let first : Store Float32 :=
      (call (call (.ofLayout "table" dense 0) (.put 2 0.5)).2 (.put 3 (-0.0))).2
    let second : Store Float32 := (call (.ofLayout "table" sparse 2) (.put 4 9.0)).2
    first.Reached ∧ second.Reached ∧ second.name = first.name ∧ second.size = first.size ∧
      (second.attach (first.save .epoch)).1 = .ok () ∧
      (second.attach (first.save .epoch)).2.get 2 = .ok 0.5 ∧
      first.get 3 = .ok (-0.0) ∧ (second.attach (first.save .epoch)).2.get 3 = .ok 0.0 ∧
      (second.attach (first.save .epoch)).2.get 4 = .ok 0.0 := by
  intro dense sparse first second
  have one : first.Reached := .call _ _ (.call _ _ (.fresh _ _ _))
  have two : second.Reached := .call _ _ (.fresh _ _ _)
  rcases attach_save_reads first second one two .epoch rfl rfl with ⟨attached, reads⟩
  refine ⟨one, two, rfl, rfl, attached, ?_, rfl, ?_, ?_⟩
  · rcases reads 2 (by decide) with ⟨value, read, held, found, same | ⟨minus, _⟩⟩
    · rw [found, same, ← held]
      rfl
    · rw [minus] at held
      exact absurd (Except.ok.inj held) (by decide)
  · exact eq_ok_of_toOption (by decide +kernel)
  · rcases reads 4 (by decide) with ⟨value, read, held, found, same | ⟨_, zero⟩⟩
    · rw [found, same, ← held]
      rfl
    · rw [found, zero]

end Store

end Autoland.Table
