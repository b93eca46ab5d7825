import Autoland.Proofs.TableCopies

/-! Tables that take a copy from elsewhere. Such a copy may list an index several times and list
zeros. A dense table takes the last value that is listed for an index; a sparse one passes over
zeros and takes the last value that is none. -/

namespace Autoland.Table

variable {φ : Type}

def Image.valuesAt (image : Image φ) (index : Nat) : List φ :=
  (image.pairs.filter (·.1 = index)).map (·.2)

theorem Image.lookup_reverse_pairs (image : Image φ) (index : Nat) (takes : φ → Bool) :
    (image.pairs.filter fun pair => takes pair.2).reverse.lookup index =
      ((image.valuesAt index).filter takes).getLast? := by
  rw [lookup_eq_head?, List.filter_reverse, List.map_reverse, List.head?_reverse, valuesAt,
    List.filter_map, List.filter_comm]
  rfl

theorem Image.length_valuesAt_le (image : Image φ) (distinct : (image.pairs.map (·.1)).Nodup)
    (index : Nat) : (image.valuesAt index).length ≤ 1 := by
  have counted := List.nodup_iff_count_le_one.mp distinct index
  rw [List.count_eq_length_filter, List.filter_map, List.length_map] at counted
  rw [valuesAt, List.length_map]
  exact counted

variable [TableValue φ]

/-- Whether the last one of some values, if it counts as zero, hides no other value. -/
def HidesNone (values : List φ) : Prop :=
  ∀ last, values.getLast? = some last → (last == TableValue.zero) = true →
    ∀ value ∈ values, (value == TableValue.zero) = true

def SameNumber (first second : φ) : Prop :=
  first = second ∨ (first == TableValue.zero) = true ∧ (second == TableValue.zero) = true

theorem hidesNone_of_length_le (values : List φ) (few : values.length ≤ 1) : HidesNone values := by
  rcases values with _ | ⟨value, _ | ⟨other, rest⟩⟩
  · exact fun _ found => nomatch found
  · intro last found zero other member
    cases found
    rwa [List.mem_singleton.mp member]
  · simp at few

theorem forall_zero_of_getLast? (values : List φ)
    (zero : ((values.filter (· != TableValue.zero)).getLast?.getD TableValue.zero ==
      TableValue.zero) = true) :
    ∀ value ∈ values, (value == TableValue.zero) = true := by
  cases found : (values.filter (· != TableValue.zero)).getLast? with
  | none =>
      rw [List.getLast?_eq_none_iff, List.filter_eq_nil_iff] at found
      intro value member
      simpa [bne] using found value member
  | some last =>
      rw [found, Option.getD_some] at zero
      have other := (List.mem_filter.mp (List.mem_of_getLast? found)).2
      simp [bne, zero] at other

theorem sameNumber_iff_hidesNone (values : List φ)
    (reflects : ((TableValue.zero : φ) == TableValue.zero) = true) :
    SameNumber (values.getLast?.getD TableValue.zero)
        ((values.filter (· != TableValue.zero)).getLast?.getD TableValue.zero) ↔
      HidesNone values := by
  rcases values.eq_nil_or_concat with rfl | ⟨earlier, last, rfl⟩
  · exact iff_of_true (.inl rfl) fun _ found => nomatch found
  · rw [List.concat_eq_append, List.getLast?_concat, Option.getD_some, List.filter_append]
    by_cases zero : (last == TableValue.zero) = true
    · -- the last value is passed over, so the one before it that is not zero is read
      have passed : [last].filter (· != TableValue.zero) = [] := by simp [bne, zero]
      rw [passed, List.append_nil]
      constructor
      · intro same
        have none := forall_zero_of_getLast? earlier
          (same.elim (fun equal => equal ▸ zero) (·.2))
        intro _ _ _ value member
        rcases List.mem_append.mp member with inside | single
        · exact none value inside
        · rwa [List.mem_singleton.mp single]
      · intro hides
        have none : earlier.filter (· != TableValue.zero) = [] := by
          rw [List.filter_eq_nil_iff]
          intro value member
          simp [bne, hides last List.getLast?_concat zero value (List.mem_append_left _ member)]
        rw [none]
        exact .inr ⟨zero, reflects⟩
    · have kept : [last].filter (· != TableValue.zero) = [last] := by simp [bne, zero]
      rw [kept, List.getLast?_concat]
      refine iff_of_true (.inl rfl) ?_
      intro found same counted
      rw [List.getLast?_concat, Option.some.injEq] at same
      exact absurd (same ▸ counted) zero

namespace Store

def Alike (first second : Store φ) : Prop :=
  ∀ index < first.size, ∃ value other, first.get index = .ok value ∧
    second.get index = .ok other ∧ SameNumber value other

theorem Placed.attach_reads {store : Store φ} (placed : store.Placed) (image : Image φ)
    (fits : image.checkShape store.name store.size = .ok ()) :
    (store.attach image).1 = .ok () ∧ (store.attach image).2.size = store.size ∧
      ∀ index < store.size, (store.attach image).2.get index =
        .ok (((image.valuesAt index).filter store.cells.loads).getLast?.getD TableValue.zero) := by
  have attached : store.attach image =
      (.ok (), { store with cells := store.cells.load image.pairs }) := by
    rw [Store.attach, fits]
  rw [attached]
  refine ⟨rfl, rfl, ?_⟩
  intro index below
  have checked : ({ store with cells := store.cells.load image.pairs } : Store φ).check index =
      .ok () := if_pos below
  rw [get, checked, ← image.lookup_reverse_pairs, ← Cells.get_load (placed.fits)
    image.pairs (store.below_of_checkShape image fits)]
  rfl

/-- A dense and a sparse store of one name and size take every copy that fits them, whatever they
held before. The dense one then holds the last value that is listed for an index, the sparse one the
last that is not zero. So they are alike exactly if no index has zero for its last value behind
another one, and always if no index is listed twice. -/
theorem attach_alike_iff (dense sparse : Store Float32) (one : dense.Reached)
    (two : sparse.Reached) (plain : dense.backing = .dense) (sharded : sparse.backing = .sparse)
    (named : sparse.name = dense.name) (sized : sparse.size = dense.size) (image : Image Float32)
    (fits : image.checkShape dense.name dense.size = .ok ()) :
    (dense.attach image).1 = .ok () ∧ (sparse.attach image).1 = .ok () ∧
      (∀ index < dense.size,
        (dense.attach image).2.get index = .ok ((image.valuesAt index).getLast?.getD 0.0) ∧
        (sparse.attach image).2.get index =
          .ok (((image.valuesAt index).filter (· != 0.0)).getLast?.getD 0.0)) ∧
      ((dense.attach image).2.Alike (sparse.attach image).2 ↔
        ∀ index < dense.size, HidesNone (image.valuesAt index)) ∧
      ((image.pairs.map (·.1)).Nodup → (dense.attach image).2.Alike (sparse.attach image).2) := by
  have reflects : ((TableValue.zero : Float32) == TableValue.zero) = true := by decide +kernel
  have every : dense.cells.loads = fun _ => true := by
    cases cells : dense.cells with
    | dense values => rfl
    | sparse shards =>
        rw [backing, cells] at plain
        cases plain
  have nonzero : sparse.cells.loads = (· != TableValue.zero) := by
    cases cells : sparse.cells with
    | dense values =>
        rw [backing, cells] at sharded
        cases sharded
    | sparse shards => rfl
  rcases one.placed.attach_reads image fits with ⟨taken, kept, first⟩
  rcases two.placed.attach_reads image (named ▸ sized ▸ fits) with ⟨accepted, _, second⟩
  simp only [every, List.filter_true] at first
  rw [sized, nonzero] at second
  have alike : (dense.attach image).2.Alike (sparse.attach image).2 ↔
      ∀ index < dense.size, HidesNone (image.valuesAt index) := by
    unfold Alike
    rw [kept]
    refine forall₂_congr fun index below => ?_
    rw [← sameNumber_iff_hidesNone _ reflects, first index below, second index below]
    constructor
    · intro read
      rcases read with ⟨value, other, held, found, same⟩
      rwa [Except.ok.inj held, Except.ok.inj found]
    · exact fun same => ⟨_, _, rfl, rfl, same⟩
  refine ⟨taken, accepted, fun index below => ⟨first index below, second index below⟩,
    alike, ?_⟩
  intro distinct
  exact alike.mpr fun index _ =>
    hidesNone_of_length_le _ (image.length_valuesAt_le distinct index)

theorem attach_alike_iff_repeated_index :
    let layout : Grid.Backing → Grid.Layout := fun kind => ⟨[⟨"x", 0, 3⟩], [], [1], 4, kind⟩
    let dense : Store Float32 := (call (.ofLayout "table" (layout .dense) 0) (.put 1 0.5)).2
    let sparse : Store Float32 := (call (.ofLayout "table" (layout .sparse) 2) (.put 2 9.0)).2
    let image : Entries Float32 → Image Float32 :=
      fun entries => ⟨formatVersion, "table", 4, .sparse, .epoch, entries⟩
    let repeated := image (.sparse [(3, 1.0), (3, 0.0), (1, 2.0)])
    let once := image (.sparse [(3, 0.0), (1, 2.0)])
    dense.Reached ∧ sparse.Reached ∧ repeated.checkShape "table" 4 = .ok () ∧
      (dense.attach repeated).2.get 3 = .ok 0.0 ∧ (sparse.attach repeated).2.get 3 = .ok 1.0 ∧
      ¬(dense.attach repeated).2.Alike (sparse.attach repeated).2 ∧
      (dense.attach once).2.Alike (sparse.attach once).2 := by
  intro layout dense sparse image repeated once
  have one : dense.Reached := .call _ _ (.fresh _ _ _)
  have two : sparse.Reached := .call _ _ (.fresh _ _ _)
  rcases attach_alike_iff dense sparse one two rfl rfl rfl rfl repeated rfl with
    ⟨_, _, reads, alike, _⟩
  rcases attach_alike_iff dense sparse one two rfl rfl rfl rfl once rfl with
    ⟨_, _, _, _, distinct⟩
  refine ⟨one, two, rfl, ?_, ?_, ?_, distinct (by decide)⟩
  · exact (reads 3 (by decide)).1
  · rw [(reads 3 (by decide)).2]
    exact congrArg Except.ok (by decide +kernel)
  · rw [alike]
    intro hides
    have same := hides 3 (by decide) 0.0 rfl (by decide +kernel) 1.0 (List.mem_cons_self ..)
    exact absurd same (by decide +kernel)

end Store

end Autoland.Table
