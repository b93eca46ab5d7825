import Autoland.Learning.Update
import Autoland.Proofs.TableCopies
import Autoland.Proofs.TableShapes

/-! What a table learns from a whole flight: every entry moves toward the returns of the decisions
that have its index, the last of them first. -/

namespace Autoland.Learning

open Problem Table

variable {ν φ : Type} [Scalar ν]

/-- The return of a flight from a decision on, which `later` ones follow. -/
def returnFrom (definition : Definition ν) (terminal : Formula.Expression ν)
    (decision : Decision ν) : List (Decision ν) → ν
  | [] => decision.evaluate terminal - altitudePenalty decision.state
  | next :: later =>
    definition.params.discount * returnFrom definition terminal next later +
      reward definition next

def returnAt (definition : Definition ν) (terminal : Formula.Expression ν) :
    List (Decision ν) → Nat → ν
  | [], _ => 0.0
  | decision :: later, 0 => returnFrom definition terminal decision later
  | _ :: later, position + 1 => returnAt definition terminal later position

omit [Scalar ν] in
def visits (index : Nat) (decisions : List (Decision ν)) : List Nat :=
  (List.range decisions.length).filter fun position =>
    decisions[position]?.any fun decision => decision.index = index

omit [Scalar ν] in
theorem visits_cons (index : Nat) (decision : Decision ν) (later : List (Decision ν)) :
    visits index (decision :: later) =
      (if decision.index = index then [0] else []) ++ (visits index later).map (· + 1) := by
  unfold visits
  rw [List.length_cons, List.range_succ_eq_map, List.filter_cons, List.filter_map]
  have shifted : ((fun position => ((decision :: later)[position]?).any
        fun decision => decide (decision.index = index)) ∘ Nat.succ) =
      fun position => (later[position]?).any fun decision => decide (decision.index = index) := by
    funext position
    rw [Function.comp_apply, Nat.succ_eq_add_one, List.getElem?_cons_succ]
  rw [shifted]
  by_cases same : decision.index = index
  · simp [same]
  · simp [same]

omit [Scalar ν] in
theorem visits_eq_nil (index : Nat) (decisions : List (Decision ν))
    (absent : ∀ decision ∈ decisions, decision.index ≠ index) : visits index decisions = [] := by
  induction decisions with
  | nil => rfl
  | cons decision later ih =>
      rcases List.forall_mem_cons.mp absent with ⟨other, others⟩
      rw [visits_cons, if_neg other, ih others]
      rfl

variable [TableValue φ] [Stored ν φ]

/-- What an entry holds after the decisions with its index, taken from the last one to the
first. -/
def learned (definition : Definition ν) (terminal : Formula.Expression ν)
    (decisions : List (Decision ν)) (index : Nat) (old : φ) : φ :=
  (visits index decisions).foldr (fun position value =>
    moveToward definition.params.alpha (returnAt definition terminal decisions position) value) old

section Backward

variable (definition : Definition ν) (terminal : Formula.Expression ν)

omit [TableValue φ] in
theorem learned_cons (decision : Decision ν) (later : List (Decision ν)) (index : Nat) (old : φ) :
    learned definition terminal (decision :: later) index old =
      if decision.index = index then
        moveToward definition.params.alpha (returnFrom definition terminal decision later)
          (learned definition terminal later index old)
      else learned definition terminal later index old := by
  unfold learned
  rw [visits_cons]
  split
  · rw [List.foldr_append, List.foldr_map]
    rfl
  · rw [List.nil_append, List.foldr_map]
    rfl

omit [TableValue φ] in
theorem learned_absent (decisions : List (Decision ν)) (index : Nat) (old : φ)
    (absent : ∀ decision ∈ decisions, decision.index ≠ index) :
    learned definition terminal decisions index old = old := by
  rw [learned, visits_eq_nil index decisions absent]
  rfl

def taught (alpha target : ν) (index : Nat) (batch : Batch φ) : Batch φ :=
  batch.write index (moveToward alpha target (batch.store.cells.get index))

theorem learnBackward_held (alpha discount target reward : ν) (index : Nat)
    (earlier : List (Nat × ν)) (batch : Batch φ) (held : index ∈ batch.members) :
    learnBackward alpha discount target ((index, reward) :: earlier) batch =
      learnBackward alpha discount (discount * target + reward) earlier
        (taught alpha target index batch) := by
  rw [learnBackward, batch.get?_eq, if_pos held, Option.getD_some, batch.set_eq, if_pos held]
  rfl

theorem placed_taught (alpha target : ν) (index : Nat) {batch : Batch φ} (placed : batch.Placed)
    (held : index ∈ batch.members) : (taught alpha target index batch).Placed :=
  ⟨placed.members, Cells.placed_set placed.store index (placed.members index held) _⟩

theorem get_taught (decision : Decision ν) (later : List (Decision ν)) {batch : Batch φ}
    (placed : batch.Placed) (held : decision.index ∈ batch.members) (old : Nat → φ)
    (reads : ∀ index, batch.store.cells.get index =
      learned definition terminal later index (old index)) (index : Nat) :
    (taught definition.params.alpha (returnFrom definition terminal decision later)
        decision.index batch).store.cells.get index =
      learned definition terminal (decision :: later) index (old index) := by
  have below := placed.members decision.index held
  rw [taught, Batch.write, batch.store.cells.get_set _ _ _ _ placed.store.fits below, learned_cons,
    ← reads]
  by_cases same : index = decision.index
  · rw [if_pos same, if_pos same.symm, same]
  · rw [if_neg same, if_neg (Ne.symm same)]

/-- The running return of the backward walk is that of the decision it has reached, and the entries
hold what the decisions behind it have taught. -/
theorem get_learnBackward (earlier : List (Decision ν)) (decision : Decision ν)
    (later : List (Decision ν)) (batch : Batch φ) (placed : batch.Placed)
    (held : ∀ member ∈ decision :: earlier, member.index ∈ batch.members) (old : Nat → φ)
    (reads : ∀ index, batch.store.cells.get index =
      learned definition terminal later index (old index)) (index : Nat) :
    (learnBackward definition.params.alpha definition.params.discount
        (returnFrom definition terminal decision later)
        ((decision :: earlier).map fun decision => (decision.index, reward definition decision))
        batch).store.cells.get index =
      learned definition terminal (earlier.reverse ++ decision :: later) index (old index) := by
  induction earlier generalizing decision later batch with
  | nil =>
      have here : decision.index ∈ batch.members := held decision List.mem_cons_self
      rw [List.map_cons, learnBackward_held _ _ _ _ _ _ _ here]
      exact get_taught definition terminal decision later placed here old reads index
  | cons next earlier ih =>
      rcases List.forall_mem_cons.mp held with ⟨here, others⟩
      rw [List.map_cons, learnBackward_held _ _ _ _ _ _ _ here, List.reverse_cons,
        List.append_assoc]
      -- The target that the walk carries on is the return from `next`.
      exact ih next (decision :: later) _ (placed_taught _ _ _ placed here) others
        (get_taught definition terminal decision later placed here old reads)

section Flight

variable (trajectory : Trajectory ν) (store : Table.Store φ)

omit [Scalar ν] in
theorem history_eq_nil : trajectory.history = [] ↔ trajectory.decisions = [] :=
  List.reverse_eq_nil_iff.symm

theorem monteCarlo_idle
    (idle : trajectory.decisions = [] ∨ definition.terminalReward = none) :
    monteCarlo definition trajectory store = (.ok 0, store) := by
  cases history : trajectory.history with
  | nil => simp only [monteCarlo, history]
  | cons last earlier =>
      rcases idle with empty | none
      · rw [(history_eq_nil trajectory).mpr empty] at history
        cases history
      · simp only [monteCarlo, history, terminalReward?, none, Option.map_none]

theorem monteCarlo_cells (given : definition.terminalReward = some terminal)
    (placed : store.Placed)
    (below : ∀ decision ∈ trajectory.decisions, decision.index < store.size) :
    (monteCarlo definition trajectory store).1 = .ok trajectory.decisions.length ∧
      ∀ index, (monteCarlo definition trajectory store).2.cells.get index =
        learned definition terminal trajectory.decisions index (store.cells.get index) := by
  cases history : trajectory.history with
  | nil =>
      have empty := (history_eq_nil trajectory).mp history
      rw [monteCarlo_idle definition trajectory store (.inl empty), empty]
      exact ⟨rfl, fun _ => rfl⟩
  | cons last earlier =>
      have order : trajectory.decisions = earlier.reverse ++ [last] := by
        rw [Trajectory.decisions, history, List.reverse_cons]
      have inside : ∀ index ∈ trajectory.decisions.map (·.index), index < store.size := by
        rw [List.forall_mem_map]
        exact below
      have held := (store.batch_eq_ok _ _).mpr ⟨inside, rfl⟩
      have members : ∀ member ∈ last :: earlier,
          member.index ∈ ascending (trajectory.decisions.map (·.index)) := by
        intro member made
        refine (mem_ascending _ _).mpr (List.mem_map_of_mem ?_)
        rw [Trajectory.decisions, List.mem_reverse, history]
        exact made
      have walked := get_learnBackward definition terminal earlier last [] _
        (placed.batch _ _ held) members store.cells.get fun _ => rfl
      rw [order]
      simp only [monteCarlo, history, terminalReward?, given, Option.map_some, held]
      exact ⟨by simp, walked⟩

theorem get_monteCarlo (given : definition.terminalReward = some terminal)
    (placed : store.Placed)
    (below : ∀ decision ∈ trajectory.decisions, decision.index < store.size) (index : Nat) :
    (monteCarlo definition trajectory store).2.get index =
      (store.get index).map (learned definition terminal trajectory.decisions index) := by
  have shape := monteCarlo_sameShape definition trajectory store
  have reads := (monteCarlo_cells definition terminal trajectory store given placed below).2
  unfold Store.get Store.check
  rw [shape.2]
  split
  · exact congrArg Except.ok (reads index)
  · rfl

end Flight

end Backward

end Autoland.Learning
