import Autoland.Number.Binary
import Autoland.Proofs.FlightLessons

/-! The order in which a flight's trajectories are learned from. It matters only for entries that
trajectories of one definition along different axes have both visited. -/

namespace Autoland

open Problem Learning

theorem filter_eq_of_perm {α : Type} (p : α → Bool) {first second : List α}
    (same : first.Perm second) (few : second.countP p ≤ 1) :
    first.filter p = second.filter p := by
  have kept := same.filter p
  rw [List.countP_eq_length_filter] at few
  cases chosen : second.filter p with
  | nil =>
      rw [chosen] at kept
      exact kept.eq_nil
  | cons item others =>
      rw [chosen, List.length_cons] at few
      have alone : others = [] := List.length_eq_zero_iff.mp (by omega)
      rw [chosen, alone] at kept
      rw [alone]
      exact List.perm_singleton.mp kept

variable {ν φ : Type}

theorem Episode.Keyed.exists_mirrors {episode : Episode ν} (keyed : episode.Keyed) (name : String)
    (index : Nat) (many : 1 < episode.trajectories.countP (·.teaches name index)) :
    ∃ one ∈ episode.trajectories, ∃ two ∈ episode.trajectories, ∃ along across : Option Axis,
      along ≠ across ∧ one.key = Axis.tag name along ∧ two.key = Axis.tag name across ∧
        one.teaches name index ∧ two.teaches name index := by
  have teachers : ∀ trajectory ∈ episode.trajectories.filter (·.teaches name index),
      trajectory ∈ episode.trajectories ∧ trajectory.teaches name index = true ∧
        ∃ axis, trajectory.key = Axis.tag name axis := by
    intro trajectory member
    obtain ⟨inside, teaches⟩ := List.mem_filter.mp member
    obtain ⟨axis, tagged⟩ := keyed.tagged trajectory inside
    have owned : trajectory.definition.name = name := by
      simp only [Trajectory.teaches, Bool.and_eq_true, decide_eq_true_eq] at teaches
      exact teaches.1.1.1
    exact ⟨inside, teaches, axis, owned ▸ tagged⟩
  have distinct : ((episode.trajectories.filter (·.teaches name index)).map (·.key)).Nodup :=
    keyed.distinct.sublist (List.filter_sublist.map _)
  rw [List.countP_eq_length_filter] at many
  generalize episode.trajectories.filter (·.teaches name index) = teaching
    at many teachers distinct
  obtain ⟨one, rest, rfl⟩ := List.exists_cons_of_length_pos (Nat.zero_lt_of_lt many)
  obtain ⟨two, others, rfl⟩ := List.exists_cons_of_length_pos (Nat.lt_of_succ_lt_succ many)
  obtain ⟨first, taught, along, keyedOne⟩ := teachers one List.mem_cons_self
  obtain ⟨second, learned, across, keyedTwo⟩ :=
    teachers two (List.mem_cons_of_mem _ List.mem_cons_self)
  refine ⟨one, first, two, second, along, across, ?_, keyedOne, keyedTwo, taught, learned⟩
  intro same
  have shared : one.key = two.key := by rw [keyedOne, same, keyedTwo]
  rw [List.map_cons, List.nodup_cons, shared] at distinct
  exact distinct.1 List.mem_cons_self

namespace Engine

variable [Scalar ν] [RankedValue φ] [Stored ν φ]

section Orders

variable {first second : List (Trajectory ν)} (same : first.Perm second) (engine : Engine ν φ)

include same

theorem learnFlights_perm (count : Nat) (learned : (learnFlights first engine).1 = .ok count) :
    (learnFlights second engine).1 = .ok count := by
  obtain ⟨counts, each, rfl⟩ := (learnFlights_eq_ok first engine count).mp learned
  obtain ⟨others, every, moved⟩ := List.perm_comp_forall₂ same.symm each
  exact (learnFlights_eq_ok second engine _).mpr ⟨others, every, moved.sum_eq⟩

theorem entry_learnFlights_perm (placed : engine.Placed) (count : Nat)
    (learned : (learnFlights first engine).1 = .ok count) (name : String) (index : Nat)
    (few : second.countP (·.teaches name index) ≤ 1) :
    (learnFlights first engine).2.entry name index =
      (learnFlights second engine).2.entry name index := by
  have other := learnFlights_perm same engine count learned
  rw [entry_learnFlights_filter first engine placed count learned,
    entry_learnFlights_filter second engine placed count other, filter_eq_of_perm _ same few]

end Orders

variable [Elementary ν]

/-- The end of a flight is the same in all orders of its trajectories: all of them succeed or none
does, with one summary, and every entry that one trajectory teaches at most gets one value. In
flights that steps lead to, an entry may get different values only where trajectories of its
definition along different axes both teach it. -/
theorem order_matters_at_mirrors_only (documents : List (Document ν)) (config : Config)
    (engine : Engine ν φ) (used : Used documents config engine) (episode : Episode ν)
    (verdict : List Bool) :
    (∀ source, ∃ order : List (Trajectory ν), order.Perm episode.trajectories ∧
      engine.finish { episode with source } verdict = finishIn order engine episode verdict) ∧
    ∀ first second : List (Trajectory ν), first.Perm episode.trajectories →
      second.Perm episode.trajectories → ∀ summary,
        (finishIn first engine episode verdict).1 = .ok summary →
          (finishIn second engine episode verdict).1 = .ok summary ∧
          (∀ name index, episode.trajectories.countP (·.teaches name index) ≤ 1 →
            (finishIn first engine episode verdict).2.entry name index =
              (finishIn second engine episode verdict).2.entry name index) ∧
          (episode.Flown φ → ∀ name index,
            (finishIn first engine episode verdict).2.entry name index ≠
                (finishIn second engine episode verdict).2.entry name index →
              ∃ one ∈ episode.trajectories, ∃ two ∈ episode.trajectories,
                ∃ along across : Option Axis, along ≠ across ∧ one.key = Axis.tag name along ∧
                  two.key = Axis.tag name across ∧ one.teaches name index ∧
                    two.teaches name index) := by
  constructor
  · intro source
    exact ⟨_, episode.order_perm source, rfl⟩
  · intro first second one two summary finished
    have placed := used.placed
    have same : first.Perm second := one.trans two.symm
    obtain ⟨updates, learned, rfl⟩ := (finishIn_eq_ok first engine episode verdict summary).mp
      finished
    have agree : ∀ name index, episode.trajectories.countP (·.teaches name index) ≤ 1 →
        (finishIn first engine episode verdict).2.entry name index =
          (finishIn second engine episode verdict).2.entry name index := by
      intro name index few
      rw [entry_finishIn, entry_finishIn]
      exact entry_learnFlights_perm same engine placed updates learned name index
        (two.countP_eq _ ▸ few)
    refine ⟨?_, agree, ?_⟩
    · exact (finishIn_eq_ok second engine episode verdict _).mpr
        ⟨updates, learnFlights_perm same engine updates learned, rfl⟩
    · intro flown name index differs
      apply flown.keyed.exists_mirrors
      by_contra few
      exact differs (agree name index (by omega))

def mirroredChild : List (Document Float) :=
  let greedy : Document Float :=
    { Document.blank with params := ⟨1.0, 1.0, 0.5, 0.0⟩ }
  [{ greedy with
      name := "root"
      selectors := [⟨"tiltX", ["tilt"], []⟩, ⟨"tiltY", ["tilt"], []⟩] },
    { greedy with
      name := "tilt"
      priority := 1
      terminalReward := some "position"
      symmetryAxes := ["position"]
      state := [⟨"position", 0.0, 3.0, some 1.0⟩] }]

/-- A flight from one unit along one axis and three along the other to three and two. -/
def crossing (fresh : Engine Float Float32) : Run Float Float32 :=
  ((Run.step ⟨fresh, .start (.ofSeed 1)⟩ (beside 1.0 3.0)).2.step (beside 3.0 2.0)).2

/-- Both orders give the entry that one mirror visits one value, and that which both visit two. -/
theorem order_matters_at_mirrors_only_crossing :
    ∃ fresh : Engine Float Float32, Used mirroredChild .standard (crossing fresh).engine ∧
      (crossing fresh).episode.Flown Float32 ∧
      let order := (crossing fresh).episode.trajectories
      let ended := fun order =>
        finishIn order (crossing fresh).engine (crossing fresh).episode [true]
      order.countP (·.teaches "tilt" 1) ≤ 1 ∧
        (∃ summary, (ended order).1 = .ok summary ∧ (ended order.reverse).1 = .ok summary) ∧
        (ended order).2.entry "tilt" 1 = (ended order.reverse).2.entry "tilt" 1 ∧
        (ended order).2.entry "tilt" 3 ≠ (ended order.reverse).2.entry "tilt" 3 ∧
        ∃ one ∈ order, ∃ two ∈ order, ∃ along across : Option Axis, along ≠ across ∧
          one.key = Axis.tag "tilt" along ∧ two.key = Axis.tag "tilt" across ∧
            one.teaches "tilt" 3 ∧ two.teaches "tilt" 3 := by
  have facts : (build mirroredChild .standard).toOption.any
      (fun fresh : Engine Float Float32 =>
        let order := (crossing fresh).episode.trajectories
        let taught := fun order : List (Trajectory Float) =>
          ((crossing fresh).engine.entry "tilt" 3).toOption.map fun value =>
            order.foldl (fun value trajectory => trajectory.lesson "tilt" 3 value) value
        decide (order.countP (·.teaches "tilt" 1) ≤ 1) &&
          order.all (fun trajectory =>
            ((crossing fresh).engine.learnFlight trajectory).1.toOption.isSome) &&
          decide (taught order ≠ taught order.reverse)) = true := by
    decide +kernel
  obtain ⟨fresh, made, checked⟩ := (Option.any_eq_true _ _).mp facts
  simp only [Bool.and_eq_true, decide_eq_true_eq, List.all_eq_true] at checked
  obtain ⟨⟨few, each⟩, differs⟩ := checked
  -- One step at a time: the unifier would otherwise run the flight.
  have once : Used mirroredChild .standard
      (Run.step ⟨fresh, .start (.ofSeed 1)⟩ (beside 1.0 3.0)).2.engine :=
    .step _ _ (.build fresh (eq_ok_of_toOption made))
  have used : Used mirroredChild .standard (crossing fresh).engine := by
    unfold crossing
    exact .step _ _ once
  have begun : (Run.step ⟨fresh, .start (.ofSeed 1)⟩ (beside 1.0 3.0)).2.episode.Flown Float32 :=
    .step _ _ (.start _)
  have flown : (crossing fresh).episode.Flown Float32 := by
    unfold crossing
    exact .step _ _ begun
  have back := List.reverse_perm (crossing fresh).episode.trajectories
  obtain ⟨count, learned⟩ := exists_learnFlights _ _ each
  have finished := (finishIn_eq_ok _ _ (crossing fresh).episode [true] _).mpr ⟨_, learned, rfl⟩
  obtain ⟨same, agree, mirrors⟩ := (order_matters_at_mirrors_only _ _ _ used
    (crossing fresh).episode [true]).2 _ _ (.refl _) back _ finished
  have apart : ∀ order : List (Trajectory Float),
      (learnFlights order (crossing fresh).engine).1 = .ok count →
        ((finishIn order (crossing fresh).engine (crossing fresh).episode
          [true]).2.entry "tilt" 3).toOption =
            ((crossing fresh).engine.entry "tilt" 3).toOption.map fun value =>
              order.foldl (fun value trajectory => trajectory.lesson "tilt" 3 value) value := by
    intro order learned
    rw [entry_finishIn, entry_learnFlights order _ used.placed _ learned]
    cases (crossing fresh).engine.entry "tilt" 3 <;> rfl
  have unequal := fun equal => differs
    ((apart _ learned).symm.trans ((congrArg Except.toOption equal).trans
      (apart _ (learnFlights_perm back.symm _ _ learned))))
  refine ⟨fresh, used, flown, ?_⟩
  intro order ended
  exact ⟨few, ⟨_, finished, same⟩, agree "tilt" 1 few, unequal, mirrors flown "tilt" 3 unequal⟩

end Engine

end Autoland
