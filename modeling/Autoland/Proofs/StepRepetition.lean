import Autoland.Proofs.CoupledTree
import Autoland.Proofs.FlightTallies
import Autoland.Proofs.StepLessons

/-! Steps that are taken twice. A step that is taken again in the same situation reuses each
decision that is still the last one under the key of its state, and changes nothing if all of them
are. As the keys of two definitions may be the same, one state of a step may take that place from
another one. -/

namespace Autoland

open Problem Learning

variable {ν φ : Type}

namespace Run

section Reuse

variable [Scalar ν]

/-- Whether an action is the last one recorded under the key of a state and no new one is needed. -/
def Stands (run : Run ν φ) (state : State ν) (action : Action ν) : Prop :=
  reusable? state (run.episode.history state.key).head? = some action

theorem stands_congr {first second : Run ν φ} (state : State ν) (action : Action ν)
    (same : second.episode.history state.key = first.episode.history state.key) :
    second.Stands state action ↔ first.Stands state action := by
  rw [Stands, Stands, same]

theorem stands_of_latest (run : Run ν φ) (state : State ν) (action : Action ν) (index : Nat)
    (declared : state.definition.state ≠ [])
    (latest : (run.episode.history state.key).head? = some ⟨state, action, index⟩) :
    run.Stands state action := by
  have alike : state.same state = true := by simp [State.same, Record.agreesOn]
  rw [Stands, latest]
  simp [reusable?, alike, declared]

/-- Whether a decision is made anew: none stands, one more is counted, and in a state with declared
fields it becomes the last one under the key of the state. -/
structure Renews (run : Run ν φ) (state : State ν) (action : Action ν) (after : Run ν φ) :
    Prop where
  needed : ∀ old, ¬ run.Stands state old
  counted : after.engine.counters.decisions = run.engine.counters.decisions + 1
  recorded : state.definition.state ≠ [] → ∃ index, after.episode.history =
    Function.update run.episode.history state.key
      (⟨state, action, index⟩ :: run.episode.history state.key)

end Reuse

section Decision

variable [Scalar ν] [RankedValue φ] [Stored ν φ]

theorem learnStep_decisions (run after : Run ν φ) (trajectory : Trajectory ν)
    (definition : Definition ν) (outcome : Except Error Unit)
    (learned : run.learnStep trajectory definition = (outcome, after)) :
    after.engine.counters.decisions = run.engine.counters.decisions := by
  have kept : (run.engine.withStore definition.name
      (temporalDifference definition trajectory)).2.counters.decisions =
        run.engine.counters.decisions := rfl
  unfold learnStep at learned
  split at learned
  · split at learned <;> rename_i worked <;> rw [worked] at kept <;> cases learned <;> exact kept
  · cases learned
    rfl

theorem decide_of_stands (run : Run ν φ) (state : State ν) (action : Action ν)
    (stands : run.Stands state action) : run.decide state = (.ok action, run) := by
  cases found : run.episode.trajectory? state.key with
  | none => simp [Stands, Episode.history, found, reusable?] at stands
  | some trajectory =>
      have met : run.episode.meet state.key state.definition = run.episode := by
        rw [Episode.meet, found]
      rw [Stands, run.episode.history_of_found _ trajectory found] at stands
      rw [run.decide_of_found state trajectory (met.symm ▸ found), Trajectory.last?, stands, met]

theorem Decides.renews {run after : Run ν φ} {state : State ν} {trajectory : Trajectory ν}
    {result : Except Error (Action ν)} (decided : Decides run state trajectory result after)
    (found : run.episode.trajectory? state.key = some trajectory)
    (needed : reusable? state trajectory.last? = none) (action : Action ν)
    (succeeded : result = .ok action) : Renews run state action after := by
  have history := run.episode.history_of_found _ trajectory found
  have nothing : ∀ old, ¬ run.Stands state old := by
    intro old stands
    rw [Stands, history, ← Trajectory.last?, needed] at stands
    cases stands
  cases decided with
  | reused action again =>
      rw [needed] at again
      cases again
  | refused error source counters => cases succeeded
  | repeated action source _ same =>
      exact ⟨nothing, rfl, fun declared =>
        absurd needed (reusable_of_same state _ declared same)⟩
  | recorded action source longer outcome after _ candidate taken learned =>
      obtain ⟨_, _, rfl⟩ := map_eq_ok.mp succeeded
      obtain ⟨index, _, _, rfl⟩ := trajectory.record_eq_ok longer state action taken
      refine ⟨nothing, learnStep_decisions _ after _ _ outcome learned, fun _ => ⟨index, ?_⟩⟩
      have keyed := (trajectory?_eq_some run.episode _ trajectory found).2
      have replaced := run.episode.history_replace trajectory
        { trajectory with history := ⟨state, action, index⟩ :: trajectory.history } (keyed ▸ found)
      rw [learnStep_episode _ after _ _ outcome learned, history, ← keyed]
      exact replaced

/-- A decision that succeeds stands already and changes nothing, or is made anew. -/
theorem decide_stands_or_renews (run after : Run ν φ) (state : State ν) (action : Action ν)
    (taken : run.decide state = (.ok action, after)) :
    (run.Stands state action ∧ after = run) ∨ Renews run state action after := by
  cases again : reusable? state (run.episode.history state.key).head? with
  | some old =>
      rw [run.decide_of_stands state old again] at taken
      cases taken
      exact .inl ⟨again, rfl⟩
  | none =>
      obtain ⟨trajectory, found, decided⟩ := run.decide_decides state
      have history : (run.episode.meet state.key state.definition).history = run.episode.history :=
        run.episode.history_meet state.key state.definition
      have latest := Episode.history_of_found _ _ trajectory found
      rw [history] at latest
      rw [latest, ← Trajectory.last?] at again
      rw [taken] at decided
      obtain ⟨needed, counted, recorded⟩ := decided.renews found again action rfl
      refine .inr ⟨?_, counted, ?_⟩
      · intro old stands
        exact needed old ((stands_congr state old (congrFun history _)).mpr stands)
      · simpa only [history] using recorded

theorem decideAll_of_stands (run : Run ν φ) (states : List (State ν)) (actions : List (Action ν))
    (width : states.length = actions.length)
    (stands : ∀ node ∈ states.zip actions, run.Stands node.1 node.2) :
    decideAll states run = (.ok actions, run) := by
  induction states generalizing actions with
  | nil =>
      rw [List.eq_nil_of_length_eq_zero width.symm]
      rfl
  | cons state states ih =>
      cases actions with
      | nil => cases width
      | cons action actions =>
          rcases List.forall_mem_cons.mp stands with ⟨head, rest⟩
          rw [decideAll, run.decide_of_stands state action head]
          dsimp only
          rw [ih actions (Nat.succ.inj width) rest]

variable [Elementary ν]

/-- A step is repeated by a run where all its decisions stand. -/
theorem decideDown_of_stands (snapshot : Flight.Snapshot ν) (generations : Nat)
    (states all : List (State ν)) (run after again : Run ν φ) (actions : List (Action ν))
    (taken : decideDown snapshot generations states run = (.ok (all, actions), after))
    (plan : Engine.SamePlan run.engine again.engine)
    (stands : ∀ node ∈ all.zip actions, again.Stands node.1 node.2) :
    decideDown snapshot generations states again = (.ok (all, actions), again) := by
  induction generations generalizing states run all actions with
  | zero =>
      cases states with
      | nil =>
          cases taken
          rfl
      | cons state states => cases taken
  | succ generations ih =>
      cases states with
      | nil =>
          cases taken
          rfl
      | cons state states =>
          rw [decideDown_cons, chain_eq_ok] at taken
          rcases taken with ⟨made, between, ⟨deeper, more⟩, head, tail, joined⟩
          cases joined
          have width := length_of_decideAll _ _ _ _ head
          rw [List.zip_append width.symm] at stands
          have learned := decideAll_samePlan _ run between made head
          have settled : Engine.SamePlan between.engine again.engine :=
            ⟨plan.definitions.trans learned.definitions.symm,
              plan.dimension.trans learned.dimension.symm, plan.config.trans learned.config.symm⟩
          have born : again.engine.childStates snapshot (state :: states) made =
              between.engine.childStates snapshot (state :: states) made := by
            simp [Engine.childStates, Engine.children_of_samePlan settled]
          rw [decideDown_cons, chain_eq_ok]
          refine ⟨made, again, (deeper, more), ?_, ?_, rfl⟩
          · exact again.decideAll_of_stands _ _ width.symm fun node member =>
              stands node (List.mem_append_left _ member)
          · rw [born]
            exact ih _ deeper between more tail settled fun node member =>
              stands node (List.mem_append_right _ member)

end Decision

end Run

namespace Work

variable [Scalar ν] [Elementary ν] [RankedValue φ] [Stored ν φ]

theorem Turn.counts {snapshot : Flight.Snapshot ν} {work next : Work ν φ}
    (turn : Turn snapshot work next) :
    work.run.engine.counters.decisions ≤ next.run.engine.counters.decisions ∧
      (next.run.engine.counters.decisions = work.run.engine.counters.decisions →
        next.run = work.run ∧ ∃ state action, next.decided = work.decided ++ [(state, action)] ∧
          work.run.Stands state action) := by
  cases turn with
  | decide run after decided state waiting action taken =>
      rcases run.decide_stands_or_renews after state action taken with ⟨stands, rfl⟩ | renewed
      · exact ⟨Nat.le_refl _, fun _ => ⟨rfl, state, action, rfl, stands⟩⟩
      · have counted := renewed.counted
        dsimp only
        constructor
        · omega
        · intro same
          omega

theorem counts_of_reached (run : Run ν φ) (snapshot : Flight.Snapshot ν) (work : Work ν φ)
    (reached : Reached run snapshot work) :
    run.engine.counters.decisions ≤ work.run.engine.counters.decisions ∧
      (work.run.engine.counters.decisions = run.engine.counters.decisions →
        work.run = run ∧ ∀ node ∈ work.decided, run.Stands node.1 node.2) := by
  induction reached with
  | refl => exact ⟨Nat.le_refl _, fun _ => ⟨rfl, fun _ member => nomatch member⟩⟩
  | @tail work next _ turn ih =>
      obtain ⟨more, one⟩ := turn.counts
      refine ⟨ih.1.trans more, ?_⟩
      intro same
      have first : work.run.engine.counters.decisions = run.engine.counters.decisions :=
        Nat.le_antisymm (same ▸ more) ih.1
      obtain ⟨kept, stood⟩ := ih.2 first
      obtain ⟨still, state, action, decided, stands⟩ := one (same.trans first.symm)
      refine ⟨still.trans kept, ?_⟩
      rw [decided]
      intro node member
      rcases List.mem_append.mp member with earlier | last
      · exact stood node earlier
      · rw [List.mem_singleton.mp last]
        exact kept ▸ stands

/-- Whether states of one key are the same among those decided, and each declares a field. -/
structure Separate (decided : List (State ν × Action ν)) : Prop where
  keys : ∀ first ∈ decided, ∀ second ∈ decided, first.1.key = second.1.key → first.1 = second.1
  declared : ∀ node ∈ decided, node.1.definition.state ≠ []

/-- A turn lets decisions stand in other states, and afterwards its own does. -/
theorem Turn.stands {snapshot : Flight.Snapshot ν} {work next : Work ν φ}
    (turn : Turn snapshot work next) (separate : Separate next.decided)
    (stood : ∀ node ∈ work.decided, work.run.Stands node.1 node.2) :
    ∀ node ∈ next.decided, next.run.Stands node.1 node.2 := by
  cases turn with
  | decide run after decided state waiting action taken =>
      intro node member
      have own : (state, action) ∈ decided ++ [(state, action)] := List.mem_concat_self
      rcases run.decide_stands_or_renews after state action taken with ⟨stands, rfl⟩ | renewed
      · rcases List.mem_append.mp member with earlier | last
        · exact stood node earlier
        · rw [List.mem_singleton.mp last]
          exact stands
      · obtain ⟨index, history⟩ := renewed.recorded (separate.declared _ own)
        rcases List.mem_append.mp member with earlier | last
        · have stands := stood node earlier
          by_cases keyed : node.1.key = state.key
          · -- then it is the state decided now, where nothing stood
            have same : node.1 = state := separate.keys node member _ own keyed
            exact absurd (same ▸ stands) (renewed.needed node.2)
          · apply (Run.stands_congr node.1 node.2 _).mpr stands
            rw [history, Function.update_of_ne keyed]
        · rw [List.mem_singleton.mp last]
          apply Run.stands_of_latest after state action index (separate.declared _ own)
          rw [history, Function.update_self, List.head?_cons]

theorem stands_of_reached (run : Run ν φ) (snapshot : Flight.Snapshot ν) (work : Work ν φ)
    (reached : Reached run snapshot work) (separate : Separate work.decided) :
    ∀ node ∈ work.decided, work.run.Stands node.1 node.2 := by
  induction reached with
  | refl => exact fun _ member => nomatch member
  | @tail work next _ turn ih =>
      apply turn.stands separate
      apply ih
      cases turn with
      | decide run after decided state waiting action taken =>
          constructor
          · intro first one second two
            exact separate.keys first (List.mem_append_left _ one) second
              (List.mem_append_left _ two)
          · intro node member
            exact separate.declared node (List.mem_append_left _ member)

theorem born_of_reached (run : Run ν φ) (snapshot : Flight.Snapshot ν) (work : Work ν φ)
    (reached : Reached run snapshot work) :
    ∀ node ∈ work.decided, node.1.definition ∈ run.engine.definitions ∧
      node.1 = State.ofSnapshot node.1.definition snapshot node.1.axis := by
  have made : ∀ (definition : Definition ν) (axis : Option Axis),
      let state := State.ofSnapshot definition snapshot axis
      state = State.ofSnapshot state.definition snapshot state.axis := by
    intro definition axis
    have owner := State.ofValues_owner definition snapshot.fieldList axis
    dsimp only [State.ofSnapshot]
    rw [owner.1, owner.2]
  intro node member
  have listed : node.1 ∈ work.decided.map Prod.fst ++ work.waiting :=
    List.mem_append_left _ (List.mem_map_of_mem member)
  rw [(expands_of_reached run snapshot work reached).ordered] at listed
  rcases List.mem_cons.mp listed with root | child
  · rw [root]
    exact ⟨run.root_known snapshot, made run.engine.root none⟩
  · rcases List.mem_flatMap.mp child with ⟨parent, _, born⟩
    refine ⟨run.children_known snapshot [parent.1] [parent.2] _ born, ?_⟩
    simp only [Engine.childStates, List.mem_flatMap, List.mem_map] at born
    rcases born with ⟨_, _, entry, _, same⟩
    rw [← same]
    exact made entry.1 entry.2

end Work

namespace Run

variable [Scalar ν] [Elementary ν] [RankedValue φ] [Stored ν φ]

def outcomeOf (states : List (State ν)) (actions : List (Action ν)) : Outcome ν where
  states := .frozen (·.definition.name) states
  actions := .frozen (·.definition.name) actions
  command := commandOf actions

theorem step_eq_ok (run after : Run ν φ) (snapshot : Flight.Snapshot ν) (outcome : Outcome ν) :
    run.step snapshot = (.ok outcome, after) ↔ ∃ states actions last,
      decideDown snapshot run.engine.definitions.length
        [State.ofSnapshot run.engine.root snapshot none] run = (.ok (states, actions), last) ∧
      outcomeOf states actions = outcome ∧ last.advanced = after := by
  unfold step
  dsimp only
  cases decideDown snapshot run.engine.definitions.length
      [State.ofSnapshot run.engine.root snapshot none] run with
  | mk result last =>
      cases result with
      | error error => simp
      | ok both =>
          rcases both with ⟨states, actions⟩
          constructor
          · intro taken
            cases taken
            exact ⟨states, actions, last, rfl, rfl, rfl⟩
          · intro taken
            rcases taken with ⟨_, _, _, same, rfl, rfl⟩
            cases same
            rfl

def Repeats (run : Run ν φ) (snapshot : Flight.Snapshot ν) (outcome : Outcome ν) : Prop :=
  run.step snapshot = (.ok outcome, run.advanced)

theorem stands_of_repeats (run : Run ν φ) (snapshot : Flight.Snapshot ν) (outcome : Outcome ν)
    (repeats : run.Repeats snapshot outcome) :
    ∀ node ∈ outcome.states.members.zip outcome.actions.members, run.Stands node.1 node.2 := by
  obtain ⟨last, reached, _, advanced⟩ :=
    Work.reached_of_step run run.advanced snapshot outcome repeats
  have counted : run.engine.counters.decisions = last.engine.counters.decisions :=
    congrArg (·.engine.counters.decisions) advanced
  exact ((Work.counts_of_reached run snapshot _ reached).2 counted.symm).2

section Repeated

variable (run after : Run ν φ) (snapshot : Flight.Snapshot ν) (outcome : Outcome ν)
  (stepped : run.step snapshot = (.ok outcome, after))

include stepped

theorem repeats_of_stands
    (stands : ∀ node ∈ outcome.states.members.zip outcome.actions.members,
      after.Stands node.1 node.2) : after.Repeats snapshot outcome := by
  obtain ⟨states, actions, last, decided, rfl, rfl⟩ := (step_eq_ok run _ snapshot _).mp stepped
  have learned := run.step_learns snapshot
  rw [stepped] at learned
  have plan := learned.samePlan
  have same : last.advanced.engine.definitions = run.engine.definitions := plan.definitions
  have root : last.advanced.engine.root = run.engine.root := List.head_eq_of_cons_eq same
  rw [Repeats, step_eq_ok, same, root]
  exact ⟨states, actions, last.advanced,
    decideDown_of_stands snapshot _ _ states run last last.advanced actions decided plan stands,
    rfl, rfl⟩

theorem stands_of_keys
    (declared : ∀ definition ∈ run.engine.definitions, definition.state ≠ [])
    (keys : ∀ first ∈ outcome.states.members, ∀ second ∈ outcome.states.members,
      first.key = second.key → first.definition = second.definition) :
    ∀ node ∈ outcome.states.members.zip outcome.actions.members, after.Stands node.1 node.2 := by
  obtain ⟨last, reached, _, rfl⟩ := Work.reached_of_step run after snapshot outcome stepped
  have born := Work.born_of_reached run snapshot _ reached
  apply Work.stands_of_reached run snapshot _ reached
  refine ⟨?_, fun node member => declared _ (born node member).1⟩
  intro first one second two keyed
  have own := keys first.1 (List.of_mem_zip one).1 second.1 (List.of_mem_zip two).1 keyed
  rw [State.key, own, State.key] at keyed
  rw [(born first one).2, (born second two).2, own, Axis.tag_axis_inj _ _ _ keyed]

theorem known_of_step :
    ∀ state ∈ outcome.states.members, state.definition ∈ run.engine.definitions := by
  obtain ⟨last, reached, width, _⟩ := Work.reached_of_step run after snapshot outcome stepped
  intro state member
  rw [← List.map_fst_zip width.le] at member
  rcases List.mem_map.mp member with ⟨node, inside, rfl⟩
  exact (Work.born_of_reached run snapshot _ reached node inside).1

/-- A step that is taken again at once yields the same states and actions, and changes nothing but
how many steps are counted, exactly if every decision is still the last one under the key of its
state. If every definition declares a state field, that is so unless the step decides two states of
different definitions that share a key, which only happens if one definition is named like another
one with the letter of an axis. -/
theorem step_repeats_iff :
    (after.Repeats snapshot outcome ↔
      ∀ node ∈ outcome.states.members.zip outcome.actions.members, after.Stands node.1 node.2) ∧
    ((∀ definition ∈ run.engine.definitions, definition.state ≠ []) →
      ((∀ first ∈ outcome.states.members, ∀ second ∈ outcome.states.members,
          first.key = second.key → first.definition = second.definition) →
        after.Repeats snapshot outcome) ∧
      (run.engine.Sound → run.engine.NamesApart → after.Repeats snapshot outcome)) := by
  have repeats := repeats_of_stands run after snapshot outcome stepped
  refine ⟨⟨stands_of_repeats after snapshot outcome, repeats⟩, ?_⟩
  intro declared
  have kept := stands_of_keys run after snapshot outcome stepped declared
  refine ⟨fun keys => repeats (kept keys), ?_⟩
  intro sound apart
  apply repeats
  apply kept
  intro first one second two keyed
  have known := known_of_step run after snapshot outcome stepped
  exact (sound.namesApart_iff.mp apart _ (known first one) _ (known second two) _ _ keyed).1

end Repeated

/-- A root one of whose children along the first axis is named `a`, while another one is named
`aX`. The first of them keeps its last action on the ground. -/
def sharedKey : List (Document Float) :=
  let greedy : Document Float :=
    { Document.blank with params := { Params.standard with exploration := 0.0 } }
  let sideways : List (FieldSpec Float) := [⟨"positionX", 0.0, 1.0, some 1.0⟩]
  let upwards : List (FieldSpec Float) := [⟨"positionZ", 0.0, 1.0, some 1.0⟩]
  [{ greedy with
      name := "root"
      state := sideways
      selectors := [⟨"firstX", ["b", "a"], [⟨"Gt(positionX,0.5)", "a"⟩, ⟨"TRUE", "b"⟩]⟩,
        ⟨"second", ["aX"], []⟩] },
    { greedy with
      name := "a"
      priority := 1
      state := upwards
      holds := [⟨"positionZ", [0.0]⟩] },
    { greedy with
      name := "aX"
      priority := 2
      state := sideways
      selectors := [⟨"pick", ["b", "c"], [⟨"Gt(positionX,0.5)", "c"⟩, ⟨"TRUE", "b"⟩]⟩] },
    { greedy with name := "b", priority := 3, state := upwards },
    { greedy with name := "c", priority := 4, state := upwards }]

/-- The step that decides for `a` along the first axis and for `aX` does not repeat; the one before
it does. -/
theorem step_repeats_iff_shared_key :
    ∃ engine : Engine Float Float32, Engine.build sharedKey .standard = .ok engine ∧
      (∀ definition ∈ engine.definitions, definition.state ≠ []) ∧
      ∃ first one second two,
        step ⟨engine, .start (.ofSeed 1)⟩ (Engine.beside 0.0 0.0) = (.ok first, one) ∧
        one.Repeats (Engine.beside 0.0 0.0) first ∧
        one.step (Engine.beside 1.0 0.0) = (.ok second, two) ∧
        ¬ two.Repeats (Engine.beside 1.0 0.0) second := by
  have facts : (Engine.build sharedKey .standard).toOption.any
      (fun engine : Engine Float Float32 =>
        let begun := step ⟨engine, .start (.ofSeed 1)⟩ (Engine.beside 0.0 0.0)
        let next := begun.2.step (Engine.beside 1.0 0.0)
        (engine.definitions.all fun definition => !definition.state.isEmpty) &&
          begun.1.toOption.any (fun outcome =>
            outcome.states.members.map State.key == ["root", "bX", "aX", "b"]) &&
          next.1.toOption.any (fun outcome =>
            (outcome.states.members.zip outcome.actions.members).any fun node =>
              (reusable? node.1 (next.2.episode.history node.1.key).head?).map
                (·.record.buckets) != some node.2.record.buckets)) = true := by
    decide +kernel
  obtain ⟨engine, made, checked⟩ := (Option.any_eq_true _ _).mp facts
  dsimp only at checked
  rcases departed : step ⟨engine, .start (.ofSeed 1)⟩ (Engine.beside 0.0 0.0) with ⟨result, one⟩
  rw [departed] at checked
  rcases followed : one.step (Engine.beside 1.0 0.0) with ⟨other, two⟩
  rw [followed] at checked
  simp only [Bool.and_eq_true, List.all_eq_true, Bool.not_eq_true',
    List.isEmpty_eq_false_iff] at checked
  obtain ⟨⟨declared, departs⟩, follows⟩ := checked
  obtain ⟨first, begun, keys⟩ := (Option.any_eq_true _ _).mp departs
  obtain ⟨second, ended, moved⟩ := (Option.any_eq_true _ _).mp follows
  cases eq_ok_of_toOption begun
  cases eq_ok_of_toOption ended
  refine ⟨engine, eq_ok_of_toOption made, declared, first, one, second, two, departed, ?_,
    followed, ?_⟩
  · apply ((step_repeats_iff _ one _ first departed).2 declared).1
    have distinct : (first.states.members.map State.key).Nodup := by
      rw [eq_of_beq keys]
      decide
    intro state member other inside same
    rw [List.inj_on_of_nodup_map distinct member inside same]
  · rw [(step_repeats_iff one two _ second followed).1]
    intro stands
    obtain ⟨node, member, differs⟩ := List.any_eq_true.mp moved
    rw [show reusable? node.1 (two.episode.history node.1.key).head? = some node.2 from
      stands node member] at differs
    simp at differs

end Run

end Autoland
