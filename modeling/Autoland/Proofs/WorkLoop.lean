import Autoland.Proofs.ChildCycles
import Autoland.Proofs.EngineLearning

/-! The work loop of a step. One state is decided in each turn, and its children wait behind all
others. If no definition leads to itself the loop ends, and a step is what it ends with. -/

namespace Autoland

open Problem Learning

variable {ν φ : Type}

structure Engine.SamePlan (before after : Engine ν φ) : Prop where
  definitions : after.definitions = before.definitions
  dimension : after.dimension = before.dimension
  config : after.config = before.config

theorem Engine.SamePlan.refl (engine : Engine ν φ) : SamePlan engine engine := ⟨rfl, rfl, rfl⟩

theorem Engine.SamePlan.trans {first second third : Engine ν φ} (one : SamePlan first second)
    (two : SamePlan second third) : SamePlan first third :=
  ⟨two.definitions.trans one.definitions, two.dimension.trans one.dimension,
    two.config.trans one.config⟩

theorem Engine.Learns.samePlan [Scalar ν] [TableValue φ] [Stored ν φ] {before after : Engine ν φ}
    (learns : Learns before after) : SamePlan before after := by
  induction learns with
  | refl => exact .refl before
  | count after counters _ ih => exact ih.trans ⟨rfl, rfl, rfl⟩
  | fromStep after definition trajectory _ ih => exact ih.trans ⟨rfl, rfl, rfl⟩
  | fromFlight after definition trajectory _ ih => exact ih.trans ⟨rfl, rfl, rfl⟩

theorem Engine.children_of_samePlan {before after : Engine ν φ} (plan : SamePlan before after)
    (definition : Definition ν) (action : Action ν) :
    after.children definition action = before.children definition action := by
  have followed : after.follows = before.follows := by
    funext axis
    cases axis with
    | none => rfl
    | some axis => rw [follows, follows, plan.dimension, plan.config]
  have same : after.child? definition action = before.child? definition action := by
    funext selector
    rw [child?, child?, plan.definitions, followed]
  rw [children, children, same]

theorem Engine.length_children_le (engine : Engine ν φ) (definition : Definition ν)
    (action : Action ν) :
    (engine.children definition action).length ≤ definition.selectors.length :=
  List.length_filterMap_le _ _

theorem Engine.childStates_cons [Scalar ν] [Elementary ν] {before after : Engine ν φ}
    (plan : SamePlan before after) (snapshot : Flight.Snapshot ν) (state : State ν)
    (states : List (State ν)) (action : Action ν) (actions : List (Action ν)) :
    after.childStates snapshot (state :: states) (action :: actions) =
      before.childStates snapshot [state] [action] ++
        after.childStates snapshot states actions := by
  simp [childStates, children_of_samePlan plan]

theorem Engine.length_childStates_le [Scalar ν] [Elementary ν] (engine : Engine ν φ)
    (snapshot : Flight.Snapshot ν) (state : State ν) (action : Action ν) :
    (engine.childStates snapshot [state] [action]).length ≤
      state.definition.selectors.length := by
  simpa [childStates] using engine.length_children_le state.definition action

def widest (definitions : List (Definition ν)) : Nat :=
  (definitions.map fun definition => definition.selectors.length).foldr max 0

theorem le_widest (definitions : List (Definition ν)) (definition : Definition ν)
    (member : definition ∈ definitions) : definition.selectors.length ≤ widest definitions := by
  induction definitions with
  | nil => cases member
  | cons other definitions ih =>
      rw [widest, List.map_cons, List.foldr_cons]
      rcases List.mem_cons.mp member with rfl | member
      · exact Nat.le_max_left _ _
      · exact (ih member).trans (Nat.le_max_right _ _)

def population (width : Nat) : Nat → Nat
  | 0 => 0
  | depth + 1 => 1 + width * population width depth

theorem population_mono (width : Nat) : Monotone (population width) := by
  apply monotone_nat_of_le_succ
  intro depth
  induction depth with
  | zero => exact Nat.zero_le _
  | succ depth ih =>
      have wider := Nat.mul_le_mul_left width ih
      simp only [population] at wider ⊢
      omega

/-- How many states can still be decided because of states that wait. -/
def load (width : Nat) (rank : String → Nat) (states : List (State ν)) : Nat :=
  (states.map fun state => population width (rank state.definition.name + 1)).sum

theorem length_le_load (width : Nat) (rank : String → Nat) (states : List (State ν)) :
    states.length ≤ load width rank states := by
  have counted := List.length_le_sum_of_one_le
    (states.map fun state => population width (rank state.definition.name + 1)) (by
      simp only [List.mem_map, forall_exists_index, and_imp, forall_apply_eq_imp_iff₂, population]
      intro state _
      omega)
  rwa [List.length_map] at counted

theorem load_append (width : Nat) (rank : String → Nat) (front back : List (State ν)) :
    load width rank (front ++ back) = load width rank front + load width rank back := by
  simp [load]

theorem load_le (width : Nat) (rank : String → Nat) (states : List (State ν)) (bound : Nat)
    (low : ∀ state ∈ states, rank state.definition.name < bound) :
    load width rank states ≤ states.length * population width bound := by
  have each : ∀ size ∈ states.map (fun state => population width (rank state.definition.name + 1)),
      size ≤ population width bound := by
    simp only [List.mem_map, forall_exists_index, and_imp, forall_apply_eq_imp_iff₂]
    intro state member
    exact population_mono width (low state member)
  have total := List.sum_le_card_nsmul _ _ each
  rwa [List.length_map, smul_eq_mul] at total

namespace Run

section Chained

variable {α β γ : Type}

theorem chain_eq_ok (first : Except Error α × Run ν φ)
    (next : α → Run ν φ → Except Error β × Run ν φ) (join : α → β → γ) (result : γ)
    (after : Run ν φ) :
    chain first next join = (.ok result, after) ↔ ∃ value between other,
      first = (.ok value, between) ∧ next value between = (.ok other, after) ∧
        join value other = result := by
  unfold chain
  rcases first with ⟨outcome, between⟩
  cases outcome with
  | error error => simp
  | ok value =>
      dsimp only
      cases taken : next value between with
      | mk outcome last => cases outcome <;> simp_all [and_comm]

theorem chain_eq_error (first : Except Error α × Run ν φ)
    (next : α → Run ν φ → Except Error β × Run ν φ) (join : α → β → γ) (error : Error)
    (after : Run ν φ) :
    chain first next join = (.error error, after) ↔ first = (.error error, after) ∨
      ∃ value between, first = (.ok value, between) ∧
        next value between = (.error error, after) := by
  unfold chain
  rcases first with ⟨outcome, between⟩
  cases outcome with
  | error error => simp
  | ok value =>
      dsimp only
      cases taken : next value between with
      | mk outcome last => cases outcome <;> simp_all

end Chained

variable [Scalar ν] [RankedValue φ] [Stored ν φ]

theorem decide_samePlan (run : Run ν φ) (state : State ν) :
    Engine.SamePlan run.engine (run.decide state).2.engine :=
  (decide_learns run state).samePlan

theorem decideAll_samePlan (states : List (State ν)) (run after : Run ν φ)
    (actions : List (Action ν)) (decided : decideAll states run = (.ok actions, after)) :
    Engine.SamePlan run.engine after.engine := by
  have learned := decideAll_learns states run
  rw [decided] at learned
  exact learned.samePlan

end Run

structure Work (ν φ : Type) where
  run : Run ν φ
  decided : List (State ν × Action ν)
  waiting : List (State ν)

namespace Work

/-- A turn decides one state, and each state that it lets wait is of a definition that the decided
one leads to. -/
def Follows (definitions : List (Definition ν)) (work next : Work ν φ) : Prop :=
  ∃ state action children, next.decided = work.decided ++ [(state, action)] ∧
    work.waiting ++ children = state :: next.waiting ∧
    children.length ≤ state.definition.selectors.length ∧
    ∀ child ∈ children, Leads definitions state.definition child.definition

/-- Each turn uses up what it adds to the decided states, as the children of a state carry less load
than the state itself. -/
theorem load_of_follows (definitions : List (Definition ν)) (rank : String → Nat)
    (falls : ∀ parent child, Leads definitions parent child → rank child.name < rank parent.name)
    (work next : Work ν φ) (known : ∀ state ∈ work.waiting, state.definition ∈ definitions)
    (follows : Follows definitions work next) :
    next.decided.length + load (widest definitions) rank next.waiting ≤
      work.decided.length + load (widest definitions) rank work.waiting := by
  rcases follows with ⟨state, action, children, decided, moved, few, edges⟩
  have present : state.definition ∈ definitions := by
    have member : state ∈ work.waiting ++ children := by simp [moved]
    rcases List.mem_append.mp member with waited | child
    · exact known state waited
    · exact (edges state child).2.1
  have low : ∀ child ∈ children, rank child.definition.name < rank state.definition.name := by
    intro child member
    exact falls _ _ (edges child member)
  have born := load_le (widest definitions) rank children _ low
  have width := Nat.mul_le_mul_right (population (widest definitions) (rank state.definition.name))
    (few.trans (le_widest definitions _ present))
  have balance := congrArg (load (widest definitions) rank) moved
  rw [load_append] at balance
  have cost : load (widest definitions) rank (state :: next.waiting) =
      1 + widest definitions * population (widest definitions) (rank state.definition.name) +
        load (widest definitions) rank next.waiting := by
    simp [load, population]
  rw [decided, List.length_append, List.length_singleton]
  omega

structure Bounded (definitions : List (Definition ν)) (rank : String → Nat) (bound : Nat)
    (work : Work ν φ) : Prop where
  loaded : work.run.engine.definitions = definitions
  known : ∀ state ∈ work.waiting, state.definition ∈ definitions
  within : work.decided.length + load (widest definitions) rank work.waiting ≤ bound

theorem Bounded.size {definitions : List (Definition ν)} {rank : String → Nat} {bound : Nat}
    {work : Work ν φ} (bounded : Bounded definitions rank bound work) :
    work.decided.length + work.waiting.length ≤ bound := by
  have waits := length_le_load (widest definitions) rank work.waiting
  have within := bounded.within
  omega

section Loop

variable [Scalar ν] [Elementary ν] [RankedValue φ] [Stored ν φ]

/-- One turn: the first state that waits is decided. -/
inductive Turn (snapshot : Flight.Snapshot ν) : Work ν φ → Work ν φ → Prop where
  | decide (run after : Run ν φ) (decided : List (State ν × Action ν)) (state : State ν)
      (waiting : List (State ν)) (action : Action ν)
      (taken : run.decide state = (.ok action, after)) :
      Turn snapshot ⟨run, decided, state :: waiting⟩
        ⟨after, decided ++ [(state, action)],
          waiting ++ after.engine.childStates snapshot [state] [action]⟩

def start (run : Run ν φ) (snapshot : Flight.Snapshot ν) : Work ν φ :=
  ⟨run, [], [State.ofSnapshot run.engine.root snapshot none]⟩

def Reached (run : Run ν φ) (snapshot : Flight.Snapshot ν) : Work ν φ → Prop :=
  Relation.ReflTransGen (Turn snapshot) (start run snapshot)

def Fails (work : Work ν φ) (error : Error) : Prop :=
  ∃ state waiting, work.waiting = state :: waiting ∧ (work.run.decide state).1 = .error error

/-- Whether a result is what the work amounts to when no further turn is possible. -/
def Concludes (work : Work ν φ) : Except Error (Outcome ν) → Prop
  | .ok outcome => work.waiting = [] ∧ outcome.states.members = work.decided.map Prod.fst ∧
      outcome.actions.members = work.decided.map Prod.snd
  | .error error => work.Fails error

theorem turns_of_decideAll (snapshot : Flight.Snapshot ν) (states : List (State ν))
    (run after : Run ν φ) (actions : List (Action ν))
    (taken : Run.decideAll states run = (.ok actions, after))
    (decided : List (State ν × Action ν)) (waiting : List (State ν)) :
    Relation.ReflTransGen (Turn snapshot) ⟨run, decided, states ++ waiting⟩
      ⟨after, decided ++ states.zip actions,
        waiting ++ after.engine.childStates snapshot states actions⟩ := by
  induction states generalizing run actions decided waiting with
  | nil =>
      cases taken
      simp only [List.nil_append, List.zip_nil_left, List.append_nil, Engine.childStates,
        List.flatMap_nil]
      exact .refl
  | cons state states ih =>
      rw [Run.decideAll_cons, Run.chain_eq_ok] at taken
      rcases taken with ⟨action, between, rest, head, tail, rfl⟩
      have plan := Run.decideAll_samePlan states between after rest tail
      have first : Turn snapshot _ _ := .decide run between decided state (states ++ waiting) action
        head
      have others := ih between rest tail (decided ++ [(state, action)])
        (waiting ++ between.engine.childStates snapshot [state] [action])
      rw [List.append_assoc, List.append_assoc, ← Engine.childStates_cons plan] at others
      rw [List.append_assoc] at first
      exact .head first others

theorem fails_of_decideAll (snapshot : Flight.Snapshot ν) (states : List (State ν))
    (run after : Run ν φ) (error : Error)
    (taken : Run.decideAll states run = (.error error, after))
    (decided : List (State ν × Action ν)) (waiting : List (State ν)) :
    ∃ last, Relation.ReflTransGen (Turn snapshot) ⟨run, decided, states ++ waiting⟩ last ∧
      last.Fails error := by
  induction states generalizing run decided waiting with
  | nil => cases taken
  | cons state states ih =>
      rw [Run.decideAll_cons, Run.chain_eq_error] at taken
      rcases taken with failed | ⟨action, between, head, tail⟩
      · refine ⟨_, .refl, state, states ++ waiting, rfl, ?_⟩
        rw [failed]
      · have first : Turn snapshot _ _ := .decide run between decided state (states ++ waiting)
          action head
        rw [List.append_assoc] at first
        rcases ih between tail (decided ++ [(state, action)]) _ with ⟨last, others, fails⟩
        exact ⟨last, .head first others, fails⟩

theorem turns_of_decideDown (snapshot : Flight.Snapshot ν) (generations : Nat)
    (states all : List (State ν)) (run after : Run ν φ) (actions : List (Action ν))
    (taken : Run.decideDown snapshot generations states run = (.ok (all, actions), after))
    (decided : List (State ν × Action ν)) :
    Relation.ReflTransGen (Turn snapshot) ⟨run, decided, states⟩
      ⟨after, decided ++ all.zip actions, []⟩ ∧ all.length = actions.length := by
  induction generations generalizing states run all actions decided with
  | zero =>
      cases states with
      | nil =>
          cases taken
          rw [List.zip_nil_left, List.append_nil]
          exact ⟨.refl, rfl⟩
      | cons state states => cases taken
  | succ generations ih =>
      cases states with
      | nil =>
          cases taken
          rw [List.zip_nil_left, List.append_nil]
          exact ⟨.refl, rfl⟩
      | cons state states =>
          rw [Run.decideDown_cons, Run.chain_eq_ok] at taken
          rcases taken with ⟨made, between, ⟨deeper, more⟩, head, tail, joined⟩
          cases joined
          have width := Run.length_of_decideAll _ _ _ _ head
          have first := turns_of_decideAll snapshot (state :: states) run between made head
            decided []
          rcases ih _ deeper between more tail (decided ++ (state :: states).zip made)
            with ⟨below, length⟩
          rw [List.append_nil, List.nil_append] at first
          rw [List.append_assoc, ← List.zip_append width.symm] at below
          refine ⟨first.trans below, ?_⟩
          rw [List.length_append, List.length_append, width, length]

theorem fails_of_decideDown (snapshot : Flight.Snapshot ν) (definitions : List (Definition ν))
    (distinct : (definitions.map (·.name)).Nodup) (rank : String → Nat)
    (falls : ∀ name definition, find? definitions name = some definition →
      ∀ child ∈ definition.childNames, (find? definitions child).isSome → rank child < rank name)
    (generations : Nat) (states : List (State ν)) (run after : Run ν φ) (error : Error)
    (loaded : run.engine.definitions = definitions)
    (known : ∀ state ∈ states, state.definition ∈ definitions)
    (low : ∀ state ∈ states, rank state.definition.name < generations)
    (taken : Run.decideDown snapshot generations states run = (.error error, after))
    (decided : List (State ν × Action ν)) :
    ∃ last, Relation.ReflTransGen (Turn snapshot) ⟨run, decided, states⟩ last ∧
      last.Fails error := by
  induction generations generalizing states run decided with
  | zero =>
      cases states with
      | nil => cases taken
      | cons state states =>
          have negative := low state List.mem_cons_self
          omega
  | succ generations ih =>
      cases states with
      | nil => cases taken
      | cons state states =>
          rw [Run.decideDown_cons, Run.chain_eq_error] at taken
          rcases taken with failed | ⟨made, between, head, tail⟩
          · have stuck := fails_of_decideAll snapshot (state :: states) run after error failed
              decided []
            rwa [List.append_nil] at stuck
          · have first := turns_of_decideAll snapshot (state :: states) run between made head
              decided []
            rw [List.append_nil, List.nil_append] at first
            have plan := Run.decideAll_samePlan _ run between made head
            have same := plan.definitions.trans loaded
            have born := between.engine.childStates_of_parent snapshot (state :: states) made
            rw [same] at born
            rcases ih _ between same (Run.known_of_born definitions _ _ born)
              (Run.low_of_born definitions _ _ born rank falls distinct known generations low)
              tail _ with ⟨last, others, fails⟩
            exact ⟨last, first.trans others, fails⟩

theorem turn_follows (snapshot : Flight.Snapshot ν) (definitions : List (Definition ν))
    (work next : Work ν φ) (loaded : work.run.engine.definitions = definitions)
    (known : ∀ state ∈ work.waiting, state.definition ∈ definitions)
    (turn : Turn snapshot work next) :
    next.run.engine.definitions = definitions ∧
      (∀ state ∈ next.waiting, state.definition ∈ definitions) ∧
      Follows definitions work next := by
  cases turn with
  | decide run after decided state waiting action taken =>
      have plan := Run.decide_samePlan run state
      rw [taken] at plan
      have same : after.engine.definitions = definitions := plan.definitions.trans loaded
      have born := after.engine.childStates_of_parent snapshot [state] [action]
      rw [same] at born
      have edges : ∀ child ∈ after.engine.childStates snapshot [state] [action],
          Leads definitions state.definition child.definition := by
        intro child member
        rcases born child member with ⟨parent, single, name, offered, found⟩
        rw [List.mem_singleton.mp single] at offered
        refine ⟨known state List.mem_cons_self, List.mem_of_find?_eq_some found, ?_⟩
        rwa [name_of_find? name _ found]
      have few := after.engine.length_childStates_le snapshot state action
      refine ⟨same, ?_, state, action, _, rfl, rfl, few, edges⟩
      intro other member
      rcases List.mem_append.mp member with waited | child
      · exact known other (List.mem_cons_of_mem _ waited)
      · exact (edges other child).2.1

theorem Bounded.turn {definitions : List (Definition ν)} {rank : String → Nat} {bound : Nat}
    (falls : ∀ parent child, Leads definitions parent child → rank child.name < rank parent.name)
    (snapshot : Flight.Snapshot ν) {work next : Work ν φ}
    (bounded : Bounded definitions rank bound work)
    (turn : Turn snapshot work next) : Bounded definitions rank bound next := by
  rcases turn_follows snapshot definitions work next bounded.loaded bounded.known turn
    with ⟨loaded, known, follows⟩
  have spent := load_of_follows definitions rank falls work next bounded.known follows
  exact ⟨loaded, known, spent.trans bounded.within⟩

theorem Bounded.acc {definitions : List (Definition ν)} {rank : String → Nat} {bound : Nat}
    (falls : ∀ parent child, Leads definitions parent child → rank child.name < rank parent.name)
    (snapshot : Flight.Snapshot ν) (left : Nat) (work : Work ν φ)
    (bounded : Bounded definitions rank bound work) (enough : bound < work.decided.length + left) :
    Acc (fun next work => Turn snapshot work next) work := by
  induction left generalizing work with
  | zero =>
      have size := bounded.size
      omega
  | succ left ih =>
      constructor
      intro next turn
      rcases turn_follows snapshot definitions work next bounded.loaded bounded.known turn
        with ⟨_, _, state, action, _, decided, _⟩
      apply ih next (bounded.turn falls snapshot turn)
      rw [decided, List.length_append, List.length_singleton]
      omega

theorem bounded_of_reached (definitions : List (Definition ν)) (rank : String → Nat)
    (falls : ∀ parent child, Leads definitions parent child → rank child.name < rank parent.name)
    (low : ∀ definition ∈ definitions, rank definition.name < definitions.length)
    (run : Run ν φ) (loaded : run.engine.definitions = definitions)
    (snapshot : Flight.Snapshot ν) (work : Work ν φ) (reached : Reached run snapshot work) :
    Bounded definitions rank (population (widest definitions) definitions.length) work := by
  induction reached with
  | refl =>
      have root : (State.ofSnapshot run.engine.root snapshot none).definition = run.engine.root :=
        (State.ofValues_owner run.engine.root snapshot.fieldList none).1
      have member : run.engine.root ∈ definitions := loaded ▸ List.mem_cons_self
      refine ⟨loaded, ?_, ?_⟩
      · simpa [start, root] using member
      · have deep := population_mono (widest definitions) (low _ member)
        simpa [start, load, root] using deep
  | tail _ turn ih => exact ih.turn falls snapshot turn

theorem Concludes.no_turn {work : Work ν φ} {result : Except Error (Outcome ν)}
    (concluded : work.Concludes result) (snapshot : Flight.Snapshot ν) (next : Work ν φ) :
    ¬ Turn snapshot work next := by
  intro turn
  cases turn with
  | decide run after decided state waiting action taken =>
      cases result with
      | error error =>
          rcases concluded with ⟨_, _, moved, failed⟩
          cases moved
          rw [taken] at failed
          cases failed
      | ok outcome => cases concluded.1

theorem reached_of_step (run after : Run ν φ) (snapshot : Flight.Snapshot ν)
    (outcome : Outcome ν) (stepped : run.step snapshot = (.ok outcome, after)) :
    ∃ last : Run ν φ,
      Reached run snapshot ⟨last, outcome.states.members.zip outcome.actions.members, []⟩ ∧
      outcome.states.members.length = outcome.actions.members.length ∧
      after = { last with
        episode.steps := last.episode.steps + 1
        engine.counters.steps := last.engine.counters.steps + 1 } := by
  unfold Run.step at stepped
  dsimp only at stepped
  split at stepped
  · cases stepped
  · rename_i states actions last decided
    obtain ⟨turns, width⟩ := turns_of_decideDown snapshot _ _ states run last actions decided []
    cases stepped
    exact ⟨last, turns, width, rfl⟩

theorem concludes_of_step (definitions : List (Definition ν))
    (distinct : (definitions.map (·.name)).Nodup) (rank : String → Nat)
    (ranked : ∀ name definition, find? definitions name = some definition →
      rank name < definitions.length ∧ ∀ child ∈ definition.childNames,
        (find? definitions child).isSome → rank child < rank name)
    (run : Run ν φ) (loaded : run.engine.definitions = definitions)
    (snapshot : Flight.Snapshot ν) :
    ∃ last, Reached run snapshot last ∧ last.Concludes (run.step snapshot).1 := by
  have root : (State.ofSnapshot run.engine.root snapshot none).definition = run.engine.root :=
    (State.ofValues_owner run.engine.root snapshot.fieldList none).1
  have member : run.engine.root ∈ definitions := loaded ▸ List.mem_cons_self
  unfold Run.step
  dsimp only
  rw [loaded]
  cases taken : Run.decideDown snapshot definitions.length
      [State.ofSnapshot run.engine.root snapshot none] run with
  | mk result after =>
      cases result with
      | error error =>
          have low := (ranked _ _ (find?_of_mem _ distinct _ member)).1
          exact fails_of_decideDown snapshot definitions distinct rank
            (fun name parent found => (ranked name parent found).2) definitions.length _ run after
            error loaded (by simpa [root] using member) (by simpa [root] using low) taken []
      | ok both =>
          rcases both with ⟨states, actions⟩
          rcases turns_of_decideDown snapshot _ _ states run after actions taken []
            with ⟨turns, length⟩
          refine ⟨_, turns, rfl, ?_, ?_⟩
          · simp [Coupled.frozen, Coupled.freeze, List.map_fst_zip length.le]
          · simp [Coupled.frozen, Coupled.freeze, List.map_snd_zip length.ge]

end Loop

/-- Definitions are accepted exactly if none leads to itself. The work loop of each step then ends:
the states that are decided or wait are never more than the nodes of a tree as deep as there are
definitions, and each state that is made to wait is of a child of the definition decided. -/
theorem accepted_iff_acyclic_and_loop_ends [Scalar ν] [Elementary ν] [RankedValue φ] [Stored ν φ]
    (definitions : List (Definition ν)) (distinct : (definitions.map (·.name)).Nodup) :
    (rejectCycles definitions = .ok () ↔ Acyclic definitions) ∧
    (rejectCycles definitions = .ok () → ∀ run : Run ν φ, run.engine.definitions = definitions →
      ∀ snapshot,
        Acc (fun next work => Turn snapshot work next) (start run snapshot) ∧
        (∀ work, Reached run snapshot work →
          work.decided.length + work.waiting.length ≤
              population (widest definitions) definitions.length ∧
            ∀ next, Turn snapshot work next → Follows definitions work next) ∧
        ∃ last, Reached run snapshot last ∧ (∀ next, ¬ Turn snapshot last next) ∧
          last.Concludes (run.step snapshot).1) := by
  refine ⟨rejectCycles_iff_acyclic distinct, ?_⟩
  intro accepted run loaded snapshot
  rcases exists_rank_of_rejectCycles accepted with ⟨rank, ranked⟩
  have falls := rank_lt_of_leads rank distinct fun name parent found => (ranked name parent found).2
  have low : ∀ definition ∈ definitions, rank definition.name < definitions.length := by
    intro definition member
    exact (ranked _ _ (find?_of_mem _ distinct _ member)).1
  have bounded := bounded_of_reached definitions rank falls low run loaded snapshot
  refine ⟨?_, ?_, ?_⟩
  · apply (bounded _ .refl).acc falls snapshot
      (population (widest definitions) definitions.length + 1)
    omega
  · intro work reached
    have held := bounded work reached
    refine ⟨held.size, ?_⟩
    intro next turn
    exact (turn_follows snapshot definitions work next held.loaded held.known turn).2.2
  · rcases concludes_of_step definitions distinct rank ranked run loaded snapshot
      with ⟨last, reached, concluded⟩
    exact ⟨last, reached, concluded.no_turn snapshot, concluded⟩

/-- A root with two selectors among three definitions decides at most seven states in a step. -/
theorem accepted_iff_acyclic_and_loop_ends_two_children :
    ∃ engine : Engine Float Float32,
      Engine.build (Run.twoChildren "a" "b") .standard = .ok engine ∧
      Acyclic engine.definitions ∧
      ∀ source snapshot work, Reached ⟨engine, .start source⟩ snapshot work →
        work.decided.length + work.waiting.length ≤ 7 := by
  have built : (Engine.build (Run.twoChildren "a" "b") .standard :
      Except Error (Engine Float Float32)).toOption.map
        (fun engine => (engine.definitions.map fun definition => definition.selectors.length)) =
      some [2, 0, 0] := by decide +kernel
  rcases Option.map_eq_some_iff.mp built with ⟨engine, made, selectors⟩
  have sound := Engine.build_sound _ _ _ (eq_ok_of_toOption made)
  have ended := accepted_iff_acyclic_and_loop_ends (φ := Float32) engine.definitions sound.distinct
  have most : widest engine.definitions = 2 := by
    rw [widest, selectors]
    rfl
  have three : engine.definitions.length = 3 := by
    have lengths := congrArg List.length selectors
    rwa [List.length_map] at lengths
  refine ⟨engine, eq_ok_of_toOption made, ended.1.mp sound.acyclic, ?_⟩
  intro source snapshot work reached
  have small := (ended.2 sound.acyclic ⟨engine, .start source⟩ rfl snapshot).2.1 work reached
  rw [most, three] at small
  exact small.1

end Work

end Autoland
