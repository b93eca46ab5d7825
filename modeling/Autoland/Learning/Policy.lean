import Autoland.Learning.Odometer
import Autoland.Learning.Trajectory
import Autoland.Number.Random
import Autoland.Table.Store

/-! Which actions a definition may take, and which one it takes. -/

namespace Autoland.Learning

open Problem

section Greatest

variable {φ : Type}

structure Best (φ : Type) where
  value : φ
  positions : List Nat

def Best.add [TableValue φ] (best : Best φ) (entry : φ × Nat) : Best φ :=
  let (value, position) := entry
  if best.value < value then ⟨value, [position]⟩
  else if value == best.value then { best with positions := position :: best.positions }
  else best

/-- The positions of the greatest value; all positions if no value is a number. -/
def bestPositions [RankedValue φ] (values : List φ) : List Nat :=
  let best := values.zipIdx.foldl Best.add ⟨RankedValue.lowest, []⟩
  if best.positions.isEmpty then List.range values.length else best.positions.reverse

def swapRemove? {α : Type} (items : List α) (position : Nat) : Option (α × List α) :=
  match items[position]?, items.getLast? with
  | some item, some last => some (item, (items.set position last).dropLast)
  | _, _ => none

end Greatest

variable {ν φ : Type} [Scalar ν]

/-- The rule that decides a selector with rules, of which `last` is the last one: the first with an
active child whose condition holds. If there is none it is the last rule, or the first with an
active child if the last rule's is not active. -/
def decidingRule (rules : List (Rule ν)) (last : Rule ν) (state : State ν)
    (isActive : String → Bool) : Rule ν :=
  let holds := fun (rule : Rule ν) =>
    isActive rule.child && Scalar.isTruthy (rule.condition.evaluate state.record.fields)
  match rules.find? holds with
  | some rule => rule
  | none =>
    if isActive last.child then last
    else (rules.find? fun rule => isActive rule.child).getD last

/-- The children a selector may take: the one its rules decide for, or all its options if it has no
rules or they decide for a child that no selector offers. -/
def legalChildren (definition : Definition ν) (selector : Selector ν) (state : State ν)
    (isActive : String → Bool) : List Int :=
  match selector.rules.getLast? with
  | none => selector.ids
  | some last =>
    match definition.childId? (decidingRule selector.rules last state isActive).child with
    | some id => [id]
    | none => selector.ids

def columns (definition : Definition ν) (state : State ν) (isActive : String → Bool) :
    List (String × List Int) :=
  let declared := definition.layout.action.map fun range =>
    match definition.selector? range.name with
    | some selector => (range.name, legalChildren definition selector state isActive)
    | none => (range.name, range.buckets)
  let choices := (definition.selectors.filter fun selector => !selector.indexed).map fun selector =>
    (selector.field, legalChildren definition selector state isActive)
  declared ++ choices

def candidates (definition : Definition ν) (state : State ν) (isActive : String → Bool) :
    List (Action ν) :=
  (combinations (columns definition state isActive)).map fun buckets =>
    Action.ofBuckets definition buckets state.axis

def learnedValues [TableValue φ] (store : Table.Store φ) (definition : Definition ν)
    (state : State ν) (actions : List (Action ν)) : Except Error (List φ) :=
  actions.mapM fun action => do store.get (← definition.indexOf state action)

def pool [RankedValue φ] (explore : Bool) (store : Table.Store φ) (definition : Definition ν)
    (state : State ν) (actions : List (Action ν)) : Except Error (List Nat) :=
  if explore then .ok (List.range actions.length)
  else (learnedValues store definition state actions).map bestPositions

/-- Picks a candidate: with the probability `exploration` any of them, else one of those with the
greatest value. -/
def select [RankedValue φ] (exploration : ν) (store : Table.Store φ) (definition : Definition ν)
    (state : State ν) (actions : List (Action ν)) (source : Source) :
    Except Error (Action ν) × Source :=
  match actions with
  | [] => (.error (.definition (.noCandidates definition.name)), source)
  | first :: _ =>
    let (drawn, source) : ν × Source := source.fraction
    match pool (drawn < exploration) store definition state actions with
    | .error error => (.error error, source)
    | .ok pool =>
      let (position?, source) := source.choose pool
      let taken := swapRemove? actions (position?.getD 0)
      (.ok ((taken.map (·.1)).getD first), source)

end Autoland.Learning
