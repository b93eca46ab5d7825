import Autoland.Learning.Trajectory
import Autoland.Table.Batch

/-! How values learn from decisions. -/

namespace Autoland.Learning

open Problem

variable {ν φ : Type} [Scalar ν]

def altitudeWeight : ν := 10000.0

def altitudeLimit : ν := 0.5

def altitudePenalty (state : State ν) : ν :=
  let altitude := Scalar.abs (state.record.value "positionZ")
  if (altitudeLimit : ν) < altitude then altitudeWeight * altitude else 0.0

def Decision.evaluate (decision : Decision ν) (formula : Formula.Expression ν) : ν :=
  formula.evaluateOn decision.state.record.fields decision.action.record.fields

def reward (definition : Definition ν) (decision : Decision ν) : ν :=
  match definition.reward with
  | some formula => decision.evaluate formula
  | none => 0.0

def terminalReward? (definition : Definition ν) (decision : Decision ν) : Option ν :=
  definition.terminalReward.map decision.evaluate

variable [TableValue φ] [Stored ν φ]

def moveToward (alpha target : ν) (value : φ) : φ :=
  let old : ν := Stored.widen value
  Stored.narrow (old + alpha * (target - old))

/-- Moves the entries of decisions, the latest first, toward their returns. The return of the first
is given; that of an earlier decision is its successor's, discounted, plus its successor's
reward. -/
def learnBackward (alpha discount : ν) :
    ν → List (Nat × ν) → Table.Batch φ → Table.Batch φ
  | _, [], batch => batch
  | target, (index, reward) :: earlier, batch =>
    let value := (batch.get? index).getD TableValue.zero
    let batch := (batch.set index (moveToward alpha target value)).2
    learnBackward alpha discount (discount * target + reward) earlier batch

def monteCarlo (definition : Definition ν) (trajectory : Trajectory ν) (store : Table.Store φ) :
    Except Error Nat × Table.Store φ :=
  match trajectory.history with
  | [] => (.ok 0, store)
  | last :: earlier =>
    match terminalReward? definition last with
    | none => (.ok 0, store)
    | some terminal =>
      let history := last :: earlier
      match store.batch (trajectory.decisions.map (·.index)) with
      | .error error => (.error error, store)
      | .ok batch =>
        let steps := history.map fun decision => (decision.index, reward definition decision)
        let batch := learnBackward definition.params.alpha definition.params.discount
          (terminal - altitudePenalty last.state) steps batch
        (.ok history.length, batch.store)

/-- Learns the value of the decision before the last from the last one, and tells whether it did:
there have to be two decisions in different states. -/
def temporalDifference (definition : Definition ν) (trajectory : Trajectory ν)
    (store : Table.Store φ) : Except Error Bool × Table.Store φ :=
  match trajectory.history with
  | current :: previous :: _ =>
    if previous.state.same current.state then (.ok false, store)
    else match store.get current.index with
      | .error error => (.error error, store)
      | .ok value =>
        let target : ν :=
          reward definition current + definition.params.stepDiscount * Stored.widen value
        match store.update previous.index (moveToward definition.params.alpha target) with
        | (.error error, store) => (.error error, store)
        | (.ok _, store) => (.ok true, store)
  | _ => (.ok false, store)

end Autoland.Learning
