import Autoland.Error
import Autoland.Number.Word

/-!
Table indices of buckets. Every field is a digit whose base is its number of buckets. State fields
come before action fields, and the last action field is the least significant digit.
-/

namespace Autoland.Grid

inductive Backing where
  | dense
  | sparse
  deriving DecidableEq, Repr

def Backing.name : Backing → String
  | dense => "dense"
  | sparse => "sparse"

def Backing.ofName? : String → Option Backing
  | "dense" => some dense
  | "sparse" => some sparse
  | _ => none

structure FieldRange where
  name : String
  min : Int
  max : Int
  deriving DecidableEq, Repr

namespace FieldRange

/-- How many buckets there are; more than the largest word counts as the largest word. -/
def digits (range : FieldRange) : Nat :=
  if range.max - range.min + 1 < Word.limit then (range.max - range.min + 1).toNat
  else Word.limit - 1

def clamp (range : FieldRange) (bucket : Int) : Int :=
  if bucket < range.min then range.min else if range.max < bucket then range.max else bucket

def digit (range : FieldRange) (bucket : Int) : Nat := (range.clamp bucket - range.min).toNat

def buckets (range : FieldRange) : List Int :=
  (List.range (range.max - range.min + 1).toNat).map fun (offset : Nat) =>
    range.min + (offset : Int)

end FieldRange

structure Layout where
  state : List FieldRange
  action : List FieldRange
  weights : List Nat
  total : Nat
  backing : Backing
  deriving DecidableEq, Repr

namespace Layout

/-- The weight of each digit and the number of all indices, which must be a word. -/
def weigh : List FieldRange → Except LayoutFault (List Nat × Nat)
  | [] => .ok ([], 1)
  | range :: ranges => do
    let (weights, total) ← weigh ranges
    if range.max < range.min then .error (.emptyRange range.name range.min range.max)
    else if Word.limit ≤ total * range.digits then .error (.overflow range.name)
    else .ok (total :: weights, total * range.digits)

def build (state action : List FieldRange) (denseCap : Nat) : Except LayoutFault Layout := do
  let (weights, total) ← weigh (state ++ action)
  return ⟨state, action, weights, total, if total ≤ denseCap then .dense else .sparse⟩

def ranges (layout : Layout) : List FieldRange := layout.state ++ layout.action

def sumDigits : List FieldRange → List Nat → List Int → Nat
  | range :: ranges, weight :: weights, bucket :: buckets =>
    range.digit bucket * weight + sumDigits ranges weights buckets
  | _, _, _ => 0

/-- The index of buckets given in the order of the fields. Buckets outside their range are moved to
its nearer end. -/
def index (layout : Layout) (state action : List Int) : Nat :=
  sumDigits layout.ranges layout.weights (state ++ action)

def takeDigits : List FieldRange → List Nat → Nat → List Int
  | range :: ranges, weight :: weights, rest =>
    (range.min + (rest / weight : Nat)) :: takeDigits ranges weights (rest % weight)
  | _, _, _ => []

def decode? (layout : Layout) (index : Nat) : Option (List Int × List Int) :=
  if index < layout.total then
    some ((takeDigits layout.ranges layout.weights index).splitAt layout.state.length)
  else none

end Layout

end Autoland.Grid
