import Autoland.Proofs.ChildGraph
import Mathlib.Logic.Relation

/-! Definitions are refused exactly if their children lead in a circle. -/

namespace Autoland.Problem

variable {ν : Type} {definitions : List (Definition ν)}

/-- Whether one loaded definition offers another one as a child. -/
def Leads (definitions : List (Definition ν)) (parent child : Definition ν) : Prop :=
  parent ∈ definitions ∧ child ∈ definitions ∧ child.name ∈ parent.childNames

def Acyclic (definitions : List (Definition ν)) : Prop :=
  ∀ definition, ¬ Relation.TransGen (Leads definitions) definition definition

theorem leads_of_find? (name other : String) (parent child : Definition ν)
    (above : find? definitions name = some parent) (below : find? definitions other = some child)
    (offered : other ∈ parent.childNames) : Leads definitions parent child := by
  refine ⟨List.mem_of_find?_eq_some above, List.mem_of_find?_eq_some below, ?_⟩
  rwa [name_of_find? other child below]

theorem rank_lt_of_leads (rank : String → Nat) (distinct : (definitions.map (·.name)).Nodup)
    (falls : ∀ name definition, find? definitions name = some definition →
      ∀ child ∈ definition.childNames, (find? definitions child).isSome → rank child < rank name)
    (parent child : Definition ν) (leads : Leads definitions parent child) :
    rank child.name < rank parent.name := by
  apply falls parent.name parent (find?_of_mem _ distinct parent leads.1) child.name leads.2.2
  rw [find?_of_mem _ distinct child leads.2.1, Option.isSome_some]

theorem rank_lt_of_transGen (rank : String → Nat)
    (falls : ∀ parent child, Leads definitions parent child → rank child.name < rank parent.name)
    (first last : Definition ν) (path : Relation.TransGen (Leads definitions) first last) :
    rank last.name < rank first.name := by
  induction path with
  | single leads => exact falls first _ leads
  | tail _ leads ih =>
      have lower := falls _ _ leads
      omega

theorem followEach_ok (step : String → List String → Except Error (List String))
    (names : List String)
    (each : ∀ name ∈ names, ∀ definition, find? definitions name = some definition →
      ∀ done, ∃ result, step name done = .ok result) (done : List String) :
    ∃ result, followEach definitions step names done = .ok result := by
  induction names generalizing done with
  | nil => exact ⟨done, rfl⟩
  | cons name names ih =>
      rcases List.forall_mem_cons.mp each with ⟨head, rest⟩
      rw [followEach]
      split
      · rename_i known
        rcases Option.isSome_iff_exists.mp known with ⟨definition, found⟩
        rcases head definition found done with ⟨between, stepped⟩
        rcases ih rest between with ⟨result, followed⟩
        exact ⟨result, bind_eq_ok.mpr ⟨between, stepped, followed⟩⟩
      · exact ih rest done

/-- What lies on the path leads to the definition that is followed, so that it is not met there
again. -/
theorem follow_ok (acyclic : Acyclic definitions) (fuel : Nat) (path : List String) (name : String)
    (definition : Definition ν) (found : find? definitions name = some definition)
    (behind : ∀ other ∈ path, ∃ earlier, find? definitions other = some earlier ∧
      Relation.TransGen (Leads definitions) earlier definition) (done : List String) :
    ∃ result, follow definitions fuel path name done = .ok result := by
  induction fuel generalizing path name definition done with
  | zero => exact ⟨done, rfl⟩
  | succ fuel ih =>
      rw [follow]
      split
      · exact ⟨done, rfl⟩
      · split
        · rename_i again
          rcases behind name again with ⟨earlier, same, circle⟩
          cases found.symm.trans same
          exact absurd circle (acyclic definition)
        · rw [found]
          have each : ∀ child ∈ definition.childNames, ∀ held,
              find? definitions child = some held → ∀ done, ∃ result,
                follow definitions fuel (path ++ [name]) child done = .ok result := by
            intro child offered held loaded
            have edge := leads_of_find? name child definition held found loaded offered
            apply ih (path ++ [name]) child held loaded
            intro other member
            rcases List.mem_append.mp member with member | last
            · rcases behind other member with ⟨earlier, known, leads⟩
              exact ⟨earlier, known, leads.tail edge⟩
            · rw [List.mem_singleton.mp last]
              exact ⟨definition, found, .single edge⟩
          rcases followEach_ok _ _ each done with ⟨below, followed⟩
          exact ⟨name :: below, bind_eq_ok.mpr ⟨below, followed, rfl⟩⟩

theorem acyclic_of_rejectCycles (distinct : (definitions.map (·.name)).Nodup)
    (accepted : rejectCycles definitions = .ok ()) : Acyclic definitions := by
  rcases exists_rank_of_rejectCycles accepted with ⟨rank, ranked⟩
  intro definition circle
  have falls := rank_lt_of_leads rank distinct fun name parent found => (ranked name parent found).2
  have lower := rank_lt_of_transGen rank falls definition definition circle
  omega

theorem rejectCycles_of_acyclic (acyclic : Acyclic definitions) :
    rejectCycles definitions = .ok () := by
  have each : ∀ name ∈ definitions.map (·.name), ∀ definition,
      find? definitions name = some definition → ∀ done, ∃ result,
        follow definitions (definitions.length + 1) [] name done = .ok result := by
    intro name _ definition found
    exact follow_ok acyclic _ [] name definition found fun _ member => nomatch member
  rcases followEach_ok _ _ each [] with ⟨order, followed⟩
  rw [rejectCycles, followed]
  rfl

theorem rejectCycles_iff_acyclic (distinct : (definitions.map (·.name)).Nodup) :
    rejectCycles definitions = .ok () ↔ Acyclic definitions :=
  ⟨acyclic_of_rejectCycles distinct, rejectCycles_of_acyclic⟩

end Autoland.Problem
