import Autoland.Axis
import Mathlib.Data.List.Basic

/-! Names with the letter of an axis, and the exchange of the two letters. -/

namespace Autoland.Axis

theorem tag_some_inj (first second : String) (one two : Axis)
    (same : tag first (some one) = tag second (some two)) : first = second ∧ one = two := by
  have letters := congrArg String.toList same
  rw [tag, tag, String.toList_push, String.toList_push] at letters
  rcases List.append_inj' letters rfl with ⟨names, last⟩
  refine ⟨String.toList_inj.mp names, ?_⟩
  cases one <;> cases two <;> first | rfl | cases last

theorem tag_ne_self (name : String) (axis : Axis) : tag name (some axis) ≠ name := by
  intro same
  have lengths := congrArg String.length same
  rw [tag, String.length_push] at lengths
  omega

theorem tag_axis_inj (name : String) (one two : Option Axis) (same : tag name one = tag name two) :
    one = two := by
  cases one with
  | none =>
      cases two with
      | none => rfl
      | some axis => exact absurd same.symm (tag_ne_self name axis)
  | some axis =>
      cases two with
      | none => exact absurd same (tag_ne_self name axis)
      | some other => rw [(tag_some_inj name name axis other same).2]

def Untagged (name : String) : Prop :=
  name.toList.getLast? ≠ some 'X' ∧ name.toList.getLast? ≠ some 'Y'

instance : DecidablePred Untagged := fun _ => inferInstanceAs (Decidable (_ ∧ _))

theorem untagged_ne_tag {name : String} (untagged : Untagged name) (stem : String) (axis : Axis) :
    name ≠ tag stem (some axis) := by
  intro same
  have last : name.toList.getLast? = some axis.letter := by
    rw [same, tag, String.toList_push, List.getLast?_append_of_ne_nil _ (List.cons_ne_nil _ _)]
    rfl
  cases axis with
  | x => exact untagged.1 last
  | y => exact untagged.2 last

section Stem

variable (stem : String) (axis : Axis) (nonempty : stem ≠ "")

include nonempty

theorem ofName?_tag : ofName? (tag stem (some axis)) = some axis := by
  have letters : stem.toList.reverse ≠ [] := by
    rw [ne_eq, List.reverse_eq_nil_iff, String.toList_eq_nil_iff]
    exact nonempty
  rcases List.exists_cons_of_ne_nil letters with ⟨last, front, spelled⟩
  rw [ofName?, tag, String.toList_push, List.reverse_append, spelled]
  cases axis <;> rfl

theorem untag?_tag : untag? (tag stem (some axis)) = some stem := by
  rw [untag?, ofName?_tag stem axis nonempty, Option.map_some, tag, String.toList_push,
    List.dropLast_concat, String.ofList_toList]

end Stem

theorem exists_tag_of_ofName? (name : String) (axis : Axis) (ends : ofName? name = some axis) :
    ∃ stem, stem ≠ "" ∧ name = tag stem (some axis) := by
  have spelled : ∃ last front, name.toList.reverse = axis.letter :: last :: front := by
    unfold ofName? at ends
    split at ends
    · rename_i last front letters
      cases ends
      exact ⟨last, front, letters⟩
    · rename_i last front letters
      cases ends
      exact ⟨last, front, letters⟩
    · cases ends
  rcases spelled with ⟨last, front, letters⟩
  have whole : name.toList = (last :: front).reverse ++ [axis.letter] := by
    rw [← List.reverse_cons, ← letters, List.reverse_reverse]
  refine ⟨String.ofList (last :: front).reverse, ?_, ?_⟩
  · intro empty
    have none := congrArg String.toList empty
    simp at none
  · apply String.toList_inj.mp
    rw [tag, String.toList_push, String.toList_ofList, whole]

def other : Axis → Axis
  | x => y
  | y => x

theorem other_other (axis : Axis) : axis.other.other = axis := by
  cases axis <;> rfl

/-- A name of two or more characters with the letters of the two axes exchanged at its end. -/
def mirror (name : String) : String :=
  match ofName? name with
  | some axis => tag (String.ofList name.toList.dropLast) (some axis.other)
  | none => name

theorem mirror_tag (stem : String) (axis : Axis) (nonempty : stem ≠ "") :
    mirror (tag stem (some axis)) = tag stem (some axis.other) := by
  rw [mirror, ofName?_tag stem axis nonempty]
  simp only [tag, String.toList_push, List.dropLast_concat, String.ofList_toList]

theorem mirror_of_ofName?_eq_none (name : String) (free : ofName? name = none) :
    mirror name = name := by
  rw [mirror, free]

theorem mirror_untagged {name : String} (untagged : Untagged name) : mirror name = name := by
  apply mirror_of_ofName?_eq_none
  cases ends : ofName? name with
  | none => rfl
  | some axis =>
      rcases exists_tag_of_ofName? name axis ends with ⟨stem, _, same⟩
      exact absurd same (untagged_ne_tag untagged stem axis)

theorem mirror_mirror (name : String) : mirror (mirror name) = name := by
  cases ends : ofName? name with
  | none => rw [mirror_of_ofName?_eq_none name ends, mirror_of_ofName?_eq_none name ends]
  | some axis =>
      rcases exists_tag_of_ofName? name axis ends with ⟨stem, nonempty, rfl⟩
      rw [mirror_tag stem axis nonempty, mirror_tag stem _ nonempty, other_other]

theorem mirror_inj (first second : String) : mirror first = mirror second ↔ first = second :=
  (Function.LeftInverse.injective mirror_mirror).eq_iff

def mirrorAll {α : Type} (items : List (String × α)) : List (String × α) :=
  items.map fun item => (mirror item.1, item.2)

end Autoland.Axis
