import Autoland.Proofs.DenseRuns

/-! Building with the settings under which every table is dense. What is refused is refused with the
same error, and what is built is the dense form of what other settings build. -/

namespace Autoland

open Problem Table

variable {ν φ : Type}

theorem Grid.Layout.total_lt (ranges : List Grid.FieldRange) (weights : List Nat) (total : Nat)
    (weighed : weigh ranges = .ok (weights, total)) : total < Word.limit := by
  cases ranges with
  | nil =>
      cases weighed
      decide
  | cons range ranges =>
      rw [weigh] at weighed
      obtain ⟨⟨_, rest⟩, _, weighed⟩ := bind_eq_ok.mp weighed
      dsimp only at weighed
      split at weighed
      · cases weighed
      · split at weighed
        · cases weighed
        · rename_i small
          cases weighed
          exact Nat.lt_of_not_le small

theorem Grid.Layout.build_dense (state action : List Grid.FieldRange) (cap : Nat) :
    build state action (Word.limit - 1) = (build state action cap).map dense := by
  unfold build
  cases weighed : weigh (state ++ action) with
  | error fault => rfl
  | ok both =>
      have small := total_lt _ both.1 both.2 weighed
      have fits : both.2 ≤ Word.limit - 1 := by omega
      simp only [bind, Except.bind, pure, Except.pure, Except.map, if_pos fits]
      rfl

namespace Problem

def Outline.dense (outline : Outline ν) : Outline ν :=
  { outline with layout := outline.layout.dense }

section Finalized

variable [Scalar ν] [Elementary ν]

namespace Document

theorem outline_dense (document : Document ν) (fields : Declarations ν) (cap : Nat) :
    document.outline fields (Word.limit - 1) =
      (document.outline fields cap).map Outline.dense := by
  unfold outline
  cases document.success.mapM checkSuccess with
  | error fault => rfl
  | ok success =>
      simp only [bind, Except.bind]
      rw [Grid.Layout.build_dense _ _ cap]
      cases Grid.Layout.build _ _ cap <;> rfl

theorem assemble_dense (document : Document ν) (compiler : Formula.Compiler ν) (cap : Nat) :
    document.assemble compiler (Word.limit - 1) =
      ((document.assemble compiler cap).1.map Definition.dense,
        (document.assemble compiler cap).2) := by
  unfold assemble
  cases document.fields with
  | error fault => rfl
  | ok fields =>
      dsimp only
      rcases compileSelectors fields document.selectors compiler with ⟨fault | selectors, later⟩
      · rfl
      · dsimp only
        rw [document.outline_dense fields cap]
        cases document.outline fields cap <;> rfl

theorem finalize_dense (document : Document ν) (compiler : Formula.Compiler ν) (cap : Nat) :
    document.finalize compiler (Word.limit - 1) =
      ((document.finalize compiler cap).1.map Definition.dense,
        (document.finalize compiler cap).2) := by
  unfold finalize
  split
  · rfl
  · rw [document.assemble_dense compiler cap]
    rcases document.assemble compiler cap with ⟨_ | _, _⟩ <;> rfl

end Document

theorem finalizeAll_dense (documents : List (Document ν)) (compiler : Formula.Compiler ν)
    (cap : Nat) :
    finalizeAll (Word.limit - 1) documents compiler =
      ((finalizeAll cap documents compiler).1.map (List.map Definition.dense),
        (finalizeAll cap documents compiler).2) := by
  induction documents generalizing compiler with
  | nil => rfl
  | cons document documents ih =>
      rw [finalizeAll, finalizeAll, document.finalize_dense compiler cap]
      rcases document.finalize compiler cap with ⟨result, between⟩
      cases result with
      | error error => rfl
      | ok definition =>
          simp only [Except.map, ih between]
          rcases finalizeAll cap documents between with ⟨result, after⟩
          cases result <;> rfl

end Finalized

theorem byPriority_dense (definitions : List (Definition ν)) :
    byPriority (definitions.map Definition.dense) =
      (byPriority definitions).map Definition.dense := by
  have inserted : ∀ (definition : Definition ν) (others : List (Definition ν)),
      insertByPriority definition.dense (others.map Definition.dense) =
        (insertByPriority definition others).map Definition.dense := by
    intro definition others
    induction others with
    | nil => rfl
    | cons other others ih =>
        rw [List.map_cons, insertByPriority, insertByPriority, ih,
          apply_ite (List.map Definition.dense)]
        rfl
  induction definitions with
  | nil => rfl
  | cons definition definitions ih =>
      rw [List.map_cons, byPriority, List.foldr_cons, ← byPriority, ih, inserted]
      rfl

theorem requireDistinct_dense (seen : List String) (definitions : List (Definition ν)) :
    requireDistinct seen (definitions.map Definition.dense) =
      requireDistinct seen definitions := by
  induction definitions generalizing seen with
  | nil => rfl
  | cons definition definitions ih =>
      rw [List.map_cons, requireDistinct, requireDistinct, ih]
      rfl

theorem followEach_dense (definitions : List (Definition ν))
    (step : String → List String → Except Error (List String)) (names done : List String) :
    followEach (definitions.map Definition.dense) step names done =
      followEach definitions step names done := by
  induction names generalizing done with
  | nil => rfl
  | cons name names ih =>
      have each := funext ih
      simp only [followEach, find?_dense, Option.isSome_map, each]

theorem follow_dense (definitions : List (Definition ν)) (fuel : Nat) (path : List String)
    (name : String) (done : List String) :
    follow (definitions.map Definition.dense) fuel path name done =
      follow definitions fuel path name done := by
  induction fuel generalizing path name done with
  | zero => rfl
  | succ fuel ih =>
      have each : follow (definitions.map Definition.dense) fuel = follow definitions fuel := by
        funext path name done
        exact ih path name done
      rw [follow, follow, find?_dense, each]
      cases find? definitions name with
      | none => rfl
      | some definition =>
          simp only [Option.map_some, followEach_dense, Definition.dense_childNames]

theorem rejectCycles_dense (definitions : List (Definition ν)) :
    rejectCycles (definitions.map Definition.dense) = rejectCycles definitions := by
  have each : follow (definitions.map Definition.dense) (definitions.length + 1) [] =
      follow definitions (definitions.length + 1) [] := by
    funext name done
    exact follow_dense definitions _ [] name done
  have names : (definitions.map Definition.dense).map (·.name) = definitions.map (·.name) := by
    rw [List.map_map]
    rfl
  rw [rejectCycles, rejectCycles, List.length_map, followEach_dense, each, names]

end Problem

namespace Engine

variable [TableValue φ]

theorem dimensionOf_dense (config : Config) (definitions : List (Definition ν)) :
    dimensionOf config.dense (definitions.map Definition.dense) =
      dimensionOf config definitions := by
  rw [dimensionOf, dimensionOf, List.filterMap_map]
  rfl

theorem ofDefinitions_dense [Scalar ν] (config : Config) (compiler : Formula.Compiler ν)
    (definitions : List (Definition ν)) :
    (ofDefinitions config.dense compiler (definitions.map Definition.dense) :
        Except Error (Engine ν φ)) =
      (ofDefinitions config compiler definitions).map dense := by
  unfold ofDefinitions
  rw [byPriority_dense]
  cases byPriority definitions with
  | nil => rfl
  | cons root others =>
      have stores : ((root :: others).map Definition.dense).map (fun definition =>
            (.ofLayout definition.name definition.layout config.dense.shards : Store φ)) =
          ((root :: others).map fun definition =>
            .ofLayout definition.name definition.layout config.shards).map Store.dense := by
        rw [List.map_map, List.map_map]
        apply List.map_congr_left
        intro definition _
        exact Store.ofLayout_dense definition.name definition.layout config.shards _
      simp only [List.map_cons] at stores ⊢
      rw [← List.map_cons, requireDistinct_dense, rejectCycles_dense, dimensionOf_dense, stores]
      cases requireDistinct [] (root :: others) with
      | error error => rfl
      | ok _ => cases rejectCycles (root :: others) <;> rfl

theorem build_dense [Scalar ν] [Elementary ν] (documents : List (Document ν)) (config : Config) :
    (build documents config.dense : Except Error (Engine ν φ)) =
      (build documents config).map dense := by
  unfold build
  rw [Config.dense_denseCap, finalizeAll_dense documents .standard config.denseCap]
  rcases finalizeAll config.denseCap documents .standard with ⟨result, compiler⟩
  cases result with
  | error error => rfl
  | ok definitions => exact ofDefinitions_dense config compiler definitions

end Engine

end Autoland
