import Autoland.Problem.Family
import Autoland.Proofs.Finalization

/-! Definitions whose children never lead back to themselves have a rank: that of a child is lower
than that of its parent. -/

namespace Autoland.Problem

variable {ν : Type} {definitions : List (Definition ν)}

/-- Names of definitions, those of the children of each further on. -/
inductive Resolved (definitions : List (Definition ν)) : List String → Prop where
  | nil : Resolved definitions []
  | cons (name : String) (definition : Definition ν) (done : List String)
      (found : find? definitions name = some definition) (fresh : name ∉ done)
      (children : ∀ child ∈ definition.childNames,
        (find? definitions child).isSome → child ∈ done)
      (rest : Resolved definitions done) : Resolved definitions (name :: done)

/-- What following adds: resolved names, none of them on the path. -/
structure Extends (definitions : List (Definition ν)) (path done result : List String) :
    Prop where
  resolved : Resolved definitions result
  kept : done ⊆ result
  apart : ∀ name ∈ path, name ∉ result

theorem name_of_find? (name : String) (definition : Definition ν)
    (found : find? definitions name = some definition) : definition.name = name := by
  have named := List.find?_some found
  rwa [decide_eq_true_iff] at named

theorem mem_names_of_find? (name : String) (known : (find? definitions name).isSome) :
    name ∈ definitions.map (·.name) := by
  rcases Option.isSome_iff_exists.mp known with ⟨definition, found⟩
  exact List.mem_map.mpr
    ⟨definition, List.mem_of_find?_eq_some found, name_of_find? name definition found⟩

theorem find?_of_mem (definitions : List (Definition ν))
    (distinct : (definitions.map (·.name)).Nodup) (definition : Definition ν)
    (member : definition ∈ definitions) :
    find? definitions definition.name = some definition := by
  cases found : find? definitions definition.name with
  | none => exact absurd (List.find?_eq_none.mp found definition member) (by simp)
  | some other =>
      have named := name_of_find? _ other found
      have inside := List.mem_of_find?_eq_some found
      rw [List.inj_on_of_nodup_map distinct inside member named]

theorem length_le_of_known (names : List String) (distinct : names.Nodup)
    (known : ∀ name ∈ names, (find? definitions name).isSome) :
    names.length ≤ definitions.length := by
  have inside : names ⊆ definitions.map (·.name) := by
    intro name member
    exact mem_names_of_find? name (known name member)
  have bound := (List.subperm_of_subset distinct inside).length_le
  rwa [List.length_map] at bound

theorem followEach_extends (path : List String)
    (step : String → List String → Except Error (List String))
    (each : ∀ name done result, (find? definitions name).isSome → Resolved definitions done →
      (∀ inner ∈ path, inner ∉ done) → step name done = .ok result →
        Extends definitions path done result ∧ name ∈ result)
    (names done result : List String) (resolved : Resolved definitions done)
    (apart : ∀ inner ∈ path, inner ∉ done)
    (followed : followEach definitions step names done = .ok result) :
    Extends definitions path done result ∧
      ∀ name ∈ names, (find? definitions name).isSome → name ∈ result := by
  induction names generalizing done with
  | nil =>
      cases followed
      exact ⟨⟨resolved, fun _ member => member, apart⟩, fun _ member => nomatch member⟩
  | cons name names ih =>
      rw [followEach] at followed
      split at followed
      · rename_i known
        rcases bind_eq_ok.mp followed with ⟨between, first, second⟩
        rcases each name done between known resolved apart first with ⟨head, present⟩
        rcases ih between head.resolved head.apart second with ⟨tail, rest⟩
        refine ⟨⟨tail.resolved, fun _ member => tail.kept (head.kept member), tail.apart⟩, ?_⟩
        intro other member loaded
        rcases List.mem_cons.mp member with rfl | member
        · exact tail.kept present
        · exact rest other member loaded
      · rename_i unknown
        rcases ih done resolved apart followed with ⟨tail, rest⟩
        refine ⟨tail, ?_⟩
        intro other member loaded
        rcases List.mem_cons.mp member with rfl | member
        · exact absurd loaded unknown
        · exact rest other member loaded

theorem follow_extends (fuel : Nat) (path : List String) (name : String)
    (done result : List String) (enough : definitions.length < fuel + path.length)
    (distinct : path.Nodup) (loaded : ∀ inner ∈ path, (find? definitions inner).isSome)
    (known : (find? definitions name).isSome) (resolved : Resolved definitions done)
    (apart : ∀ inner ∈ path, inner ∉ done)
    (followed : follow definitions fuel path name done = .ok result) :
    Extends definitions path done result ∧ name ∈ result := by
  induction fuel generalizing path name done result with
  | zero =>
      -- a path as long as that would hold more names than there are definitions
      have bound := length_le_of_known path distinct loaded
      omega
  | succ fuel ih =>
      rw [follow] at followed
      split at followed
      · rename_i finished
        cases followed
        exact ⟨⟨resolved, fun _ member => member, apart⟩, finished⟩
      · split at followed
        · cases followed
        · rename_i fresh free
          rcases Option.isSome_iff_exists.mp known with ⟨definition, found⟩
          rw [found] at followed
          rcases bind_eq_ok.mp followed with ⟨below, inner, added⟩
          cases added
          have longer : (path ++ [name]).Nodup := by
            rw [List.nodup_append]
            refine ⟨distinct, List.nodup_singleton name, ?_⟩
            intro other member last single same
            rw [same, List.mem_singleton.mp single] at member
            exact free member
          have ahead : ∀ other ∈ path ++ [name], (find? definitions other).isSome := by
            intro other member
            rcases List.mem_append.mp member with member | last
            · exact loaded other member
            · rwa [List.mem_singleton.mp last]
          have untouched : ∀ other ∈ path ++ [name], other ∉ done := by
            intro other member
            rcases List.mem_append.mp member with member | last
            · exact apart other member
            · rwa [List.mem_singleton.mp last]
          have deeper : definitions.length < fuel + (path ++ [name]).length := by
            rw [List.length_append, List.length_singleton]
            omega
          obtain ⟨extended, children⟩ := followEach_extends (path ++ [name]) _
            (fun other before after present whole off taken =>
              ih _ other before after deeper longer ahead present whole off taken)
            definition.childNames done below resolved untouched inner
          -- names on the path are not added below them
          have absent := extended.apart name (List.mem_append_right _ List.mem_cons_self)
          refine ⟨⟨?_, ?_, ?_⟩, List.mem_cons_self⟩
          · exact .cons name definition below found absent children extended.resolved
          · intro other member
            exact List.mem_cons_of_mem _ (extended.kept member)
          · intro other member
            rw [List.mem_cons, not_or]
            refine ⟨?_, extended.apart other (List.mem_append_left _ member)⟩
            intro same
            exact free (same ▸ member)

def rankIn : List String → String → Nat
  | [], _ => 0
  | head :: order, name => if head = name then order.length else rankIn order name

theorem rankIn_lt (order : List String) (name : String) (member : name ∈ order) :
    rankIn order name < order.length := by
  induction order with
  | nil => cases member
  | cons head order ih =>
      rw [rankIn, List.length_cons]
      split
      · omega
      · rename_i differs
        have inside := (List.mem_cons.mp member).resolve_left (Ne.symm differs)
        exact Nat.lt_succ_of_lt (ih inside)

theorem mem_of_resolved (order : List String) (resolved : Resolved definitions order)
    (name : String) (member : name ∈ order) (definition : Definition ν)
    (found : find? definitions name = some definition) (child : String)
    (offered : child ∈ definition.childNames) (known : (find? definitions child).isSome) :
    child ∈ order := by
  induction resolved with
  | nil => cases member
  | cons head first done leads _ children _ ih =>
      rcases List.mem_cons.mp member with rfl | member
      · cases found.symm.trans leads
        exact List.mem_cons_of_mem _ (children child offered known)
      · exact List.mem_cons_of_mem _ (ih member)

theorem rankIn_child_lt (order : List String) (resolved : Resolved definitions order)
    (name : String) (member : name ∈ order) (definition : Definition ν)
    (found : find? definitions name = some definition) (child : String)
    (offered : child ∈ definition.childNames) (known : (find? definitions child).isSome) :
    rankIn order child < rankIn order name := by
  induction resolved with
  | nil => cases member
  | cons head first done leads fresh children rest ih =>
      have later : ∀ other ∈ done, rankIn (head :: done) other = rankIn done other := by
        intro other inside
        rw [rankIn, if_neg]
        intro same
        exact fresh (same ▸ inside)
      rcases List.mem_cons.mp member with rfl | member
      · cases found.symm.trans leads
        have inside := children child offered known
        rw [later child inside, rankIn, if_pos rfl]
        exact rankIn_lt done child inside
      · rw [later name member,
          later child (mem_of_resolved done rest name member definition found child offered known)]
        exact ih member

theorem resolved_length_le (order : List String) (resolved : Resolved definitions order) :
    order.length ≤ definitions.length := by
  have whole : order.Nodup ∧ ∀ name ∈ order, (find? definitions name).isSome := by
    induction resolved with
    | nil => exact ⟨List.nodup_nil, fun _ member => nomatch member⟩
    | cons name definition done found fresh _ _ ih =>
        refine ⟨List.nodup_cons.mpr ⟨fresh, ih.1⟩, ?_⟩
        intro other member
        rcases List.mem_cons.mp member with rfl | member
        · rw [found, Option.isSome_some]
        · exact ih.2 other member
  exact length_le_of_known order whole.1 whole.2

/-- Definitions that pass the check have ranks below their number that fall from parent to
child. -/
theorem exists_rank_of_rejectCycles (accepted : rejectCycles definitions = .ok ()) :
    ∃ rank : String → Nat, ∀ name definition, find? definitions name = some definition →
      rank name < definitions.length ∧ ∀ child ∈ definition.childNames,
        (find? definitions child).isSome → rank child < rank name := by
  unfold rejectCycles at accepted
  cases followed : followEach definitions (follow definitions (definitions.length + 1) [])
      (definitions.map (·.name)) [] with
  | error error =>
      rw [followed] at accepted
      cases accepted
  | ok order =>
      obtain ⟨extended, every⟩ := followEach_extends [] _
        (fun name done result known resolved apart taken =>
          follow_extends _ [] name done result (Nat.lt_succ_self _) List.nodup_nil
            (fun _ member => nomatch member) known resolved apart taken)
        _ _ _ .nil (fun _ member => nomatch member) followed
      have resolved := extended.resolved
      refine ⟨rankIn order, ?_⟩
      intro name definition found
      have known : (find? definitions name).isSome := by
        rw [found, Option.isSome_some]
      have member := every name (mem_names_of_find? name known) known
      refine ⟨?_, ?_⟩
      · exact Nat.lt_of_lt_of_le (rankIn_lt order name member) (resolved_length_le order resolved)
      · intro child offered loaded
        exact rankIn_child_lt order resolved name member definition found child offered loaded

end Autoland.Problem
