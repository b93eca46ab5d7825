import Mathlib.Data.List.Forall2

/-! Operations that may fail: when one after the other succeeds, and when each in a list does. -/

namespace Autoland

theorem bind_eq_ok {ε α β : Type} {x : Except ε α} {f : α → Except ε β} {b : β} :
    (x >>= f) = .ok b ↔ ∃ a, x = .ok a ∧ f a = .ok b := by
  cases x with
  | error error => simp [bind, Except.bind]
  | ok a => simp [bind, Except.bind]

theorem bind_eq_error {ε α β : Type} {x : Except ε α} {f : α → Except ε β} {error : ε} :
    (x >>= f) = .error error ↔ x = .error error ∨ ∃ a, x = .ok a ∧ f a = .error error := by
  cases x with
  | error error => simp [bind, Except.bind]
  | ok a => simp [bind, Except.bind]

theorem map_eq_ok {ε α β : Type} {x : Except ε α} {f : α → β} {b : β} :
    x.map f = .ok b ↔ ∃ a, x = .ok a ∧ f a = b := by
  cases x with
  | error error => simp [Except.map]
  | ok a => simp [Except.map]

theorem mapError_eq_ok {ε δ α : Type} {x : Except ε α} {f : ε → δ} {a : α} :
    x.mapError f = .ok a ↔ x = .ok a := by
  cases x with
  | error error => simp [Except.mapError]
  | ok b => simp [Except.mapError]

theorem alike_of_map_eq {ε α β : Type} {f : α → β} {first second : Except ε α}
    (same : first.map f = second.map f) :
    (∃ error, first = .error error ∧ second = .error error) ∨
      ∃ one two, first = .ok one ∧ second = .ok two ∧ f one = f two := by
  cases first with
  | error error =>
      cases second with
      | error other =>
          cases same
          exact .inl ⟨error, rfl, rfl⟩
      | ok two => cases same
  | ok one =>
      cases second with
      | error other => cases same
      | ok two => exact .inr ⟨one, two, rfl, rfl, Except.ok.inj same⟩

theorem eq_ok_of_toOption {ε α : Type} {result : Except ε α} {value : α}
    (found : result.toOption = some value) : result = .ok value := by
  cases result with
  | error error => cases found
  | ok held =>
      cases found
      rfl

theorem exists_ok_of_any {ε α β : Type} {outcome : Except ε α × β} {check : α → Bool}
    (passed : outcome.1.toOption.any check = true) :
    ∃ value after, outcome = (.ok value, after) ∧ check value = true := by
  obtain ⟨value, made, checked⟩ := (Option.any_eq_true _ _).mp passed
  exact ⟨value, outcome.2, Prod.ext (eq_ok_of_toOption made) rfl, checked⟩

theorem exists_of_mem_right {α β : Type} {r : α → β → Prop} {left : List α} {right : List β}
    (related : List.Forall₂ r left right) (b : β) (member : b ∈ right) : ∃ a ∈ left, r a b := by
  induction related with
  | nil => cases member
  | cons head _ ih =>
      rcases List.mem_cons.mp member with rfl | member
      · exact ⟨_, List.mem_cons_self, head⟩
      · rcases ih member with ⟨a, inside, relation⟩
        exact ⟨a, List.mem_cons_of_mem _ inside, relation⟩

theorem mapM_eq_ok_iff {ε α β : Type} (f : α → Except ε β) (items : List α) (values : List β) :
    items.mapM f = .ok values ↔
      List.Forall₂ (fun item value => f item = .ok value) items values := by
  induction items generalizing values with
  | nil =>
      rw [List.mapM_nil, List.forall₂_nil_left_iff]
      constructor
      · intro made
        cases made
        rfl
      · intro empty
        rw [empty]
        rfl
  | cons item items ih =>
      rw [List.mapM_cons, bind_eq_ok, List.forall₂_cons_left_iff]
      constructor
      · intro made
        rcases made with ⟨value, head, made⟩
        rcases bind_eq_ok.mp made with ⟨rest, tail, joined⟩
        cases joined
        exact ⟨value, rest, head, (ih rest).mp tail, rfl⟩
      · intro made
        rcases made with ⟨value, rest, head, tail, rfl⟩
        exact ⟨value, head, bind_eq_ok.mpr ⟨rest, (ih rest).mpr tail, rfl⟩⟩

theorem exists_of_mapM_eq_error {ε α β : Type} {f : α → Except ε β} {items : List α} {error : ε}
    (failed : items.mapM f = .error error) : ∃ item ∈ items, f item = .error error := by
  induction items with
  | nil => cases failed
  | cons item items ih =>
      rw [List.mapM_cons] at failed
      rcases bind_eq_error.mp failed with head | ⟨value, _, failed⟩
      · exact ⟨item, List.mem_cons_self, head⟩
      · rcases bind_eq_error.mp failed with tail | ⟨values, _, joined⟩
        · rcases ih tail with ⟨other, member, found⟩
          exact ⟨other, List.mem_cons_of_mem _ member, found⟩
        · cases joined

theorem map_eq_of_forall₂ {α β : Type} {r : α → β → Prop} {back : β → α} {items : List α}
    {values : List β} (related : List.Forall₂ r items values)
    (each : ∀ item ∈ items, ∀ value, r item value → back value = item) :
    values.map back = items := by
  induction related with
  | nil => rfl
  | cons head _ ih =>
      rcases List.forall_mem_cons.mp each with ⟨first, others⟩
      rw [List.map_cons, first _ head, ih others]

theorem mapM_attach {ε α β : Type} (f : α → Except ε β) (items : List α) :
    (items.attach.mapM fun item => f item.val) = items.mapM f := by
  have plain := List.mapM_subtype (l := items.attach) (f := fun item => f item.val) (g := f)
    fun _ _ => rfl
  rw [plain, List.unattach_attach]

end Autoland
