import Autoland.Formula.Parser
import Mathlib.Tactic

/-! What the scans of a formula text do with nested parentheses: where they find the partner of one
and at which commas they cut. -/

namespace Autoland.Formula

/-- How many parentheses are open after a text, with `depth` of them open before it, if it closes
none that is not open. -/
def depthAfter? : Nat → List Char → Option Nat
  | depth, [] => some depth
  | depth, '(' :: rest => depthAfter? (depth + 1) rest
  | 0, ')' :: _ => none
  | depth + 1, ')' :: rest => depthAfter? depth rest
  | depth, _ :: rest => depthAfter? depth rest

theorem parenthesis_cases (c : Char) : c = '(' ∨ c = ')' ∨ c ≠ '(' ∧ c ≠ ')' := by
  by_cases opens : c = '('
  · exact .inl opens
  · by_cases closes : c = ')'
    · exact .inr (.inl closes)
    · exact .inr (.inr ⟨opens, closes⟩)

section Other

variable (c : Char) (rest : List Char) (opens : c ≠ '(') (closes : c ≠ ')')

include opens closes

theorem depthAfter?_other (depth : Nat) :
    depthAfter? depth (c :: rest) = depthAfter? depth rest := by
  rw [depthAfter?]
  · exact opens
  · simp [closes]
  · simp [closes]

theorem checkBalance_other (depth : Nat) :
    checkBalance depth (c :: rest) = checkBalance depth rest := by
  rw [checkBalance]
  · exact opens
  · simp [closes]
  · simp [closes]

theorem cutAtClose?_other (depth : Nat) :
    cutAtClose? depth (c :: rest) =
      (cutAtClose? depth rest).map fun (inside, after) => (c :: inside, after) := by
  rw [cutAtClose?]
  · exact opens
  · simp [closes]
  · simp [closes]

theorem cutAtCommas_other (depth : Nat) (kept : depth = 0 → c ≠ ',') :
    cutAtCommas depth (c :: rest) = consFirst c (cutAtCommas depth rest) := by
  rw [cutAtCommas]
  · exact opens
  · exact closes
  · exact kept

end Other

theorem depthAfter?_append (depth : Nat) (front back : List Char) :
    depthAfter? depth (front ++ back) =
      (depthAfter? depth front).bind fun between => depthAfter? between back := by
  induction front generalizing depth with
  | nil => rfl
  | cons c front ih =>
      rcases parenthesis_cases c with rfl | rfl | ⟨opens, closes⟩
      · simp [depthAfter?, ih]
      · cases depth with
        | zero => rfl
        | succ depth => simp [depthAfter?, ih]
      · rw [List.cons_append, depthAfter?_other c _ opens closes,
          depthAfter?_other c _ opens closes, ih]

theorem checkBalance_iff (depth : Nat) (text : List Char) :
    checkBalance depth text = .ok () ↔ depthAfter? depth text = some 0 := by
  induction text generalizing depth with
  | nil =>
      cases depth with
      | zero => simp [checkBalance, depthAfter?]
      | succ depth => simp [checkBalance, depthAfter?]
  | cons c text ih =>
      rcases parenthesis_cases c with rfl | rfl | ⟨opens, closes⟩
      · simp [checkBalance, depthAfter?, ih]
      · cases depth with
        | zero => simp [checkBalance, depthAfter?]
        | succ depth => simp [checkBalance, depthAfter?, ih]
      · rw [checkBalance_other c text opens closes, depthAfter?_other c text opens closes, ih]

theorem depthAfter?_of_plain (depth : Nat) (text : List Char)
    (plain : ∀ c ∈ text, c ≠ '(' ∧ c ≠ ')') : depthAfter? depth text = some depth := by
  induction text with
  | nil => rfl
  | cons c text ih =>
      rcases List.forall_mem_cons.mp plain with ⟨⟨opens, closes⟩, rest⟩
      rw [depthAfter?_other c text opens closes, ih rest]

theorem depthAfter?_below (outer depth : Nat) (text : List Char) (after : Nat)
    (found : depthAfter? depth text = some after) :
    depthAfter? (depth + outer) text = some (after + outer) := by
  induction text generalizing depth with
  | nil =>
      cases found
      rfl
  | cons c text ih =>
      rcases parenthesis_cases c with rfl | rfl | ⟨opens, closes⟩
      · have deeper := ih (depth + 1) found
        rwa [Nat.add_right_comm] at deeper
      · cases depth with
        | zero => cases found
        | succ depth =>
            have shallower := ih depth found
            rwa [Nat.add_right_comm]
      · rw [depthAfter?_other c text opens closes] at found ⊢
        exact ih depth found

theorem depthAfter?_parentheses (front inside : List Char)
    (plain : ∀ c ∈ front, c ≠ '(' ∧ c ≠ ')') (closed : depthAfter? 0 inside = some 0) :
    depthAfter? 0 (front ++ '(' :: (inside ++ [')'])) = some 0 := by
  have below := depthAfter?_below 1 0 inside 0 closed
  rw [depthAfter?_append, depthAfter?_of_plain 0 front plain, Option.bind_some, depthAfter?,
    depthAfter?_append, below]
  rfl

theorem cutAtClose?_of_depthAfter? (depth : Nat) (inside after : List Char)
    (closed : depthAfter? depth inside = some 0) :
    cutAtClose? depth (inside ++ ')' :: after) = some (inside, after) := by
  induction inside generalizing depth with
  | nil =>
      cases closed
      rfl
  | cons c inside ih =>
      rcases parenthesis_cases c with rfl | rfl | ⟨opens, closes⟩
      · have deeper := ih (depth + 1) closed
        simp [cutAtClose?, deeper]
      · cases depth with
        | zero => cases closed
        | succ depth =>
            have shallower := ih depth closed
            simp [cutAtClose?, shallower]
      · rw [depthAfter?_other c inside opens closes] at closed
        rw [List.cons_append, cutAtClose?_other c _ opens closes, ih depth closed]
        rfl

theorem append_of_cutAtClose? (depth : Nat) (text inside after : List Char)
    (found : cutAtClose? depth text = some (inside, after)) : text = inside ++ ')' :: after := by
  induction text generalizing depth inside with
  | nil => cases found
  | cons c text ih =>
      have tail : ∀ depth, (cutAtClose? depth text).map (fun (inside, after) =>
          (c :: inside, after)) = some (inside, after) → c :: text = inside ++ ')' :: after := by
        intro depth cut
        rcases Option.map_eq_some_iff.mp cut with ⟨⟨front, back⟩, rest, same⟩
        cases same
        rw [ih depth front rest, List.cons_append]
      rcases parenthesis_cases c with rfl | rfl | ⟨opens, closes⟩
      · exact tail (depth + 1) found
      · cases depth with
        | zero =>
            cases found
            rfl
        | succ depth => exact tail depth found
      · rw [cutAtClose?_other c text opens closes] at found
        exact tail depth found

theorem depthAfter?_of_cutAtClose? (depth : Nat) (text inside after : List Char)
    (found : cutAtClose? depth text = some (inside, after)) :
    depthAfter? depth inside = some 0 := by
  induction text generalizing depth inside with
  | nil => cases found
  | cons c text ih =>
      rcases parenthesis_cases c with rfl | rfl | ⟨opens, closes⟩
      · rcases Option.map_eq_some_iff.mp found with ⟨⟨front, back⟩, rest, same⟩
        cases same
        exact ih (depth + 1) front rest
      · cases depth with
        | zero =>
            cases found
            rfl
        | succ depth =>
            rcases Option.map_eq_some_iff.mp found with ⟨⟨front, back⟩, rest, same⟩
            cases same
            exact ih depth front rest
      · rw [cutAtClose?_other c text opens closes] at found
        rcases Option.map_eq_some_iff.mp found with ⟨⟨front, back⟩, rest, same⟩
        cases same
        rw [depthAfter?_other c front opens closes]
        exact ih depth front rest

/-- Where more is closed than is opened, the first parenthesis too many closes an earlier one. -/
theorem exists_partner (depth : Nat) (text : List Char)
    (closed : depthAfter? (depth + 1) text = some 0) :
    ∃ inside after, text = inside ++ ')' :: after ∧ depthAfter? depth inside = some 0 := by
  induction text generalizing depth with
  | nil => cases closed
  | cons c text ih =>
      rcases parenthesis_cases c with rfl | rfl | ⟨opens, closes⟩
      · rcases ih (depth + 1) closed with ⟨inside, after, rfl, nested⟩
        exact ⟨'(' :: inside, after, rfl, nested⟩
      · cases depth with
        | zero => exact ⟨[], text, rfl, rfl⟩
        | succ depth =>
            rcases ih depth closed with ⟨inside, after, rfl, nested⟩
            exact ⟨')' :: inside, after, rfl, nested⟩
      · rw [depthAfter?_other c text opens closes] at closed
        rcases ih depth closed with ⟨inside, after, rfl, nested⟩
        exact ⟨c :: inside, after, rfl, by rwa [depthAfter?_other c inside opens closes]⟩

section Commas

theorem consFirst_append (c : Char) (front back : List (List Char)) (some_piece : front ≠ []) :
    consFirst c (front ++ back) = consFirst c front ++ back := by
  cases front with
  | nil => exact absurd rfl some_piece
  | cons piece front => rfl

theorem cutAtCommas_ne_nil (depth : Nat) (text : List Char) : cutAtCommas depth text ≠ [] := by
  have first : ∀ (c : Char) pieces, consFirst c pieces ≠ [] := by
    intro c pieces
    cases pieces with
    | nil => exact List.cons_ne_nil _ _
    | cons piece pieces => exact List.cons_ne_nil _ _
  fun_cases cutAtCommas depth text with
  | case1 => exact List.cons_ne_nil _ _
  | case2 => exact first _ _
  | case3 => exact first _ _
  | case4 => exact List.cons_ne_nil _ _
  | case5 => exact first _ _

theorem intercalate_consFirst (c : Char) (pieces : List (List Char)) :
    [','].intercalate (consFirst c pieces) = c :: [','].intercalate pieces := by
  cases pieces with
  | nil => rfl
  | cons piece pieces =>
      cases pieces with
      | nil => simp [consFirst, List.intercalate]
      | cons other pieces => simp [consFirst, List.intercalate]

theorem intercalate_nil_cons (pieces : List (List Char)) (some_piece : pieces ≠ []) :
    [','].intercalate ([] :: pieces) = ',' :: [','].intercalate pieces := by
  cases pieces with
  | nil => exact absurd rfl some_piece
  | cons piece pieces => simp [List.intercalate]

theorem intercalate_cutAtCommas (depth : Nat) (text : List Char) :
    [','].intercalate (cutAtCommas depth text) = text := by
  fun_induction cutAtCommas depth text with
  | case1 => rfl
  | case2 depth rest ih => rw [intercalate_consFirst, ih]
  | case3 depth rest ih => rw [intercalate_consFirst, ih]
  | case4 rest ih => rw [intercalate_nil_cons _ (cutAtCommas_ne_nil 0 rest), ih]
  | case5 depth c rest _ _ _ ih => rw [intercalate_consFirst, ih]

theorem infix_of_mem_intercalate (piece : List Char) (pieces : List (List Char))
    (member : piece ∈ pieces) : piece <:+: [','].intercalate pieces := by
  induction pieces with
  | nil => cases member
  | cons first pieces ih =>
      cases pieces with
      | nil =>
          rw [List.mem_singleton.mp member]
          simp [List.intercalate]
      | cons other pieces =>
          have joined : [','].intercalate (first :: other :: pieces) =
              first ++ ',' :: [','].intercalate (other :: pieces) := by simp [List.intercalate]
          rw [joined]
          rcases List.mem_cons.mp member with rfl | later
          · exact (List.prefix_append _ _).isInfix
          · have tail := List.suffix_append first (',' :: [','].intercalate (other :: pieces))
            exact (ih later).trans ((List.suffix_cons _ _).trans tail).isInfix

theorem foldr_consFirst (text piece : List Char) (pieces : List (List Char)) :
    text.foldr consFirst (piece :: pieces) = (text ++ piece) :: pieces := by
  induction text with
  | nil => rfl
  | cons c text ih => rw [List.foldr_cons, ih, consFirst, List.cons_append]

theorem cutAtCommas_plain (front rest : List Char)
    (plain : ∀ c ∈ front, c ≠ '(' ∧ c ≠ ')' ∧ c ≠ ',') :
    cutAtCommas 0 (front ++ rest) = front.foldr consFirst (cutAtCommas 0 rest) := by
  induction front with
  | nil => rfl
  | cons c front ih =>
      rcases List.forall_mem_cons.mp plain with ⟨⟨opens, closes, comma⟩, others⟩
      rw [List.cons_append, cutAtCommas_other c _ opens closes 0 fun _ => comma, ih others,
        List.foldr_cons]

theorem cutAtCommas_inside (depth : Nat) (front rest : List Char) (after : Nat)
    (found : depthAfter? depth front = some after) :
    cutAtCommas (depth + 1) (front ++ rest) =
      front.foldr consFirst (cutAtCommas (after + 1) rest) := by
  induction front generalizing depth with
  | nil =>
      cases found
      rfl
  | cons c front ih =>
      rcases parenthesis_cases c with rfl | rfl | ⟨opens, closes⟩
      · have deeper := ih (depth + 1) found
        simp [cutAtCommas, deeper]
      · cases depth with
        | zero => cases found
        | succ depth =>
            have shallower := ih depth found
            simp [cutAtCommas, shallower]
      · rw [depthAfter?_other c front opens closes] at found
        have kept : depth + 1 = 0 → c ≠ ',' := by omega
        rw [List.cons_append, cutAtCommas_other c _ opens closes _ kept, ih depth found,
          List.foldr_cons]

theorem cutAtCommas_parentheses (front inside : List Char)
    (plain : ∀ c ∈ front, c ≠ '(' ∧ c ≠ ')' ∧ c ≠ ',')
    (closed : depthAfter? 0 inside = some 0) :
    cutAtCommas 0 (front ++ '(' :: (inside ++ [')'])) = [front ++ '(' :: (inside ++ [')'])] := by
  calc
    _ = front.foldr consFirst (consFirst '(' (cutAtCommas 1 (inside ++ [')']))) := by
      rw [cutAtCommas_plain front _ plain, cutAtCommas]
    _ = front.foldr consFirst (consFirst '(' [inside ++ [')']]) := by
      rw [cutAtCommas_inside 0 inside _ 0 closed]
      simp [cutAtCommas, consFirst, foldr_consFirst]
    _ = [front ++ '(' :: (inside ++ [')'])] := by rw [consFirst, foldr_consFirst]

theorem cutAtCommas_comma (depth : Nat) (front back : List Char)
    (closed : depthAfter? depth front = some 0) :
    cutAtCommas depth (front ++ ',' :: back) = cutAtCommas depth front ++ cutAtCommas 0 back := by
  induction front generalizing depth with
  | nil =>
      cases closed
      rfl
  | cons c front ih =>
      have whole := cutAtCommas_ne_nil
      rcases parenthesis_cases c with rfl | rfl | ⟨opens, closes⟩
      · have deeper := ih (depth + 1) closed
        simp [cutAtCommas, deeper, consFirst_append, whole]
      · cases depth with
        | zero => cases closed
        | succ depth =>
            have shallower := ih depth closed
            simp [cutAtCommas, shallower, consFirst_append, whole]
      · rw [depthAfter?_other c front opens closes] at closed
        have rest := ih depth closed
        by_cases cut : depth = 0 ∧ c = ','
        · rcases cut with ⟨rfl, rfl⟩
          simp [cutAtCommas, rest]
        · have kept : depth = 0 → c ≠ ',' := fun zero comma => cut ⟨zero, comma⟩
          rw [List.cons_append, cutAtCommas_other c _ opens closes _ kept,
            cutAtCommas_other c _ opens closes _ kept, rest, consFirst_append _ _ _ (whole _ _)]

end Commas

end Autoland.Formula
