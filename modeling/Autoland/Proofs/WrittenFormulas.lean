import Autoland.Formula.Expression
import Autoland.Number.Binary
import Autoland.Proofs.Nesting
import Autoland.Proofs.Results
import Mathlib.Data.List.TakeWhile

/-! Formulas and their written form: reading and writing are inverse to each other. -/

namespace Autoland.Formula

theorem listChars_cons_cons {ν : Type} (arg other : Term ν) (args : List (Term ν)) :
    Term.listChars (arg :: other :: args) = arg.chars ++ ',' :: Term.listChars (other :: args) := by
  rw [Term.listChars]
  exact List.cons_ne_nil _ _

theorem intercalate_map_chars {ν : Type} (args : List (Term ν)) :
    [','].intercalate (args.map Term.chars) = Term.listChars args := by
  induction args with
  | nil => rfl
  | cons arg args ih =>
      cases args with
      | nil => simp [Term.listChars, List.intercalate]
      | cons other args =>
          rw [listChars_cons_cons, ← ih]
          simp [List.intercalate]

theorem splitMinus_write (input : List Char) :
    signChars (splitMinus input).1 ++ (splitMinus input).2 = input := by
  fun_cases splitMinus input with
  | case1 body => rfl
  | case2 body => rfl

theorem splitMinus_signChars (negated : Bool) (body : List Char)
    (signed : body.head? = some '-' → negated = true) :
    splitMinus (signChars negated ++ body) = (negated, body) := by
  cases negated with
  | true => rfl
  | false =>
      change splitMinus body = (false, body)
      unfold splitMinus
      split
      · cases signed rfl
      · rfl

variable {ν : Type} [Scalar ν] [Elementary ν] (operators : Operators ν)

theorem parseTerm_nil (input : List Char) (body : (splitMinus input).2 = []) :
    parseTerm operators input = .error .emptyTerm := by
  rw [parseTerm]
  split
  · rfl
  · rename_i found
    rw [body] at found
    cases found

theorem parseTerm_atom (input : List Char) (first : Char) (tail : List Char)
    (body : (splitMinus input).2 = first :: tail) (closed : '(' ∉ first :: tail) :
    parseTerm operators input = parseAtom (splitMinus input).1 first (first :: tail) := by
  have none_open : (first :: tail).dropWhile (· ≠ '(') = [] := by
    rw [List.dropWhile_eq_nil_iff]
    intro c member
    have differs : c ≠ '(' := fun same => closed (same ▸ member)
    simp [differs]
  rw [parseTerm]
  split
  · rename_i empty
    rw [body] at empty
    cases empty
  · rename_i c rest found
    cases body.symm.trans found
    dsimp only
    split
    · rfl
    · rename_i opened
      rw [none_open] at opened
      cases opened

theorem parseTerm_call (input name rest : List Char)
    (body : (splitMinus input).2 = name ++ '(' :: rest) (before : '(' ∉ name) :
    parseTerm operators input =
      if name.head?.any (!·.isUpper) then .error (.strayOperatorName (String.ofList name))
      else match cutAtClose? 0 rest with
        | none => .error .unclosed
        | some (inside, after) =>
          if !after.isEmpty then
            .error (.trailing (String.ofList (name ++ '(' :: (inside ++ [')']))))
          else (splitArguments inside).mapM (parseTerm operators) >>=
            makeCall operators (splitMinus input).1 (String.ofList name) := by
  have kept : ∀ c ∈ name, decide (c ≠ '(') = true := by
    intro c member
    have differs : c ≠ '(' := fun same => before (same ▸ member)
    simp [differs]
  have opened : (name ++ '(' :: rest).dropWhile (· ≠ '(') = '(' :: rest := by
    rw [List.dropWhile_append_of_pos kept]
    rfl
  have named : (name ++ '(' :: rest).takeWhile (· ≠ '(') = name := by
    rw [List.takeWhile_append_of_pos kept]
    simp
  rw [parseTerm]
  split
  · rename_i empty
    rw [body] at empty
    simp at empty
  · rename_i c tail found
    have whole := body.symm.trans found
    rw [whole] at opened named
    dsimp only
    split
    · rename_i none_open
      rw [opened] at none_open
      cases none_open
    · rename_i some_open
      rw [opened] at some_open
      cases some_open
      rw [named]
      split
      · rfl
      · split
        · rename_i unclosed
          rw [unclosed]
        · rename_i inside after cut
          rw [cut]
          dsimp only
          split
          · rfl
          · congr 1
            exact mapM_attach (parseTerm operators) (splitArguments inside)

theorem parseTerm_closed (input name inside : List Char)
    (body : (splitMinus input).2 = name ++ '(' :: (inside ++ [')'])) (before : '(' ∉ name)
    (led : name.head?.all Char.isUpper) (nested : depthAfter? 0 inside = some 0) :
    parseTerm operators input = (splitArguments inside).mapM (parseTerm operators) >>=
      makeCall operators (splitMinus input).1 (String.ofList name) := by
  have upper : name.head?.any (!·.isUpper) = false := by
    cases name with
    | nil => rfl
    | cons first tail => simpa using led
  rw [parseTerm_call operators input name _ body before, upper,
    cutAtClose?_of_depthAfter? 0 inside [] nested]
  rfl

theorem parseAtom_eq_ok (negated : Bool) (first : Char) (body : List Char) (term : Term ν)
    (read : parseAtom negated first body = .ok term) :
    term.chars = signChars negated ++ body := by
  unfold parseAtom at read
  dsimp only at read
  split at read
  · cases read
  · split at read
    · split at read
      · cases read
        rw [Term.chars, String.toList_ofList]
      · cases read
    · split at read
      · cases read
        rw [Term.chars, String.toList_ofList]
      · cases read

theorem makeCall_eq_ok (negated : Bool) (name : String)
    (args : List (Term ν)) (term : Term ν)
    (made : makeCall operators negated name args = .ok term) :
    term = .call name (operators.resolve? name) args negated := by
  unfold makeCall at made
  split at made
  · rename_i unknown
    cases made
    rw [unknown]
  · rename_i operator known
    split at made
    · cases made
      rw [known]
    · cases made

theorem splitArguments_write (inside : List Char) :
    [','].intercalate (splitArguments inside) = inside := by
  unfold splitArguments
  split
  · rename_i empty
    rw [List.isEmpty_iff.mp empty]
    rfl
  · exact intercalate_cutAtCommas 0 inside

theorem parseTerm_eq_ok (input : List Char) (term : Term ν)
    (read : parseTerm operators input = .ok term) :
    (∃ first tail, (splitMinus input).2 = first :: tail ∧ '(' ∉ first :: tail ∧
      parseAtom (splitMinus input).1 first (first :: tail) = .ok term) ∨
    ∃ name inside args, (splitMinus input).2 = name ++ '(' :: (inside ++ [')']) ∧ '(' ∉ name ∧
      name.head?.all Char.isUpper ∧ depthAfter? 0 inside = some 0 ∧
      List.Forall₂ (fun piece arg => parseTerm operators piece = .ok arg)
        (splitArguments inside) args ∧
      makeCall operators (splitMinus input).1 (String.ofList name) args = .ok term := by
  by_cases opened : '(' ∈ (splitMinus input).2
  · rcases List.eq_append_cons_of_mem opened with ⟨name, rest, body, before⟩
    rw [parseTerm_call operators input name rest body before] at read
    split at read
    · cases read
    · rename_i led
      split at read
      · cases read
      · rename_i inside after cut
        split at read
        · cases read
        · rename_i ended
          have nothing : after = [] := by simpa using ended
          have partner := append_of_cutAtClose? 0 rest inside after cut
          rcases bind_eq_ok.mp read with ⟨args, each, made⟩
          refine .inr ⟨name, inside, args, ?_, before, ?_,
            depthAfter?_of_cutAtClose? 0 rest inside after cut, (mapM_eq_ok_iff _ _ _).mp each,
            made⟩
          · rw [body, partner, nothing]
          · cases name with
            | nil => rfl
            | cons first tail => simpa using led
  · cases body : (splitMinus input).2 with
    | nil =>
        rw [parseTerm_nil operators input body] at read
        cases read
    | cons first tail =>
        rw [body] at opened
        rw [parseTerm_atom operators input first tail body opened] at read
        exact .inl ⟨first, tail, rfl, opened, read⟩

theorem length_of_argument (input name inside piece : List Char)
    (body : (splitMinus input).2 = name ++ '(' :: (inside ++ [')']))
    (member : piece ∈ splitArguments inside) : piece.length < input.length := by
  have shorter := length_of_splitMinus input
  have inner := length_of_mem_splitArguments member
  have lengths := congrArg List.length body
  simp only [List.length_append, List.length_cons] at lengths
  omega

/-- What is read from a text is written as that text. -/
theorem chars_of_parseTerm (bound : Nat) (input : List Char) (term : Term ν)
    (below : input.length < bound) (read : parseTerm operators input = .ok term) :
    term.chars = input := by
  induction bound generalizing input term with
  | zero => omega
  | succ bound ih =>
      have whole := splitMinus_write input
      rcases parseTerm_eq_ok operators input term read with ⟨first, tail, body, _, atom⟩ |
        ⟨name, inside, args, body, _, _, _, each, made⟩
      · rw [parseAtom_eq_ok _ first _ term atom, ← body, whole]
      · have pieces : args.map Term.chars = splitArguments inside := by
          apply map_eq_of_forall₂ each
          intro piece member arg found
          have shorter := length_of_argument input name inside piece body member
          exact ih piece arg (by omega) found
        rw [makeCall_eq_ok operators _ _ args term made, Term.chars, String.toList_ofList,
          ← intercalate_map_chars, pieces, splitArguments_write, ← body, whole]

def Plain (text : List Char) : Prop :=
  ∀ c ∈ text, Text.isBlank c = false ∧ c ≠ '(' ∧ c ≠ ')' ∧ c ≠ ','

instance (text : List Char) : Decidable (Plain text) := List.decidableBAll _ text

/-- Whether a tree is one that a text can stand for: constants and fields can be told apart by their
texts, and calls stand for what their names stand for. -/
inductive Term.WellFormed (operators : Operators ν) : Term ν → Prop where
  | literal (text : String) (value : ν) (negated : Bool) (plain : Plain text.toList)
      (led : text.toList.head?.any Char.isDigit ∨ Text.isUpperForm text.toList)
      (named : constant? text = some value) (signed : text.toList.head? = some '-' → negated) :
      WellFormed operators (.literal text value negated)
  | field (name : String) (negated : Bool) (plain : Plain name.toList)
      (led : name.toList.head?.any Text.isLowercase)
      (raised : Text.isUpperForm name.toList = false) :
      WellFormed operators (.field name negated)
  | call (name : String) (args : List (Term ν)) (negated : Bool) (plain : Plain name.toList)
      (led : name.toList.head?.all Char.isUpper)
      (counted : ∀ operator, operators.resolve? name = some operator →
        operator.arity = args.length)
      (each : ∀ arg ∈ args, WellFormed operators arg) :
      WellFormed operators (.call name (operators.resolve? name) args negated)

/-- What the scans find in the written form of a well-formed tree: a text without white space that
closes what it opens and has no comma outside parentheses. -/
structure Settled (text : List Char) : Prop where
  solid : ∀ c ∈ text, Text.isBlank c = false
  nested : depthAfter? 0 text = some 0
  whole : cutAtCommas 0 text = [text]
  nonempty : text ≠ []

theorem any_separator_of_plain (text : List Char) (plain : Plain text) :
    (text.any fun c => c = ',' || c = ')') = false := by
  rw [List.any_eq_false]
  intro c member
  have apart := plain c member
  simp [apart.2.2]

theorem plain_sign (negated : Bool) (text : List Char) (plain : Plain text) :
    Plain (signChars negated ++ text) := by
  intro c member
  rcases List.mem_append.mp member with sign | inside
  · cases negated with
    | true =>
        rw [List.mem_singleton.mp sign]
        decide
    | false => cases sign
  · exact plain c inside

theorem settled_of_plain (text : List Char) (plain : Plain text) (nonempty : text ≠ []) :
    Settled text where
  solid c member := (plain c member).1
  nested := depthAfter?_of_plain 0 text fun c member =>
    ⟨(plain c member).2.1, (plain c member).2.2.1⟩
  whole := by
    have cut := cutAtCommas_plain text [] fun c member => (plain c member).2
    rwa [List.append_nil, cutAtCommas, foldr_consFirst, List.append_nil] at cut
  nonempty := nonempty

theorem settled_call (front inside : List Char) (plain : Plain front)
    (solid : ∀ c ∈ inside, Text.isBlank c = false) (nested : depthAfter? 0 inside = some 0) :
    Settled (front ++ '(' :: (inside ++ [')'])) where
  solid := by
    intro c member
    simp only [List.mem_append, List.mem_cons, List.not_mem_nil, or_false] at member
    rcases member with front | rfl | inside | rfl
    · exact (plain c front).1
    · decide
    · exact solid c inside
    · decide
  nested := depthAfter?_parentheses front inside
    (fun c member => ⟨(plain c member).2.1, (plain c member).2.2.1⟩) nested
  whole := cutAtCommas_parentheses front inside (fun c member => (plain c member).2) nested
  nonempty := by simp

omit [Scalar ν] [Elementary ν] in
theorem listChars_scanned (args : List (Term ν)) (each : ∀ arg ∈ args, Settled arg.chars) :
    (∀ c ∈ Term.listChars args, Text.isBlank c = false) ∧
      depthAfter? 0 (Term.listChars args) = some 0 := by
  induction args with
  | nil =>
      refine ⟨?_, rfl⟩
      intro c member
      cases member
  | cons arg args ih =>
      rcases List.forall_mem_cons.mp each with ⟨head, rest⟩
      cases args with
      | nil =>
          rw [Term.listChars]
          exact ⟨head.solid, head.nested⟩
      | cons other args =>
          rcases ih rest with ⟨solid, nested⟩
          rw [listChars_cons_cons]
          constructor
          · intro c member
            rcases List.mem_append.mp member with first | later
            · exact head.solid c first
            · rcases List.mem_cons.mp later with rfl | later
              · decide
              · exact solid c later
          · have comma := depthAfter?_other ',' (Term.listChars (other :: args)) (by decide)
              (by decide) 0
            rw [depthAfter?_append, head.nested, Option.bind_some, comma, nested]

omit [Scalar ν] [Elementary ν] in
theorem splitArguments_listChars (args : List (Term ν)) (each : ∀ arg ∈ args, Settled arg.chars) :
    splitArguments (Term.listChars args) = args.map Term.chars := by
  have cut : args ≠ [] → Term.listChars args ≠ [] ∧
      cutAtCommas 0 (Term.listChars args) = args.map Term.chars := by
    induction args with
    | nil => exact fun some_arg => absurd rfl some_arg
    | cons arg args ih =>
        rcases List.forall_mem_cons.mp each with ⟨head, rest⟩
        intro _
        cases args with
        | nil =>
            rw [Term.listChars]
            exact ⟨head.nonempty, head.whole⟩
        | cons other args =>
            rcases ih rest (List.cons_ne_nil _ _) with ⟨_, others⟩
            rw [listChars_cons_cons, cutAtCommas_comma 0 _ _ head.nested, head.whole, others]
            exact ⟨by simp, rfl⟩
  cases args with
  | nil => rfl
  | cons arg args =>
      rcases cut (List.cons_ne_nil _ _) with ⟨nonempty, pieces⟩
      rw [splitArguments, if_neg (by simpa using nonempty), pieces]

section Formed

variable {operators} (blank : (Scalar.read? "" : Option ν) = none)

include blank

theorem nonempty_of_constant? (text : String) (value : ν) (named : constant? text = some value) :
    text.toList ≠ [] := by
  intro empty
  rw [String.toList_eq_nil_iff] at empty
  rw [empty, constant?, if_neg (by decide), if_neg (by decide), if_neg (by decide),
    if_neg (by decide), blank] at named
  cases named

theorem Term.WellFormed.settled {term : Term ν} (formed : term.WellFormed operators) :
    Settled term.chars := by
  induction formed with
  | literal text value negated plain led named signed =>
      have nonempty := nonempty_of_constant? blank text value named
      exact settled_of_plain _ (plain_sign negated _ plain) (by simp [Term.chars, nonempty])
  | field name negated plain led raised =>
      have nonempty : name.toList ≠ [] := by
        intro empty
        rw [empty] at led
        cases led
      exact settled_of_plain _ (plain_sign negated _ plain) (by simp [Term.chars, nonempty])
  | call name args negated plain led counted each ih =>
      rcases listChars_scanned args ih with ⟨solid, nested⟩
      rw [Term.chars, ← List.append_assoc]
      exact settled_call _ _ (plain_sign negated _ plain) solid nested

omit blank in
theorem parseTerm_plain (negated : Bool) (first : Char) (tail : List Char)
    (plain : Plain (first :: tail)) (signed : first = '-' → negated) :
    parseTerm operators (signChars negated ++ first :: tail) =
      parseAtom negated first (first :: tail) := by
  have split := splitMinus_signChars negated (first :: tail) (by simpa using signed)
  have closed : '(' ∉ first :: tail := fun member => (plain '(' member).2.1 rfl
  rw [parseTerm_atom operators _ first tail (by rw [split]) closed, split]

omit blank in
theorem parseAtom_literal (text : String) (value : ν) (negated : Bool) (first : Char)
    (tail : List Char) (letters : text.toList = first :: tail) (plain : Plain text.toList)
    (led : text.toList.head?.any Char.isDigit ∨ Text.isUpperForm text.toList)
    (named : constant? text = some value) :
    parseAtom negated first (first :: tail) = .ok (.literal text value negated) := by
  have separated := any_separator_of_plain (first :: tail) (letters ▸ plain)
  have constant : (first.isDigit || Text.isUpperForm (first :: tail)) = true := by
    rw [letters] at led
    simpa using led
  have text_of : String.ofList (first :: tail) = text := by rw [← letters, String.ofList_toList]
  rw [parseAtom, separated, constant, text_of, named]
  rfl

omit [Scalar ν] [Elementary ν] blank in
theorem isDigit_of_isLowercase (c : Char) (lower : Text.isLowercase c) : c.isDigit = false := by
  rw [Text.isLowercase] at lower
  by_contra digit
  simp only [Char.isDigit, Bool.not_eq_false, Bool.and_eq_true, decide_eq_true_eq] at digit
  have high : c.toNat ≤ 57 := digit.2
  rw [if_pos (by omega)] at lower
  rcases Bool.and_eq_true_iff.mp lower with ⟨least, _⟩
  have low : 97 ≤ c.toNat := of_decide_eq_true least
  omega

omit blank in
theorem parseAtom_field (name : String) (negated : Bool) (first : Char) (tail : List Char)
    (letters : name.toList = first :: tail) (plain : Plain name.toList)
    (led : name.toList.head?.any Text.isLowercase) (raised : Text.isUpperForm name.toList = false) :
    (parseAtom negated first (first :: tail) : Except FormulaFault (Term ν)) =
      .ok (.field name negated) := by
  have separated := any_separator_of_plain (first :: tail) (letters ▸ plain)
  rw [letters] at led raised
  have lower : Text.isLowercase first = true := by simpa using led
  have text_of : String.ofList (first :: tail) = name := by rw [← letters, String.ofList_toList]
  rw [parseAtom, separated, isDigit_of_isLowercase first lower, raised, lower, text_of]
  rfl

omit blank in
theorem makeCall_counted (name : String) (args : List (Term ν)) (negated : Bool)
    (counted : ∀ operator, operators.resolve? name = some operator →
      operator.arity = args.length) :
    makeCall operators negated name args =
      .ok (.call name (operators.resolve? name) args negated) := by
  unfold makeCall
  split
  · rename_i unknown
    rw [unknown]
  · rename_i operator known
    rw [if_pos (counted operator known), known]

theorem Term.WellFormed.parseTerm_chars {term : Term ν} (formed : term.WellFormed operators) :
    parseTerm operators term.chars = .ok term := by
  induction formed with
  | literal text value negated plain led named signed =>
      have nonempty := nonempty_of_constant? blank text value named
      rcases List.exists_cons_of_ne_nil nonempty with ⟨first, tail, letters⟩
      rw [Term.chars, letters, parseTerm_plain negated first tail (letters ▸ plain)]
      · exact parseAtom_literal text value negated first tail letters plain led named
      · intro minus
        apply signed
        rw [letters, minus]
        rfl
  | field name negated plain led raised =>
      cases letters : name.toList with
      | nil =>
          rw [letters] at led
          cases led
      | cons first tail =>
          rw [Term.chars, letters, parseTerm_plain negated first tail (letters ▸ plain)]
          · exact parseAtom_field name negated first tail letters plain led raised
          · intro minus
            rw [letters, minus, List.head?_cons, Option.any_some] at led
            exact absurd led (by decide)
  | call name args negated plain led counted each ih =>
      have settled : ∀ arg ∈ args, Settled arg.chars := fun arg member =>
        (each arg member).settled blank
      rcases listChars_scanned args settled with ⟨_, nested⟩
      have signed : (name.toList ++ '(' :: (Term.listChars args ++ [')'])).head? = some '-' →
          negated = true := by
        intro minus
        cases letters : name.toList with
        | nil =>
            rw [letters] at minus
            cases minus
        | cons first tail =>
            rw [letters] at minus led
            cases minus
            rw [List.head?_cons, Option.all_some] at led
            exact absurd led (by decide)
      have split := splitMinus_signChars negated _ signed
      have before : '(' ∉ name.toList := fun member => (plain '(' member).2.1 rfl
      have arguments : (splitArguments (Term.listChars args)).mapM (parseTerm operators) =
          .ok args := by
        rw [splitArguments_listChars args settled, mapM_eq_ok_iff, List.forall₂_map_left_iff,
          List.forall₂_same]
        exact ih
      rw [Term.chars, parseTerm_closed operators _ name.toList (Term.listChars args)
        (by rw [split]) before led nested, arguments, split, String.ofList_toList]
      exact makeCall_counted name args negated counted

end Formed

namespace Expression

theorem parse_eq_ok_iff (formula : String) (expression : Expression ν) :
    parse operators formula = .ok expression ↔
      expression.source = String.ofList (Text.squeeze formula.toList) ∧
      checkBalance 0 (Text.squeeze formula.toList) = .ok () ∧
      parseTerm operators (Text.squeeze formula.toList) = .ok expression.root := by
  unfold parse
  dsimp only
  constructor
  · intro compiled
    split at compiled
    · rename_i root read
      cases compiled
      rcases bind_eq_ok.mp read with ⟨_, balanced, read⟩
      exact ⟨rfl, balanced, read⟩
    · cases compiled
  · intro compiled
    rcases expression with ⟨source, root⟩
    rcases compiled with ⟨stripped, balanced, read⟩
    dsimp only at stripped read
    have whole : parseFormula operators (Text.squeeze formula.toList) = .ok root :=
      bind_eq_ok.mpr ⟨(), balanced, read⟩
    rw [whole, stripped]

theorem parse_of_squeeze (formula other : String)
    (same : Text.squeeze formula.toList = Text.squeeze other.toList) :
    parse operators formula = parse operators other := by
  unfold parse
  rw [same]

/-- A formula that compiles is written without its white space, and compiles from that text to the
same tree. A well-formed tree is what its written form compiles to. -/
theorem parse_write_inverse (operators : Operators ν) :
    (∀ formula expression, parse operators formula = .ok expression →
      expression.write = String.ofList (Text.squeeze formula.toList) ∧
      parse operators expression.write = .ok expression) ∧
    ((Scalar.read? "" : Option ν) = none → ∀ term : Term ν, term.WellFormed operators →
      parse operators term.write = .ok ⟨term.write, term⟩) := by
  constructor
  · intro formula expression compiled
    rcases (parse_eq_ok_iff operators formula expression).mp compiled with ⟨source, balanced, read⟩
    have written := chars_of_parseTerm operators _ _ _ (Nat.lt_succ_self _) read
    have same : expression.write = String.ofList (Text.squeeze formula.toList) := by
      rw [write, Term.write, written]
    refine ⟨same, ?_⟩
    rw [← compiled]
    apply parse_of_squeeze
    rw [same, String.toList_ofList, Text.squeeze, Text.squeeze, List.filter_filter]
    simp only [Bool.and_self]
  · intro blank term formed
    have settled := formed.settled blank
    have solid : Text.squeeze term.chars = term.chars := by
      rw [Text.squeeze, List.filter_eq_self]
      intro c member
      rw [settled.solid c member]
      rfl
    have balanced := (checkBalance_iff 0 term.chars).mpr settled.nested
    rw [parse_eq_ok_iff, Term.write, String.toList_ofList, solid]
    exact ⟨rfl, balanced, formed.parseTerm_chars blank⟩

def negatedSum : Term Float :=
  .call "Add" (Operators.standard.resolve? "Add")
    [.call "" (Operators.standard.resolve? "") [.field "x" true] false,
      .literal "PI" Elementary.pi false] true

theorem parse_write_inverse_negated_sum :
    negatedSum.WellFormed Operators.standard ∧ negatedSum.write = "-Add((-x),PI)" ∧
      parse Operators.standard "-Add((-x),PI)" = .ok ⟨"-Add((-x),PI)", negatedSum⟩ ∧
      parse Operators.standard "- Add( (-x), PI )" = .ok ⟨"-Add((-x),PI)", negatedSum⟩ ∧
      ∀ expression, parse Operators.standard "- Add( (-x), PI )" = .ok expression →
        (expression : Expression Float).write = "-Add((-x),PI)" := by
  have plain : Plain "Add".toList ∧ Plain "".toList ∧ Plain "x".toList ∧ Plain "PI".toList := by
    decide +kernel
  have constant : (constant? "PI" : Option Float) = some Elementary.pi := rfl
  have inner : Term.WellFormed (Operators.standard : Operators Float) (.field "x" true) :=
    .field "x" true plain.2.2.1 (by decide +kernel) (by decide +kernel)
  have formed : negatedSum.WellFormed Operators.standard := by
    refine .call "Add" _ true plain.1 (by decide +kernel) ?_ ?_
    · intro operator found
      cases found
      rfl
    · intro arg member
      simp only [List.mem_cons, List.not_mem_nil, or_false] at member
      rcases member with rfl | rfl
      · refine .call "" _ false plain.2.1 (by decide +kernel) ?_ ?_
        · intro operator found
          cases found
          rfl
        · intro arg member
          rw [List.mem_singleton.mp member]
          exact inner
      · exact .literal "PI" _ false plain.2.2.2 (by decide +kernel) constant (by decide +kernel)
  have written : negatedSum.write = "-Add((-x),PI)" := by decide +kernel
  have inverse := parse_write_inverse (Operators.standard : Operators Float)
  have read := inverse.2 (by decide +kernel) negatedSum formed
  rw [written] at read
  have spaced : parse (Operators.standard : Operators Float) "- Add( (-x), PI )" =
      parse Operators.standard "-Add((-x),PI)" := by
    apply parse_of_squeeze
    decide +kernel
  refine ⟨formed, written, read, spaced.trans read, ?_⟩
  intro expression compiled
  rw [(inverse.1 _ expression compiled).1]
  decide +kernel

end Expression

end Autoland.Formula
