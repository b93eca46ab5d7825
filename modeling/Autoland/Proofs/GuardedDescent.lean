import Autoland.Proofs.ByteScans
import Autoland.Proofs.FormulaCommas
import Mathlib.Logic.Relation

/-! The balance check at the start of a formula protects the reading of all its terms: every text
that is read as a term closes what it opens, so that each scan of it comes to a result. -/

namespace Autoland.Formula

open String (utf8Len)
open Text (byteOffset? slice?)

section Balance

/-- Whether a text closes as much as it opens, and no beginning of it closes more. -/
structure Balanced (text : List Char) : Prop where
  even : text.count '(' = text.count ')'
  covered : ∀ front, front <+: text → front.count ')' ≤ front.count '('

theorem forall_prefix_cons {P : List Char → Prop} (c : Char) (text : List Char) :
    (∀ front, front <+: c :: text → P front) ↔
      P [] ∧ ∀ front, front <+: text → P (c :: front) := by
  constructor
  · intro each
    exact ⟨each [] List.nil_prefix, fun front start =>
      each (c :: front) (List.cons_prefix_cons.mpr ⟨rfl, start⟩)⟩
  · rintro ⟨empty, each⟩ front start
    rcases List.prefix_cons_iff.mp start with rfl | ⟨later, rfl, within⟩
    · exact empty
    · exact each later within

theorem depthAfter?_eq_some_iff (depth after : Nat) (text : List Char) :
    depthAfter? depth text = some after ↔
      depth + text.count '(' = after + text.count ')' ∧
        ∀ front, front <+: text → front.count ')' ≤ depth + front.count '(' := by
  induction text generalizing depth with
  | nil => simp [depthAfter?]
  | cons c text ih =>
      rw [forall_prefix_cons]
      rcases parenthesis_cases c with rfl | rfl | ⟨opens, closes⟩
      · rw [depthAfter?, ih]
        simp [Nat.add_assoc, Nat.add_comm 1]
      · cases depth with
        | zero =>
            have short : ¬ [')'].count ')' ≤ 0 + [')'].count '(' := by decide
            simp only [depthAfter?, reduceCtorEq, false_iff]
            rintro ⟨_, _, each⟩
            exact short (each [] List.nil_prefix)
        | succ depth =>
            rw [depthAfter?, ih]
            simp [Nat.add_right_comm, ← Nat.add_assoc]
      · rw [depthAfter?_other c text opens closes, ih]
        simp [List.count_cons_of_ne opens, List.count_cons_of_ne closes]

theorem balanced_iff (text : List Char) : Balanced text ↔ depthAfter? 0 text = some 0 := by
  simp only [depthAfter?_eq_some_iff, Nat.zero_add]
  constructor
  · rintro ⟨even, covered⟩
    exact ⟨even, covered⟩
  · rintro ⟨even, covered⟩
    exact ⟨even, covered⟩

end Balance

/-- How a term is written: without parentheses, or as a call with texts for its arguments. -/
inductive Form where
  | atom (negated : Bool) (first : Char) (body : List Char)
  | call (negated : Bool) (name : List Char) (pieces : List (List Char))

def scanForm (greatest : Nat) (input : List Char) : Attempt Form := do
  let negated := (splitMinus input).1
  let body := (splitMinus input).2
  match body.head? with
  | none => throw .emptyTerm
  | some first =>
    match byteOffset? '(' body with
    | none => pure (.atom negated first body)
    | some opening =>
      let name ← slice? body 0 opening
      if name.head?.any (!·.isUpper) then throw (.strayOperatorName (String.ofList name))
      else match ← matchingClose greatest body opening with
        | none => throw .unclosed
        | some close =>
          let last ← (utf8Len body).ppred
          if close = last then
            let start ← sum? greatest opening 1
            let inside ← slice? body start close
            let pieces ← scanArguments greatest inside
            pure (.call negated name pieces)
          else
            let stop ← sum? greatest close 1
            let accepted ← slice? body 0 stop
            throw (.trailing (String.ofList accepted))

section Answers

variable {α β : Type}

theorem answer_inj {first second : Except FormulaFault α} (same : answer first = answer second) :
    first = second := Option.some.inj same

theorem answer_bind (result : Except FormulaFault α) (next : α → Except FormulaFault β) :
    (answer result >>= fun value => answer (next value)) = answer (result >>= next) := by
  cases result with
  | error fault => rfl
  | ok value => rfl

theorem mapM_answer (items : List α) (scan : α → Attempt β) (read : α → Except FormulaFault β)
    (each : ∀ item ∈ items, scan item = answer (read item)) :
    items.mapM scan = answer (items.mapM read) := by
  induction items with
  | nil => rfl
  | cons item items ih =>
      rcases List.forall_mem_cons.mp each with ⟨head, others⟩
      rw [List.mapM_cons, List.mapM_cons, head, ih others]
      cases read item with
      | error fault => rfl
      | ok value =>
          cases items.mapM read with
          | error fault => rfl
          | ok values => rfl

end Answers

section Forms

variable (greatest : Nat) (input : List Char)

theorem depthAfter?_splitMinus : depthAfter? 0 (splitMinus input).2 = depthAfter? 0 input := by
  have sign : depthAfter? 0 (signChars (splitMinus input).1) = some 0 := by
    cases (splitMinus input).1 <;> rfl
  conv_rhs => rw [← splitMinus_write input, depthAfter?_append, sign, Option.bind_some]

theorem utf8Len_splitMinus_le : utf8Len (splitMinus input).2 ≤ utf8Len input :=
  String.utf8Len_le_of_suffix ⟨signChars (splitMinus input).1, splitMinus_write input⟩

theorem partner_of_closed (closed : depthAfter? 0 input = some 0) (name rest : List Char)
    (body : (splitMinus input).2 = name ++ '(' :: rest) (before : '(' ∉ name) :
    ∃ inside after, rest = inside ++ ')' :: after ∧ depthAfter? 0 inside = some 0 := by
  rw [← depthAfter?_splitMinus, body] at closed
  have closes := close_not_mem_head name _ before closed
  have plain := depthAfter?_head name before closes name List.prefix_rfl
  rw [depthAfter?_append, plain, Option.bind_some, depthAfter?] at closed
  exact exists_partner 0 rest closed

theorem body_cases (closed : depthAfter? 0 input = some 0) :
    (splitMinus input).2 = [] ∨
      (∃ first tail, (splitMinus input).2 = first :: tail ∧ '(' ∉ first :: tail) ∨
      ∃ name inside after, (splitMinus input).2 = name ++ '(' :: (inside ++ ')' :: after) ∧
        '(' ∉ name ∧ depthAfter? 0 inside = some 0 := by
  by_cases opened : '(' ∈ (splitMinus input).2
  · rcases List.eq_append_cons_of_mem opened with ⟨name, rest, body, before⟩
    obtain ⟨inside, after, rfl, nested⟩ := partner_of_closed input closed name rest body before
    exact .inr (.inr ⟨name, inside, after, body, before, nested⟩)
  · cases body : (splitMinus input).2 with
    | nil => exact .inl rfl
    | cons first tail => exact .inr (.inl ⟨first, tail, rfl, body ▸ opened⟩)

variable {input}

theorem scanForm_nil (body : (splitMinus input).2 = []) :
    scanForm greatest input = answer (.error .emptyTerm) := by
  unfold scanForm
  rw [body]
  rfl

theorem scanForm_atom (first : Char) (tail : List Char)
    (body : (splitMinus input).2 = first :: tail) (absent : '(' ∉ first :: tail) :
    scanForm greatest input = answer (.ok (.atom (splitMinus input).1 first (first :: tail))) := by
  have nowhere := Text.byteOffset?_of_not_mem '(' (first :: tail) absent
  unfold scanForm
  simp only [body, nowhere]
  rfl

theorem scanForm_call (name inside after : List Char)
    (body : (splitMinus input).2 = name ++ '(' :: (inside ++ ')' :: after)) (before : '(' ∉ name)
    (nested : depthAfter? 0 inside = some 0) (fits : utf8Len input ≤ greatest) :
    scanForm greatest input = answer
      (if name.head?.any (!·.isUpper) then .error (.strayOperatorName (String.ofList name))
      else if after.isEmpty then .ok (.call (splitMinus input).1 name (splitArguments inside))
      else .error (.trailing (String.ofList (name ++ '(' :: (inside ++ [')']))))) := by
  have total := utf8Len_parentheses name inside after
  have bounded := (utf8Len_splitMinus_le input).trans fits
  rw [body, total] at bounded
  have led : (name ++ '(' :: (inside ++ ')' :: after)).head? = some _ :=
    List.head?_eq_some_head (by simp)
  have opening := Text.byteOffset?_append '(' name (inside ++ ')' :: after) before
  have close := matchingClose_of_closed name inside after greatest nested (by omega)
  have last : (utf8Len (name ++ '(' :: (inside ++ ')' :: after))).ppred =
      some (utf8Len name + 1 + utf8Len inside + utf8Len after) := by
    rw [total, Nat.add_right_comm]
    rfl
  unfold scanForm
  simp only [body, led, opening, slice?_name, close, last, lift_some_bind]
  by_cases upper : name.head?.any (!·.isUpper)
  · rw [if_pos upper, if_pos upper]
    rfl
  · rw [if_neg upper, if_neg upper]
    -- the partner stands at the last byte exactly if nothing follows it
    cases after with
    | nil =>
        have arguments := scanArguments_of_closed greatest inside nested (by omega)
        rw [if_pos (by simp), sum?_of_le (by omega)]
        simp only [lift_some_bind, slice?_inside, arguments]
        rfl
    | cons c after =>
        have width := c.utf8Size_pos
        rw [String.utf8Len_cons] at bounded
        rw [if_neg (by rw [String.utf8Len_cons]; omega), sum?_of_le (by omega)]
        simp only [lift_some_bind, slice?_through]
        rfl

end Forms

section Calls

variable (greatest : Nat)

/-- Whether reading one text as a term may come to reading another as one. The operators decide only
at which of the pieces reading stops. -/
def Calls (input piece : List Char) : Prop :=
  ∃ negated name pieces, scanForm greatest input = answer (.ok (.call negated name pieces)) ∧
    piece ∈ pieces

def Reached (formula input : List Char) : Prop :=
  Relation.ReflTransGen (Calls greatest) formula input

/-- What the scans of a text that is read as a term rely on, and what they give: the partner of its
first parenthesis, and the pieces between its commas. -/
structure Guarded (input : List Char) : Prop where
  balanced : Balanced input
  shorter : ∀ piece, Calls greatest input piece →
    piece <:+: input ∧ piece.length < input.length
  closes : ∀ name rest, (splitMinus input).2 = name ++ '(' :: rest → '(' ∉ name →
    ∃ inside after, cutAtClose? 0 rest = some (inside, after) ∧
      matchingClose greatest (name ++ '(' :: rest) (utf8Len name) =
        some (some (utf8Len name + 1 + utf8Len inside)) ∧
      scanArguments greatest inside = some (splitArguments inside) ∧
      [','].intercalate (splitArguments inside) = inside

variable {greatest} {input : List Char} (closed : depthAfter? 0 input = some 0)
  (fits : utf8Len input ≤ greatest)

include closed fits

theorem Calls.argument {piece : List Char} (called : Calls greatest input piece) :
    ∃ name inside, (splitMinus input).2 = name ++ '(' :: (inside ++ [')']) ∧
      depthAfter? 0 inside = some 0 ∧ piece ∈ splitArguments inside := by
  obtain ⟨_, _, pieces, form, member⟩ := called
  rcases body_cases input closed with body | ⟨first, tail, body, absent⟩ |
    ⟨name, inside, after, body, before, nested⟩
  · rw [scanForm_nil greatest body] at form
    cases answer_inj form
  · rw [scanForm_atom greatest first tail body absent] at form
    cases answer_inj form
  · rw [scanForm_call greatest name inside after body before nested fits] at form
    have result := answer_inj form
    split at result
    · cases result
    · split at result
      · rename_i ended
        obtain ⟨_, _, cut⟩ := Form.call.inj (Except.ok.inj result)
        exact ⟨name, inside, by rw [body, List.isEmpty_iff.mp ended], nested, cut ▸ member⟩
      · cases result

theorem Calls.shorter {piece : List Char} (called : Calls greatest input piece) :
    piece <:+: input ∧ piece.length < input.length := by
  obtain ⟨name, inside, body, _, member⟩ := called.argument closed fits
  constructor
  · have cut := infix_of_mem_intercalate piece _ member
    rw [splitArguments_write] at cut
    have within : inside <:+: (splitMinus input).2 :=
      ⟨name ++ ['('], [')'], by rw [body]; simp⟩
    have ending : (splitMinus input).2 <:+ input := ⟨_, splitMinus_write input⟩
    exact (cut.trans within).trans ending.isInfix
  · exact length_of_argument input name inside piece body member

theorem depthAfter?_of_calls {piece : List Char} (called : Calls greatest input piece) :
    depthAfter? 0 piece = some 0 := by
  obtain ⟨_, inside, _, nested, member⟩ := called.argument closed fits
  exact (whole_of_splitArguments inside nested piece member).closed

theorem guarded_of_closed : Guarded greatest input where
  balanced := (balanced_iff input).mpr closed
  shorter _ called := called.shorter closed fits
  closes := by
    intro name rest body before
    obtain ⟨inside, after, rfl, nested⟩ := partner_of_closed input closed name rest body before
    have bounded := (utf8Len_splitMinus_le input).trans fits
    have total := utf8Len_parentheses name inside after
    rw [body] at bounded
    exact ⟨inside, after, cutAtClose?_of_depthAfter? 0 inside after nested,
      matchingClose_of_closed name inside after greatest nested bounded,
      scanArguments_of_closed greatest inside nested (by omega), splitArguments_write inside⟩

end Calls

section Terms

variable {ν : Type} [Scalar ν] [Elementary ν] (operators : Operators ν) (greatest : Nat)

def scanTerm : Nat → List Char → Attempt (Term ν)
  | 0, _ => ExceptT.mk none
  | calls + 1, input => do
    match ← scanForm greatest input with
    | .atom negated first body => answer (parseAtom negated first body)
    | .call negated name pieces =>
      let args ← pieces.mapM (scanTerm calls)
      answer (makeCall operators negated (String.ofList name) args)

def scanFormula (calls : Nat) (formula : List Char) : Attempt (Term ν) := do
  scanBalance greatest 0 formula
  scanTerm operators greatest calls formula

def Form.build (read : List Char → Except FormulaFault (Term ν)) :
    Form → Except FormulaFault (Term ν)
  | .atom negated first body => parseAtom negated first body
  | .call negated name pieces =>
    pieces.mapM read >>= makeCall operators negated (String.ofList name)

/-- The form that the scans find is the one by which a term is read, and they never miss the partner
of a parenthesis. -/
theorem exists_form (input : List Char) (closed : depthAfter? 0 input = some 0)
    (fits : utf8Len input ≤ greatest) :
    ∃ form, scanForm greatest input = answer form ∧
      parseTerm operators input = form >>= Form.build operators (parseTerm operators) ∧
      form ≠ .error .unclosed := by
  rcases body_cases input closed with body | ⟨first, tail, body, absent⟩ |
    ⟨name, inside, after, body, before, nested⟩
  · refine ⟨_, scanForm_nil greatest body, ?_, by simp⟩
    rw [parseTerm_nil operators input body]
    rfl
  · refine ⟨_, scanForm_atom greatest first tail body absent, ?_, by simp⟩
    rw [parseTerm_atom operators input first tail body absent]
    rfl
  · refine ⟨_, scanForm_call greatest name inside after body before nested fits, ?_, ?_⟩
    · rw [parseTerm_call operators input name _ body before,
        cutAtClose?_of_depthAfter? 0 inside after nested]
      by_cases upper : name.head?.any (!·.isUpper)
      · rw [if_pos upper, if_pos upper]
        rfl
      · rw [if_neg upper, if_neg upper]
        cases after <;> rfl
    · split
      · simp
      · split <;> simp

theorem scanTerm_of_closed (calls : Nat) (input : List Char) (below : input.length < calls)
    (closed : depthAfter? 0 input = some 0) (fits : utf8Len input ≤ greatest) :
    scanTerm operators greatest calls input = answer (parseTerm operators input) := by
  induction calls generalizing input with
  | zero => omega
  | succ calls ih =>
      rcases exists_form operators greatest input closed fits with ⟨form, scanned, read, _⟩
      rw [scanTerm, scanned, read]
      cases form with
      | error fault => rfl
      | ok form =>
          cases form with
          | atom negated first body => rfl
          | call negated name pieces =>
              -- each argument is shorter than the text, so that one call less is enough for it
              have each : ∀ piece ∈ pieces,
                  scanTerm operators greatest calls piece = answer (parseTerm operators piece) := by
                intro piece member
                have called : Calls greatest input piece := ⟨_, _, _, scanned, member⟩
                rcases called.shorter closed fits with ⟨within, shorter⟩
                apply ih piece (by omega) (depthAfter?_of_calls closed fits called)
                exact (String.utf8Len_le_of_infix within).trans fits
              have arguments := mapM_answer pieces _ _ each
              change pieces.mapM (scanTerm operators greatest calls) >>=
                (fun args => answer (makeCall operators _ _ args)) = _
              rw [arguments]
              exact answer_bind _ _

omit [Scalar ν] [Elementary ν] in
theorem checkBalance_ne_unclosed (depth : Nat) (text : List Char) :
    checkBalance depth text ≠ .error .unclosed := by
  fun_induction checkBalance depth text with
  | case1 => simp
  | case2 => simp
  | case3 _ _ ih => exact ih
  | case4 => simp
  | case5 _ _ ih => exact ih
  | case6 _ _ _ _ _ _ ih => exact ih

theorem parseAtom_ne_unclosed (negated : Bool) (first : Char) (body : List Char) :
    (parseAtom negated first body : Except FormulaFault (Term ν)) ≠ .error .unclosed := by
  unfold parseAtom
  dsimp only
  repeat' split
  all_goals simp

theorem makeCall_ne_unclosed (negated : Bool) (name : String) (args : List (Term ν)) :
    makeCall operators negated name args ≠ .error .unclosed := by
  unfold makeCall
  repeat' split
  all_goals simp

theorem parseTerm_ne_unclosed (bound : Nat) (input : List Char) (below : input.length < bound)
    (closed : depthAfter? 0 input = some 0) :
    parseTerm operators input ≠ .error .unclosed := by
  induction bound generalizing input with
  | zero => omega
  | succ bound ih =>
      rcases exists_form operators _ input closed le_rfl with ⟨form, scanned, read, found⟩
      rw [read]
      intro failed
      rcases bind_eq_error.mp failed with missed | ⟨form, rfl, refused⟩
      · exact found missed
      · cases form with
        | atom negated first body => exact parseAtom_ne_unclosed _ _ _ refused
        | call negated name pieces =>
            rcases bind_eq_error.mp refused with arguments | ⟨args, _, made⟩
            · rcases exists_of_mapM_eq_error arguments with ⟨piece, member, unclosed⟩
              have called : Calls (utf8Len input) input piece := ⟨_, _, _, scanned, member⟩
              have shorter := (called.shorter closed le_rfl).2
              exact ih piece (by omega) (depthAfter?_of_calls closed le_rfl called) unclosed
            · exact makeCall_ne_unclosed operators _ _ args made

theorem closed_of_reached {formula input : List Char} (reached : Reached greatest formula input)
    (closed : depthAfter? 0 formula = some 0) (fits : utf8Len formula ≤ greatest) :
    depthAfter? 0 input = some 0 ∧ utf8Len input ≤ greatest := by
  induction reached with
  | refl => exact ⟨closed, fits⟩
  | tail _ called ih =>
      rcases ih with ⟨outer, bounded⟩
      have within := (called.shorter outer bounded).1
      exact ⟨depthAfter?_of_calls outer bounded called,
        (String.utf8Len_le_of_infix within).trans bounded⟩

theorem scanFormula_eq (formula : List Char) (fits : utf8Len formula ≤ greatest) :
    scanFormula operators greatest (formula.length + 1) formula =
      answer (parseFormula operators formula) := by
  have balance := scanBalance_eq greatest 0 formula (by omega)
  rw [scanFormula, parseFormula]
  change scanBalance greatest (0 : Nat) formula >>= _ = _
  rw [balance]
  cases checked : checkBalance 0 formula with
  | error fault => rfl
  | ok =>
      have closed := (checkBalance_iff 0 formula).mp checked
      exact scanTerm_of_closed operators greatest _ formula (Nat.lt_succ_self _) closed fits

/-- In a formula that passes the balance check every text that is read as a term is balanced, and
the arguments read for it are shorter pieces of it. The scan from its first parenthesis finds the
partner and the scan for commas gives pieces that put together are what was cut, both with counters
that never fall below zero. Where words reach as far as the formula has bytes, any formula is read
to an end, with calls nested no deeper than it is long, all slices between characters, all counters
words, and no partner missed. -/
theorem balance_guards_descent (formula : List Char) (fits : utf8Len formula ≤ greatest) :
    (checkBalance 0 formula = .ok () → ∀ input, Reached greatest formula input →
      Guarded greatest input ∧ ∃ form, scanForm greatest input = answer form ∧
        parseTerm operators input = form >>= Form.build operators (parseTerm operators)) ∧
    (scanFormula operators greatest (formula.length + 1) formula).run =
      some (parseFormula operators formula) ∧
    parseFormula operators formula ≠ .error .unclosed := by
  refine ⟨?_, ?_, ?_⟩
  · intro checked input reached
    have closed := (checkBalance_iff 0 formula).mp checked
    rcases closed_of_reached greatest reached closed fits with ⟨inner, bounded⟩
    rcases exists_form operators greatest input inner bounded with ⟨form, scanned, read, _⟩
    exact ⟨guarded_of_closed inner bounded, form, scanned, read⟩
  · rw [scanFormula_eq operators greatest formula fits]
    rfl
  · intro unclosed
    rcases bind_eq_error.mp unclosed with checked | ⟨_, checked, read⟩
    · exact checkBalance_ne_unclosed 0 formula checked
    · have closed := (checkBalance_iff 0 formula).mp checked
      exact parseTerm_ne_unclosed operators _ formula (Nat.lt_succ_self _) closed read

/-- The letter of two bytes in the first argument shifts the offsets of all that follows it. -/
theorem balance_guards_descent_accented :
    utf8Len "Add(é,-(x))".toList ≤ 2 ^ 63 - 1 ∧ checkBalance 0 "Add(é,-(x))".toList = .ok () ∧
    Reached (2 ^ 63 - 1) "Add(é,-(x))".toList ['-', '(', 'x', ')'] ∧
    Guarded (2 ^ 63 - 1) ['-', '(', 'x', ')'] ∧
    matchingClose (2 ^ 63 - 1) "Add(é,-(x))".toList 3 = some (some 11) ∧
    (scanFormula (Operators.standard : Operators Float) (2 ^ 63 - 1) 12 "Add(é,-(x))".toList).run =
      some (parseFormula Operators.standard "Add(é,-(x))".toList) ∧
    parseFormula (Operators.standard : Operators Float) "Add(é,-(x))".toList ≠
      .error .unclosed := by
  have fits : utf8Len "Add(é,-(x))".toList ≤ 2 ^ 63 - 1 := by decide +kernel
  have checked : checkBalance 0 "Add(é,-(x))".toList = .ok () := by decide +kernel
  have form : scanForm (2 ^ 63 - 1) "Add(é,-(x))".toList =
      answer (.ok (.call false ['A', 'd', 'd'] [['é'], ['-', '(', 'x', ')']])) := by rfl
  have reached : Reached (2 ^ 63 - 1) "Add(é,-(x))".toList ['-', '(', 'x', ')'] :=
    .single ⟨_, _, _, form, by simp⟩
  obtain ⟨guarded, scanned, partners⟩ :=
    balance_guards_descent (Operators.standard : Operators Float) (2 ^ 63 - 1) _ fits
  exact ⟨fits, checked, reached, (guarded checked _ reached).1, by decide +kernel, scanned,
    partners⟩

end Terms

end Autoland.Formula
