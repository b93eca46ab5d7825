import Autoland.Proofs.WrittenFormulas

/-! Where the commas of a formula stand. Those inside parentheses separate arguments and are in no
word of the tree. Those outside all parentheses stand in the name of the outermost call, or the
formula is refused. -/

namespace Autoland.Formula

mutual

/-- The words a tree is made of: the texts of its constants and the names of its fields and
calls. -/
def Term.words {ν : Type} : Term ν → List String
  | .literal text _ _ => [text]
  | .field name _ => [name]
  | .call name _ args _ => name :: Term.listWords args

def Term.listWords {ν : Type} : List (Term ν) → List String
  | [] => []
  | arg :: args => arg.words ++ Term.listWords args

end

namespace Term

variable {ν : Type}

def outerName : Term ν → String
  | call name _ _ _ => name
  | _ => ""

def innerWords : Term ν → List String
  | call _ _ args _ => listWords args
  | term => term.words

theorem mem_words (term : Term ν) (word : String) (member : word ∈ term.words) :
    word = term.outerName ∨ word ∈ term.innerWords := by
  cases term with
  | literal => exact .inr member
  | field => exact .inr member
  | call name operator args negated =>
      rw [words, List.mem_cons] at member
      exact member

theorem mem_listWords (args : List (Term ν)) (word : String) :
    word ∈ listWords args ↔ ∃ arg ∈ args, word ∈ arg.words := by
  induction args with
  | nil => simp [listWords]
  | cons arg args ih => simp [listWords, ih]

end Term

def Bare (word : String) : Prop := '(' ∉ word.toList ∧ ')' ∉ word.toList ∧ ',' ∉ word.toList

/-- Whether each comma of a text stands inside parentheses, with `depth` of them open before the
text. -/
def Enclosed (depth : Nat) (text : List Char) : Prop :=
  ∀ front back, text = front ++ ',' :: back → depthAfter? depth front ≠ some 0

/-- What arguments are: texts that close what they open and have their commas inside
parentheses. -/
structure Whole (depth : Nat) (text : List Char) : Prop where
  closed : depthAfter? depth text = some 0
  enclosed : Enclosed depth text

theorem depthAfter?_cons (depth : Nat) (c : Char) (rest : List Char) :
    depthAfter? depth (c :: rest) =
      (depthAfter? depth [c]).bind fun next => depthAfter? next rest :=
  depthAfter?_append depth [c] rest

theorem whole_nil : Whole 0 [] := ⟨rfl, by simp [Enclosed]⟩

theorem Whole.cons {depth next : Nat} {c : Char} {text : List Char} (whole : Whole next text)
    (moved : depthAfter? depth [c] = some next) (kept : depth = 0 → c ≠ ',') :
    Whole depth (c :: text) where
  closed := by rw [depthAfter?_cons, moved, Option.bind_some, whole.closed]
  enclosed := by
    intro front back same outside
    cases front with
    | nil =>
        cases same
        cases outside
        exact kept rfl rfl
    | cons first front =>
        cases same
        rw [depthAfter?_cons, moved, Option.bind_some] at outside
        exact whole.enclosed front back rfl outside

/-- Of a text that closes what is open, the pieces between the commas outside all parentheses are
whole; the first one closes what was open before. -/
theorem whole_of_cutAtCommas (depth : Nat) (text : List Char)
    (closed : depthAfter? depth text = some 0) :
    ∃ first rest, cutAtCommas depth text = first :: rest ∧ Whole depth first ∧
      ∀ piece ∈ rest, Whole 0 piece := by
  induction text generalizing depth with
  | nil =>
      cases closed
      exact ⟨[], [], rfl, whole_nil, by simp⟩
  | cons c text ih =>
      rcases parenthesis_cases c with rfl | rfl | ⟨opens, closes⟩
      · obtain ⟨first, rest, cut, head, others⟩ := ih (depth + 1) closed
        exact ⟨'(' :: first, rest, by rw [cutAtCommas, cut, consFirst],
          head.cons rfl (by simp), others⟩
      · cases depth with
        | zero => cases closed
        | succ depth =>
            obtain ⟨first, rest, cut, head, others⟩ := ih depth closed
            exact ⟨')' :: first, rest, by rw [cutAtCommas, Nat.add_sub_cancel, cut, consFirst],
              head.cons rfl (by simp), others⟩
      · rw [depthAfter?_other c text opens closes] at closed
        obtain ⟨first, rest, cut, head, others⟩ := ih depth closed
        by_cases separates : depth = 0 ∧ c = ','
        · obtain ⟨rfl, rfl⟩ := separates
          exact ⟨[], first :: rest, by rw [cutAtCommas, cut], whole_nil,
            List.forall_mem_cons.mpr ⟨head, others⟩⟩
        · have kept : depth = 0 → c ≠ ',' := fun zero comma => separates ⟨zero, comma⟩
          refine ⟨c :: first, rest, ?_, head.cons ?_ kept, others⟩
          · rw [cutAtCommas_other c text opens closes depth kept, cut, consFirst]
          · rw [depthAfter?_other c [] opens closes, depthAfter?]

theorem whole_of_splitArguments (inside : List Char) (closed : depthAfter? 0 inside = some 0) :
    ∀ piece ∈ splitArguments inside, Whole 0 piece := by
  intro piece member
  unfold splitArguments at member
  split at member
  · cases member
  · obtain ⟨first, rest, cut, head, others⟩ := whole_of_cutAtCommas 0 inside closed
    rw [cut] at member
    rcases List.mem_cons.mp member with rfl | member
    · exact head
    · exact others piece member

theorem close_not_mem_head (head rest : List Char) (opens : '(' ∉ head)
    (closed : depthAfter? 0 (head ++ rest) = some 0) : ')' ∉ head := by
  induction head with
  | nil => simp
  | cons c head ih =>
      rw [List.mem_cons, not_or] at opens
      rcases parenthesis_cases c with rfl | rfl | ⟨_, closes⟩
      · exact absurd rfl opens.1
      · cases closed
      · rw [List.cons_append, depthAfter?_other c _ (Ne.symm opens.1) closes] at closed
        rw [List.mem_cons, not_or]
        exact ⟨Ne.symm closes, ih opens.2 closed⟩

theorem mem_signed (negated : Bool) (name : List Char) (c : Char) (other : c ≠ '-') :
    c ∈ signChars negated ++ name ↔ c ∈ name := by
  cases negated with
  | false => rfl
  | true => simp [signChars, other]

section Call

variable (head inside : List Char) (opens : '(' ∉ head) (closes : ')' ∉ head)

include opens closes

theorem depthAfter?_head (front : List Char) (start : front <+: head) :
    depthAfter? 0 front = some 0 := by
  apply depthAfter?_of_plain
  intro c member
  have inside := start.subset member
  exact ⟨fun same => opens (same ▸ inside), fun same => closes (same ▸ inside)⟩

theorem comma_not_mem_head (rest : List Char) (enclosed : Enclosed 0 (head ++ rest)) :
    ',' ∉ head := by
  intro comma
  obtain ⟨front, back, split⟩ := List.append_of_mem comma
  refine enclosed front (back ++ rest) ?_ ?_
  · rw [split, List.append_assoc, List.cons_append]
  · exact depthAfter?_head head opens closes front ⟨',' :: back, split.symm⟩

theorem outside_call_iff (closed : depthAfter? 0 inside = some 0) (front back : List Char)
    (split : head ++ '(' :: (inside ++ [')']) = front ++ ',' :: back) :
    depthAfter? 0 front = some 0 ↔ front ++ [','] <+: head := by
  rcases List.append_eq_append_iff.mp split with ⟨middle, rfl, later⟩ | ⟨middle, rfl, later⟩
  · refine iff_of_false ?_ fun start => ?_
    · cases middle with
      | nil => cases later
      | cons c middle =>
          rw [List.cons_append, List.cons.injEq] at later
          obtain ⟨rfl, later⟩ := later
          have before : ∃ rest, inside = middle ++ rest := by
            rcases List.append_eq_append_iff.mp later with ⟨rest, rfl, ends⟩ | ⟨rest, rfl, _⟩
            · cases rest with
              | nil => cases ends
              | cons c rest => simp at ends
            · exact ⟨rest, rfl⟩
          obtain ⟨rest, rfl⟩ := before
          rw [depthAfter?_append] at closed
          obtain ⟨reached, found, _⟩ := Option.bind_eq_some_iff.mp closed
          have below := depthAfter?_below 1 0 middle reached found
          rw [depthAfter?_append, depthAfter?_head head opens closes head List.prefix_rfl,
            Option.bind_some, depthAfter?, below]
          simp
    · have longer := start.length_le
      simp at longer
  · cases middle with
    | nil => cases later
    | cons c middle =>
        obtain ⟨rfl, later⟩ := List.cons.inj later
        refine iff_of_true ?_ ⟨middle, by simp⟩
        exact depthAfter?_head _ opens closes front (List.prefix_append _ _)

end Call

variable {ν : Type} [Scalar ν] [Elementary ν] (operators : Operators ν)

theorem bare_of_parseAtom (negated : Bool) (first : Char) (body : List Char) (term : Term ν)
    (opens : '(' ∉ body) (read : parseAtom negated first body = .ok term) :
    term.words = [String.ofList body] ∧ term.innerWords = term.words ∧ term.outerName = "" ∧
      Bare (String.ofList body) := by
  have bare : (body.any fun c => c = ',' || c = ')') = false → Bare (String.ofList body) := by
    intro separated
    rw [List.any_eq_false] at separated
    rw [Bare, String.toList_ofList]
    refine ⟨opens, fun member => ?_, fun member => ?_⟩
    · exact separated _ member (by decide)
    · exact separated _ member (by decide)
  unfold parseAtom at read
  dsimp only at read
  split at read
  · cases read
  · rename_i separated
    have free := bare (Bool.eq_false_iff.mpr separated)
    split at read
    · split at read
      · cases read
        exact ⟨rfl, rfl, rfl, free⟩
      · cases read
    · split at read
      · cases read
        exact ⟨rfl, rfl, rfl, free⟩
      · cases read

/-- The words below the outermost call are bare. Its name holds no parenthesis, and no comma if all
commas of the text are enclosed. -/
theorem words_of_parseTerm (bound : Nat) (input : List Char) (term : Term ν)
    (below : input.length < bound) (closed : depthAfter? 0 input = some 0)
    (read : parseTerm operators input = .ok term) :
    (∀ word ∈ term.innerWords, Bare word) ∧ '(' ∉ term.outerName.toList ∧
      ')' ∉ term.outerName.toList ∧ (Enclosed 0 input → ',' ∉ term.outerName.toList) := by
  induction bound generalizing input term with
  | zero => omega
  | succ bound ih =>
      have whole := splitMinus_write input
      rcases parseTerm_eq_ok operators input term read with ⟨first, tail, _, opens, atom⟩ |
        ⟨name, inside, args, body, opens, _, nested, each, made⟩
      · obtain ⟨words, inner, outer, bare⟩ := bare_of_parseAtom _ first _ term opens atom
        rw [inner, words, outer]
        exact ⟨by simpa using bare, by simp, by simp, by simp⟩
      · obtain rfl := makeCall_eq_ok operators _ _ args term made
        rw [body, ← List.append_assoc] at whole
        rw [← whole] at closed ⊢
        have headOpens : '(' ∉ signChars (splitMinus input).1 ++ name :=
          mt (mem_signed _ name _ (by decide)).mp opens
        have headCloses := close_not_mem_head _ _ headOpens closed
        rw [Term.outerName, String.toList_ofList]
        refine ⟨?_, opens, ?_, ?_⟩
        · intro word member
          obtain ⟨arg, listed, inWord⟩ := (Term.mem_listWords args word).mp member
          obtain ⟨piece, cut, found⟩ := exists_of_mem_right each arg listed
          have shorter := length_of_argument input name inside piece body cut
          have piecewise := whole_of_splitArguments inside nested piece cut
          obtain ⟨inner, outerOpens, outerCloses, outerComma⟩ :=
            ih piece arg (by omega) piecewise.closed found
          rcases arg.mem_words word inWord with rfl | inner'
          · exact ⟨outerOpens, outerCloses, outerComma piecewise.enclosed⟩
          · exact inner word inner'
        · exact fun member => headCloses (List.mem_append_right _ member)
        · intro enclosed member
          exact comma_not_mem_head _ headOpens headCloses _ enclosed
            (List.mem_append_right _ member)

/-- Whether a text is a call whose name starts with an upper-case letter and holds a comma, with
arguments that can be read and are as many as the operator takes if it is known. -/
def NamedWithComma (text : List Char) : Prop :=
  ∃ negated name inside args, text = signChars negated ++ (name ++ '(' :: (inside ++ [')'])) ∧
    name.head?.any Char.isUpper ∧ ('(' ∉ name ∧ ')' ∉ name ∧ ',' ∈ name) ∧
    depthAfter? 0 inside = some 0 ∧
    (splitArguments inside).mapM (parseTerm operators) = .ok args ∧
    ∀ operator, operators.resolve? (String.ofList name) = some operator →
      operator.arity = args.length

variable {operators}

theorem not_enclosed_of_named (text : List Char) (named : NamedWithComma operators text) :
    ¬Enclosed 0 text := by
  obtain ⟨negated, name, inside, args, rfl, _, ⟨opens, closes, comma⟩, _⟩ := named
  intro enclosed
  rw [← List.append_assoc] at enclosed
  exact comma_not_mem_head (signChars negated ++ name) (mt (mem_signed _ _ _ (by decide)).mp opens)
    (mt (mem_signed _ _ _ (by decide)).mp closes) _ enclosed (List.mem_append_right _ comma)

theorem reads_of_named (text : List Char) (named : NamedWithComma operators text) :
    depthAfter? 0 text = some 0 ∧ ∃ term, parseTerm operators text = .ok term := by
  obtain ⟨negated, name, inside, args, rfl, led, ⟨opens, closes, _⟩, nested, read, counted⟩ := named
  have upper : name.head?.all Char.isUpper := by
    cases name with
    | nil => rfl
    | cons first tail => exact led
  have signed : (name ++ '(' :: (inside ++ [')'])).head? = some '-' → negated = true := by
    cases name with
    | nil => cases led
    | cons first tail =>
        intro minus
        cases minus
        rw [List.head?_cons, Option.any_some] at led
        exact absurd led (by decide)
  have body := splitMinus_signChars negated _ signed
  constructor
  · rw [← List.append_assoc]
    refine depthAfter?_parentheses _ inside (fun c member => ?_) nested
    refine ⟨fun same => opens ?_, fun same => closes ?_⟩
    · exact (mem_signed negated name '(' (by decide)).mp (same ▸ member)
    · exact (mem_signed negated name ')' (by decide)).mp (same ▸ member)
  · refine ⟨.call (String.ofList name) (operators.resolve? (String.ofList name)) args negated, ?_⟩
    rw [parseTerm_closed operators _ name inside (by rw [body]) opens upper nested, read, body]
    exact makeCall_counted _ args negated counted

theorem named_of_parseTerm (text : List Char) (term : Term ν) (closed : depthAfter? 0 text = some 0)
    (read : parseTerm operators text = .ok term) :
    NamedWithComma operators text ∨ ',' ∉ term.outerName.toList := by
  obtain ⟨_, outerOpens, outerCloses, _⟩ :=
    words_of_parseTerm operators _ text term (Nat.lt_succ_self _) closed read
  rcases parseTerm_eq_ok operators text term read with ⟨first, tail, _, opens, atom⟩ |
    ⟨name, inside, args, body, opens, led, nested, each, made⟩
  · obtain ⟨_, _, outer, _⟩ := bare_of_parseAtom _ first _ term opens atom
    exact .inr (by simp [outer])
  · have call := makeCall_eq_ok operators _ _ args term made
    rw [call, Term.outerName, String.toList_ofList] at outerCloses ⊢
    by_cases comma : ',' ∈ name
    · refine .inl ⟨(splitMinus text).1, name, inside, args, ?_, ?_, ⟨opens, outerCloses, comma⟩,
        nested, (mapM_eq_ok_iff _ _ _).mpr each, ?_⟩
      · rw [← body, splitMinus_write]
      · cases name with
        | nil => cases comma
        | cons first tail => exact led
      · intro operator known
        unfold makeCall at made
        rw [known] at made
        dsimp only at made
        split at made
        · assumption
        · cases made
    · exact .inr comma

theorem outside_iff_of_parseTerm (text : List Char) (term : Term ν)
    (closed : depthAfter? 0 text = some 0) (read : parseTerm operators text = .ok term)
    (front back : List Char) (split : text = front ++ ',' :: back) :
    depthAfter? 0 front = some 0 ↔
      front ++ [','] <+: signChars term.isNegated ++ term.outerName.toList := by
  obtain ⟨_, outerOpens, outerCloses, _⟩ :=
    words_of_parseTerm operators _ text term (Nat.lt_succ_self _) closed read
  have written := chars_of_parseTerm operators _ text term (Nat.lt_succ_self _) read
  rcases parseTerm_eq_ok operators text term read with ⟨first, tail, body, opens, atom⟩ |
    ⟨name, inside, args, body, opens, _, nested, each, made⟩
  · obtain ⟨_, _, _, bare⟩ := bare_of_parseAtom _ first _ term opens atom
    have comma : ',' ∈ signChars (splitMinus text).1 ++ first :: tail := by
      rw [← body, splitMinus_write, split]
      simp
    rw [mem_signed _ _ _ (by decide)] at comma
    rw [Bare, String.toList_ofList] at bare
    exact absurd comma bare.2.2
  · have call := makeCall_eq_ok operators _ _ args term made
    rw [call, Term.outerName, String.toList_ofList] at outerCloses ⊢
    refine outside_call_iff (signChars (splitMinus text).1 ++ name) inside
      (mt (mem_signed _ _ _ (by decide)).mp opens)
      (mt (mem_signed _ _ _ (by decide)).mp outerCloses) nested front back ?_
    rw [List.append_assoc, ← body, splitMinus_write, split]

theorem enclosed_iff_of_parseTerm (text : List Char) (term : Term ν)
    (closed : depthAfter? 0 text = some 0) (read : parseTerm operators text = .ok term) :
    Enclosed 0 text ↔ ',' ∉ term.outerName.toList := by
  constructor
  · obtain ⟨_, _, _, free⟩ :=
      words_of_parseTerm operators _ text term (Nat.lt_succ_self _) closed read
    exact free
  · intro free front back split outside
    have start := (outside_iff_of_parseTerm text term closed read front back split).mp outside
    have member : ',' ∈ signChars term.isNegated ++ term.outerName.toList :=
      start.subset (by simp)
    exact free ((mem_signed _ _ _ (by decide)).mp member)

namespace Expression

/-- A formula compiles or is refused as malformed. One that compiles closes what it opens and has no
parenthesis in any word and no comma in any word below the outermost call. Its commas outside all
parentheses are those in the name of that call, and there are formulas with such commas: the calls
with a comma in a name that starts with an upper-case letter. -/
theorem outer_commas_stand_in_name (operators : Operators ν) (formula : String) :
    let text := Text.squeeze formula.toList
    ((∃ expression, parse operators formula = .ok expression) ∨
      ∃ fault, parse operators formula = .error (.malformedFormula (String.ofList text) fault)) ∧
    (∀ expression, parse operators formula = .ok expression →
      depthAfter? 0 text = some 0 ∧
      (∀ word ∈ expression.root.words, '(' ∉ word.toList ∧ ')' ∉ word.toList) ∧
      (∀ word ∈ expression.root.innerWords, ',' ∉ word.toList) ∧
      (∀ front back, text = front ++ ',' :: back →
        (depthAfter? 0 front = some 0 ↔
          front ++ [','] <+:
            signChars expression.root.isNegated ++ expression.root.outerName.toList)) ∧
      (Enclosed 0 text ↔ ',' ∉ expression.root.outerName.toList)) ∧
    ((∃ expression, parse operators formula = .ok expression) ∧ ¬Enclosed 0 text ↔
      NamedWithComma operators text) := by
  intro text
  have compiled : ∀ expression, parse operators formula = .ok expression ↔
      expression.source = String.ofList text ∧ depthAfter? 0 text = some 0 ∧
        parseTerm operators text = .ok expression.root := by
    intro expression
    rw [parse_eq_ok_iff, checkBalance_iff]
  refine ⟨?_, ?_, ?_⟩
  · unfold parse
    dsimp only
    split
    · exact .inl ⟨_, rfl⟩
    · exact .inr ⟨_, rfl⟩
  · intro expression made
    obtain ⟨_, closed, read⟩ := (compiled expression).mp made
    obtain ⟨inner, outerOpens, outerCloses, _⟩ :=
      words_of_parseTerm operators _ text expression.root (Nat.lt_succ_self _) closed read
    refine ⟨closed, ?_, fun word member => (inner word member).2.2,
      outside_iff_of_parseTerm text expression.root closed read,
      enclosed_iff_of_parseTerm text expression.root closed read⟩
    intro word member
    rcases expression.root.mem_words word member with rfl | below
    · exact ⟨outerOpens, outerCloses⟩
    · exact ⟨(inner word below).1, (inner word below).2.1⟩
  · constructor
    · rintro ⟨⟨expression, made⟩, outside⟩
      obtain ⟨_, closed, read⟩ := (compiled expression).mp made
      rcases named_of_parseTerm text expression.root closed read with named | free
      · exact named
      · exact absurd ((enclosed_iff_of_parseTerm text _ closed read).mpr free) outside
    · intro named
      obtain ⟨closed, term, read⟩ := reads_of_named text named
      refine ⟨⟨⟨String.ofList text, term⟩, ?_⟩, not_enclosed_of_named text named⟩
      exact (compiled _).mpr ⟨rfl, closed, read⟩

theorem outer_commas_stand_in_name_glued :
    ∃ expression, parse (Operators.standard : Operators Float) "A,b(x)" = .ok expression ∧
      ¬Enclosed 0 (Text.squeeze "A,b(x)".toList) ∧ ',' ∈ expression.root.outerName.toList := by
  have squeezed : Text.squeeze "A,b(x)".toList = ['A', ',', 'b', '(', 'x', ')'] := by
    decide +kernel
  have argument : (splitArguments ['x']).mapM (parseTerm (Operators.standard : Operators Float)) =
      .ok [.field "x" false] := by
    have letters : "x".toList = ['x'] := by decide +kernel
    have atom := parseTerm_atom (Operators.standard : Operators Float) ['x'] 'x' [] rfl (by decide)
    have field := parseAtom_field (ν := Float) "x" false 'x' [] letters (by decide +kernel)
      (by decide +kernel) (by decide +kernel)
    have read : parseTerm (Operators.standard : Operators Float) ['x'] = .ok (.field "x" false) :=
      atom.trans field
    have pieces : splitArguments ['x'] = [['x']] := by decide
    rw [pieces, mapM_eq_ok_iff]
    exact .cons read .nil
  have unknown : (Operators.standard : Operators Float).resolve? (String.ofList ['A', ',', 'b']) =
      none := by
    decide +kernel
  have named : NamedWithComma (Operators.standard : Operators Float)
      (Text.squeeze "A,b(x)".toList) := by
    rw [squeezed]
    refine ⟨false, ['A', ',', 'b'], ['x'], _, rfl, by decide, by decide, by decide, argument, ?_⟩
    intro operator known
    rw [unknown] at known
    cases known
  obtain ⟨_, each, exactly⟩ := outer_commas_stand_in_name (Operators.standard : Operators Float)
    "A,b(x)"
  obtain ⟨⟨expression, made⟩, outside⟩ := exactly.mpr named
  obtain ⟨_, _, _, _, enclosed⟩ := each expression made
  exact ⟨expression, made, outside, not_not.mp fun free => outside (enclosed.mpr free)⟩

end Expression

end Autoland.Formula
