import Autoland.Proofs.MirrorSymmetry

/-! What a formula reads. Its fields are the names in its tree in the order of their first mention,
and its value is settled by what these resolve to, in one source or in two. -/

namespace Autoland.Formula

variable {ν : Type}

namespace Term

mutual

def mentions : Term ν → List String
  | literal .. => []
  | field name _ => [name]
  | call _ _ args _ => listMentions args

def listMentions : List (Term ν) → List String
  | [] => []
  | arg :: args => mentions arg ++ listMentions args

end

mutual

theorem fieldsAfter_eq_foldl (seen : List String) (term : Term ν) :
    fieldsAfter seen term = term.mentions.foldl
      (fun kept next => if next ∈ kept then kept else kept ++ [next]) seen := by
  cases term with
  | literal text value negated => rfl
  | field name negated => rfl
  | call name operator args negated =>
      rw [fieldsAfter, mentions]
      exact listFieldsAfter_eq_foldl seen args

theorem listFieldsAfter_eq_foldl (seen : List String) (args : List (Term ν)) :
    listFieldsAfter seen args = (listMentions args).foldl
      (fun kept next => if next ∈ kept then kept else kept ++ [next]) seen := by
  cases args with
  | nil => rfl
  | cons arg args =>
      rw [listFieldsAfter, listMentions, List.foldl_append, fieldsAfter_eq_foldl seen arg]
      exact listFieldsAfter_eq_foldl _ args

end

theorem mem_fields (term : Term ν) (name : String) :
    name ∈ term.fields ↔ name ∈ term.mentions := by
  rw [fields, fieldsAfter_eq_foldl, Problem.mem_keepFirst]
  simp

theorem nodup_fields (term : Term ν) : term.fields.Nodup := by
  rw [fields, fieldsAfter_eq_foldl]
  exact Problem.nodup_keepFirst _ [] List.nodup_nil

end Term

theorem pairwise_idxOf_keepFirst {α : Type} [DecidableEq α] (items : List α) :
    (items.foldl (fun kept next => if next ∈ kept then kept else kept ++ [next]) []).Pairwise
      fun one two => items.idxOf one < items.idxOf two := by
  induction items using List.reverseRecOn with
  | nil => exact List.Pairwise.nil
  | append_singleton items last ih =>
      have member := fun item => Problem.mem_keepFirst items [] item
      simp only [List.not_mem_nil, false_or] at member
      rw [List.foldl_concat]
      generalize items.foldl _ [] = kept at ih member ⊢
      have before : kept.Pairwise fun one two =>
          (items ++ [last]).idxOf one < (items ++ [last]).idxOf two := by
        refine ih.imp_of_mem fun one two less => ?_
        rwa [List.idxOf_append_of_mem ((member _).mp one),
          List.idxOf_append_of_mem ((member _).mp two)]
      split
      · exact before
      · rename_i fresh
        refine List.pairwise_append.mpr ⟨before, List.pairwise_singleton _ _, ?_⟩
        intro one inside two single
        rw [List.mem_singleton.mp single, List.idxOf_append_of_mem ((member _).mp inside),
          List.idxOf_append_of_notMem (fun old => fresh ((member _).mpr old))]
        exact (List.idxOf_lt_length_iff.mpr ((member _).mp inside)).trans_le (Nat.le_add_right _ _)

theorem Term.pairwise_fields (term : Term ν) :
    term.fields.Pairwise fun one two => term.mentions.idxOf one < term.mentions.idxOf two := by
  rw [fields, fieldsAfter_eq_foldl]
  exact pairwise_idxOf_keepFirst term.mentions

variable [Scalar ν]

/-- What a name resolves to in two sources: its value in the first that knows it, and zero if
neither does. -/
def Fields.resolve (primary fallback : Fields ν) (name : String) : ν :=
  match primary name with
  | some value => value
  | .none =>
    match fallback name with
    | some value => value
    | .none => 0.0

theorem Fields.getD_orElse (primary fallback : Fields ν) (name : String) :
    (primary.orElse fallback name).getD 0.0 = primary.resolve fallback name := by
  unfold orElse resolve
  cases primary name with
  | some value => rfl
  | none => cases fallback name <;> rfl

namespace Expression

theorem evaluate_congr_getD (expression : Expression ν) (first second : Fields ν)
    (agree : ∀ name ∈ expression.fields, (first name).getD 0.0 = (second name).getD 0.0) :
    expression.evaluate first = expression.evaluate second :=
  Term.evaluate_congr _ _ [] expression.root agree

/-- A formula reads its fields and nothing else. They are the names in its tree, each once, in the
order in which a walk from left to right first meets them. Two pairs of sources in which they
resolve alike give the formula one value, and so do one source and any two into which it is split
such that they resolve as in the one. -/
theorem reads_listed_fields_only (expression : Expression ν) :
    (expression.fields.Nodup ∧
      (∀ name, name ∈ expression.fields ↔ name ∈ expression.root.mentions) ∧
      expression.fields.Pairwise fun one two =>
        expression.root.mentions.idxOf one < expression.root.mentions.idxOf two) ∧
    (∀ primary fallback first second : Fields ν,
      (∀ name ∈ expression.fields, primary.resolve fallback name = first.resolve second name) →
        expression.evaluateOn primary fallback = expression.evaluateOn first second) ∧
    ∀ source primary fallback : Fields ν,
      (∀ name ∈ expression.fields, (source name).getD 0.0 = primary.resolve fallback name) →
        expression.evaluate source = expression.evaluateOn primary fallback := by
  refine ⟨⟨expression.root.nodup_fields, expression.root.mem_fields,
    expression.root.pairwise_fields⟩, ?_, ?_⟩
  · intro primary fallback first second alike
    apply evaluate_congr_getD
    intro name read
    rw [Fields.getD_orElse, Fields.getD_orElse, alike name read]
  · intro source primary fallback alike
    apply evaluate_congr_getD
    intro name read
    rw [Fields.getD_orElse, alike name read]

/-- A difference that mentions three names, two of them twice, and one only where its operator is
not known. It is worth -13 in a source with 2 for `a` and 4 for `b`. So it is in two sources, of
which the second has another value for `a`, and in two that know `d` and zeros besides. -/
theorem reads_listed_fields_only_unknown_operator :
    let whole : Fields Float := .ofFirst [("a", 2.0), ("b", 4.0)]
    ∃ expression : Expression Float,
      parse Operators.standard "-Sub(-Mult(b,-a),Add(Frobnicate(c,-a),-b))" = .ok expression ∧
      expression.root.mentions = ["b", "a", "c", "a", "b"] ∧
      expression.fields = ["b", "a", "c"] ∧ "c" ∈ expression.fields ∧ "d" ∉ expression.fields ∧
      expression.evaluate whole = -13.0 ∧
      expression.evaluateOn (.ofFirst [("a", 2.0)]) (.ofFirst [("a", 7.0), ("b", 4.0)]) = -13.0 ∧
      expression.evaluateOn (.ofFirst [("c", 0.0), ("d", 1.0)]) whole = -13.0 := by
  intro whole
  have computed : (parse (Operators.standard : Operators Float)
      "-Sub(-Mult(b,-a),Add(Frobnicate(c,-a),-b))").toOption.any (fun expression =>
        expression.root.mentions = ["b", "a", "c", "a", "b"] ∧
        expression.fields = ["b", "a", "c"] ∧ expression.evaluate whole = -13.0) = true := by
    decide +kernel
  obtain ⟨expression, found, facts⟩ := (Option.any_eq_true _ _).mp computed
  obtain ⟨mentioned, listed, worth⟩ := of_decide_eq_true facts
  obtain ⟨⟨_, named, _⟩, pairs, splits⟩ := reads_listed_fields_only expression
  have split := splits whole (.ofFirst [("a", 2.0)]) (.ofFirst [("a", 7.0), ("b", 4.0)]) (by
    rw [listed]
    decide +kernel)
  have same := pairs (.ofFirst [("a", 2.0)]) (.ofFirst [("a", 7.0), ("b", 4.0)])
    (.ofFirst [("c", 0.0), ("d", 1.0)]) whole (by
      rw [listed]
      decide +kernel)
  refine ⟨expression, eq_ok_of_toOption found, mentioned, listed, ?_, ?_, worth,
    split.symm.trans worth, same.symm.trans (split.symm.trans worth)⟩
  · rw [named, mentioned]
    decide
  · rw [named, mentioned]
    decide

end Expression

end Autoland.Formula
