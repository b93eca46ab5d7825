import Autoland.Proofs.JsonTexts
import Autoland.Proofs.SinglePrecision
import Autoland.Table.File

/-! The numbers of stored tables. A finite value is written as a number and read wherever that
number may stand; any other value is written as `null`, which is no number. -/

namespace Autoland

open JsonToken JsonReader

namespace NumberLayout

theorem isDigit_of_mem_toString (n : Nat) (c : Char) (member : c ∈ (toString n).toList) :
    c.isDigit = true :=
  Numeral.isDigit_of_mem_toDigits n c (Nat.toList_repr ▸ member)

theorem isNumeric_toString (n : Int) (c : Char) (member : c ∈ (toString n).toList) :
    IsNumeric c := by
  cases n with
  | ofNat n => exact .inl (isDigit_of_mem_toString n c member)
  | negSucc n =>
      have shape : (toString (Int.negSucc n)).toList = '-' :: (toString (n + 1)).toList :=
        String.toList_append
      rw [shape] at member
      rcases List.mem_cons.mp member with rfl | digit
      · exact .inr (by decide)
      · exact .inl (isDigit_of_mem_toString (n + 1) c digit)

def AllNumeric (text : String) : Prop := ∀ c ∈ text.toList, IsNumeric c

instance (text : String) : Decidable (AllNumeric text) := List.decidableBAll IsNumeric text.toList

theorem AllNumeric.append {front back : String} (one : AllNumeric front) (two : AllNumeric back) :
    AllNumeric (front ++ back) := by
  intro c member
  rw [String.toList_append] at member
  exact (List.mem_append.mp member).elim (one c) (two c)

theorem allNumeric_zeros (n : Nat) : AllNumeric (zeros n) := by
  intro c member
  rw [zeros, String.toList_ofList] at member
  rw [List.eq_of_mem_replicate member]
  exact .inl rfl

theorem allNumeric_drop (count n : Nat) : AllNumeric ((toString count).drop n).toString := by
  intro c member
  exact .inl (isDigit_of_mem_toString count c (List.mem_of_mem_drop (by simpa using member)))

theorem numeric_append (front back : String) (numeric : Numeric front.toList)
    (all : AllNumeric back) : Numeric (front ++ back).toList := by
  rcases numeric with ⟨⟨first, starts, led⟩, front⟩
  rw [String.toList_append]
  constructor
  · exact ⟨first, List.mem_head?_append_of_mem_head? starts, led⟩
  · intro c member
    exact (List.mem_append.mp member).elim (front c) (all c)

theorem numeric_toString (count : Nat) : Numeric (toString count).toList :=
  Nat.toList_repr ▸ numeric_toDigits count

theorem numeric_take (count n : Nat) (some : 0 < n) :
    Numeric ((toString count).take n).toString.toList := by
  have shape : ((toString count).take n).toString.toList = (toString count).toList.take n := by simp
  have whole := numeric_toString count
  rw [shape]
  constructor
  · rw [List.head?_take, if_neg (Nat.ne_of_gt some)]
    exact whole.led
  · exact fun c member => whole.all c (List.mem_of_mem_take member)

theorem numeric_digits (layout : NumberLayout) (mark : AllNumeric layout.wholeMark) (count : Nat)
    (place : Int) : Numeric (layout.digits count place).toList := by
  have point : AllNumeric "." := by decide
  have exponent : AllNumeric ("e" ++ toString ((toString count).length + place - 1)) :=
    AllNumeric.append (by decide) (isNumeric_toString _)
  have zero : AllNumeric "0." := by decide
  have start : Numeric "0.".toList := ⟨⟨'0', rfl, .inl rfl⟩, zero⟩
  unfold digits
  dsimp only
  split
  · split
    · exact numeric_append _ _ (numeric_toString count) exponent
    · rw [String.append_assoc, String.append_assoc]
      exact numeric_append _ _ (numeric_take count 1 (by decide))
        (point.append ((allNumeric_drop count 1).append exponent))
  · split
    · rw [String.append_assoc]
      exact numeric_append _ _ (numeric_toString count) ((allNumeric_zeros _).append mark)
    · split
      · rename_i inside
        rw [String.append_assoc]
        exact numeric_append _ _ (numeric_take count _ (by omega))
          (point.append (allNumeric_drop count _))
      · rw [String.append_assoc]
        exact numeric_append _ _ start ((allNumeric_zeros _).append (isNumeric_toString count))

theorem numeric_signText (negative : Bool) (text : String) (numeric : Numeric text.toList) :
    Numeric (signText negative ++ text).toList := by
  cases negative with
  | false => exact String.empty_append ▸ numeric
  | true =>
      have minus : AllNumeric "-" := by decide
      exact numeric_append "-" text ⟨⟨'-', rfl, .inr rfl⟩, minus⟩ numeric.all

end NumberLayout

theorem readUnlimited?_of_numeric (text : String) (numeric : Numeric text.toList) :
    readUnlimited? text = JsonNumber.read? text.toList := by
  rcases numeric with ⟨⟨first, starts, led⟩, all⟩
  rcases List.head?_eq_some_iff.mp starts with ⟨rest, chars⟩
  rw [chars] at all
  have start : (⟨[], .between⟩ : Lexer).step? first = some ⟨[], .number [first]⟩ :=
    startToken?_numeric [] first led
  have lexed : lex? (first :: rest) =
      (JsonNumber.read? (first :: rest)).map fun value => [leaf value] := by
    have scanned : (first :: rest).foldlM Lexer.step? ⟨[], .between⟩ =
        some ⟨[], .number (rest.reverse ++ [first])⟩ := by
      rw [List.foldlM_cons, start, Option.bind_eq_bind, Option.bind_some]
      exact scan_number [] [first] rest (List.forall_mem_cons.mp all).2
    rw [lex?, scanned, Option.bind_eq_bind, Option.bind_some, Lexer.finish?]
    dsimp only
    rw [List.reverse_append, List.reverse_reverse, List.reverse_singleton, List.singleton_append]
    cases JsonNumber.read? (first :: rest) <;> rfl
  rw [readUnlimited?, read?, chars, lexed]
  cases JsonNumber.read? (first :: rest) <;> rfl

theorem numeric_write (layout : NumberLayout) (mark : NumberLayout.AllNumeric layout.wholeMark)
    (shape : FloatShape) (number : ∃ value, readUnlimited? (JsonWriter.number layout shape) =
      some value ∧ (Table.single? value).isSome) :
    Numeric (JsonWriter.number layout shape).toList := by
  have null : readUnlimited? "null" = some .null := rfl
  obtain ⟨value, read, isNumber⟩ := number
  cases shape with
  | notANumber =>
      cases null.symm.trans read
      cases isNumber
  | infinite negative =>
      cases null.symm.trans read
      cases isNumber
  | zero negative =>
      have zero : Numeric ("0" ++ layout.wholeMark).toList :=
        NumberLayout.numeric_append "0" _ (NumberLayout.numeric_toString 0) mark
      change Numeric (NumberLayout.signText negative ++ "0" ++ layout.wholeMark).toList
      rw [String.append_assoc]
      exact NumberLayout.numeric_signText negative _ zero
  | finite negative magnitude =>
      exact NumberLayout.numeric_signText negative _ (NumberLayout.numeric_digits _ mark _ _)

namespace Table

theorem compact_narrow (x : Float32) :
    JsonWriter.compact (.narrow x) = JsonWriter.number JsonWriter.singleLayout (.ofSingle x) :=
  String.empty_append

/-- Whether the text of a value alone reads back as the value. -/
def Legible (x : Float32) : Prop :=
  (readUnlimited? (JsonWriter.compact (.narrow x))).bind single? = some x

instance (x : Float32) : Decidable (Legible x) := inferInstanceAs (Decidable (_ = some x))

theorem readsBack_of_legible (x : Float32) (legible : Legible x) :
    ∃ value, JsonWriter.ReadsBack (.narrow x) value ∧ single? value = some x := by
  rcases Option.bind_eq_some_iff.mp legible with ⟨value, read, same⟩
  refine ⟨value, ?_, same⟩
  have mark : NumberLayout.AllNumeric JsonWriter.singleLayout.wholeMark := by decide
  have numeric : Numeric (JsonWriter.compact (.narrow x)).toList := by
    rw [compact_narrow] at read ⊢
    exact numeric_write _ mark _ ⟨value, read, by rw [same, Option.isSome_some]⟩
  rw [readUnlimited?_of_numeric _ numeric] at read
  exact ⟨_, scans_number _ value numeric read, yields_leaf value⟩

theorem compact_narrow_eq_null (x : Float32) (infinite : ¬ x.isFinite) :
    JsonWriter.compact (.narrow x) = "null" := by
  rw [isFinite_iff, not_not] at infinite
  unfold singleExponent at infinite
  rw [compact_narrow]
  unfold FloatShape.ofSingle FloatShape.ofWord
  dsimp only
  have top : x.toBits.toNat / Nat.pow 2 23 % Nat.pow 2 8 = Nat.pow 2 8 - 1 := infinite
  rw [if_pos top]
  by_cases whole : x.toBits.toNat % Nat.pow 2 23 = 0
  · rw [if_pos whole, JsonWriter.number]
  · rw [if_neg whole, JsonWriter.number]

/-- Every value leaves something that reads back, but only a finite one reads back as a number. -/
theorem readsBack_value (x : Float32) (legible : x.isFinite = true → Legible x) :
    ∃ value, JsonWriter.ReadsBack (.narrow x) value ∧
      single? value = if x.isFinite then some x else none := by
  by_cases finite : x.isFinite = true
  · rw [if_pos finite]
    exact readsBack_of_legible x (legible finite)
  · have written : JsonWriter.chars (.narrow x) = JsonWriter.chars .null :=
      congrArg String.toList (compact_narrow_eq_null x finite)
    rw [if_neg finite]
    refine ⟨.null, ?_, rfl⟩
    rw [JsonWriter.ReadsBack, written]
    exact JsonWriter.readsBack_null

end Table

end Autoland
