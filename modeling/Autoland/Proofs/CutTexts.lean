import Autoland.Text.Blank
import Mathlib.Data.List.DropRight

/-! Texts cut at their ends, after a given beginning, at a character and into lines. -/

namespace Autoland.Text

def stripEnds (kind : Char → Bool) (text : List Char) : List Char :=
  (text.dropWhile kind).rdropWhile kind

theorem trim_eq_stripEnds (text : List Char) : trim text = stripEnds isBlank text := rfl

theorem trimOf_eq_stripEnds (c : Char) (text : List Char) :
    trimOf c text = stripEnds (· == c) text := rfl

structure FreeEnds (kind : Char → Bool) (text : List Char) : Prop where
  first : ∀ c ∈ text.head?, kind c = false
  last : ∀ c ∈ text.getLast?, kind c = false

section StripEnds

variable {kind : Char → Bool}

theorem dropWhile_of_head? (text : List Char) (first : ∀ c ∈ text.head?, kind c = false) :
    text.dropWhile kind = text := by
  cases text with
  | nil => rfl
  | cons c text =>
      rw [List.dropWhile_cons_of_neg]
      rw [first c rfl]
      exact Bool.false_ne_true

theorem rdropWhile_of_getLast? (text : List Char) (last : ∀ c ∈ text.getLast?, kind c = false) :
    text.rdropWhile kind = text := by
  rw [List.rdropWhile_eq_self_iff]
  intro nonempty ends
  rw [last _ (List.getLast?_eq_some_getLast nonempty)] at ends
  cases ends

theorem stripEnds_eq_self_iff (text : List Char) :
    stripEnds kind text = text ↔ FreeEnds kind text := by
  constructor
  · intro same
    have suffix := List.dropWhile_suffix (l := text) kind
    have whole : text.dropWhile kind = text := by
      refine suffix.eq_of_length_le ?_
      have shorter := (List.rdropWhile_prefix kind (text.dropWhile kind)).length_le
      rwa [← stripEnds, same] at shorter
    rw [stripEnds, whole] at same
    constructor
    · intro c first
      obtain ⟨rest, rfl⟩ := List.head?_eq_some_iff.mp first
      by_contra kept
      rw [List.dropWhile_cons_of_pos (eq_true_of_ne_false kept)] at whole
      have shorter := (List.dropWhile_suffix (l := rest) kind).length_le
      rw [whole, List.length_cons] at shorter
      omega
    · intro c last
      obtain ⟨front, rfl⟩ := List.getLast?_eq_some_iff.mp last
      by_contra kept
      rw [List.rdropWhile_concat_pos _ _ _ (eq_true_of_ne_false kept)] at same
      have shorter := (List.rdropWhile_prefix kind front).length_le
      rw [same, List.length_append, List.length_singleton] at shorter
      omega
  · intro free
    rw [stripEnds, dropWhile_of_head? text free.first, rdropWhile_of_getLast? text free.last]

theorem freeEnds_wrapped (c : Char) (kept : kind c = false) (text : List Char) :
    FreeEnds kind (c :: (text ++ [c])) := by
  constructor
  · intro d first
    cases first
    exact kept
  · intro d last
    rw [← List.cons_append, List.getLast?_concat] at last
    cases last
    exact kept

theorem stripEnds_wrapped (c : Char) (dropped : kind c = true) (text : List Char)
    (free : FreeEnds kind text) : stripEnds kind (c :: (text ++ [c])) = text := by
  rw [stripEnds, List.dropWhile_cons_of_pos dropped]
  cases text with
  | nil => simp [dropped]
  | cons d text =>
      have first : ∀ e ∈ (d :: text ++ [c]).head?, kind e = false := free.first
      rw [dropWhile_of_head? _ first, List.rdropWhile_concat_pos _ _ _ dropped,
        rdropWhile_of_getLast? _ free.last]

theorem stripEnds_concat (c : Char) (dropped : kind c = true) (text : List Char) :
    stripEnds kind (text ++ [c]) = stripEnds kind text := by
  rw [stripEnds, stripEnds, List.dropWhile_append]
  split
  · rename_i empty
    rw [List.isEmpty_iff.mp empty]
    simp [dropped]
  · rw [List.rdropWhile_concat_pos _ _ _ dropped]

theorem stripEnds_subset (text : List Char) : stripEnds kind text ⊆ text := fun _ member =>
  (List.dropWhile_suffix kind).subset ((List.rdropWhile_prefix kind _).subset member)

end StripEnds

theorem trim_wrapped (quote : Char) (solid : isBlank quote = false) (text : List Char) :
    trim (quote :: (text ++ [quote])) = quote :: (text ++ [quote]) := by
  rw [trim_eq_stripEnds, stripEnds_eq_self_iff]
  exact freeEnds_wrapped quote solid text

theorem trimOf_eq_self (quote : Char) (text : List Char) (free : FreeEnds (· == quote) text) :
    trimOf quote text = text := by
  rw [trimOf_eq_stripEnds, stripEnds_eq_self_iff]
  exact free

theorem trimOf_wrapped (quote : Char) (text : List Char) (free : FreeEnds (· == quote) text) :
    trimOf quote (quote :: (text ++ [quote])) = text := by
  rw [trimOf_eq_stripEnds]
  refine stripEnds_wrapped quote ?_ text free
  exact beq_self_eq_true quote

theorem trim_concat_return (line : List Char) : trim (line ++ ['\r']) = trim line :=
  stripEnds_concat '\r' rfl line

theorem trim_dropReturn (line : List Char) : trim (dropReturn line) = trim line := by
  unfold dropReturn
  split
  · rename_i ends
    obtain ⟨front, rfl⟩ := List.getLast?_eq_some_iff.mp ends
    rw [List.dropLast_concat, trim_concat_return]
  · rfl

theorem strip?_eq_some_iff (start text rest : List Char) :
    strip? start text = some rest ↔ text = start ++ rest := by
  induction start generalizing text with
  | nil => simp [strip?, eq_comm]
  | cons c start ih =>
      cases text with
      | nil => simp [strip?]
      | cons d text =>
          rw [strip?]
          split
          · rename_i same
            rw [ih, same, List.cons_append, List.cons.injEq, eq_self_iff_true, true_and]
          · rename_i differs
            rw [List.cons_append, List.cons.injEq]
            constructor
            · exact fun none => nomatch none
            · exact fun same => absurd same.1.symm differs

theorem strip?_getD (start rest : List Char) (present : Bool) (lacks : ¬start <+: rest) :
    (strip? start ((if present then start else []) ++ rest)).getD
      ((if present then start else []) ++ rest) = rest := by
  cases present with
  | true => rw [if_pos rfl, (strip?_eq_some_iff _ _ _).mpr rfl, Option.getD_some]
  | false =>
      rw [if_neg Bool.false_ne_true, List.nil_append]
      cases stripped : strip? start rest with
      | none => rfl
      | some after =>
          exact absurd ⟨after, ((strip?_eq_some_iff _ _ _).mp stripped).symm⟩ lacks

theorem cutAt?_append (c : Char) (front rest : List Char) (free : c ∉ front) :
    cutAt? c (front ++ c :: rest) = some (front, rest) := by
  induction front with
  | nil => rw [List.nil_append, cutAt?, if_pos rfl]
  | cons d front ih =>
      rw [List.mem_cons, not_or] at free
      rw [List.cons_append, cutAt?, if_neg (Ne.symm free.1), ih free.2]
      rfl

theorem cutAt?_of_not_mem (c : Char) (text : List Char) (free : c ∉ text) :
    cutAt? c text = none := by
  induction text with
  | nil => rfl
  | cons d text ih =>
      rw [List.mem_cons, not_or] at free
      rw [cutAt?, if_neg (Ne.symm free.1), ih free.2]
      rfl

section Lines

variable {line : List Char} (whole : '\n' ∉ line)

include whole

theorem splitAt_of_not_mem : splitAt '\n' line = [line] := by
  induction line with
  | nil => rfl
  | cons c line ih =>
      rw [List.mem_cons, not_or] at whole
      rw [splitAt, if_neg (Ne.symm whole.1), ih whole.2]

theorem splitAt_append (rest : List Char) :
    splitAt '\n' (line ++ '\n' :: rest) = line :: splitAt '\n' rest := by
  induction line with
  | nil => rw [List.nil_append, splitAt, if_pos rfl]
  | cons c line ih =>
      rw [List.mem_cons, not_or] at whole
      rw [List.cons_append, splitAt, if_neg (Ne.symm whole.1), ih whole.2]

theorem lines_append (rest : List Char) :
    lines (line ++ '\n' :: rest) = dropReturn line :: lines rest := by
  have pieces : splitAt '\n' rest ≠ [] := by
    cases rest with
    | nil => simp [splitAt]
    | cons c rest =>
        rw [splitAt]
        split
        · simp
        · split <;> simp
  obtain ⟨piece, others, split⟩ := List.exists_cons_of_ne_nil pieces
  rw [lines, lines, splitAt_append whole, split, List.dropLast_cons_cons, List.getLast?_cons_cons,
    List.map_cons]
  cases (piece :: others).getLast? with
  | none => rfl
  | some last => cases last <;> rfl

theorem lines_of_not_mem : lines line = if line.isEmpty then [] else [line] := by
  rw [lines, splitAt_of_not_mem whole]
  cases line <;> rfl

end Lines

end Autoland.Text
