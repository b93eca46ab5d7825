import Autoland.Proofs.Nesting
import Mathlib.Data.Nat.PSub
import Mathlib.Data.String.Basic

/-! Texts scanned where they stand, by offsets in bytes and with counters that are words. An offset
inside a character or past the end has no result, and neither has a counter that leaves its range:
signed words reach from `-greatest` to `greatest`, unsigned ones from zero to `greatest`. On texts
that close what they open and have at most `greatest` bytes the scans come to a result, which is
that of the scans by characters. -/

namespace Autoland.Text

open String (utf8Len)

/-- Cuts a text before a byte of its UTF-8 form, if a character starts or the text ends there. -/
def cutAtByte? : Nat → List Char → Option (List Char × List Char)
  | 0, text => some ([], text)
  | _ + 1, [] => none
  | offset + 1, c :: rest =>
    if c.utf8Size ≤ offset + 1 then
      (cutAtByte? (offset + 1 - c.utf8Size) rest).map fun (front, back) => (c :: front, back)
    else none

def slice? (text : List Char) (start stop : Nat) : Option (List Char) := do
  let (front, _) ← cutAtByte? stop text
  let (_, piece) ← cutAtByte? start front
  some piece

def byteOffset? (c : Char) : List Char → Option Nat
  | [] => none
  | d :: rest => if d = c then some 0 else (byteOffset? c rest).map (· + d.utf8Size)

theorem cutAtByte?_append (front back : List Char) :
    cutAtByte? (utf8Len front) (front ++ back) = some (front, back) := by
  induction front with
  | nil => rw [String.utf8Len_nil, cutAtByte?, List.nil_append]
  | cons c front ih =>
      obtain ⟨size, width⟩ := Nat.exists_eq_add_one.mpr c.utf8Size_pos
      rw [String.utf8Len_cons, List.cons_append, width, ← Nat.add_assoc, cutAtByte?, width,
        if_pos (by omega), Nat.add_assoc, Nat.add_sub_cancel, ih]
      rfl

theorem cutAtByte?_eq_some_iff (offset : Nat) (text front back : List Char) :
    cutAtByte? offset text = some (front, back) ↔
      text = front ++ back ∧ utf8Len front = offset := by
  constructor
  · intro cut
    fun_induction cutAtByte? offset text generalizing front with
    | case1 text =>
        cases cut
        exact ⟨rfl, rfl⟩
    | case2 => cases cut
    | case3 offset c rest fits ih =>
        obtain ⟨⟨start, after⟩, found, same⟩ := Option.map_eq_some_iff.mp cut
        cases same
        obtain ⟨rfl, width⟩ := ih start found
        exact ⟨rfl, by rw [String.utf8Len_cons]; omega⟩
    | case4 => cases cut
  · rintro ⟨rfl, rfl⟩
    exact cutAtByte?_append front back

/-- A slice is there exactly if its ends stand between characters, and is what stands between. -/
theorem slice?_eq_some_iff (text piece : List Char) (start stop : Nat) :
    slice? text start stop = some piece ↔ ∃ front back, text = front ++ (piece ++ back) ∧
      utf8Len front = start ∧ utf8Len front + utf8Len piece = stop := by
  rw [slice?, Option.bind_eq_bind, Option.bind_eq_some_iff]
  constructor
  · rintro ⟨⟨upTo, back⟩, ends, starts⟩
    obtain ⟨⟨front, last⟩, starts, same⟩ := Option.bind_eq_some_iff.mp starts
    cases same
    obtain ⟨rfl, stops⟩ := (cutAtByte?_eq_some_iff _ _ _ _).mp ends
    obtain ⟨rfl, begins⟩ := (cutAtByte?_eq_some_iff _ _ _ _).mp starts
    rw [String.utf8Len_append] at stops
    exact ⟨front, back, by rw [List.append_assoc], begins, stops⟩
  · rintro ⟨front, back, rfl, rfl, rfl⟩
    refine ⟨(front ++ piece, back), ?_, ?_⟩
    · rw [← List.append_assoc, ← String.utf8Len_append, cutAtByte?_append]
    · simp only [cutAtByte?_append, Option.bind_some]

theorem byteOffset?_append (c : Char) (front rest : List Char) (absent : c ∉ front) :
    byteOffset? c (front ++ c :: rest) = some (utf8Len front) := by
  induction front with
  | nil => simp [byteOffset?]
  | cons d front ih =>
      rw [List.mem_cons, not_or] at absent
      rw [List.cons_append, byteOffset?, if_neg (Ne.symm absent.1), ih absent.2]
      rfl

theorem byteOffset?_of_not_mem (c : Char) (text : List Char) (absent : c ∉ text) :
    byteOffset? c text = none := by
  induction text with
  | nil => rfl
  | cons d text ih =>
      rw [List.mem_cons, not_or] at absent
      rw [byteOffset?, if_neg (Ne.symm absent.1), ih absent.2]
      rfl

end Autoland.Text

namespace Autoland.Formula

open String (utf8Len)
open Text (cutAtByte? slice?)

/-- What comes of a computation: nothing where an operation has no result, and otherwise a value or
a fault. -/
abbrev Attempt (α : Type) := ExceptT FormulaFault Option α

def answer {α : Type} (result : Except FormulaFault α) : Attempt α := ExceptT.mk (some result)

def sum? (greatest first second : Nat) : Option Nat :=
  if first + second ≤ greatest then some (first + second) else none

def signed? (greatest : Nat) (n : Int) : Option Int :=
  if -(greatest : Int) ≤ n ∧ n ≤ greatest then some n else none

theorem lift_some_bind {α β : Type} (value : α) (rest : α → Attempt β) :
    ((liftM (some value) : Attempt α) >>= rest) = rest value := rfl

theorem sum?_of_le {greatest first second : Nat} (fits : first + second ≤ greatest) :
    sum? greatest first second = some (first + second) := if_pos fits

theorem signed?_of_le {greatest : Nat} {n : Int} (least : -(greatest : Int) ≤ n)
    (most : n ≤ greatest) : signed? greatest n = some n := if_pos ⟨least, most⟩

def scanBalance (greatest : Nat) : Int → List Char → Attempt Unit
  | depth, [] => if depth = 0 then pure () else throw .unmatchedParentheses
  | depth, c :: rest =>
    if c = '(' then do
      let deeper ← signed? greatest (depth + 1)
      scanBalance greatest deeper rest
    else if c = ')' then do
      let outer ← signed? greatest (depth - 1)
      if outer < 0 then throw .surplusClose else scanBalance greatest outer rest
    else scanBalance greatest depth rest

/-- Looks for the partner of the first parenthesis of a text, of which `offset` bytes have been read
and left `depth` parentheses open. -/
def scanClose (greatest : Nat) : Nat → Nat → List Char → Option (Option Nat)
  | _, _, [] => some none
  | depth, offset, c :: rest =>
    if c = '(' then do
      let deeper ← sum? greatest depth 1
      scanClose greatest deeper (offset + c.utf8Size) rest
    else if c = ')' then do
      let outer ← depth.ppred
      if outer = 0 then some (some offset)
      else scanClose greatest outer (offset + c.utf8Size) rest
    else scanClose greatest depth (offset + c.utf8Size) rest

def matchingClose (greatest : Nat) (text : List Char) (opening : Nat) : Option (Option Nat) := do
  let (_, tail) ← cutAtByte? opening text
  match ← scanClose greatest 0 0 tail with
  | none => some none
  | some offset =>
    let close ← sum? greatest opening offset
    some (some close)

/-- Cuts a text at its commas outside all parentheses. The first piece starts at `start`; `offset`
bytes have been read and left `depth` parentheses open. A parenthesis that closes none of these has
no result here. -/
def scanCommas (greatest : Nat) (text : List Char) :
    Nat → Nat → Nat → List Char → Option (List (List Char))
  | start, _, _, [] => do
    let piece ← slice? text start (utf8Len text)
    some [piece]
  | start, depth, offset, c :: rest =>
    if c = '(' then do
      let deeper ← sum? greatest depth 1
      scanCommas greatest text start deeper (offset + c.utf8Size) rest
    else if c = ')' then do
      let outer ← depth.ppred
      scanCommas greatest text start outer (offset + c.utf8Size) rest
    else if depth = 0 ∧ c = ',' then do
      let piece ← slice? text start offset
      let next ← sum? greatest offset 1
      let pieces ← scanCommas greatest text next depth (offset + c.utf8Size) rest
      some (piece :: pieces)
    else scanCommas greatest text start depth (offset + c.utf8Size) rest

def scanArguments (greatest : Nat) (inside : List Char) : Option (List (List Char)) :=
  if inside.isEmpty then some [] else scanCommas greatest inside 0 0 0 inside

theorem scanBalance_eq (greatest depth : Nat) (text : List Char)
    (fits : depth + utf8Len text ≤ greatest) :
    scanBalance greatest depth text = answer (checkBalance depth text) := by
  induction text generalizing depth with
  | nil =>
      cases depth with
      | zero => rfl
      | succ depth =>
          rw [scanBalance, if_neg (by omega)]
          rfl
  | cons c text ih =>
      -- the counter rises by one for a byte or more, and so never above the length of the text
      rw [String.utf8Len_cons] at fits
      have width := c.utf8Size_pos
      rcases parenthesis_cases c with rfl | rfl | ⟨opens, closes⟩
      · rw [scanBalance, if_pos rfl, signed?_of_le (by omega) (by omega), checkBalance,
          ← ih (depth + 1) (by omega)]
        rfl
      · rw [scanBalance, if_neg (by decide), if_pos rfl, signed?_of_le (by omega) (by omega)]
        cases depth with
        | zero => rfl
        | succ depth =>
            rw [checkBalance, ← ih depth (by omega), Nat.cast_succ, Int.add_sub_cancel,
              lift_some_bind, if_neg (by omega)]
      · rw [scanBalance, if_neg opens, if_neg closes, checkBalance_other c text opens closes]
        exact ih depth (by omega)

/-- In a parenthesis that is closed the counter stays above zero up to its partner. -/
theorem scanClose_of_closed (greatest depth offset : Nat) (inside after : List Char)
    (closed : depthAfter? depth inside = some 0)
    (fits : depth + 1 + utf8Len inside ≤ greatest) :
    scanClose greatest (depth + 1) offset (inside ++ ')' :: after) =
      some (some (offset + utf8Len inside)) := by
  induction inside generalizing depth offset with
  | nil =>
      cases closed
      rfl
  | cons c inside ih =>
      rw [String.utf8Len_cons] at fits
      have width := c.utf8Size_pos
      have step : ∀ next, depthAfter? next inside = some 0 → next ≤ depth + 1 →
          scanClose greatest (next + 1) (offset + c.utf8Size) (inside ++ ')' :: after) =
            some (some (offset + utf8Len (c :: inside))) := by
        intro next reached most
        rw [ih next _ reached (by omega), String.utf8Len_cons, Nat.add_assoc,
          Nat.add_comm c.utf8Size]
      rcases parenthesis_cases c with rfl | rfl | ⟨opens, closes⟩
      · rw [List.cons_append, scanClose, if_pos rfl, sum?_of_le (by omega)]
        exact step (depth + 1) closed le_rfl
      · cases depth with
        | zero => cases closed
        | succ depth =>
            rw [List.cons_append, scanClose, if_neg (by decide), if_pos rfl]
            exact step depth closed (by omega)
      · rw [depthAfter?_other c inside opens closes] at closed
        rw [List.cons_append, scanClose, if_neg opens, if_neg closes]
        exact step depth closed (by omega)

section Parentheses

variable (name inside after : List Char)

theorem utf8Len_parentheses : utf8Len (name ++ '(' :: (inside ++ ')' :: after)) =
    utf8Len name + 1 + utf8Len inside + 1 + utf8Len after := by
  have split : name ++ '(' :: (inside ++ ')' :: after) =
      name ++ ['('] ++ inside ++ [')'] ++ after := by simp
  have widths : utf8Len ['('] = 1 ∧ utf8Len [')'] = 1 := ⟨rfl, rfl⟩
  rw [split]
  simp only [String.utf8Len_append, widths]

theorem slice?_name :
    slice? (name ++ '(' :: (inside ++ ')' :: after)) 0 (utf8Len name) = some name :=
  (Text.slice?_eq_some_iff _ _ _ _).mpr ⟨[], _, rfl, rfl, Nat.zero_add _⟩

theorem slice?_inside : slice? (name ++ '(' :: (inside ++ ')' :: after)) (utf8Len name + 1)
    (utf8Len name + 1 + utf8Len inside) = some inside := by
  have opened : utf8Len (name ++ ['(']) = utf8Len name + 1 := String.utf8Len_append name ['(']
  refine (Text.slice?_eq_some_iff _ _ _ _).mpr ⟨name ++ ['('], ')' :: after, ?_, opened, ?_⟩
  · simp
  · rw [opened]

theorem slice?_through : slice? (name ++ '(' :: (inside ++ ')' :: after)) 0
    (utf8Len name + 1 + utf8Len inside + 1) = some (name ++ '(' :: (inside ++ [')'])) := by
  have whole := utf8Len_parentheses name inside []
  refine (Text.slice?_eq_some_iff _ _ _ _).mpr ⟨[], after, ?_, rfl, ?_⟩
  · simp
  · rw [whole]
    simp

theorem matchingClose_of_closed (greatest : Nat) (closed : depthAfter? 0 inside = some 0)
    (fits : utf8Len (name ++ '(' :: (inside ++ ')' :: after)) ≤ greatest) :
    matchingClose greatest (name ++ '(' :: (inside ++ ')' :: after)) (utf8Len name) =
      some (some (utf8Len name + 1 + utf8Len inside)) := by
  rw [utf8Len_parentheses] at fits
  have found : scanClose greatest 0 0 ('(' :: (inside ++ ')' :: after)) =
      some (some (1 + utf8Len inside)) := by
    rw [scanClose, if_pos rfl, sum?_of_le (by omega)]
    exact scanClose_of_closed greatest 0 1 inside after closed (by omega)
  have reached : sum? greatest (utf8Len name) (1 + utf8Len inside) = some _ :=
    sum?_of_le (by omega)
  simp only [matchingClose, Text.cutAtByte?_append, found, reached, Nat.add_assoc,
    Option.bind_eq_bind, Option.bind_some]

end Parentheses

/-- In a text that closes nothing but what it opens the depth never falls below zero, and the cuts
are those of the text by characters. -/
theorem scanCommas_of_closed (greatest depth after : Nat) (text front piece rest : List Char)
    (split : text = front ++ (piece ++ rest)) (closed : depthAfter? depth rest = some after)
    (fits : depth + utf8Len rest ≤ greatest) (whole : utf8Len text ≤ greatest) :
    scanCommas greatest text (utf8Len front) depth (utf8Len (front ++ piece)) rest =
      some (piece.foldr consFirst (cutAtCommas depth rest)) := by
  induction rest generalizing depth front piece with
  | nil =>
      have last : slice? text (utf8Len front) (utf8Len text) = some piece := by
        refine (Text.slice?_eq_some_iff _ _ _ _).mpr ⟨front, [], split, rfl, ?_⟩
        rw [split, List.append_nil, String.utf8Len_append]
      rw [scanCommas, last, cutAtCommas, foldr_consFirst, List.append_nil]
      rfl
  | cons c rest ih =>
      rw [String.utf8Len_cons] at fits
      have width := c.utf8Size_pos
      have longer : text = front ++ ((piece ++ [c]) ++ rest) := by simp [split]
      -- the piece begun after the last cut grows by each character at which nothing is cut
      have step : ∀ next, depthAfter? next rest = some after → next ≤ depth + 1 →
          scanCommas greatest text (utf8Len front) next (utf8Len (front ++ piece) + c.utf8Size)
            rest = some (piece.foldr consFirst (consFirst c (cutAtCommas next rest))) := by
        intro next reached most
        have further := ih next front (piece ++ [c]) longer reached (by omega)
        rw [List.foldr_append] at further
        rw [← List.append_assoc, String.utf8Len_append (front ++ piece)] at further
        simpa using further
      rcases parenthesis_cases c with rfl | rfl | ⟨opens, closes⟩
      · rw [scanCommas, if_pos rfl, sum?_of_le (by omega), cutAtCommas]
        exact step (depth + 1) closed le_rfl
      · cases depth with
        | zero => cases closed
        | succ depth =>
            rw [scanCommas, if_neg (by decide), if_pos rfl, cutAtCommas]
            exact step depth closed (by omega)
      · rw [depthAfter?_other c rest opens closes] at closed
        by_cases cut : depth = 0 ∧ c = ','
        · obtain ⟨rfl, rfl⟩ := cut
          have cutOff : slice? text (utf8Len front) (utf8Len (front ++ piece)) = some piece :=
            (Text.slice?_eq_some_iff _ _ _ _).mpr
              ⟨front, ',' :: rest, split, rfl, (String.utf8Len_append _ _).symm⟩
          have next : utf8Len (front ++ piece ++ [',']) = utf8Len (front ++ piece) + 1 :=
            String.utf8Len_append _ _
          have reached : utf8Len (front ++ piece) + 1 ≤ greatest := by
            have lengths := congrArg utf8Len longer
            rw [← List.append_assoc, ← List.append_assoc, String.utf8Len_append, next] at lengths
            omega
          have later := ih 0 (front ++ piece ++ [',']) [] (by simp [split]) closed (by omega)
          rw [List.append_nil, next, List.foldr_nil] at later
          rw [scanCommas, if_neg opens, if_neg closes, if_pos ⟨rfl, rfl⟩, cutAtCommas,
            foldr_consFirst, List.append_nil]
          have comma : Char.utf8Size ',' = 1 := rfl
          simp only [cutOff, sum?_of_le reached, comma, later, Option.bind_eq_bind,
            Option.bind_some]
        · have kept : depth = 0 → c ≠ ',' := fun zero comma => cut ⟨zero, comma⟩
          rw [scanCommas, if_neg opens, if_neg closes, if_neg cut,
            cutAtCommas_other c rest opens closes depth kept]
          exact step depth closed (by omega)

theorem scanArguments_of_closed (greatest : Nat) (inside : List Char)
    (closed : depthAfter? 0 inside = some 0) (fits : utf8Len inside ≤ greatest) :
    scanArguments greatest inside = some (splitArguments inside) := by
  have cut := scanCommas_of_closed greatest 0 0 inside [] [] inside rfl closed (by omega) fits
  unfold scanArguments splitArguments
  split
  · rfl
  · exact cut

end Autoland.Formula
