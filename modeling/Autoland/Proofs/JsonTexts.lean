import Autoland.Data.JsonReader
import Autoland.Proofs.JsonLexing

/-! JSON texts that are written and read back: the tokens of what was written make the same value
again. -/

namespace Autoland

namespace JsonReader

open JsonToken

/-- Whether tokens make a value wherever one may begin, if the nesting may be as deep as they are
many. -/
def Yields (tokens : List JsonToken) (value : Data) : Prop :=
  ∀ (limit : Nat) (stack : List Frame) (stage : Stage), tokens.length + stack.length ≤ limit →
    stage = .value ∨ stage = .firstItem →
    tokens.foldlM (step? limit) ⟨stack, stage⟩ = some (place value stack)

theorem yields_leaf (value : Data) : Yields [.leaf value] value := by
  intro limit stack stage _ begins
  rcases begins with rfl | rfl <;> rfl

theorem yields_quoted (text : String) : Yields [.quoted (some text)] (.text text) := by
  intro limit stack stage _ begins
  rcases begins with rfl | rfl <;> rfl

theorem yield_items (tokens : List (List JsonToken)) (values : List Data)
    (yields : List.Forall₂ Yields tokens values) (limit : Nat) (items : List Data)
    (stack : List Frame)
    (shallow : (closingTokens .closeList tokens).length + stack.length < limit) :
    (closingTokens .closeList tokens).foldlM (step? limit) ⟨.list items :: stack, .next⟩ =
      some (place (.list (items.reverse ++ values)) stack) := by
  induction yields generalizing items with
  | nil =>
      rw [List.append_nil]
      rfl
  | @cons item value tokens values head _ ih =>
      rw [closingTokens, List.length_cons, List.length_append] at shallow
      have parted : step? limit ⟨.list items :: stack, .next⟩ .comma =
          some ⟨.list items :: stack, .value⟩ := rfl
      have made := head limit (.list items :: stack) .value
        (by rw [List.length_cons]; omega) (.inl rfl)
      rw [closingTokens, List.foldlM_cons, parted, Option.bind_eq_bind, Option.bind_some,
        List.foldlM_append, made, Option.bind_eq_bind, Option.bind_some, place,
        ih (value :: items) (by omega), List.reverse_cons, List.append_assoc,
        List.singleton_append]

theorem yields_list (tokens : List (List JsonToken)) (values : List Data)
    (yields : List.Forall₂ Yields tokens values) :
    Yields (enclosedTokens .openList .closeList tokens) (.list values) := by
  intro limit stack stage shallow begins
  have opened : ∀ deep : stack.length < limit,
      step? limit ⟨stack, stage⟩ .openList = some ⟨.list [] :: stack, .firstItem⟩ := by
    intro deep
    rcases begins with rfl | rfl <;> exact if_pos deep
  cases yields with
  | nil =>
      rw [enclosedTokens, List.length_cons] at shallow
      rw [enclosedTokens, List.foldlM_cons, opened (by omega)]
      rfl
  | @cons item value tokens values head tail =>
      rw [enclosedTokens, List.length_cons, List.length_append] at shallow
      have made := head limit (.list [] :: stack) .firstItem
        (by rw [List.length_cons]; omega) (.inr rfl)
      rw [enclosedTokens, List.foldlM_cons, opened (by omega), Option.bind_eq_bind,
        Option.bind_some, List.foldlM_append, made, Option.bind_eq_bind, Option.bind_some, place,
        yield_items tokens values tail limit [value] stack (by omega), List.reverse_singleton,
        List.singleton_append]

def YieldsMember (tokens : List JsonToken) (member : String × Data) : Prop :=
  ∃ inner, tokens = .quoted (some member.1) :: .colon :: inner ∧ Yields inner member.2

theorem yield_member (tokens : List JsonToken) (member : String × Data)
    (yields : YieldsMember tokens member) (limit : Nat)
    (members : List (Option String × Data)) (key : Option String) (stack : List Frame)
    (stage : Stage) (shallow : tokens.length + stack.length ≤ limit)
    (begins : stage = .key ∨ stage = .firstKey) :
    tokens.foldlM (step? limit) ⟨.object members key :: stack, stage⟩ =
      some ⟨.object ((some member.1, member.2) :: members) (some member.1) :: stack, .next⟩ := by
  rcases yields with ⟨inner, rfl, yields⟩
  rw [List.length_cons, List.length_cons] at shallow
  have named : step? limit ⟨.object members key :: stack, stage⟩ (.quoted (some member.1)) =
      some ⟨.object members (some member.1) :: stack, .colon⟩ := by
    rcases begins with rfl | rfl <;> rfl
  have parted : step? limit ⟨.object members (some member.1) :: stack, .colon⟩ .colon =
      some ⟨.object members (some member.1) :: stack, .value⟩ := rfl
  rw [List.foldlM_cons, named, Option.bind_eq_bind, Option.bind_some, List.foldlM_cons, parted,
    Option.bind_eq_bind, Option.bind_some]
  exact yields limit _ .value (by rw [List.length_cons]; omega) (.inl rfl)

def readMembers (members : List (String × Data)) : List (Option String × Data) :=
  members.reverse.map fun member => (some member.1, member.2)

theorem objectOf_readMembers (members : List (String × Data)) :
    objectOf (readMembers members) = .object members := by
  have read : ∀ keyed? : Option String × Data → Option (String × Data),
      (∀ member : String × Data, keyed? (some member.1, member.2) = some member) →
        (readMembers members).reverse.mapM keyed? = some members := by
    intro keyed? keyed
    have each : (keyed? ∘ fun member : String × Data => (some member.1, member.2)) = some :=
      funext keyed
    rw [readMembers, ← List.map_reverse, List.reverse_reverse, List.mapM_map, each]
    exact List.mapM_pure.trans (congrArg some (List.map_id members))
  rw [objectOf, read _ fun _ => rfl]

theorem yield_members (tokens : List (List JsonToken)) (members : List (String × Data))
    (yields : List.Forall₂ YieldsMember tokens members) (limit : Nat)
    (before : List (String × Data)) (key : Option String) (stack : List Frame)
    (shallow : (closingTokens .closeObject tokens).length + stack.length ≤ limit) :
    (closingTokens .closeObject tokens).foldlM (step? limit)
        ⟨.object (readMembers before) key :: stack, .next⟩ =
      some (place (.object (before ++ members)) stack) := by
  induction yields generalizing before key with
  | nil =>
      have closed : step? limit ⟨.object (readMembers before) key :: stack, .next⟩ .closeObject =
          some (place (objectOf (readMembers before)) stack) := rfl
      rw [closingTokens, List.foldlM_cons, closed, objectOf_readMembers, List.append_nil]
      rfl
  | @cons item member tokens members head _ ih =>
      rw [closingTokens, List.length_cons, List.length_append] at shallow
      have parted : step? limit ⟨.object (readMembers before) key :: stack, .next⟩ .comma =
          some ⟨.object (readMembers before) key :: stack, .key⟩ := rfl
      have made := yield_member item member head limit (readMembers before) key stack .key
        (by omega) (.inl rfl)
      have grown : (some member.1, member.2) :: readMembers before =
          readMembers (before ++ [member]) := by
        rw [readMembers, readMembers, List.reverse_append, List.reverse_singleton,
          List.singleton_append, List.map_cons]
      rw [closingTokens, List.foldlM_cons, parted, Option.bind_eq_bind, Option.bind_some,
        List.foldlM_append, made, Option.bind_eq_bind, Option.bind_some, grown,
        ih (before ++ [member]) _ (by omega), List.append_assoc, List.singleton_append]

theorem yields_object (tokens : List (List JsonToken)) (members : List (String × Data))
    (yields : List.Forall₂ YieldsMember tokens members) :
    Yields (enclosedTokens .openObject .closeObject tokens) (.object members) := by
  intro limit stack stage shallow begins
  have opened : ∀ deep : stack.length < limit,
      step? limit ⟨stack, stage⟩ .openObject = some ⟨.object [] none :: stack, .firstKey⟩ := by
    intro deep
    rcases begins with rfl | rfl <;> exact if_pos deep
  cases yields with
  | nil =>
      rw [enclosedTokens, List.length_cons] at shallow
      rw [enclosedTokens, List.foldlM_cons, opened (by omega)]
      rfl
  | @cons item member tokens members head tail =>
      rw [enclosedTokens, List.length_cons, List.length_append] at shallow
      have made := yield_member item member head limit [] none stack .firstKey (by omega)
        (.inr rfl)
      have rest := yield_members tokens members tail limit [member] (some member.1) stack
        (by omega)
      rw [enclosedTokens, List.foldlM_cons, opened (by omega), Option.bind_eq_bind,
        Option.bind_some, List.foldlM_append, made, Option.bind_eq_bind, Option.bind_some]
      exact rest

/-- Whether a text is read as a value, alone and as a part of other texts. -/
def Reads (text : List Char) (value : Data) : Prop :=
  ∃ tokens, Scans text tokens ∧ Yields tokens value

theorem readUnlimited?_of_reads (text : String) (value : Data) (reads : Reads text.toList value) :
    readUnlimited? text = some value := by
  rcases reads with ⟨tokens, scans, yields⟩
  rcases scans.scanned [] with ⟨lexer, scanned, finished, _⟩
  have lexed : lex? text.toList = some tokens := by
    rw [lex?, scanned, Option.bind_eq_bind, Option.bind_some, finished, List.append_nil,
      Option.bind_eq_bind, Option.bind_some, List.reverse_reverse]
    rfl
  have short := scans.short
  rw [String.length_toList] at short
  have made := yields text.length [] .value short (.inl rfl)
  rw [readUnlimited?, read?, lexed, Option.bind_eq_bind, Option.bind_some, made]
  rfl

end JsonReader

namespace JsonWriter

open JsonToken JsonReader

theorem newline_false (depth : Nat) : newline false depth = "" := rfl

theorem appendKey_false (depth : Nat) (out key : String) :
    appendKey false depth out key = out ++ quote key ++ ":" := by
  rw [appendKey, newline_false, String.append_empty]
  rfl

mutual

theorem append_eq (depth : Nat) (out : String) (data : Data) :
    append false depth out data = out ++ append false 0 "" data := by
  cases data with
  | null => simp only [append, String.empty_append]
  | bool value => simp only [append, String.empty_append]
  | int value => simp only [append, String.empty_append]
  | real value => simp only [append, String.empty_append]
  | narrow value => simp only [append, String.empty_append]
  | text value => simp only [append, String.empty_append]
  | moment text => simp only [append, String.empty_append]
  | unreadable => simp only [append, String.empty_append]
  | list items =>
      cases items with
      | nil => simp only [append, String.empty_append]
      | cons item items =>
          simp only [append, newline_false, String.append_empty, String.empty_append]
          rw [append_eq (depth + 1) _ item, appendItems_eq (depth + 1) _ items,
            append_eq (0 + 1) _ item, appendItems_eq (0 + 1) _ items]
          simp only [String.append_assoc]
  | object members =>
      cases members with
      | nil => simp only [append, String.empty_append]
      | cons member members =>
          rcases member with ⟨key, value⟩
          simp only [append, newline_false, appendKey_false, String.append_empty,
            String.empty_append]
          rw [append_eq (depth + 1) _ value, appendMembers_eq (depth + 1) _ members,
            append_eq (0 + 1) _ value, appendMembers_eq (0 + 1) _ members]
          simp only [String.append_assoc]

theorem appendItems_eq (depth : Nat) (out : String) (items : List Data) :
    appendItems false depth out items = out ++ appendItems false 0 "" items := by
  cases items with
  | nil => simp only [appendItems, String.append_empty]
  | cons item items =>
      simp only [appendItems, newline_false, String.append_empty, String.empty_append]
      rw [append_eq depth _ item, appendItems_eq depth _ items, append_eq 0 "," item,
        appendItems_eq 0 ("," ++ _) items]
      simp only [String.append_assoc]

theorem appendMembers_eq (depth : Nat) (out : String) (members : List (String × Data)) :
    appendMembers false depth out members = out ++ appendMembers false 0 "" members := by
  cases members with
  | nil => simp only [appendMembers, String.append_empty]
  | cons member members =>
      rcases member with ⟨key, value⟩
      simp only [appendMembers, appendKey_false, String.empty_append]
      rw [append_eq depth _ value, appendMembers_eq depth _ members,
        append_eq 0 ("," ++ quote key ++ ":") value,
        appendMembers_eq 0 ("," ++ quote key ++ ":" ++ _) members]
      simp only [String.append_assoc]

end

def chars (data : Data) : List Char := (compact data).toList

def memberChars (member : String × Data) : List Char :=
  (quote member.1).toList ++ ':' :: chars member.2

theorem toList_append (depth : Nat) (out : String) (data : Data) :
    (append false depth out data).toList = out.toList ++ chars data := by
  rw [append_eq, String.toList_append]
  rfl

theorem toList_appendItems (depth : Nat) (out : String) (items : List Data) :
    (appendItems false depth out items ++ "]").toList =
      out.toList ++ closing ']' (items.map chars) := by
  induction items generalizing out with
  | nil =>
      rw [appendItems, String.toList_append]
      rfl
  | cons item items ih =>
      rw [appendItems, newline_false, ih, toList_append, String.toList_append,
        String.toList_append]
      simp [closing]

theorem toList_appendMembers (depth : Nat) (out : String) (members : List (String × Data)) :
    (appendMembers false depth out members ++ "\x7d").toList =
      out.toList ++ closing '\x7d' (members.map memberChars) := by
  induction members generalizing out with
  | nil =>
      rw [appendMembers, String.toList_append]
      rfl
  | cons member members ih =>
      rcases member with ⟨key, value⟩
      rw [appendMembers, ih, toList_append, appendKey_false]
      simp [closing, memberChars]

theorem chars_list (items : List Data) :
    chars (.list items) = enclosed '[' ']' (items.map chars) := by
  cases items with
  | nil => rfl
  | cons item items =>
      rw [chars, compact, append, newline_false, newline_false, String.append_empty,
        toList_appendItems, toList_append]
      rfl

theorem chars_object (members : List (String × Data)) :
    chars (.object members) = enclosed '\x7b' '\x7d' (members.map memberChars) := by
  cases members with
  | nil => rfl
  | cons member members =>
      rcases member with ⟨key, value⟩
      rw [chars, compact, append, newline_false, String.append_empty, toList_appendMembers,
        toList_append, appendKey_false]
      simp [enclosed, memberChars]

def ReadsBack (data value : Data) : Prop := Reads (chars data) value

theorem readUnlimited?_compact (data value : Data) (reads : ReadsBack data value) :
    readUnlimited? (compact data) = some value :=
  readUnlimited?_of_reads (compact data) value reads

theorem readsBack_null : ReadsBack .null .null := ⟨_, scans_null, yields_leaf _⟩

theorem readsBack_text (text : String) : ReadsBack (.text text) (.text text) := by
  have written : chars (.text text) = (quote text).toList := by
    rw [chars, compact, append, String.empty_append]
  refine ⟨_, ?_, yields_quoted text⟩
  rw [written]
  exact scans_quote text

theorem readsBack_word (n : Nat) (small : n < Word.limit) : ReadsBack (.int n) (.int n) := by
  have written : chars (.int n) = Nat.toDigits 10 n := by
    rw [chars, compact, append, String.empty_append]
    exact Nat.toList_repr
  refine ⟨_, ?_, yields_leaf (.int n)⟩
  rw [written]
  exact scans_number _ _ (numeric_toDigits n) (JsonNumber.read?_toDigits n small)

theorem readsBack_list (items values : List Data)
    (reads : List.Forall₂ ReadsBack items values) : ReadsBack (.list items) (.list values) := by
  obtain ⟨tokens, scans, yields⟩ : ∃ tokens, List.Forall₂ Scans (items.map chars) tokens ∧
      List.Forall₂ Yields tokens values := by
    induction reads with
    | nil => exact ⟨[], .nil, .nil⟩
    | cons head _ ih =>
        rcases head with ⟨first, scans, yields⟩
        rcases ih with ⟨tokens, others, rest⟩
        exact ⟨first :: tokens, .cons scans others, .cons yields rest⟩
  refine ⟨_, ?_, yields_list tokens values yields⟩
  rw [chars_list]
  exact scans_enclosed ']' .closeList _ tokens (fun _ => rfl) (by decide) scans '[' .openList
    fun _ => rfl

theorem readsBack_object (members values : List (String × Data))
    (reads : List.Forall₂ (fun member value => value.1 = member.1 ∧ ReadsBack member.2 value.2)
      members values) : ReadsBack (.object members) (.object values) := by
  obtain ⟨tokens, scans, yields⟩ : ∃ tokens,
      List.Forall₂ Scans (members.map memberChars) tokens ∧
        List.Forall₂ YieldsMember tokens values := by
    induction reads with
    | nil => exact ⟨[], .nil, .nil⟩
    | @cons member value members values head _ ih =>
        rcases head with ⟨named, first, scans, yields⟩
        rcases ih with ⟨tokens, others, rest⟩
        refine ⟨_ :: tokens, .cons (scans_member member.1 _ first scans) others,
          .cons ⟨first, ?_, yields⟩ rest⟩
        rw [named]
  refine ⟨_, ?_, yields_object tokens values yields⟩
  rw [chars_object]
  exact scans_enclosed '\x7d' .closeObject _ tokens (fun _ => rfl) (by decide) scans '\x7b'
    .openObject fun _ => rfl

end JsonWriter

end Autoland
