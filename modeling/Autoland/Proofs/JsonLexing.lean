import Autoland.Data.JsonToken
import Autoland.Data.JsonWriter
import Autoland.Proofs.DecimalTexts

/-! The tokens of written JSON texts. The lexer finds them again whatever stands around a text. -/

namespace Autoland

namespace JsonNumber

theorem takeWord_of_lt (digits : List Char) (word : Nat)
    (small : digits.foldl (fun n c => 10 * n + Numeral.digitValue c) word < Word.limit) :
    takeWord word digits =
      (digits.foldl (fun n c => 10 * n + Numeral.digitValue c) word, []) := by
  have grows : ∀ (digits : List Char) (word : Nat),
      word ≤ digits.foldl (fun n c => 10 * n + Numeral.digitValue c) word := by
    intro digits
    induction digits with
    | nil => exact fun word => Nat.le_refl word
    | cons c digits ih =>
        intro word
        have rest := ih (10 * word + Numeral.digitValue c)
        rw [List.foldl_cons]
        omega
  induction digits generalizing word with
  | nil => rfl
  | cons c digits ih =>
      rw [List.foldl_cons] at small ⊢
      have next := grows digits (10 * word + Numeral.digitValue c)
      rw [takeWord, if_pos (by omega), ih _ small]

theorem read?_toDigits (n : Nat) (small : n < Word.limit) :
    read? (Nat.toDigits 10 n) = some (.int n) := by
  have all := Numeral.isDigit_of_mem_toDigits n
  have value := Numeral.ofDigits_toDigits n
  have front := Numeral.takeWhile_isDigit (Nat.toDigits 10 n) [] all (fun _ none => nomatch none)
  have back := Numeral.dropWhile_isDigit (Nat.toDigits 10 n) [] all (fun _ none => nomatch none)
  rw [List.append_nil] at front back
  have sign : ∀ rest, Nat.toDigits 10 n ≠ '-' :: rest := by
    intro rest same
    have minus := all '-' (same ▸ List.mem_cons_self)
    exact absurd minus (by decide)
  have word := takeWord_of_lt (Nat.toDigits 10 n) 0 (by rwa [← Numeral.ofDigits, value])
  rw [← Numeral.ofDigits, value] at word
  have plain : ((Nat.toDigits 10 n).isEmpty ||
      ((Nat.toDigits 10 n).head? = some '0' && (Nat.toDigits 10 n).length > 1)) = false := by
    rw [Bool.or_eq_false_iff, List.isEmpty_eq_false_iff]
    refine ⟨Nat.toDigits_ne_nil, ?_⟩
    by_cases zero : (Nat.toDigits 10 n).head? = some '0'
    · rw [Numeral.toDigits_of_head?_zero n zero]
      rfl
    · rw [decide_eq_false zero]
      rfl
  unfold read?
  split
  rename_i negative body same
  split at same
  · rename_i rest minus
    exact absurd minus (sign rest)
  · cases same
    rw [front, back]
    dsimp only
    rw [plain, word]
    rfl

end JsonNumber

namespace JsonToken

theorem hexValue?_hexDigit : ∀ n < 16, hexValue? (JsonWriter.hexDigit n) = some n := by decide

def piecesOf (c : Char) : List Piece :=
  if c.toNat < 0x20 ∧ c ∉ ['\x08', '\x0c', '\n', '\r', '\t'] then [.unit c.toNat] else [.plain c]

theorem step?_hex (n : Nat) (small : n < 16) (tokens : List JsonToken) (pieces : List Piece)
    (count code : Nat) (more : count ≠ 3) :
    (⟨tokens, .hex pieces count code⟩ : Lexer).step? (JsonWriter.hexDigit n) =
      some ⟨tokens, .hex pieces (count + 1) (16 * code + n)⟩ := by
  rw [Lexer.step?, hexValue?_hexDigit n small]
  exact if_neg more

theorem step?_lastHex (n : Nat) (small : n < 16) (tokens : List JsonToken)
    (pieces : List Piece) (code : Nat) :
    (⟨tokens, .hex pieces 3 code⟩ : Lexer).step? (JsonWriter.hexDigit n) =
      some ⟨tokens, .quoted (.unit (16 * code + n) :: pieces)⟩ := by
  rw [Lexer.step?, hexValue?_hexDigit n small]
  rfl

theorem scan_control (n : Nat) (small : n < 0x20) (tokens : List JsonToken) (pieces : List Piece) :
    ['\\', 'u', '0', '0', JsonWriter.hexDigit (n / 16), JsonWriter.hexDigit (n % 16)].foldlM
        Lexer.step? ⟨tokens, .quoted pieces⟩ =
      some ⟨tokens, .quoted (.unit n :: pieces)⟩ := by
  have whole : 16 * (16 * 0 + n / 16) + n % 16 = n := by omega
  have start : ['\\', 'u', '0', '0'].foldlM Lexer.step? ⟨tokens, .quoted pieces⟩ =
      some ⟨tokens, .hex pieces 2 0⟩ := rfl
  change (['\\', 'u', '0', '0'] ++ [_, _]).foldlM _ _ = _
  rw [List.foldlM_append, start, Option.bind_eq_bind, Option.bind_some, List.foldlM_cons,
    step?_hex _ (by omega) _ _ _ _ (by decide), Option.bind_eq_bind, Option.bind_some,
    List.foldlM_cons, step?_lastHex _ (Nat.mod_lt _ (by decide)), whole]
  rfl

theorem scan_escape (c : Char) (tokens : List JsonToken) (pieces : List Piece) :
    (JsonWriter.escape c).foldlM Lexer.step? ⟨tokens, .quoted pieces⟩ =
      some ⟨tokens, .quoted ((piecesOf c).reverse ++ pieces)⟩ := by
  unfold JsonWriter.escape
  split
  · rfl
  · rfl
  · rfl
  · rfl
  · rfl
  · rfl
  · rfl
  · rename_i quote slash back form feed turn tab
    have unnamed : c ∉ ['\x08', '\x0c', '\n', '\r', '\t'] := by
      simp only [List.mem_cons, List.not_mem_nil, or_false, not_or]
      exact ⟨back, form, feed, turn, tab⟩
    split
    · rename_i control
      rw [piecesOf, if_pos ⟨control, unnamed⟩]
      exact scan_control c.toNat control tokens pieces
    · rename_i visible
      rw [piecesOf, if_neg (not_and_of_not_left _ visible), List.foldlM_cons, Lexer.step?]
      dsimp only
      rw [if_neg quote, if_neg slash, if_neg visible]
      rfl

theorem join?_unit (n : Nat) (scalar : n < 0xD800 ∨ 0xE000 ≤ n) (rest : List Piece) :
    join? (.unit n :: rest) = (join? rest).map (Char.ofNat n :: ·) := by
  have outside : ¬ (0xD800 ≤ n ∧ n < 0xE000) := by omega
  have high : ¬ (0xD800 ≤ n ∧ n < 0xDC00) := by omega
  have low : ¬ (0xDC00 ≤ n ∧ n < 0xE000) := by omega
  cases rest with
  | nil => simp only [join?, if_neg outside]
  | cons piece rest =>
      cases piece with
      | plain c => simp only [join?, if_neg outside]
      | unit code => rw [join?, if_neg high, if_neg low]

theorem join?_pieces (c : Char) (rest : List Piece) :
    join? (piecesOf c ++ rest) = (join? rest).map (c :: ·) := by
  rw [piecesOf]
  split
  · rename_i control
    rw [List.singleton_append, join?_unit _ (by omega), Char.ofNat_toNat]
  · rw [List.singleton_append, join?]

theorem join?_flatMap (chars : List Char) : join? (chars.flatMap piecesOf) = some chars := by
  induction chars with
  | nil => rfl
  | cons c chars ih => rw [List.flatMap_cons, join?_pieces, ih, Option.map_some]

theorem scan_flatMap (chars : List Char) (tokens : List JsonToken) (pieces : List Piece) :
    (chars.flatMap JsonWriter.escape).foldlM Lexer.step? ⟨tokens, .quoted pieces⟩ =
      some ⟨tokens, .quoted ((chars.flatMap piecesOf).reverse ++ pieces)⟩ := by
  induction chars generalizing pieces with
  | nil => rfl
  | cons c chars ih =>
      rw [List.flatMap_cons, List.foldlM_append, scan_escape, Option.bind_eq_bind,
        Option.bind_some, ih, List.flatMap_cons, List.reverse_append, List.append_assoc]

def separators : List Char := [',', ':', ']', '\x7d']

/-- Whether the lexer finds tokens in a text, whatever it has read before and whichever separator it
reads next. -/
structure Scans (text : List Char) (tokens : List JsonToken) : Prop where
  short : tokens.length ≤ text.length
  scanned : ∀ before, ∃ lexer, text.foldlM Lexer.step? ⟨before, .between⟩ = some lexer ∧
    lexer.finish? = some (tokens.reverse ++ before) ∧
    ∀ c ∈ separators, lexer.step? c = startToken? (tokens.reverse ++ before) c

theorem scans_closed (text : List Char) (tokens : List JsonToken)
    (short : tokens.length ≤ text.length)
    (closed : ∀ before, text.foldlM Lexer.step? ⟨before, .between⟩ =
      some ⟨tokens.reverse ++ before, .between⟩) : Scans text tokens :=
  ⟨short, fun before => ⟨_, closed before, rfl, fun _ _ => rfl⟩⟩

theorem scans_quote (text : String) :
    Scans (JsonWriter.quote text).toList [.quoted (some text)] := by
  rw [JsonWriter.quote, String.toList_ofList]
  apply scans_closed
  · simp
  · intro before
    have start : (⟨before, .between⟩ : Lexer).step? '"' = some ⟨before, .quoted []⟩ := rfl
    rw [List.foldlM_cons, start, Option.bind_eq_bind, Option.bind_some, List.foldlM_append,
      scan_flatMap, Option.bind_eq_bind, Option.bind_some, List.append_nil, List.foldlM_cons,
      Lexer.step?]
    dsimp only
    rw [if_pos rfl, List.reverse_reverse, join?_flatMap, Option.map_some, String.ofList_toList]
    rfl

theorem scans_null : Scans "null".toList [.leaf .null] := by
  refine ⟨by decide, fun before => ⟨⟨before, .word ['l', 'l', 'u', 'n']⟩, rfl, rfl, ?_⟩⟩
  intro c separates
  simp only [separators, List.mem_cons, List.not_mem_nil, or_false] at separates
  rcases separates with rfl | rfl | rfl | rfl <;> rfl

def IsNumeric (c : Char) : Prop := c.isDigit = true ∨ c ∈ ['.', 'e', 'E', '+', '-']

instance (c : Char) : Decidable (IsNumeric c) := inferInstanceAs (Decidable (_ ∨ _))

structure Numeric (text : List Char) : Prop where
  led : ∃ first ∈ text.head?, first.isDigit = true ∨ first = '-'
  all : ∀ c ∈ text, IsNumeric c

theorem numeric_toDigits (n : Nat) : Numeric (Nat.toDigits 10 n) := by
  have all := Numeral.isDigit_of_mem_toDigits n
  refine ⟨?_, fun c member => .inl (all c member)⟩
  rcases List.exists_cons_of_ne_nil (Nat.toDigits_ne_nil (b := 10) (n := n)) with
    ⟨first, rest, digits⟩
  rw [digits] at all ⊢
  exact ⟨first, rfl, .inl (all first List.mem_cons_self)⟩

theorem startToken?_numeric (tokens : List JsonToken) (c : Char)
    (led : c.isDigit = true ∨ c = '-') :
    startToken? tokens c = some ⟨tokens, .number [c]⟩ := by
  have plain : c ∉ [' ', '\t', '\n', '\r', '[', ']', '\x7b', '\x7d', ',', ':', '"'] := by
    intro listed
    have none : [' ', '\t', '\n', '\r', '[', ']', '\x7b', '\x7d', ',', ':', '"'].all
        (fun d => decide ¬ (d.isDigit = true ∨ d = '-')) = true := by decide
    exact of_decide_eq_true (List.all_eq_true.mp none c listed) led
  simp only [List.mem_cons, List.not_mem_nil, or_false, not_or] at plain
  rcases plain with ⟨_, _, _, _, _, _, _, _, _, _, _⟩
  simp only [startToken?]
  rw [if_pos led]

theorem scan_number (tokens : List JsonToken) (chars rest : List Char)
    (numeric : ∀ c ∈ rest, IsNumeric c) :
    rest.foldlM Lexer.step? ⟨tokens, .number chars⟩ =
      some ⟨tokens, .number (rest.reverse ++ chars)⟩ := by
  induction rest generalizing chars with
  | nil => rfl
  | cons c rest ih =>
      rcases List.forall_mem_cons.mp numeric with ⟨head, tail⟩
      have step : (⟨tokens, .number chars⟩ : Lexer).step? c =
          some ⟨tokens, .number (c :: chars)⟩ := by
        simp only [IsNumeric, List.mem_cons, List.not_mem_nil, or_false] at head
        rw [Lexer.step?]
        dsimp only
        rw [if_pos head]
      rw [List.foldlM_cons, step, Option.bind_eq_bind, Option.bind_some, ih _ tail,
        List.reverse_cons, List.append_assoc, List.singleton_append]

theorem scans_number (text : List Char) (value : Data) (numeric : Numeric text)
    (read : JsonNumber.read? text = some value) : Scans text [.leaf value] := by
  rcases numeric with ⟨⟨first, starts, led⟩, all⟩
  cases text with
  | nil => cases starts
  | cons head rest =>
      cases starts
      have follow := (List.forall_mem_cons.mp all).2
      have ended : ∀ before, (⟨before, .number (rest.reverse ++ [first])⟩ : Lexer).finish? =
          some ([leaf value].reverse ++ before) := by
        intro before
        rw [Lexer.finish?]
        dsimp only
        rw [List.reverse_append, List.reverse_reverse, List.reverse_singleton,
          List.singleton_append, read]
        rfl
      refine ⟨by simp, fun before => ⟨⟨before, .number (rest.reverse ++ [first])⟩, ?_, ?_, ?_⟩⟩
      · have start : (⟨before, .between⟩ : Lexer).step? first = some ⟨before, .number [first]⟩ :=
          startToken?_numeric before first led
        rw [List.foldlM_cons, start, Option.bind_eq_bind, Option.bind_some,
          scan_number before [first] rest follow]
      · exact ended before
      · intro c separates
        have apart : ¬ (c.isDigit = true ∨ c = '.' ∨ c = 'e' ∨ c = 'E' ∨ c = '+' ∨ c = '-') := by
          have none : separators.all (fun d => decide
              ¬ (d.isDigit = true ∨ d = '.' ∨ d = 'e' ∨ d = 'E' ∨ d = '+' ∨ d = '-')) = true := by
            decide
          exact of_decide_eq_true (List.all_eq_true.mp none c separates)
        rw [Lexer.step?]
        dsimp only
        rw [if_neg apart, ended, Option.bind_some]

def closing (mark : Char) : List (List Char) → List Char
  | [] => [mark]
  | text :: texts => ',' :: (text ++ closing mark texts)

def enclosed (opening mark : Char) : List (List Char) → List Char
  | [] => [opening, mark]
  | text :: texts => opening :: (text ++ closing mark texts)

def closingTokens (closed : JsonToken) : List (List JsonToken) → List JsonToken
  | [] => [closed]
  | tokens :: more => comma :: (tokens ++ closingTokens closed more)

def enclosedTokens (opened closed : JsonToken) : List (List JsonToken) → List JsonToken
  | [] => [opened, closed]
  | tokens :: more => opened :: (tokens ++ closingTokens closed more)

section Enclosed

variable (mark : Char) (closed : JsonToken) (texts : List (List Char))
  (tokens : List (List JsonToken))
  (closes : ∀ before, startToken? before mark = some ⟨closed :: before, .between⟩)
  (separates : mark ∈ separators) (scans : List.Forall₂ Scans texts tokens)

include closes separates scans

theorem scan_closing (lexer : Lexer) (before : List JsonToken)
    (ready : ∀ c ∈ separators, lexer.step? c = startToken? before c) :
    (closing mark texts).foldlM Lexer.step? lexer =
      some ⟨(closingTokens closed tokens).reverse ++ before, .between⟩ := by
  induction scans generalizing lexer before with
  | nil =>
      rw [closing, List.foldlM_cons, ready mark separates, closes]
      rfl
  | @cons text item texts tokens head _ ih =>
      rcases head.scanned (comma :: before) with ⟨next, scanned, _, follow⟩
      have parted : lexer.step? ',' = some ⟨comma :: before, .between⟩ := ready ',' (by decide)
      rw [closing, List.foldlM_cons, parted, Option.bind_eq_bind, Option.bind_some,
        List.foldlM_append, scanned, Option.bind_eq_bind, Option.bind_some,
        ih next (item.reverse ++ comma :: before) follow, closingTokens, List.reverse_cons,
        List.reverse_append, List.append_assoc, List.append_assoc, List.singleton_append]

omit closes separates in
theorem length_closing :
    (closingTokens closed tokens).length ≤ (closing mark texts).length := by
  induction scans with
  | nil => exact Nat.le_refl 1
  | cons head _ ih =>
      have short := head.short
      simp only [closingTokens, closing, List.length_cons, List.length_append]
      omega

theorem scans_enclosed (opening : Char) (opened : JsonToken)
    (opens : ∀ before, startToken? before opening = some ⟨opened :: before, .between⟩) :
    Scans (enclosed opening mark texts) (enclosedTokens opened closed tokens) := by
  have start : ∀ before, (⟨before, .between⟩ : Lexer).step? opening =
      some ⟨opened :: before, .between⟩ := opens
  cases scans with
  | nil =>
      apply scans_closed
      · exact Nat.le_refl 2
      · intro before
        have finish : (⟨opened :: before, .between⟩ : Lexer).step? mark =
            some ⟨closed :: opened :: before, .between⟩ := closes _
        rw [enclosed, List.foldlM_cons, start, Option.bind_eq_bind, Option.bind_some,
          List.foldlM_cons, finish]
        rfl
  | @cons text item texts tokens head tail =>
      apply scans_closed
      · have front := head.short
        have back := length_closing mark closed texts tokens tail
        simp only [enclosedTokens, enclosed, List.length_cons, List.length_append]
        omega
      · intro before
        rcases head.scanned (opened :: before) with ⟨next, scanned, _, follow⟩
        rw [enclosed, List.foldlM_cons, start, Option.bind_eq_bind, Option.bind_some,
          List.foldlM_append, scanned, Option.bind_eq_bind, Option.bind_some,
          scan_closing mark closed texts tokens closes separates tail next _ follow,
          enclosedTokens, List.reverse_cons, List.reverse_append, List.append_assoc,
          List.append_assoc, List.singleton_append]

end Enclosed

theorem scans_member (key : String) (text : List Char) (tokens : List JsonToken)
    (scans : Scans text tokens) :
    Scans ((JsonWriter.quote key).toList ++ ':' :: text)
      (quoted (some key) :: colon :: tokens) := by
  have named := scans_quote key
  constructor
  · have front := named.short
    have back := scans.short
    simp only [List.length_append, List.length_cons, List.length_nil] at front ⊢
    omega
  · intro before
    rcases named.scanned before with ⟨next, scanned, _, follow⟩
    rcases scans.scanned (colon :: quoted (some key) :: before) with ⟨last, found, rest⟩
    have parted : next.step? ':' = some ⟨colon :: quoted (some key) :: before, .between⟩ :=
      follow ':' (by decide)
    refine ⟨last, ?_, ?_⟩
    · rw [List.foldlM_append, scanned, Option.bind_eq_bind, Option.bind_some, List.foldlM_cons,
        parted, Option.bind_eq_bind, Option.bind_some, found]
    · rw [List.reverse_cons, List.reverse_cons, List.append_assoc, List.append_assoc]
      exact rest

end JsonToken

end Autoland
