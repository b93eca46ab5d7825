import Autoland.Proofs.CutTexts
import Autoland.Text.Environment

/-! Environment files that are written and read back. -/

namespace Autoland.Text

inductive Quoting where
  | bare
  | single
  | double
  deriving DecidableEq

inductive EnvironmentLine where
  | assignment (exported : Bool) (key : String) (quoting : Quoting) (value : String)
  | aside (text : String)

def Quoting.mark : Quoting → List Char
  | bare => []
  | single => ['\'']
  | double => ['"']

/-- Whether a key reads back as it is written: it has no blanks at its ends, stays on its line, and
is not taken for a comment, for the word `export` or for a part of the value. -/
structure IsKey (key : List Char) : Prop where
  nonempty : key ≠ []
  trimmed : trim key = key
  oneLine : '\n' ∉ key
  undivided : '=' ∉ key
  noComment : key.head? ≠ some '#'
  unexported : ¬"export ".toList <+: key

instance (key : List Char) : Decidable (IsKey key) :=
  decidable_of_iff (key ≠ [] ∧ trim key = key ∧ '\n' ∉ key ∧ '=' ∉ key ∧ key.head? ≠ some '#' ∧
    ¬"export ".toList <+: key)
    ⟨fun ⟨nonempty, trimmed, oneLine, undivided, noComment, unexported⟩ =>
      ⟨nonempty, trimmed, oneLine, undivided, noComment, unexported⟩,
      fun ⟨nonempty, trimmed, oneLine, undivided, noComment, unexported⟩ =>
        ⟨nonempty, trimmed, oneLine, undivided, noComment, unexported⟩⟩

/-- Whether a value stays on its line and cannot be taken for a quoted one. -/
structure IsValue (value : List Char) : Prop where
  oneLine : '\n' ∉ value
  first : value.head? ∉ [some '"', some '\'']
  last : value.getLast? ∉ [some '"', some '\'']

instance (value : List Char) : Decidable (IsValue value) :=
  decidable_of_iff ('\n' ∉ value ∧ value.head? ∉ [some '"', some '\''] ∧
    value.getLast? ∉ [some '"', some '\''])
    ⟨fun ⟨oneLine, first, last⟩ => ⟨oneLine, first, last⟩,
      fun ⟨oneLine, first, last⟩ => ⟨oneLine, first, last⟩⟩

/-- Whether a text is passed over: a blank line, a comment, or a line without a key. -/
structure IsAside (text : List Char) : Prop where
  oneLine : '\n' ∉ text
  idle : trim text = [] ∨ (trim text).head? = some '#' ∨ '=' ∉ text

instance (text : List Char) : Decidable (IsAside text) :=
  decidable_of_iff ('\n' ∉ text ∧ (trim text = [] ∨ (trim text).head? = some '#' ∨ '=' ∉ text))
    ⟨fun ⟨oneLine, idle⟩ => ⟨oneLine, idle⟩, fun ⟨oneLine, idle⟩ => ⟨oneLine, idle⟩⟩

namespace EnvironmentLine

/-- Whether a line keeps to the form of the file. Without quotes a value has no blanks at its
ends. -/
def Formed : EnvironmentLine → Prop
  | assignment _ key quoting value => IsKey key.toList ∧ IsValue value.toList ∧
    (quoting = .bare → trim value.toList = value.toList)
  | aside text => IsAside text.toList

instance : DecidablePred Formed
  | assignment _ key quoting value => inferInstanceAs (Decidable (IsKey key.toList ∧
      IsValue value.toList ∧ (quoting = .bare → trim value.toList = value.toList)))
  | aside text => inferInstanceAs (Decidable (IsAside text.toList))

def chars : EnvironmentLine → List Char
  | assignment exported key quoting value => (if exported then "export ".toList else []) ++
    (key.toList ++ '=' :: (quoting.mark ++ (value.toList ++ quoting.mark)))
  | aside text => text.toList

def pair? : EnvironmentLine → Option (String × String)
  | assignment _ key _ value => some (key, value)
  | aside _ => none

def ended (lines : List (EnvironmentLine × Bool)) : List Char :=
  lines.flatMap fun (line, returned) => line.chars ++ if returned then ['\r', '\n'] else ['\n']

end EnvironmentLine

def readLine? (line : List Char) : Option (String × String) :=
  if (trim line).isEmpty || (trim line).head? = some '#' then none else readAssignment? (trim line)

theorem readEnvironment_eq (contents : String) :
    readEnvironment contents = (lines contents.toList).filterMap readLine? :=
  List.filterMap_map

theorem readLine?_concat_return (line : List Char) :
    readLine? (line ++ ['\r']) = readLine? line := by
  rw [readLine?, readLine?, trim_concat_return]

theorem readLine?_dropReturn (line : List Char) : readLine? (dropReturn line) = readLine? line := by
  rw [readLine?, readLine?, trim_dropReturn]

section Written

variable {key value : List Char}

theorem not_prefix_of_key (start rest : List Char) (free : '=' ∉ start) (lacks : ¬start <+: key) :
    ¬start <+: key ++ '=' :: rest := by
  intro starts
  rcases List.prefix_or_prefix_of_prefix starts (List.prefix_append key _) with inside | past
  · exact lacks inside
  · -- the key ends within the beginning, right before an equals sign or at its end
    obtain ⟨middle, rfl⟩ := past
    rw [List.prefix_append_right_inj] at starts
    cases middle with
    | nil => exact lacks ⟨[], by rw [List.append_nil, List.append_nil]⟩
    | cons c middle =>
        rw [List.cons_prefix_cons] at starts
        exact free (List.mem_append_right _ (starts.1 ▸ List.mem_cons_self))

theorem IsKey.readAssignment? (isKey : IsKey key) (exported : Bool) (rest : List Char) :
    readAssignment? ((if exported then "export ".toList else []) ++ (key ++ '=' :: rest)) =
      some (String.ofList key, String.ofList (trimOf '\'' (trimOf '"' (trim rest)))) := by
  have lacks := not_prefix_of_key _ rest (by decide) isKey.unexported
  have named : key.isEmpty = false := List.isEmpty_eq_false_iff.mpr isKey.nonempty
  rw [Text.readAssignment?, strip?_getD _ _ _ lacks, cutAt?_append _ _ _ isKey.undivided]
  simp only [Option.bind_eq_bind, Option.bind_some, isKey.trimmed, named, Bool.false_eq_true,
    if_false]

theorem IsValue.freeEnds (isValue : IsValue value) (quote : Char)
    (listed : some quote ∈ [some '"', some '\'']) : FreeEnds (· == quote) value := by
  constructor
  · intro c starts
    apply beq_false_of_ne
    rintro rfl
    exact isValue.first (starts ▸ listed)
  · intro c ends
    apply beq_false_of_ne
    rintro rfl
    exact isValue.last (ends ▸ listed)

theorem IsValue.unquote (isValue : IsValue value) (quoting : Quoting)
    (neat : quoting = .bare → trim value = value) :
    trimOf '\'' (trimOf '"' (trim (quoting.mark ++ (value ++ quoting.mark)))) = value := by
  have single := isValue.freeEnds '\'' (by decide)
  have double := isValue.freeEnds '"' (by decide)
  cases quoting with
  | bare =>
      rw [Quoting.mark, List.nil_append, List.append_nil, neat rfl,
        trimOf_eq_self '"' value double, trimOf_eq_self '\'' value single]
  | single =>
      have other : FreeEnds (· == '"') ('\'' :: (value ++ ['\''])) :=
        freeEnds_wrapped '\'' (by decide) value
      rw [Quoting.mark, List.singleton_append, trim_wrapped '\'' (by decide),
        trimOf_eq_self '"' _ other, trimOf_wrapped '\'' value single]
  | double =>
      rw [Quoting.mark, List.singleton_append, trim_wrapped '"' (by decide),
        trimOf_wrapped '"' value double, trimOf_eq_self '\'' value single]

end Written

theorem readLine?_of_isAside (text : List Char) (idle : IsAside text) : readLine? text = none := by
  unfold readLine?
  split
  · rfl
  · rename_i read
    rw [Bool.or_eq_true, not_or, List.isEmpty_iff, decide_eq_true_eq] at read
    rcases idle.idle with blank | comment | free
    · exact absurd blank read.1
    · exact absurd comment read.2
    · have uncut : '=' ∉ (strip? "export ".toList (trim text)).getD (trim text) := by
        intro member
        have kept : trim text ⊆ text := stripEnds_subset text
        apply free
        apply kept
        cases stripped : strip? "export ".toList (trim text) with
        | none => rwa [stripped] at member
        | some rest =>
            rw [stripped] at member
            rw [(strip?_eq_some_iff _ _ _).mp stripped]
            exact List.mem_append_right _ member
      rw [readAssignment?, cutAt?_of_not_mem _ _ uncut]
      rfl

namespace EnvironmentLine

theorem last_of_value (quoting : Quoting) (value : List Char)
    (neat : quoting = .bare → trim value = value) :
    ∀ c ∈ ('=' :: (quoting.mark ++ (value ++ quoting.mark))).getLast?, isBlank c = false := by
  have quoted : ∀ quote, isBlank quote = false →
      ∀ c ∈ ('=' :: ([quote] ++ (value ++ [quote]))).getLast?, isBlank c = false := by
    intro quote solid c last
    rw [← List.append_assoc, ← List.cons_append, List.getLast?_concat] at last
    cases last
    exact solid
  cases quoting with
  | single => exact quoted '\'' (by decide)
  | double => exact quoted '"' (by decide)
  | bare =>
      rw [Quoting.mark, List.nil_append, List.append_nil]
      have free := (stripEnds_eq_self_iff value).mp (neat rfl)
      cases value with
      | nil =>
          intro c last
          cases last
          decide
      | cons d value =>
          rw [List.getLast?_cons_cons]
          exact free.last

section Assignment

variable (exported : Bool) {key : String} (isKey : IsKey key.toList) (quoting : Quoting)
  (value : String)

include isKey

theorem exists_first_assignment :
    ∃ c rest, chars (.assignment exported key quoting value) = c :: rest ∧
      isBlank c = false ∧ c ≠ '#' := by
  rw [chars]
  cases exported with
  | true =>
      have spelled : "export ".toList = 'e' :: "xport ".toList := by decide
      rw [if_pos rfl, spelled]
      exact ⟨'e', _, rfl, by decide, by decide⟩
  | false =>
      have free := (stripEnds_eq_self_iff key.toList).mp isKey.trimmed
      obtain ⟨c, rest, spelled⟩ := List.exists_cons_of_ne_nil isKey.nonempty
      have first : key.toList.head? = some c := by rw [spelled, List.head?_cons]
      rw [if_neg Bool.false_ne_true, List.nil_append]
      refine ⟨c, _, congrArg (· ++ _) spelled, free.first c first, ?_⟩
      rintro rfl
      exact isKey.noComment first

theorem trim_assignment (neat : quoting = .bare → trim value.toList = value.toList) :
    trim (chars (.assignment exported key quoting value)) =
      chars (.assignment exported key quoting value) := by
  obtain ⟨c, rest, starts, solid, _⟩ := exists_first_assignment exported isKey quoting value
  rw [trim_eq_stripEnds, stripEnds_eq_self_iff]
  constructor
  · intro first member
    rw [starts] at member
    cases member
    exact solid
  · rw [chars, ← List.append_assoc, List.getLast?_append_of_ne_nil _ (List.cons_ne_nil _ _)]
    exact last_of_value quoting value.toList neat

end Assignment

theorem readLine?_chars (line : EnvironmentLine) (formed : line.Formed) :
    readLine? line.chars = line.pair? := by
  cases line with
  | aside text => exact readLine?_of_isAside text.toList formed
  | assignment exported key quoting value =>
      obtain ⟨isKey, isValue, neat⟩ := formed
      obtain ⟨c, rest, starts, _, noComment⟩ :=
        exists_first_assignment exported isKey quoting value
      have read : ¬((chars (.assignment exported key quoting value)).isEmpty ||
          (chars (.assignment exported key quoting value)).head? = some '#') = true := by
        rw [starts]
        simp [noComment]
      rw [readLine?, trim_assignment exported isKey quoting value neat, if_neg read, chars,
        isKey.readAssignment? exported, isValue.unquote quoting neat, String.ofList_toList,
        String.ofList_toList, pair?]

theorem oneLine_chars (line : EnvironmentLine) (formed : line.Formed) : '\n' ∉ line.chars := by
  cases line with
  | aside text => exact formed.oneLine
  | assignment exported key quoting value =>
      obtain ⟨isKey, isValue, _⟩ := formed
      have word : '\n' ∉ (if exported then "export ".toList else []) := by
        cases exported <;> decide
      have mark : '\n' ∉ quoting.mark := by cases quoting <;> decide
      rw [chars]
      simp only [List.mem_append, List.mem_cons, not_or]
      exact ⟨word, isKey.oneLine, by decide, mark, isValue.oneLine, mark⟩

section Read

variable (line : EnvironmentLine) (formed : line.Formed)

include formed

theorem readLines_line (returned : Bool) (rest : List Char) :
    (Text.lines (line.chars ++ (if returned then ['\r', '\n'] else ['\n']) ++ rest)).filterMap
        readLine? = line.pair?.toList ++ (Text.lines rest).filterMap readLine? := by
  have step : ∀ text, '\n' ∉ text → readLine? text = line.pair? →
      (Text.lines (text ++ '\n' :: rest)).filterMap readLine? =
        line.pair?.toList ++ (Text.lines rest).filterMap readLine? := by
    intro text alone read
    rw [lines_append alone, List.filterMap_cons, readLine?_dropReturn, read]
    cases line.pair? <;> rfl
  have alone := oneLine_chars line formed
  have read := readLine?_chars line formed
  cases returned with
  | false =>
      rw [if_neg Bool.false_ne_true, List.append_assoc]
      exact step line.chars alone read
  | true =>
      have shape : line.chars ++ ['\r', '\n'] ++ rest = line.chars ++ ['\r'] ++ '\n' :: rest := by
        simp
      rw [if_pos rfl, shape]
      exact step _ (by simp [alone]) ((readLine?_concat_return line.chars).trans read)

theorem readLines_last :
    (Text.lines line.chars).filterMap readLine? = line.pair?.toList := by
  have read := readLine?_chars line formed
  rw [lines_of_not_mem (oneLine_chars line formed)]
  split
  · rename_i empty
    rw [← read, List.isEmpty_iff.mp empty]
    rfl
  · rw [List.filterMap_cons, read]
    cases line.pair? <;> rfl

end Read

theorem readLines_ended (lines : List (EnvironmentLine × Bool))
    (formed : ∀ line ∈ lines, line.1.Formed) (rest : List Char) :
    (Text.lines (ended lines ++ rest)).filterMap readLine? =
      lines.filterMap (·.1.pair?) ++ (Text.lines rest).filterMap readLine? := by
  induction lines with
  | nil => rfl
  | cons line lines ih =>
      obtain ⟨head, tail⟩ := List.forall_mem_cons.mp formed
      have first : ended (line :: lines) ++ rest =
          line.1.chars ++ (if line.2 then ['\r', '\n'] else ['\n']) ++ (ended lines ++ rest) := by
        rw [ended, List.flatMap_cons, List.append_assoc]
        rfl
      rw [first, readLines_line line.1 head, ih tail, ← List.append_assoc]
      congr 1
      cases shown : line.1.pair? <;> simp [shown]

end EnvironmentLine

/-- An environment file reads back as the pairs written into it, in order and with repeated keys.
Each stands on a line of its own, after `export` or not and in single, double or no quotes, between
blank lines, comments and lines without a key. Lines end in a line feed, alone or after a carriage
return, and the last one may be left without an end. -/
theorem readEnvironment_written (lines : List (EnvironmentLine × Bool))
    (formed : ∀ line ∈ lines, line.1.Formed) :
    readEnvironment (String.ofList (EnvironmentLine.ended lines)) =
      lines.filterMap (·.1.pair?) ∧
    ∀ last : EnvironmentLine, last.Formed →
      readEnvironment (String.ofList (EnvironmentLine.ended lines ++ last.chars)) =
        lines.filterMap (·.1.pair?) ++ last.pair?.toList := by
  constructor
  · have read := EnvironmentLine.readLines_ended lines formed []
    rw [List.append_nil] at read
    rw [readEnvironment_eq, String.toList_ofList, read]
    exact List.append_nil _
  · intro last complete
    rw [readEnvironment_eq, String.toList_ofList, EnvironmentLine.readLines_ended lines formed,
      last.readLines_last complete]

def spelledLines : List (EnvironmentLine × Bool) :=
  [(.aside " # settings = none", true), (.assignment false "A" .bare "1=2 #3", true),
    (.aside "\t", false), (.assignment true "export" .bare "it's", false),
    (.aside "no pair", false), (.assignment false "A" .double " 'x' ", false)]

/-- It is read as its pairs, also with an empty value in a last line that does not end. -/
theorem readEnvironment_written_spelled :
    let text := " # settings = none\r\nA=1=2 #3\r\n\t\nexport export=it's\n" ++
      "no pair\nA=\" 'x' \"\n"
    (∀ line ∈ spelledLines, line.1.Formed) ∧
      readEnvironment text = [("A", "1=2 #3"), ("export", "it's"), ("A", " 'x' ")] ∧
      readEnvironment (text ++ "B=''") =
        [("A", "1=2 #3"), ("export", "it's"), ("A", " 'x' "), ("B", "")] := by
  intro text
  have formed : ∀ line ∈ spelledLines, line.1.Formed := by decide +kernel
  have written : text = String.ofList (EnvironmentLine.ended spelledLines) := by decide +kernel
  obtain ⟨whole, unended⟩ := readEnvironment_written spelledLines formed
  refine ⟨formed, ?_, ?_⟩
  · rw [written, whole]
    rfl
  · have last := unended (.assignment false "B" .single "") (by decide +kernel)
    rw [String.ofList_append, ← written] at last
    exact last

end Autoland.Text
