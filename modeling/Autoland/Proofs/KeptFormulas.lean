import Autoland.Formula.Compiler
import Autoland.Number.Binary
import Autoland.Proofs.Pairs
import Autoland.Proofs.WrittenFormulas
import Mathlib.Data.Finset.Card

/-! What a compiler keeps. Its answers are those of compiling anew, and only the identity of what it
hands out tells that formulas are kept. -/

namespace Autoland.Formula

def stripped (formula : String) : String := String.ofList (Text.squeeze formula.toList)

namespace Compiler

inductive Request where
  | compile (formula : String)
  | clear
  deriving DecidableEq

variable {ν : Type} [Scalar ν] [Elementary ν]

def serve (compiler : Compiler ν) : Request → Compiler ν
  | .compile formula => (compiler.compile formula).2
  | .clear => compiler.clear

def after (compiler : Compiler ν) (history : List Request) : Compiler ν :=
  history.foldl serve compiler

def compiledText? (operators : Operators ν) : Request → Option String
  | .compile formula =>
    if (Expression.parse operators formula).toOption.isSome then some (stripped formula) else none
  | .clear => none

/-- The texts that compiled since all were forgotten. -/
def recentTexts (operators : Operators ν) (history : List Request) : Finset String :=
  ((history.reverse.takeWhile (· ≠ .clear)).filterMap (compiledText? operators)).toFinset

theorem after_concat (compiler : Compiler ν) (history : List Request) (request : Request) :
    compiler.after (history ++ [request]) = (compiler.after history).serve request :=
  List.foldl_concat ..

theorem after_append (compiler : Compiler ν) (history later : List Request) :
    compiler.after (history ++ later) = (compiler.after history).after later :=
  List.foldl_append ..

section RecentTexts

variable (operators : Operators ν) (history : List Request)

theorem recentTexts_clear : recentTexts operators (history ++ [.clear]) = ∅ := by
  simp [recentTexts]

theorem recentTexts_of_ok (formula : String) (expression : Expression ν)
    (compiles : Expression.parse operators formula = .ok expression) :
    recentTexts operators (history ++ [.compile formula]) =
      insert (stripped formula) (recentTexts operators history) := by
  simp [recentTexts, compiledText?, compiles, Except.toOption]

theorem recentTexts_of_error (formula : String) (error : Error)
    (refused : Expression.parse operators formula = .error error) :
    recentTexts operators (history ++ [.compile formula]) = recentTexts operators history := by
  simp [recentTexts, compiledText?, refused, Except.toOption]

end RecentTexts

theorem parse_stripped (operators : Operators ν) (formula : String) :
    Expression.parse operators (stripped formula) = Expression.parse operators formula := by
  apply Expression.parse_of_squeeze
  rw [stripped, String.toList_ofList, Text.squeeze, Text.squeeze, List.filter_filter]
  simp only [Bool.and_self]

/-- A kept formula is handed out, a new one is kept if it compiles, and nothing else happens. -/
theorem compile_cases (compiler : Compiler ν) (formula : String) :
    (∃ shared, compiler.known.lookup (stripped formula) = some shared ∧
      compiler.compile formula = (.ok shared, compiler)) ∨
    compiler.known.lookup (stripped formula) = none ∧
      ((∃ error, Expression.parse compiler.operators formula = .error error ∧
        compiler.compile formula = (.error error, compiler)) ∨
      ∃ expression, Expression.parse compiler.operators formula = .ok expression ∧
        compiler.compile formula = (.ok ⟨compiler.next, expression⟩,
          { compiler with
            known := (stripped formula, ⟨compiler.next, expression⟩) :: compiler.known
            next := compiler.next + 1 })) := by
  rw [← parse_stripped]
  unfold compile
  rw [← stripped]
  dsimp only
  cases compiler.known.lookup (stripped formula) with
  | some shared => exact .inl ⟨shared, rfl, rfl⟩
  | none =>
      refine .inr ⟨rfl, ?_⟩
      dsimp only
      cases Expression.parse compiler.operators (stripped formula) with
      | error error => exact .inl ⟨error, rfl, rfl⟩
      | ok expression => exact .inr ⟨expression, rfl, rfl⟩

/-- Whether a compiler keeps exactly the formulas of given texts, each as it compiles and each
compiled on its own. -/
structure Keeps (compiler : Compiler ν) (operators : Operators ν) (texts : Finset String) :
    Prop where
  same : compiler.operators = operators
  texts : (compiler.known.map (·.1)).toFinset = texts
  distinct : (compiler.known.map (·.1)).Nodup
  parsed : ∀ entry ∈ compiler.known,
    Expression.parse operators entry.1 = .ok entry.2.expression
  older : ∀ entry ∈ compiler.known, entry.2.serial < compiler.next
  apart : (compiler.known.map (·.2.serial)).Nodup

namespace Keeps

theorem empty (operators : Operators ν) : (ofOperators operators).Keeps operators ∅ where
  same := rfl
  texts := rfl
  distinct := List.nodup_nil
  parsed _ member := nomatch member
  older _ member := nomatch member
  apart := List.nodup_nil

variable {compiler : Compiler ν} {operators : Operators ν} {texts : Finset String}
  (keeps : compiler.Keeps operators texts)

include keeps

theorem size : compiler.size = texts.card := by
  rw [← keeps.texts, List.toFinset_card_of_nodup keeps.distinct, List.length_map, Compiler.size]

theorem clear : compiler.clear.Keeps operators ∅ :=
  { empty operators with
    same := keeps.same
    older := fun _ member => nomatch member }

theorem parse_of_lookup (text : String) (shared : Shared ν)
    (held : compiler.known.lookup text = some shared) :
    Expression.parse operators text = .ok shared.expression :=
  keeps.parsed (text, shared) (mem_of_lookup_eq_some _ _ _ held)

theorem mem_of_lookup (text : String) (shared : Shared ν)
    (held : compiler.known.lookup text = some shared) : text ∈ texts := by
  rw [← keeps.texts, List.mem_toFinset]
  exact List.mem_map_of_mem (f := Prod.fst) (mem_of_lookup_eq_some _ _ _ held)

theorem insert (text : String) (expression : Expression ν)
    (unknown : compiler.known.lookup text = none)
    (compiles : Expression.parse operators text = .ok expression) :
    Keeps { compiler with
        known := (text, ⟨compiler.next, expression⟩) :: compiler.known
        next := compiler.next + 1 } operators (insert text texts) where
  same := keeps.same
  texts := by rw [List.map_cons, List.toFinset_cons, keeps.texts]
  distinct := by
    rw [List.map_cons, List.nodup_cons]
    exact ⟨(lookup_eq_none_iff_unnamed _ _).mp unknown, keeps.distinct⟩
  parsed := List.forall_mem_cons.mpr ⟨compiles, keeps.parsed⟩
  older := by
    refine List.forall_mem_cons.mpr ⟨Nat.lt_succ_self _, ?_⟩
    intro entry member
    exact Nat.lt_succ_of_lt (keeps.older entry member)
  apart := by
    rw [List.map_cons, List.nodup_cons]
    refine ⟨?_, keeps.apart⟩
    intro member
    obtain ⟨entry, inside, same⟩ := List.mem_map.mp member
    exact absurd same (keeps.older entry inside).ne

end Keeps

theorem keeps_after (operators : Operators ν) (history : List Request) :
    ((ofOperators operators).after history).Keeps operators (recentTexts operators history) := by
  induction history using List.reverseRecOn with
  | nil => exact .empty operators
  | append_singleton history request ih =>
      rw [after_concat]
      cases request with
      | clear =>
          rw [recentTexts_clear]
          exact ih.clear
      | compile formula =>
          rcases compile_cases ((ofOperators operators).after history) formula with
            ⟨shared, held, kept⟩ | ⟨unknown, ⟨error, refused, kept⟩ | ⟨expression, fresh, kept⟩⟩
          · have compiles := ih.parse_of_lookup _ shared held
            rw [parse_stripped] at compiles
            rw [serve, kept, recentTexts_of_ok _ _ _ _ compiles,
              Finset.insert_eq_of_mem (ih.mem_of_lookup _ shared held)]
            exact ih
          · rw [ih.same] at refused
            rw [serve, kept, recentTexts_of_error _ _ _ _ refused]
            exact ih
          · rw [ih.same] at fresh
            rw [serve, kept, recentTexts_of_ok _ _ _ _ fresh]
            exact ih.insert _ expression unknown ((parse_stripped operators formula).trans fresh)

section Shared

/-- Whether a serial number was given out, and the formulas kept under it have certain texts. -/
def Only (compiler : Compiler ν) (serial : Nat) (texts : String → Prop) : Prop :=
  serial < compiler.next ∧ ∀ entry ∈ compiler.known, entry.2.serial = serial → texts entry.1

variable {compiler : Compiler ν} {serial : Nat} {texts : String → Prop}

omit [Scalar ν] [Elementary ν] in
theorem Only.clear (only : compiler.Only serial texts) (others : String → Prop) :
    compiler.clear.Only serial others :=
  ⟨only.1, fun _ member => nomatch member⟩

theorem Only.after (only : compiler.Only serial texts) (history : List Request) :
    (compiler.after history).Only serial texts := by
  induction history using List.reverseRecOn with
  | nil => exact only
  | append_singleton history request ih =>
      rw [after_concat]
      cases request with
      | clear => exact ih.clear texts
      | compile formula =>
          rcases compile_cases (compiler.after history) formula with
            ⟨_, _, kept⟩ | ⟨_, ⟨_, _, kept⟩ | ⟨expression, _, kept⟩⟩
          · rwa [serve, kept]
          · rwa [serve, kept]
          · rw [serve, kept]
            refine ⟨Nat.lt_succ_of_lt ih.1, List.forall_mem_cons.mpr ⟨?_, ih.2⟩⟩
            intro same
            exact absurd same ih.1.ne'

theorem lookup_after (text : String) (shared : Shared ν)
    (held : compiler.known.lookup text = some shared) (history : List Request)
    (lasting : .clear ∉ history) : (compiler.after history).known.lookup text = some shared := by
  induction history using List.reverseRecOn with
  | nil => exact held
  | append_singleton history request ih =>
      rw [List.mem_append, not_or] at lasting
      have before := ih lasting.1
      rw [after_concat]
      cases request with
      | clear => exact absurd List.mem_cons_self lasting.2
      | compile formula =>
          rcases compile_cases (compiler.after history) formula with
            ⟨_, _, kept⟩ | ⟨unknown, ⟨_, _, kept⟩ | ⟨expression, _, kept⟩⟩
          · rwa [serve, kept]
          · rwa [serve, kept]
          · have other : text ≠ stripped formula := by
              intro same
              rw [← same, before] at unknown
              cases unknown
            rw [serve, kept, lookup_cons_eq, if_neg other]
            exact before

theorem lookup_of_compiled (formula : String) (shared : Shared ν)
    (compiled : (compiler.compile formula).1 = .ok shared) :
    (compiler.compile formula).2.known.lookup (stripped formula) = some shared ∧
      (compiler.known.lookup (stripped formula) = some shared ∨ shared.serial = compiler.next) := by
  rcases compile_cases compiler formula with
    ⟨held, found, kept⟩ | ⟨_, ⟨_, _, kept⟩ | ⟨expression, _, kept⟩⟩
  · rw [kept] at compiled ⊢
    cases compiled
    exact ⟨found, .inl found⟩
  · rw [kept] at compiled
    cases compiled
  · rw [kept] at compiled ⊢
    cases compiled
    exact ⟨(lookup_cons_eq _ _ _ _).trans (if_pos rfl), .inr rfl⟩

/-- What two requests hand out is one compilation exactly if they ask for one text and nothing was
forgotten between them. -/
theorem Keeps.serial_eq_iff {operators : Operators ν} {kept : Finset String}
    (formula other : String) (between : List Request) (first second : Shared ν)
    (keeps : (compiler.serve (.compile formula)).Keeps operators kept)
    (one : (compiler.compile formula).1 = .ok first)
    (two : (((compiler.serve (.compile formula)).after between).compile other).1 = .ok second) :
    first.serial = second.serial ↔ stripped formula = stripped other ∧ .clear ∉ between := by
  have held : (compiler.serve (.compile formula)).known.lookup (stripped formula) = some first :=
    (lookup_of_compiled formula first one).1
  have again := (lookup_of_compiled other second two).2
  constructor
  · intro same
    have inside := mem_of_lookup_eq_some _ _ _ held
    have only : (compiler.serve (.compile formula)).Only first.serial (· = stripped formula) := by
      refine ⟨keeps.older _ inside, ?_⟩
      intro entry member serial
      exact congrArg Prod.fst (List.inj_on_of_nodup_map keeps.apart member inside serial)
    -- a serial number that was given out is not given out again, so the formula is a kept one
    have shared : ∀ texts,
        ((compiler.serve (.compile formula)).after between).Only first.serial texts →
          texts (stripped other) := by
      intro texts only
      rcases again with found | fresh
      · exact only.2 _ (mem_of_lookup_eq_some _ _ _ found) same.symm
      · exact absurd (same.trans fresh) only.1.ne
    refine ⟨(shared _ (only.after between)).symm, ?_⟩
    intro forgotten
    obtain ⟨front, back, rfl⟩ := List.append_of_mem forgotten
    have cleared := ((only.after front).clear fun _ => False).after back
    rw [after_append] at shared
    exact shared _ cleared
  · rintro ⟨same, lasting⟩
    have found := lookup_after _ first held between lasting
    rw [same] at found
    rcases compile_cases ((compiler.serve (.compile formula)).after between) other with
      ⟨shared, known, answered⟩ | ⟨unknown, _⟩
    · rw [answered] at two
      cases two
      rw [found] at known
      cases known
      rfl
    · rw [found] at unknown
      cases unknown

end Shared

/-- Keeping formulas shows in nothing but what is shared. After any requests a formula compiles to
what it compiles to anew, or is refused as it is then. The compiler keeps one formula for each text
that compiled since it forgot all, and a refused formula changes nothing. Two requests are handed
one compilation exactly if they ask for one text and nothing was forgotten between them. -/
theorem memory_shows_in_sharing_only (operators : Operators ν) (history : List Request)
    (formula : String) :
    let compiler := (ofOperators operators).after history
    (compiler.compile formula).1.map (·.expression) = Expression.parse operators formula ∧
    (∀ shared, (compiler.compile formula).1 = .ok shared →
      shared.expression.source = stripped formula) ∧
    compiler.size = (recentTexts operators history).card ∧
    (∀ error, (compiler.compile formula).1 = .error error →
      (compiler.compile formula).2 = compiler) ∧
    ∀ between other first second, (compiler.compile formula).1 = .ok first →
      (((ofOperators operators).after (history ++ .compile formula :: between)).compile other).1 =
          .ok second →
        (first.serial = second.serial ↔ stripped formula = stripped other ∧ .clear ∉ between) := by
  intro compiler
  have keeps := keeps_after operators history
  have anew : (compiler.compile formula).1.map (·.expression) =
      Expression.parse operators formula := by
    rcases compile_cases compiler formula with
      ⟨shared, held, kept⟩ | ⟨_, ⟨error, refused, kept⟩ | ⟨expression, fresh, kept⟩⟩
    · rw [kept, ← parse_stripped, keeps.parse_of_lookup _ shared held]
      rfl
    · rw [kept, ← keeps.same, refused]
      rfl
    · rw [kept, ← keeps.same, fresh]
      rfl
  refine ⟨anew, ?_, keeps.size, ?_, ?_⟩
  · intro shared compiled
    rw [compiled] at anew
    exact ((Expression.parse_eq_ok_iff operators formula _).mp anew.symm).1
  · intro error refused
    rcases compile_cases compiler formula with
      ⟨_, _, kept⟩ | ⟨_, ⟨_, _, kept⟩ | ⟨_, _, kept⟩⟩
    · rw [kept]
    · rw [kept]
    · rw [kept] at refused
      cases refused
  · intro between other first second one two
    rw [after_append, after, List.foldl_cons] at two
    have later := keeps_after operators (history ++ [.compile formula])
    rw [after_concat] at later
    exact later.serial_eq_iff formula other between first second one two

/-- A sum that compiles again with other white space is the same compilation after a refused
formula, and another one after all were forgotten. -/
theorem memory_shows_in_sharing_only_sum :
    let compiler : Compiler Float := ofOperators Operators.standard
    let begun := [Request.compile "PI", .clear, .compile "Add(1,", .compile "E"]
    let asked := fun history : List Request => ((compiler.after history).compile "Add(1,2)").1
    ∃ first second third : Shared Float, (compiler.after begun).size = 1 ∧
      ((compiler.after begun).compile "Add(1, 2)").1 = .ok first ∧
      asked (begun ++ [.compile "Add(1, 2)", .compile "Add(1,"]) = .ok second ∧
      asked (begun ++ [.compile "Add(1, 2)", .clear]) = .ok third ∧
      first.serial = second.serial ∧ first.serial ≠ third.serial := by
  intro compiler begun asked
  have facts : ((compiler.after begun).compile "Add(1, 2)").1.toOption.any (fun _ => true) = true ∧
      (asked (begun ++ [.compile "Add(1, 2)", .compile "Add(1,"])).toOption.any
        (fun _ => true) = true ∧
      (asked (begun ++ [.compile "Add(1, 2)", .clear])).toOption.any (fun _ => true) = true ∧
      (recentTexts (Operators.standard : Operators Float) begun).card = 1 ∧
      stripped "Add(1, 2)" = stripped "Add(1,2)" := by
    decide +kernel
  obtain ⟨one, two, three, counted, same⟩ := facts
  obtain ⟨first, made, _⟩ := (Option.any_eq_true _ _).mp one
  obtain ⟨second, again, _⟩ := (Option.any_eq_true _ _).mp two
  obtain ⟨third, anew, _⟩ := (Option.any_eq_true _ _).mp three
  replace made := eq_ok_of_toOption made
  replace again := eq_ok_of_toOption again
  replace anew := eq_ok_of_toOption anew
  obtain ⟨_, _, size, _, shared⟩ :=
    memory_shows_in_sharing_only (Operators.standard : Operators Float) begun "Add(1, 2)"
  refine ⟨first, second, third, size.trans counted, made, again, anew, ?_, ?_⟩
  · exact (shared [.compile "Add(1,"] _ first second made again).mpr ⟨same, by decide⟩
  · intro equal
    exact absurd List.mem_cons_self ((shared [.clear] _ first third made anew).mp equal).2

end Compiler

end Autoland.Formula
