import Autoland.Proofs.CommandBounds
import Autoland.Proofs.CommandOrder

/-! Records after several fields were set: what stays, what is written last, and when nothing
changes. -/

namespace Autoland

open Problem

namespace Record

theorem names_insertBucket (field : String) (bucket : Int) (buckets : List (String × Int))
    (carried : field ∈ buckets.map (·.1)) :
    (insertBucket field bucket buckets).map (·.1) = buckets.map (·.1) := by
  induction buckets with
  | nil => cases carried
  | cons entry buckets ih =>
      obtain ⟨name, old⟩ := entry
      rw [insertBucket]
      split
      · rename_i same
        rw [List.map_cons, List.map_cons, same]
      · rename_i differs
        rw [List.map_cons, List.mem_cons] at carried
        rw [List.map_cons, List.map_cons, ih (carried.resolve_left (Ne.symm differs))]

theorem names_foldl_insertBucket (buckets held : List (String × Int))
    (carried : ∀ entry ∈ buckets, entry.1 ∈ held.map (·.1)) :
    (buckets.foldl (fun held entry => insertBucket entry.1 entry.2 held) held).map (·.1) =
      held.map (·.1) := by
  induction buckets generalizing held with
  | nil => rfl
  | cons entry buckets ih =>
      obtain ⟨head, tail⟩ := List.forall_mem_cons.mp carried
      have kept := names_insertBucket entry.1 entry.2 held head
      rw [List.foldl_cons, ih _ (kept ▸ tail), kept]

variable {ν : Type}

def Distinct (record : Record ν) : Prop := (record.buckets.map (·.1)).Nodup

variable [Scalar ν]

def bucketsOf (definition : Definition ν) (values : List (String × ν)) : List (String × Int) :=
  values.map fun entry => (entry.1, (definition.quantizer entry.1).bucket entry.2)

theorem setAll_eq (record : Record ν) (values : List (String × ν)) :
    record.setAll values = { record with
      buckets := (bucketsOf record.definition values).foldl
        (fun held entry => insertBucket entry.1 entry.2 held) record.buckets } := by
  induction values generalizing record with
  | nil => rfl
  | cons entry values ih => exact ih (record.set entry.1 entry.2)

theorem Distinct.setAll {record : Record ν} (distinct : record.Distinct)
    (values : List (String × ν)) : (record.setAll values).Distinct := by
  rw [setAll_eq]
  exact nodup_foldl_insertBucket _ _ distinct

theorem bucket?_setAll (record : Record ν) (values : List (String × ν)) (name : String) :
    (record.setAll values).bucket? name =
      ((bucketsOf record.definition values).reverse.lookup name).or (record.bucket? name) := by
  rw [setAll_eq]
  exact lookup_foldl_insertBucket _ _ name

theorem setAll_eq_self (record : Record ν) (distinct : record.Distinct)
    (values : List (String × ν))
    (held : ∀ name bucket, (bucketsOf record.definition values).reverse.lookup name = some bucket →
      record.bucket? name = some bucket) : record.setAll values = record := by
  have carried : ∀ entry ∈ bucketsOf record.definition values,
      entry.1 ∈ record.buckets.map (·.1) := by
    intro entry member
    cases found : (bucketsOf record.definition values).reverse.lookup entry.1 with
    | none =>
        have unnamed := (lookup_eq_none_iff_unnamed _ _).mp found
        exact absurd (List.mem_map_of_mem (List.mem_reverse.mpr member)) unnamed
    | some bucket =>
        have member := mem_of_lookup_eq_some _ _ _ (held entry.1 bucket found)
        exact List.mem_map.mpr ⟨_, member, rfl⟩
  have names := names_foldl_insertBucket _ record.buckets carried
  have buckets : (record.setAll values).buckets = record.buckets := by
    refine eq_of_lookup_eq _ _ ?_ (distinct.setAll values) fun name => ?_
    · rw [setAll_eq]
      exact names
    · have read := bucket?_setAll record values name
      rw [bucket?] at read
      rw [read]
      cases found : (bucketsOf record.definition values).reverse.lookup name with
      | none => rfl
      | some bucket => exact (held name bucket found).symm
  rw [setAll_eq] at buckets ⊢
  exact congrArg (Record.mk record.definition record.axis) buckets

/-- Whether a record has an owner and buckets in common with another one, apart from the buckets
under certain names. -/
structure AgreesOff (names : List String) (one two : Record ν) : Prop where
  owner : SameOwner one two
  buckets : ∀ name ∉ names, two.bucket? name = one.bucket? name

namespace AgreesOff

variable {names : List String} {one two three : Record ν}

omit [Scalar ν] in
theorem refl (names : List String) (record : Record ν) : AgreesOff names record record :=
  ⟨⟨rfl, rfl⟩, fun _ _ => rfl⟩

theorem value? (agrees : AgreesOff names one two) (name : String) (outside : name ∉ names) :
    two.value? name = one.value? name := by
  rw [Record.value?, Record.value?, agrees.buckets name outside, agrees.owner.1]

theorem set (agrees : AgreesOff names one two) (field : String) (value : ν)
    (inside : field ∈ names) : AgreesOff names one (two.set field value) := by
  refine ⟨agrees.owner, fun name outside => ?_⟩
  rw [← agrees.buckets name outside]
  refine (lookup_insertBucket _ _ _ name).trans (if_neg ?_)
  rintro rfl
  exact outside inside

theorem setAll (agrees : AgreesOff names one two) (values : List (String × ν))
    (inside : ∀ entry ∈ values, entry.1 ∈ names) : AgreesOff names one (two.setAll values) := by
  induction values generalizing two with
  | nil => exact agrees
  | cons entry values ih =>
      obtain ⟨head, tail⟩ := List.forall_mem_cons.mp inside
      exact ih (agrees.set entry.1 entry.2 head) tail

end AgreesOff

/-- Writes that do not read what any of them sets can all be told from the record before them. -/
theorem foldl_writes {α : Type} (names : List String)
    (write : Record ν → α → Option (String × ν)) (items : List α)
    (stable : ∀ item ∈ items, ∀ one two, AgreesOff names one two → write two item = write one item)
    (inside : ∀ item ∈ items, ∀ record entry, write record item = some entry → entry.1 ∈ names)
    (record : Record ν) :
    items.foldl (fun held item =>
        match write held item with
        | some entry => held.set entry.1 entry.2
        | none => held) record = record.setAll (items.filterMap (write record)) := by
  suffices general : ∀ current, AgreesOff names record current →
      items.foldl (fun held item =>
        match write held item with
        | some entry => held.set entry.1 entry.2
        | none => held) current = current.setAll (items.filterMap (write record)) by
    exact general record (.refl names record)
  induction items with
  | nil => exact fun _ _ => rfl
  | cons item items ih =>
      intro current agrees
      obtain ⟨head, tail⟩ := List.forall_mem_cons.mp stable
      obtain ⟨first, others⟩ := List.forall_mem_cons.mp inside
      rw [List.foldl_cons, List.filterMap_cons, head record current agrees]
      cases written : write record item with
      | none => exact ih tail others current agrees
      | some entry =>
          exact ih tail others _ (agrees.set entry.1 entry.2 (first record entry written))

end Record

end Autoland
