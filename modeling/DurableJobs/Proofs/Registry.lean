import DurableJobs.Engine.Tick
import DurableJobs.Proofs.Bytes
import Mathlib.Data.Finset.Card
import Mathlib.Data.List.Sort

/-!
What is registered, and what a tick leaves out for lack of slots.

Of all registrations of a type the first one counts, and every later one is refused. So each type has
one executor, and the views of a registry agree: its types, in the order of their bytes, are those of
the three kinds put together, and a tick leaves out just those of the pools without a free slot.
-/

set_option autoImplicit false

namespace DurableJobs

namespace Registry

/-- Each type is registered once, as `register` sees to. -/
def Distinct (registry : Registry) : Prop :=
  (registry.entries.map Prod.fst).Nodup

theorem distinct_empty : empty.Distinct := .nil

theorem not_mem_map_fst_iff {entries : List (String × ExecutorKind)} {jobType : String} :
    jobType ∉ entries.map Prod.fst ↔ ∀ entry ∈ entries, ¬ (entry.1 == jobType) = true := by
  simp only [List.mem_map, not_exists, not_and, beq_iff_eq]

theorem kindOf_eq_none_iff {registry : Registry} {jobType : String} :
    registry.kindOf jobType = none ↔ jobType ∉ registry.entries.map Prod.fst := by
  rw [kindOf, Option.map_eq_none_iff, List.find?_eq_none, not_mem_map_fst_iff]

theorem Distinct.register {registry after : Registry} {jobType : String} {kind : ExecutorKind}
    (distinct : registry.Distinct) (registered : registry.register jobType kind = .ok after) :
    after.Distinct := by
  unfold Registry.register at registered
  split at registered
  · cases registered
  · next unused =>
      obtain rfl := Except.ok.inj registered
      rw [isRegistered, Bool.not_eq_true, Option.isSome_eq_false_iff, Option.isNone_iff_eq_none,
        kindOf_eq_none_iff] at unused
      rw [Distinct, List.map_append]
      refine List.Nodup.append distinct (by simp) ?_
      simpa using unused

theorem Distinct.kindOf_of_mem {registry : Registry} (distinct : registry.Distinct)
    {entry : String × ExecutorKind} (member : entry ∈ registry.entries) :
    registry.kindOf entry.1 = some entry.2 := by
  cases found : registry.entries.find? fun other => other.1 == entry.1 with
  | none =>
      have other := List.find?_eq_none.mp found entry member
      simp at other
  | some other =>
      have same : other.1 = entry.1 := by simpa using List.find?_some found
      have isEntry : other = entry :=
        List.inj_on_of_nodup_map distinct (List.mem_of_find?_eq_some found) member same
      simp [kindOf, found, isEntry]

theorem mem_typesOf_of_kindOf {registry : Registry} {jobType : String} {kind : ExecutorKind}
    (isKind : registry.kindOf jobType = some kind) : jobType ∈ registry.typesOf kind := by
  obtain ⟨entry, found, sameKind⟩ := Option.map_eq_some_iff.mp isKind
  have sameType : entry.1 = jobType := by simpa using List.find?_some found
  exact List.mem_map.mpr ⟨entry,
    List.mem_filter.mpr ⟨List.mem_of_find?_eq_some found, by simp [sameKind]⟩, sameType⟩

theorem Distinct.mem_typesOf_iff {registry : Registry} (distinct : registry.Distinct)
    {jobType : String} {kind : ExecutorKind} :
    jobType ∈ registry.typesOf kind ↔ registry.kindOf jobType = some kind := by
  refine ⟨fun member => ?_, mem_typesOf_of_kindOf⟩
  obtain ⟨entry, listed, rfl⟩ := List.mem_map.mp member
  obtain ⟨isEntry, sameKind⟩ := List.mem_filter.mp listed
  rw [distinct.kindOf_of_mem isEntry, beq_iff_eq.mp sameKind]

/-! ### The views -/

theorem insertSorted_eq_orderedInsert (text : String) (texts : List String) :
    insertSorted text texts = texts.orderedInsert (· ≤ ·) text := by
  induction texts with
  | nil => rfl
  | cons other rest ih => rw [insertSorted, List.orderedInsert_cons, ih]

theorem sorted_eq_insertionSort (texts : List String) :
    sorted texts = texts.insertionSort (· ≤ ·) := by
  induction texts with
  | nil => rfl
  | cons text rest ih =>
      rw [sorted, List.insertionSort_cons, ih, insertSorted_eq_orderedInsert]

theorem types_perm (registry : Registry) : registry.types.Perm (registry.entries.map Prod.fst) := by
  rw [types, sorted_eq_insertionSort]
  exact List.perm_insertionSort _ _

/-- Each entry is of one of the three kinds. -/
theorem typesOf_perm (registry : Registry) :
    (ExecutorKind.all.flatMap registry.typesOf).Perm (registry.entries.map Prod.fst) := by
  obtain ⟨entries⟩ := registry
  induction entries with
  | nil => exact .nil
  | cons entry rest ih =>
      simp only [ExecutorKind.all, List.flatMap_cons, List.flatMap_nil, List.append_nil] at ih ⊢
      obtain ⟨jobType, kind⟩ := entry
      cases kind with
      | transactional => exact ih.cons jobType
      | normal => exact List.perm_middle.trans (ih.cons jobType)
      | longRunning =>
          refine .trans ?_ (ih.cons jobType)
          rw [← List.append_assoc, ← List.append_assoc]
          exact List.perm_middle

theorem Distinct.types_increasing {registry : Registry} (distinct : registry.Distinct) :
    registry.types.Pairwise fun left right => Bytes.ofText left < Bytes.ofText right := by
  have ascending : registry.types.Pairwise (· ≤ ·) := by
    rw [types, sorted_eq_insertionSort]
    exact List.pairwise_insertionSort _ _
  have different : registry.types.Nodup := registry.types_perm.nodup_iff.mpr distinct
  refine (ascending.and different).imp fun both => ?_
  exact Bytes.ofText_lt_ofText_iff.mpr (lt_of_le_of_ne both.1 both.2)

theorem Distinct.mem_excluded_iff_kindOf {registry : Registry} (distinct : registry.Distinct)
    {lanes : Lanes} {jobType : String} :
    jobType ∈ lanes.excluded registry ↔
      (registry.kindOf jobType = some .normal ∧ lanes.normal = 0) ∨
        (registry.kindOf jobType = some .longRunning ∧ lanes.longRunning = 0) := by
  rw [Lanes.excluded, List.mem_append, ← distinct.mem_typesOf_iff, ← distinct.mem_typesOf_iff]
  by_cases normal : lanes.normal = 0 <;> by_cases longRunning : lanes.longRunning = 0 <;>
    simp [normal, longRunning]

/-- A type of a transactional executor is never left out for lack of slots. -/
theorem Distinct.not_mem_excluded {registry : Registry} (distinct : registry.Distinct)
    (lanes : Lanes) {jobType : String} (isKind : registry.kindOf jobType = some .transactional) :
    jobType ∉ lanes.excluded registry := by
  rw [distinct.mem_excluded_iff_kindOf, isKind]
  simp

theorem length_typesOf_le (registry : Registry) :
    (registry.typesOf .normal).length + (registry.typesOf .longRunning).length ≤
      registry.entries.length := by
  obtain ⟨entries⟩ := registry
  simp only [typesOf, List.length_map]
  induction entries with
  | nil => exact Nat.le_refl 0
  | cons entry rest ih =>
      obtain ⟨jobType, kind⟩ := entry
      cases kind <;> simp <;> omega

/-- A tick asks for no more types to be left out than there are, and so for no more than the store
takes. -/
theorem length_excluded_le (registry : Registry) (lanes : Lanes)
    (few : registry.entries.length ≤ Store.Table.excludedLimit) :
    (lanes.excluded registry).length ≤ Store.Table.excludedLimit := by
  have all := registry.length_typesOf_le
  rw [Lanes.excluded, List.length_append]
  by_cases normal : lanes.normal = 0 <;> by_cases longRunning : lanes.longRunning = 0 <;>
    simp only [normal, longRunning, if_true, if_false, List.length_nil] <;> omega

theorem Distinct.nodup_excluded {registry : Registry} (distinct : registry.Distinct)
    (lanes : Lanes) : (lanes.excluded registry).Nodup := by
  have pooled : (registry.typesOf .normal ++ registry.typesOf .longRunning).Nodup := by
    have all := registry.typesOf_perm.nodup_iff.mpr distinct
    simp only [ExecutorKind.all, List.flatMap_cons, List.flatMap_nil, List.append_nil] at all
    exact all.of_append_right
  refine pooled.sublist (List.Sublist.append ?_ ?_)
  · split
    · exact .refl _
    · exact List.nil_sublist _
  · split
    · exact .refl _
    · exact List.nil_sublist _

/-! ### Sequences of registrations -/

/-- A registration that is called for: what it answers, and the registry that is there then. One that
is refused leaves the registry as it was. -/
def call (registry : Registry) (entry : String × ExecutorKind) :
    Except EngineError Unit × Registry :=
  match registry.register entry.1 entry.2 with
  | .ok after => (.ok (), after)
  | .error error => (.error error, registry)

def callAll (registry : Registry) (entries : List (String × ExecutorKind)) : Registry :=
  entries.foldl (fun current entry => (current.call entry).2) registry

theorem call_of_registered {registry : Registry} {entry : String × ExecutorKind}
    (registered : registry.isRegistered entry.1 = true) :
    registry.call entry = (.error (.alreadyRegistered entry.1), registry) := by
  rw [call, register, if_pos registered]

theorem call_of_unregistered {registry : Registry} {entry : String × ExecutorKind}
    (unregistered : registry.isRegistered entry.1 = false) :
    registry.call entry = (.ok (), ⟨registry.entries ++ [entry]⟩) := by
  rw [call, register, if_neg (by simp [unregistered])]

theorem Distinct.call {registry : Registry} (distinct : registry.Distinct)
    (entry : String × ExecutorKind) : (registry.call entry).2.Distinct := by
  unfold Registry.call
  split
  · next registered => exact distinct.register registered
  · exact distinct

theorem Distinct.callAll {registry : Registry} (distinct : registry.Distinct)
    (entries : List (String × ExecutorKind)) : (registry.callAll entries).Distinct := by
  induction entries generalizing registry with
  | nil => exact distinct
  | cons entry rest ih => exact ih (distinct.call entry)

theorem kindOf_call (registry : Registry) (entry : String × ExecutorKind) (jobType : String) :
    (registry.call entry).2.kindOf jobType =
      (registry.kindOf jobType).or (if entry.1 = jobType then some entry.2 else none) := by
  cases known : registry.isRegistered entry.1 with
  | true =>
      rw [call_of_registered known]
      split
      · next same =>
        obtain ⟨kind, isKind⟩ := Option.isSome_iff_exists.mp known
        rw [← same, isKind]
        rfl
      · exact Option.or_none.symm
  | false =>
      rw [call_of_unregistered known, kindOf, kindOf, List.find?_append, Option.map_or]
      by_cases same : entry.1 = jobType <;> simp [same]

/-- What was registered before stays; otherwise the first of the calls counts. -/
theorem kindOf_callAll (registry : Registry) (entries : List (String × ExecutorKind))
    (jobType : String) :
    (registry.callAll entries).kindOf jobType =
      (registry.kindOf jobType).or
        ((entries.find? fun entry => entry.1 == jobType).map Prod.snd) := by
  induction entries generalizing registry with
  | nil => exact Option.or_none.symm
  | cons entry rest ih =>
      have later : registry.callAll (entry :: rest) = (registry.call entry).2.callAll rest := rfl
      rw [later, ih, kindOf_call, Option.or_assoc]
      congr 1
      by_cases same : entry.1 = jobType
      · rw [if_pos same, List.find?_cons_of_pos (by simp [same])]
        rfl
      · rw [if_neg same, List.find?_cons_of_neg (by simp [same])]
        rfl

theorem kindOf_callAll_eq_some_iff {calls : List (String × ExecutorKind)} {jobType : String}
    {kind : ExecutorKind} :
    (empty.callAll calls).kindOf jobType = some kind ↔
      ∃ earlier later, calls = earlier ++ (jobType, kind) :: later ∧
        jobType ∉ earlier.map Prod.fst := by
  have nothing : empty.kindOf jobType = none := rfl
  simp only [kindOf_callAll, nothing, Option.none_or, Option.map_eq_some_iff,
    List.find?_eq_some_iff_append, not_mem_map_fst_iff, Bool.not_eq_true, Bool.not_eq_true']
  constructor
  · rintro ⟨entry, ⟨same, earlier, later, rfl, others⟩, rfl⟩
    obtain rfl := beq_iff_eq.mp same
    exact ⟨earlier, later, rfl, others⟩
  · rintro ⟨earlier, later, rfl, others⟩
    exact ⟨(jobType, kind), ⟨beq_self_eq_true jobType, earlier, later, rfl, others⟩, rfl⟩

theorem kindOf_callAll_eq_none_iff {calls : List (String × ExecutorKind)} {jobType : String} :
    (empty.callAll calls).kindOf jobType = none ↔ jobType ∉ calls.map Prod.fst := by
  have nothing : empty.kindOf jobType = none := rfl
  rw [kindOf_callAll, nothing, Option.none_or, Option.map_eq_none_iff, List.find?_eq_none,
    not_mem_map_fst_iff]

/-- What a registry tells, and how it answers the next call, once it was called for these. -/
structure Reflects (registry : Registry) (calls : List (String × ExecutorKind)) : Prop where
  known : ∀ jobType kind, registry.kindOf jobType = some kind ↔
    ∃ earlier later, calls = earlier ++ (jobType, kind) :: later ∧ jobType ∉ earlier.map Prod.fst
  unknown : ∀ jobType, registry.kindOf jobType = none ↔ jobType ∉ calls.map Prod.fst
  accepts : ∀ jobType kind, jobType ∉ calls.map Prod.fst →
    (registry.call (jobType, kind)).1 = .ok ()
  refuses : ∀ jobType kind, jobType ∈ calls.map Prod.fst →
    registry.call (jobType, kind) = (.error (.alreadyRegistered jobType), registry)
  increasing : registry.types.Pairwise fun left right => Bytes.ofText left < Bytes.ofText right
  typesOf : ∀ jobType kind, jobType ∈ registry.typesOf kind ↔ registry.kindOf jobType = some kind
  union : registry.types.Perm (ExecutorKind.all.flatMap registry.typesOf)
  disjoint : ∀ kind other, kind ≠ other → (registry.typesOf kind).Disjoint (registry.typesOf other)
  size : registry.size = (calls.map Prod.fst).toFinset.card
  /-- A tick leaves out the types of the pools without a free slot. -/
  excluded : ∀ (lanes : Lanes) jobType, jobType ∈ lanes.excluded registry ↔
    (registry.kindOf jobType = some .normal ∧ lanes.normal = 0) ∨
      (registry.kindOf jobType = some .longRunning ∧ lanes.longRunning = 0)
  excludedOnce : ∀ lanes : Lanes, (lanes.excluded registry).Nodup
  transactional : ∀ (lanes : Lanes) jobType, registry.kindOf jobType = some .transactional →
    jobType ∉ lanes.excluded registry

/-- Of all registrations of a type the first one decides. -/
theorem first_registration_decides (calls : List (String × ExecutorKind)) :
    (empty.callAll calls).Reflects calls := by
  have distinct : (empty.callAll calls).Distinct := distinct_empty.callAll calls
  have unregistered : ∀ jobType, (empty.callAll calls).isRegistered jobType = false ↔
      jobType ∉ calls.map Prod.fst := by
    intro jobType
    rw [isRegistered, Option.isSome_eq_false_iff, Option.isNone_iff_eq_none,
      kindOf_callAll_eq_none_iff]
  refine
    { known := fun _ _ => kindOf_callAll_eq_some_iff
      unknown := fun _ => kindOf_callAll_eq_none_iff
      accepts := ?_
      refuses := ?_
      increasing := distinct.types_increasing
      typesOf := fun _ _ => distinct.mem_typesOf_iff
      union := (types_perm _).trans (typesOf_perm _).symm
      disjoint := ?_
      size := ?_
      excluded := fun _ _ => distinct.mem_excluded_iff_kindOf
      excludedOnce := distinct.nodup_excluded
      transactional := fun lanes _ => distinct.not_mem_excluded lanes }
  · intro jobType kind new
    rw [call_of_unregistered ((unregistered jobType).mpr new)]
  · intro jobType kind again
    refine call_of_registered (Bool.of_not_eq_false fun new => ?_)
    exact (unregistered jobType).mp new again
  · intro kind other different jobType isKind isOther
    rw [distinct.mem_typesOf_iff] at isKind isOther
    exact different (Option.some.inj (isKind.symm.trans isOther))
  · have sameTypes :
        ((empty.callAll calls).entries.map Prod.fst).toFinset = (calls.map Prod.fst).toFinset := by
      ext jobType
      rw [List.mem_toFinset, List.mem_toFinset, ← not_iff_not, ← kindOf_eq_none_iff,
        kindOf_callAll_eq_none_iff]
    rw [← sameTypes, List.toFinset_card_of_nodup distinct, List.length_map, Registry.size]

example :
    empty.callAll [("mail", .normal), ("audit", .transactional), ("mail", .longRunning)] =
      ⟨[("mail", .normal), ("audit", .transactional)]⟩ := by
  decide

end Registry

end DurableJobs
