import DurableJobs.Proofs.Store.Histories

/-!
What operations do to the keys of a table, by their own account.

An operation that enqueues nothing leaves rows with the ids and keys that there were. Which of them
are pending, and which are gone, is what its answer says of the records that it was to make pending
again.
-/

set_option autoImplicit false

namespace DurableJobs.Store

/-- What an operation that enqueues nothing does to the keys of a table, by its own account: rows
come from rows with their key, are pending only if they were or came back, and vanish from a table in
which others come back only when they give way. -/
structure Turn (before : Table) (replies : List (Int × Rescheduled)) (after : Table) : Prop where
  kept : ∀ row ∈ after.rows, ∃ old ∈ before.rows, old.id = row.id ∧
    old.debounceKey = row.debounceKey ∧
    (row.state = .pending → old.state = .pending ∨ ∃ time, (row.id, .pending time) ∈ replies)
  back : ∀ id time, (id, .pending time) ∈ replies →
    ∃ row ∈ after.rows, row.id = id ∧ row.state = .pending
  gaveWay : ∀ id survivor, (id, .superseded survivor) ∈ replies →
    (∃ row ∈ before.rows, ∃ holder ∈ after.rows, ∃ key, row.id = id ∧ holder.id = survivor ∧
      holder.state = .pending ∧ row.debounceKey = .text key ∧ holder.debounceKey = .text key) ∧
    ∀ row ∈ after.rows, row.id ≠ id
  gone : ∀ row ∈ before.rows, (∀ other ∈ after.rows, other.id ≠ row.id) →
    replies = [] ∨ ∃ survivor, (row.id, .superseded survivor) ∈ replies

namespace Turn

theorem refl (table : Table) : Turn table [] table where
  kept := fun row member => ⟨row, member, rfl, rfl, .inl⟩
  back := by simp
  gaveWay := by simp
  gone := fun _ _ _ => .inl rfl

theorem missing (table : Table) (id : Int) : Turn table [(id, .missing)] table where
  kept := fun row member => ⟨row, member, rfl, rfl, .inl⟩
  back := by simp
  gaveWay := by simp
  gone := fun row member absent => absurd rfl (absent row member)

theorem put {table : Table} {row edited : Row} (member : row ∈ table.rows)
    (sameId : edited.id = row.id) (sameKey : edited.debounceKey = row.debounceKey)
    (notPending : edited.state ≠ .pending) : Turn table [] (table.put edited) where
  kept := by
    intro other otherMember
    rcases Table.mem_put.mp otherMember with ⟨rfl, _⟩ | ⟨otherMember, _⟩
    · exact ⟨row, member, sameId.symm, sameKey.symm, fun pending => absurd pending notPending⟩
    · exact ⟨other, otherMember, rfl, rfl, .inl⟩
  back := by simp
  gaveWay := by simp
  gone := fun _ _ _ => .inl rfl

theorem erase (table : Table) (id : Int) : Turn table [] (table.erase id) where
  kept := fun row member => ⟨row, (Table.mem_erase.mp member).1, rfl, rfl, .inl⟩
  back := by simp
  gaveWay := by simp
  gone := fun _ _ _ => .inl rfl

theorem superseded {table : Table} {row survivor : Row} (member : row ∈ table.rows)
    (held : table.survivor? row = some survivor) :
    Turn table [(row.id, .superseded survivor.id)] (table.erase row.id) where
  kept := fun other otherMember => ⟨other, (Table.mem_erase.mp otherMember).1, rfl, rfl, .inl⟩
  back := by simp
  gaveWay := by
    intro id other reply
    obtain ⟨rfl, isSurvivor⟩ := Prod.mk.inj (List.mem_singleton.mp reply)
    cases isSurvivor
    obtain ⟨key, isKey, survivorMember, pending, sameKey, different⟩ := Table.of_survivor? held
    exact ⟨⟨row, member, survivor, Table.mem_erase.mpr ⟨survivorMember, different⟩, key, rfl, rfl,
      pending, isKey, sameKey⟩, fun other otherMember => (Table.mem_erase.mp otherMember).2⟩
  gone := by
    intro other otherMember absent
    by_cases same : other.id = row.id
    · exact .inr ⟨survivor.id, by simp [same]⟩
    · exact absurd rfl (absent other (Table.mem_erase.mpr ⟨otherMember, same⟩))

theorem pending {table : Table} {row edited : Row} (time : Instant) (member : row ∈ table.rows)
    (sameId : edited.id = row.id) (sameKey : edited.debounceKey = row.debounceKey)
    (isPending : edited.state = .pending) :
    Turn table [(row.id, .pending time)] (table.put edited) where
  kept := by
    intro other otherMember
    rcases Table.mem_put.mp otherMember with ⟨rfl, _⟩ | ⟨otherMember, _⟩
    · exact ⟨row, member, sameId.symm, sameKey.symm, fun _ => .inr ⟨time, by simp [sameId]⟩⟩
    · exact ⟨other, otherMember, rfl, rfl, .inl⟩
  back := by
    intro id other reply
    obtain ⟨rfl, _⟩ := Prod.mk.inj (List.mem_singleton.mp reply)
    exact ⟨edited, Table.mem_put.mpr (.inl ⟨rfl, row, member, sameId.symm⟩), sameId, isPending⟩
  gaveWay := by simp
  gone := by
    intro other otherMember absent
    by_cases same : other.id = row.id
    · exact absurd (sameId.trans same.symm)
        (absent edited (Table.mem_put.mpr (.inl ⟨rfl, row, member, sameId.symm⟩)))
    · exact absurd rfl (absent other (Table.mem_put.mpr (.inr ⟨otherMember, sameId ▸ same⟩)))

end Turn

theorem Table.RescheduledAll.turn {table after : Table} {ids : List Int} {notBefore now : Instant}
    {replies : List (Int × Rescheduled)} (consistent : table.Consistent)
    (spec : RescheduledAll table ids notBefore now replies after)
    (present : ∀ id ∈ ids, ∃ row ∈ table.rows, row.id = id) : Turn table replies after := by
  have afterConsistent := spec.reaches.consistent consistent
  -- The reply on an id of the list says what the table holds under it in the end.
  have replied : ∀ id ∈ ids, (∃ time, (id, Rescheduled.pending time) ∈ replies) ∨
      ∃ survivor, (id, Rescheduled.superseded survivor) ∈ replies := by
    intro id listed
    obtain ⟨⟨_, reply⟩, member, rfl⟩ := List.mem_map.mp (spec.ids_eq ▸ listed)
    cases reply with
    | pending time => exact .inl ⟨time, member⟩
    | superseded survivor => exact .inr ⟨survivor, member⟩
    | missing =>
        obtain ⟨row, rowMember, same⟩ := present _ listed
        exact absurd same (find?_eq_none_iff.mp (spec.missing _ member) row rowMember)
  constructor
  · intro row member
    have found := afterConsistent.find?_of_mem member
    by_cases listed : row.id ∈ ids
    · rcases replied row.id listed with ⟨time, reply⟩ | ⟨survivor, reply⟩
      · obtain ⟨_, old, oldFound, moved⟩ := spec.pending row.id time reply
        obtain rfl := Option.some.inj (found.symm.trans moved)
        exact ⟨old, mem_of_find? oldFound, rfl, rfl, fun _ => .inr ⟨time, reply⟩⟩
      · simp [(spec.superseded row.id survivor reply).1] at found
    · rw [spec.unchanged row.id listed] at found
      exact ⟨row, mem_of_find? found, rfl, rfl, .inl⟩
  · intro id time reply
    obtain ⟨_, row, found, moved⟩ := spec.pending id time reply
    exact ⟨_, mem_of_find? moved, id_of_find? moved, rfl⟩
  · intro id survivor reply
    obtain ⟨gone, row, holder, key, found, isKey, held, pending, sameKey⟩ :=
      spec.superseded id survivor reply
    exact ⟨⟨row, mem_of_find? found, holder, mem_of_find? held, key, id_of_find? found,
      id_of_find? held, pending, isKey, sameKey⟩, find?_eq_none_iff.mp gone⟩
  · intro row member absent
    by_cases listed : row.id ∈ ids
    · rcases replied row.id listed with ⟨time, reply⟩ | superseded
      · obtain ⟨_, old, _, moved⟩ := spec.pending row.id time reply
        exact absurd (id_of_find? moved) (absent _ (mem_of_find? moved))
      · exact .inr superseded
    · have found := spec.unchanged row.id listed
      rw [find?_eq_none_iff.mpr absent, consistent.find?_of_mem member] at found
      cases found

namespace Table

/-- The records that an operation was to make pending again, and what it answers on them. -/
def comebacks (table : Table) (operation : Operation) : List (Int × Rescheduled) :=
  match (table.perform operation).1 with
  | .ok reply => reply.rescheduledRecords
  | .error _ => []

theorem Consistent.settle_turn {table : Table} (consistent : table.Consistent) (record : Record)
    (result : Except JobError Outcome) (policy : RetryPolicy) (draw : Nat) (now : Instant) :
    Turn table (table.comebacks (.settle record result policy draw now))
      (table.settle record result policy draw now).2 := by
  have answered : ∀ {settlement after},
      table.settle record result policy draw now = (.ok settlement, after) →
      Turn table (Reply.settled record.id settlement).rescheduledRecords after →
      Turn table (table.comebacks (.settle record result policy draw now))
        (table.settle record result policy draw now).2 := by
    intro settlement after answer turn
    rw [comebacks, perform, answer]
    exact turn
  rcases consistent.settle_cases record result policy draw now with
    ⟨_, answer⟩ | ⟨row, found, answer⟩
  · exact answered answer (.refl table)
  · have member := mem_of_find? found
    have here := id_of_find? found
    cases verdict : Verdict.of record result policy draw now with
    | remove =>
        simp only [verdict] at answer
        exact answered answer (.erase table record.id)
    | giveUp failure =>
        simp only [verdict] at answer
        exact answered answer (.put member rfl rfl (by simp))
    | comeBack notBefore failure =>
        cases held : table.survivor? row with
        | some survivor =>
            simp only [verdict, held] at answer
            exact answered answer (here ▸ .superseded member held)
        | none =>
            simp only [verdict, held] at answer
            exact answered answer (here ▸ .pending notBefore member (by simp) (by simp) (by simp))

end Table

theorem Table.Consistent.turn {table : Table} (consistent : table.Consistent)
    {operation : Operation} (silent : operation.isEnqueuing = false) :
    Turn table (table.comebacks operation) (table.perform operation).2 := by
  cases operation with
  | enqueue job now => cases silent
  | enqueueAll jobs correlation now => cases silent
  | claim id now =>
      rcases consistent.claim_cases id now with ⟨_, answer⟩ | ⟨row, found, pending, answer⟩
      · rw [comebacks, perform, answer]
        exact .refl table
      · rw [comebacks, perform, answer]
        have turn : Turn table [] (table.put (row.claim now)) :=
          .put (mem_of_find? found) rfl rfl (by simp)
        cases read : (row.claim now).record <;> exact turn
  | complete id =>
      rcases consistent.complete_cases id with ⟨_, answer⟩ | ⟨row, found, answer⟩
      · rw [comebacks, perform, answer]
        exact .refl table
      · rw [comebacks, perform, answer]
        exact .erase table id
  | reschedule id notBefore failure now =>
      rcases consistent.reschedule_cases id notBefore failure now with
        ⟨_, answer⟩ | ⟨row, survivor, found, held, answer⟩ | ⟨row, found, free, answer⟩
      · rw [comebacks, perform, answer]
        exact .missing table id
      · rw [comebacks, perform, answer, ← id_of_find? found]
        exact .superseded (mem_of_find? found) held
      · rw [comebacks, perform, answer, ← id_of_find? found]
        exact .pending notBefore (mem_of_find? found) (by simp) (by simp) (by simp)
  | markFailed id failures error now =>
      rcases consistent.markFailed_cases id failures error now with
        ⟨_, answer⟩ | ⟨row, found, answer⟩
      · rw [comebacks, perform, answer]
        exact .refl table
      · rw [comebacks, perform, answer]
        exact .put (mem_of_find? found) rfl rfl (by simp)
  | cancel id =>
      rcases consistent.cancel_cases id with ⟨_, answer⟩ | ⟨row, found, pending, answer⟩
      · rw [comebacks, perform, answer]
        exact .refl table
      · rw [comebacks, perform, answer]
        cases read : Row.readText 0 "job_type" row.jobType <;> exact .erase table id
  | requeue id now =>
      rcases consistent.requeue_cases id now with
        ⟨_, answer⟩ | ⟨row, survivor, found, failed, held, answer⟩ |
          ⟨row, found, failed, free, answer⟩
      · rw [comebacks, perform, answer]
        exact .missing table id
      · rw [comebacks, perform, answer, ← id_of_find? found]
        exact .superseded (mem_of_find? found) held
      · rw [comebacks, perform, answer, ← id_of_find? found]
        exact .pending now (mem_of_find? found) (by simp) (by simp) (by simp)
  | settle record result policy draw now =>
      exact consistent.settle_turn record result policy draw now
  | recover recovery policy draw now =>
      obtain ⟨replies, after, answer, spec⟩ := consistent.recover_spec recovery policy draw now
      rw [comebacks, perform, answer]
      refine spec.turn consistent fun id listed => ?_
      obtain ⟨row, member, _, same⟩ := mem_runningIds.mp listed
      exact ⟨row, member, same⟩

end DurableJobs.Store
