import DurableJobs.Proofs.Store.Turns
import Mathlib.Data.List.Induction
import Mathlib.Logic.Function.Basic

/-!
Superseded records: whose request survives.

A record that is to be pending again gives way to a pending record with its key. The survivor holds
the newer request as long as no record comes back while another one with its key, running or failed,
holds a newer request; once one does, a newer request is lost or can be lost by the next call.
-/

set_option autoImplicit false

namespace DurableJobs.Store

/-- A table, and which enqueue call last wrote each of its records. -/
structure Journal where
  table : Table
  /-- The number of the call that last wrote the record of an id. -/
  request : Int → Nat
  count : Nat

namespace Journal

def begin : Journal := ⟨Table.empty, fun _ => 0, 0⟩

def note (journal : Journal) (id : Int) (after : Table) : Journal :=
  ⟨after, Function.update journal.request id (journal.count + 1), journal.count + 1⟩

def enqueue (journal : Journal) (job : Job) (now : Instant) : Journal :=
  match journal.table.enqueue job now with
  | (.ok receipt, after) => journal.note receipt.id after
  | (.error _, after) => { journal with table := after }

/-- As many calls as there are jobs, up to the first refusal. -/
def enqueueAll (journal : Journal) (jobs : List Job) (correlation : Uuid) (now : Instant) :
    Journal :=
  match jobs with
  | [] => journal
  | job :: rest =>
      match (journal.table.enqueue (job.withCorrelationId correlation) now).1 with
      | .ok _ =>
          (journal.enqueue (job.withCorrelationId correlation) now).enqueueAll rest correlation now
      | .error _ => journal.enqueue (job.withCorrelationId correlation) now

def perform (journal : Journal) (operation : Operation) : Journal :=
  match operation with
  | .enqueue job now => journal.enqueue job now
  | .enqueueAll jobs correlation now => journal.enqueueAll jobs correlation now
  | other => { journal with table := (journal.table.perform other).2 }

def ofHistory (history : List Operation) : Journal := history.foldl perform begin

theorem ofHistory_concat (history : List Operation) (operation : Operation) :
    ofHistory (history ++ [operation]) = (ofHistory history).perform operation := by
  simp [ofHistory]

/-- Every record that the operation says is superseded holds an older request than its survivor. -/
def KeepsNewer (journal : Journal) (operation : Operation) : Prop :=
  ∀ id survivor, (id, .superseded survivor) ∈ journal.table.comebacks operation →
    journal.request id < journal.request survivor

/-- A record comes back while another one with its key holds a newer request. -/
def Overtakes (journal : Journal) (operation : Operation) : Prop :=
  ∃ row ∈ journal.table.rows, ∃ other ∈ journal.table.rows, ∃ key time,
    (row.id, .pending time) ∈ journal.table.comebacks operation ∧
      row.debounceKey = .text key ∧ other.debounceKey = .text key ∧
      journal.request row.id < journal.request other.id

structure Valid (journal : Journal) : Prop where
  consistent : journal.table.Consistent
  counted : ∀ row ∈ journal.table.rows, journal.request row.id ≤ journal.count
  distinct : ∀ left ∈ journal.table.rows, ∀ right ∈ journal.table.rows,
    journal.request left.id = journal.request right.id → left.id = right.id

/-- The pending record of a key holds the newest request of all records with that key. -/
def InOrder (journal : Journal) : Prop :=
  ∀ row ∈ journal.table.rows, ∀ other ∈ journal.table.rows, ∀ key, row.state = .pending →
    row.debounceKey = .text key → other.debounceKey = .text key → other.id ≠ row.id →
    journal.request other.id < journal.request row.id

theorem valid_begin : begin.Valid :=
  ⟨Table.consistent_empty, by simp [begin, Table.empty], by simp [begin, Table.empty]⟩

theorem inOrder_begin : begin.InOrder := by
  simp [InOrder, begin, Table.empty]

/-! ### Enqueues -/

/-- An enqueue writes one record, which then holds the newest request; all other rows were there. -/
theorem enqueue_cases {journal : Journal} (valid : journal.Valid) (job : Job) (now : Instant) :
    (∃ receipt after, journal.table.enqueue job now = (.ok receipt, after) ∧
        journal.enqueue job now = journal.note receipt.id after ∧ after.Consistent ∧
        (∀ row ∈ after.rows, row.id ≠ receipt.id → row ∈ journal.table.rows) ∧
        ∃ row ∈ after.rows, row.id = receipt.id ∧ row.state = .pending) ∨
      ((journal.table.enqueue job now).1 = .error .full ∧ journal.enqueue job now = journal) := by
  have reaches := valid.consistent.enqueue_reaches job now
  have afterConsistent := reaches.consistent valid.consistent
  rcases valid.consistent.enqueue_cases job now with
    ⟨row, held, answer⟩ | ⟨id, free, next, answer⟩ | ⟨_, _, answer⟩
  · obtain ⟨_, _, member, _, _⟩ := Table.of_bind_pendingWithKey? held
    rw [answer] at afterConsistent
    refine .inl ⟨_, _, answer, by simp [enqueue, answer], afterConsistent, ?_, ?_⟩
    · intro other otherMember different
      rcases Table.mem_put.mp otherMember with ⟨rfl, _⟩ | ⟨otherMember, _⟩
      · exact absurd rfl different
      · exact otherMember
    · exact ⟨row.coalesce job now, Table.mem_put.mpr (.inl ⟨rfl, row, member, rfl⟩), rfl, rfl⟩
  · rw [answer] at afterConsistent
    refine .inl ⟨_, _, answer, by simp [enqueue, answer], afterConsistent, ?_, ?_⟩
    · intro other otherMember different
      rcases Table.mem_append.mp otherMember with otherMember | rfl
      · exact otherMember
      · exact absurd rfl different
    · exact ⟨Row.ofJob id job now, Table.mem_append.mpr (.inr rfl), rfl, rfl⟩
  · exact .inr ⟨by rw [answer], by simp [enqueue, answer]⟩

theorem Valid.note {journal : Journal} (valid : journal.Valid) {id : Int} {after : Table}
    (consistent : after.Consistent)
    (kept : ∀ row ∈ after.rows, row.id ≠ id → row ∈ journal.table.rows) :
    (journal.note id after).Valid where
  consistent := consistent
  counted := by
    intro row member
    by_cases here : row.id = id
    · simp [Journal.note, here]
    · have counted := valid.counted row (kept row member here)
      simp only [Journal.note, Function.update_of_ne here]
      omega
  distinct := by
    intro left leftMember right rightMember same
    by_cases leftHere : left.id = id <;> by_cases rightHere : right.id = id
    · exact leftHere.trans rightHere.symm
    · have counted := valid.counted right (kept right rightMember rightHere)
      simp only [Journal.note, leftHere, Function.update_self, Function.update_of_ne rightHere]
        at same
      omega
    · have counted := valid.counted left (kept left leftMember leftHere)
      simp only [Journal.note, rightHere, Function.update_self, Function.update_of_ne leftHere]
        at same
      omega
    · simp only [Journal.note, Function.update_of_ne leftHere, Function.update_of_ne rightHere]
        at same
      exact valid.distinct left (kept left leftMember leftHere) right
        (kept right rightMember rightHere) same

theorem InOrder.note {journal : Journal} (inOrder : journal.InOrder) (valid : journal.Valid)
    {id : Int} {after : Table} (consistent : after.Consistent)
    (kept : ∀ row ∈ after.rows, row.id ≠ id → row ∈ journal.table.rows)
    (written : ∃ row ∈ after.rows, row.id = id ∧ row.state = .pending) :
    (journal.note id after).InOrder := by
  intro row member other otherMember key pending isKey otherKey different
  by_cases here : row.id = id
  · have otherKept := kept other otherMember fun same => different (same.trans here.symm)
    have counted := valid.counted other otherKept
    simp only [Journal.note, here, Function.update_self]
    rw [Function.update_of_ne fun same => different (same.trans here.symm)]
    omega
  · -- The written row is the pending one of its key, so it is no other row of this key.
    have otherElsewhere : other.id ≠ id := by
      intro otherHere
      obtain ⟨holder, holderMember, holderHere, holderPending⟩ := written
      obtain rfl := consistent.eq_of_id_eq otherMember holderMember
        (otherHere.trans holderHere.symm)
      exact different (congrArg Row.id
        (consistent.eq_of_pending otherMember member holderPending pending otherKey isKey))
    simp only [Journal.note, Function.update_of_ne here, Function.update_of_ne otherElsewhere]
    exact inOrder row (kept row member here) other (kept other otherMember otherElsewhere) key
      pending isKey otherKey different

theorem valid_enqueue {journal : Journal} (valid : journal.Valid) (job : Job) (now : Instant) :
    (journal.enqueue job now).Valid ∧
      (journal.InOrder → (journal.enqueue job now).InOrder) := by
  rcases enqueue_cases valid job now with
    ⟨receipt, after, _, noted, consistent, kept, written⟩ | ⟨_, unchanged⟩
  · rw [noted]
    exact ⟨valid.note consistent kept, fun inOrder => inOrder.note valid consistent kept written⟩
  · rw [unchanged]
    exact ⟨valid, id⟩

theorem valid_enqueueAll {journal : Journal} (valid : journal.Valid) (jobs : List Job)
    (correlation : Uuid) (now : Instant) :
    (journal.enqueueAll jobs correlation now).Valid ∧
      (journal.InOrder → (journal.enqueueAll jobs correlation now).InOrder) := by
  induction jobs generalizing journal with
  | nil => exact ⟨valid, id⟩
  | cons job rest ih =>
      obtain ⟨first, firstOrder⟩ := valid_enqueue valid (job.withCorrelationId correlation) now
      rw [enqueueAll]
      cases (journal.table.enqueue (job.withCorrelationId correlation) now).1 with
      | error error => exact ⟨first, firstOrder⟩
      | ok receipt => exact ⟨(ih first).1, fun inOrder => (ih first).2 (firstOrder inOrder)⟩

/-! ### Other operations -/

theorem perform_of_not_enqueue {journal : Journal} {operation : Operation}
    (silent : operation.isEnqueuing = false) :
    journal.perform operation = { journal with table := (journal.table.perform operation).2 } := by
  cases operation <;> first | rfl | cases silent

theorem comebacks_of_enqueue (table : Table) {operation : Operation}
    (enqueuing : operation.isEnqueuing = true) : table.comebacks operation = [] := by
  cases operation with
  | enqueue job now =>
      simp only [Table.comebacks, Table.perform, Answer.map]
      cases (table.enqueue job now).1 <;> rfl
  | enqueueAll jobs correlation now =>
      simp only [Table.comebacks, Table.perform, Answer.map]
      cases (table.enqueueAll jobs correlation now).1 <;> rfl
  | _ => cases enqueuing

theorem Valid.perform {journal : Journal} (valid : journal.Valid) (operation : Operation) :
    (journal.perform operation).Valid := by
  cases enqueuing : operation.isEnqueuing with
  | true =>
      cases operation with
      | enqueue job now => exact (valid_enqueue valid job now).1
      | enqueueAll jobs correlation now => exact (valid_enqueueAll valid jobs correlation now).1
      | _ => cases enqueuing
  | false =>
      rw [perform_of_not_enqueue enqueuing]
      have turn := valid.consistent.turn enqueuing
      refine ⟨(valid.consistent.perform_reaches operation).consistent valid.consistent, ?_, ?_⟩
      · intro row member
        obtain ⟨old, oldMember, sameId, _⟩ := turn.kept row member
        exact sameId ▸ valid.counted old oldMember
      · intro left leftMember right rightMember same
        obtain ⟨oldLeft, oldLeftMember, leftId, _⟩ := turn.kept left leftMember
        obtain ⟨oldRight, oldRightMember, rightId, _⟩ := turn.kept right rightMember
        rw [← leftId, ← rightId]
        exact valid.distinct oldLeft oldLeftMember oldRight oldRightMember
          (by rw [leftId, rightId]; exact same)

theorem valid_ofHistory (history : List Operation) : (ofHistory history).Valid := by
  induction history using List.reverseRecOn with
  | nil => exact valid_begin
  | append_singleton earlier operation ih =>
      rw [ofHistory_concat]
      exact ih.perform operation

theorem table_enqueueAll (journal : Journal) (jobs : List Job) (correlation : Uuid)
    (now : Instant) :
    (journal.enqueueAll jobs correlation now).table =
      (journal.table.enqueueAll jobs correlation now).2 := by
  induction jobs generalizing journal with
  | nil => rfl
  | cons job rest ih =>
      rw [enqueueAll, Table.enqueueAll, enqueue]
      cases answer : journal.table.enqueue (job.withCorrelationId correlation) now with
      | mk result after =>
          cases result with
          | error error => rfl
          | ok receipt =>
              simp only [ih, note]
              cases after.enqueueAll rest correlation now with
              | mk result final => cases result <;> simp

theorem table_perform (journal : Journal) (operation : Operation) :
    (journal.perform operation).table = (journal.table.perform operation).2 := by
  cases operation with
  | enqueue job now =>
      simp only [perform, enqueue, Table.perform, Answer.map]
      cases answer : journal.table.enqueue job now with
      | mk result after => cases result <;> rfl
  | enqueueAll jobs correlation now => exact table_enqueueAll journal jobs correlation now
  | _ => rfl

/-! ### Order -/

variable {journal : Journal}

theorem request_perform {operation : Operation} (silent : operation.isEnqueuing = false)
    (id : Int) : (journal.perform operation).request id = journal.request id := by
  rw [perform_of_not_enqueue silent]

/-- A row that comes back without overtaking holds the newest request of its key. -/
theorem request_lt_of_not_overtakes (valid : journal.Valid) {operation : Operation}
    (fair : ¬ journal.Overtakes operation) {row other : Row} {key : String} {time : Instant}
    (member : row ∈ journal.table.rows) (otherMember : other ∈ journal.table.rows)
    (reply : (row.id, .pending time) ∈ journal.table.comebacks operation)
    (isKey : row.debounceKey = .text key) (otherKey : other.debounceKey = .text key)
    (different : other.id ≠ row.id) : journal.request other.id < journal.request row.id := by
  have notNewer : ¬ journal.request row.id < journal.request other.id := fun newer =>
    fair ⟨row, member, other, otherMember, key, time, reply, isKey, otherKey, newer⟩
  have apart : journal.request other.id ≠ journal.request row.id := fun same =>
    different (valid.distinct other otherMember row member same)
  omega

/-- Without overtaking, order is kept and survivors hold the newer requests. -/
theorem InOrder.perform (inOrder : journal.InOrder) (valid : journal.Valid)
    {operation : Operation} (fair : ¬ journal.Overtakes operation) :
    (journal.perform operation).InOrder ∧ journal.KeepsNewer operation := by
  cases enqueuing : operation.isEnqueuing with
  | true =>
      refine ⟨?_, by simp [KeepsNewer, comebacks_of_enqueue journal.table enqueuing]⟩
      cases operation with
      | enqueue job now => exact (valid_enqueue valid job now).2 inOrder
      | enqueueAll jobs correlation now =>
          exact (valid_enqueueAll valid jobs correlation now).2 inOrder
      | _ => cases enqueuing
  | false =>
      have turn := valid.consistent.turn enqueuing
      -- Whatever is pending after the turn holds the newest request of the rows with its key.
      have newest : ∀ holder ∈ (journal.table.perform operation).2.rows,
          ∀ other ∈ journal.table.rows, ∀ key, holder.state = .pending →
          holder.debounceKey = .text key → other.debounceKey = .text key →
          other.id ≠ holder.id → journal.request other.id < journal.request holder.id := by
        intro holder holderMember other otherMember key pending isKey otherKey different
        obtain ⟨old, oldMember, sameId, sameKey, came⟩ := turn.kept holder holderMember
        rw [← sameId] at different ⊢
        rcases came pending with wasPending | ⟨time, reply⟩
        · exact inOrder old oldMember other otherMember key wasPending (sameKey.trans isKey)
            otherKey different
        · exact request_lt_of_not_overtakes valid fair oldMember otherMember (sameId ▸ reply)
            (sameKey.trans isKey) otherKey different
      constructor
      · rw [perform_of_not_enqueue enqueuing]
        intro row member other otherMember key pending isKey otherKey different
        obtain ⟨old, oldMember, sameId, sameKey, _⟩ := turn.kept other otherMember
        rw [← sameId] at different ⊢
        exact newest row member old oldMember key pending isKey (sameKey.trans otherKey) different
      · intro id survivor reply
        obtain ⟨⟨row, member, holder, holderMember, key, rfl, rfl, pending, isKey, holderKey⟩,
          gone⟩ := turn.gaveWay id survivor reply
        exact newest holder holderMember row member key pending holderKey isKey
          (gone holder holderMember).symm

/-- A record gives way to the pending record with its key, also to one that holds an older request. -/
theorem not_keepsNewer_reschedule {journal : Journal} (consistent : journal.table.Consistent)
    {holder other : Row} {key : String} (holderMember : holder ∈ journal.table.rows)
    (pending : holder.state = .pending) (holderKey : holder.debounceKey = .text key)
    (otherMember : other ∈ journal.table.rows) (otherKey : other.debounceKey = .text key)
    (newer : journal.request holder.id < journal.request other.id) (time : Instant) :
    ¬ journal.KeepsNewer (.reschedule other.id time none time) := by
  intro keeps
  have found := consistent.find?_of_mem otherMember
  have different : holder.id ≠ other.id := by
    intro same
    rw [same] at newer
    exact Nat.lt_irrefl _ newer
  rcases consistent.reschedule_cases other.id time none time with
    ⟨missing, _⟩ | ⟨row, survivor, isFound, held, answer⟩ | ⟨row, isFound, free, _⟩
  · rw [found] at missing
    cases missing
  · obtain rfl := Option.some.inj (found.symm.trans isFound)
    obtain ⟨sameKey, isSame, survivorMember, survives, survivorKey, _⟩ := Table.of_survivor? held
    obtain rfl := Cell.text.inj (otherKey.symm.trans isSame)
    obtain rfl := consistent.eq_of_pending survivorMember holderMember survives pending survivorKey
      holderKey
    have lost := keeps other.id survivor.id (by
      rw [Table.comebacks, Table.perform, answer]
      exact List.mem_singleton.mpr rfl)
    omega
  · obtain rfl := Option.some.inj (found.symm.trans isFound)
    exact Table.survivor?_eq_none_iff.mp free holder holderMember pending different key otherKey
      holderKey

/-- Once a record has overtaken another one, the newer request is lost: at once, or when the other
record is rescheduled next. -/
theorem Overtakes.loses {operation : Operation} (overtakes : journal.Overtakes operation)
    (valid : journal.Valid) :
    ¬ journal.KeepsNewer operation ∨
      ∃ id time, ¬ (journal.perform operation).KeepsNewer (.reschedule id time none time) := by
  obtain ⟨row, member, other, otherMember, key, time, reply, isKey, otherKey, newer⟩ := overtakes
  have silent : operation.isEnqueuing = false := by
    cases enqueuing : operation.isEnqueuing with
    | false => rfl
    | true => simp [comebacks_of_enqueue journal.table enqueuing] at reply
  have turn := valid.consistent.turn silent
  have afterConsistent := (valid.perform operation).consistent
  rw [table_perform] at afterConsistent
  obtain ⟨holder, holderMember, holderId, holderPending⟩ := turn.back row.id time reply
  have keyOf : ∀ later ∈ (journal.table.perform operation).2.rows, ∀ old ∈ journal.table.rows,
      later.id = old.id → old.debounceKey = .text key → later.debounceKey = .text key := by
    intro later laterMember old oldMember same oldKey
    obtain ⟨source, sourceMember, sourceId, sourceKey, _⟩ := turn.kept later laterMember
    rw [← sourceKey, valid.consistent.eq_of_id_eq sourceMember oldMember (sourceId.trans same),
      oldKey]
  have holderKey := keyOf holder holderMember row member holderId isKey
  by_cases stays : ∃ later ∈ (journal.table.perform operation).2.rows, later.id = other.id
  · -- The other record is still there, and loses as soon as it is rescheduled.
    obtain ⟨later, laterMember, laterId⟩ := stays
    refine .inr ⟨later.id, time, ?_⟩
    rw [← table_perform] at afterConsistent holderMember laterMember
    refine not_keepsNewer_reschedule afterConsistent holderMember holderPending holderKey
      laterMember ?_ ?_ time
    · rw [table_perform] at laterMember
      exact keyOf later laterMember other otherMember laterId otherKey
    · rw [request_perform silent, request_perform silent, holderId, laterId]
      exact newer
  · -- The other record is gone, and it can only have given way to the one that came back.
    have absent : ∀ later ∈ (journal.table.perform operation).2.rows, later.id ≠ other.id :=
      fun later laterMember same => stays ⟨later, laterMember, same⟩
    rcases turn.gone other otherMember absent with noReplies | ⟨survivor, superseded⟩
    · simp [noReplies] at reply
    · refine .inl fun keeps => ?_
      have kept := keeps other.id survivor superseded
      obtain ⟨⟨gone, goneMember, last, lastMember, sameKey, goneId, rfl, lastPending, goneKey,
        lastKey⟩, _⟩ := turn.gaveWay other.id survivor superseded
      obtain rfl := valid.consistent.eq_of_id_eq goneMember otherMember goneId
      obtain rfl := Cell.text.inj (otherKey.symm.trans goneKey)
      obtain rfl := afterConsistent.eq_of_pending lastMember holderMember lastPending
        holderPending lastKey holderKey
      rw [holderId] at kept
      omega

theorem InOrder.keepsNewer_reschedule (inOrder : journal.InOrder) (valid : journal.Valid)
    (id : Int) (notBefore : Instant) (failure : Option Failure) (now : Instant) :
    journal.KeepsNewer (.reschedule id notBefore failure now) := by
  intro gone survivor reply
  have fair : ¬ journal.Overtakes (.reschedule id notBefore failure now) := by
    rintro ⟨_, _, _, _, _, _, back, _⟩
    simp only [Table.comebacks, Table.perform, Answer.map] at reply back
    cases answer : (journal.table.reschedule id notBefore failure now).1 with
    | error error => simp [answer, Except.map] at reply
    | ok rescheduled =>
        simp only [answer, Except.map, Reply.rescheduledRecords, List.mem_singleton,
          Prod.mk.injEq] at reply back
        cases reply.2.trans back.2.symm
  exact (inOrder.perform valid fair).2 gone survivor reply

theorem inOrder_of_fair {history : List Operation}
    (fair : ∀ before operation, before ++ [operation] <+: history →
      ¬ (ofHistory before).Overtakes operation)
    {before : List Operation} (isPrefix : before <+: history) : (ofHistory before).InOrder := by
  induction before using List.reverseRecOn with
  | nil => exact inOrder_begin
  | append_singleton earlier operation ih =>
      rw [ofHistory_concat]
      have earlierOrder := ih ((List.prefix_append earlier [operation]).trans isPrefix)
      exact (earlierOrder.perform (valid_ofHistory earlier) (fair earlier operation isPrefix)).1

/-- No record of a history comes back while another one with its key holds a newer request, if and
only if no newer request is lost in it, nor could be by rescheduling a record at any point of it. -/
theorem no_overtaking_iff_keepsNewer (history : List Operation) :
    (∀ before operation, before ++ [operation] <+: history →
        ¬ (ofHistory before).Overtakes operation) ↔
      ∀ before operation, before <+: history →
        (before ++ [operation] <+: history ∨
          ∃ id notBefore failure now, operation = .reschedule id notBefore failure now) →
        (ofHistory before).KeepsNewer operation := by
  constructor
  · rintro fair before operation isPrefix (next | ⟨id, notBefore, failure, now, rfl⟩)
    · exact ((inOrder_of_fair fair isPrefix).perform (valid_ofHistory before)
        (fair before operation next)).2
    · exact (inOrder_of_fair fair isPrefix).keepsNewer_reschedule (valid_ofHistory before) id
        notBefore failure now
  · intro keeps before operation next overtakes
    rcases overtakes.loses (valid_ofHistory before) with lost | ⟨id, time, lost⟩
    · exact lost (keeps before operation
        ((List.prefix_append before [operation]).trans next) (.inl next))
    · rw [← ofHistory_concat] at lost
      exact lost (keeps (before ++ [operation]) _ next (.inr ⟨id, time, none, time, rfl⟩))

def sampleJob (payload : Bytes) : Job :=
  (Job.new "reindex" payload Uuid.zero).withDebounceKey "k"

def sampleRecord (id : Int) (payload : Bytes) : Record :=
  { id, payload
    jobType := "reindex"
    priority := .normal
    notBefore := Instant.epoch
    debounceKey := some "k"
    sagaId := none
    correlationId := Uuid.zero
    state := .running
    attempts := 1
    failures := 0
    lastError := none
    createdAt := Instant.epoch
    updatedAt := Instant.epoch }

/-- Two records of one key are running, and both ask to be run again, the older one first: it comes
back, and the newer one, whose request is newer too, gives way to it. -/
theorem newer_request_lost :
    ¬ (ofHistory
        [ .enqueue (sampleJob [118, 49]) Instant.epoch, .claim 1 Instant.epoch,
          .enqueue (sampleJob [118, 50]) Instant.epoch, .claim 2 Instant.epoch,
          .settle (sampleRecord 1 [118, 49]) (.ok (.retryAfter Duration.zero))
            RetryPolicy.standard 0 Instant.epoch ]).KeepsNewer
      (.settle (sampleRecord 2 [118, 50]) (.ok (.retryAfter Duration.zero))
        RetryPolicy.standard 0 Instant.epoch) := by
  intro keeps
  have order := keeps 2 1 (by decide +kernel)
  revert order
  decide +kernel

end Journal

end DurableJobs.Store
