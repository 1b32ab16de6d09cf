import SpiceHarvester.Indexer.OutMessages
import SpiceHarvester.Indexer.Worker
import SpiceHarvester.Ledger.Conservation
import SpiceHarvester.Serial.InvoiceRuns

/-!
# What the delay of a payment decides

A transaction is processed some time after it was sent: the loader and the indexer take
their time, and the process may be down. `processPayment` reads the clock, not the time of
the transaction. So an invoice is paid exactly if enough is processed before it expires
(`Booked.paid_iff`), and two runs come to the same status of an invoice if the same
payments for it are processed in time, in the same order with the cancellations
(`statuses_decided`).

That the transactions are the same is not enough, and neither is the sum of what is
processed in time: it leaves out what comes before the invoice is created, and the steps
must be atomic, since the expired invoices may be marked after `processPayment` has read
the clock (`Shop.processing_decides`).
-/

set_option autoImplicit false

namespace SpiceHarvester

open Interleaving Sql

/-! ## What is in time -/

/-- What can finish an invoice before it expires. -/
inductive Move where
  | pays (amount : ℤ)
  | cancels
  deriving DecidableEq

/-- What an event does about an invoice that has not expired. -/
def Event.move? (invoice : Invoice) : Event → Option Move
  | .received time payment =>
      if payment.For invoice ∧ time ≤ timestamptz invoice.expireAt then some (.pays payment.amount)
      else none
  | .cancelled time id =>
      if id = invoice.id ∧ timestamptz time < timestamptz invoice.expireAt then some .cancels
      else none
  | .created _ | .expired _ => none

/-- What happens to an invoice before it expires. -/
def moves (invoice : Invoice) (events : List Event) : List Move :=
  events.filterMap (Event.move? invoice)

/-- What a move adds to the payments. -/
def Move.amount : Move → ℤ
  | .pays amount => amount
  | .cancels => 0

/-- The sum of the payments for an invoice that are processed before it expires. -/
def paidInTime (invoice : Invoice) (events : List Event) : ℤ :=
  ((moves invoice events).map Move.amount).sum

/-- The status that an invoice comes to, once it has expired. -/
def verdict (amount : ℤ) : (paid : ℤ) → List Move → InvoiceStatus
  | _, [] => .expired
  | paid, .pays more :: rest =>
      if amount ≤ paid + more then .paid else verdict amount (paid + more) rest
  | _, .cancels :: _ => .cancelled

/-- The expired invoices have been marked after the invoice has expired. -/
def Over (invoice : Invoice) (events : List Event) : Prop :=
  ∃ time, .expired time ∈ events ∧ timestamptz invoice.expireAt < timestamptz time

/-- The time of an event. -/
def Event.time? : Event → Option Time
  | .received time _ | .cancelled time _ | .expired time => some time
  | .created _ => none

/-- The clock does not go back. -/
def Rising (events : List Event) : Prop :=
  events.Pairwise fun event later => ∀ time ∈ event.time?, ∀ time' ∈ later.time?, time ≤ time'

section Moves

variable {invoice : Invoice} {events : List Event} {event : Event} {time : Time}

@[simp] theorem paidInTime_nil : paidInTime invoice [] = 0 := rfl

theorem paidInTime_append (events more : List Event) :
    paidInTime invoice (events ++ more) = paidInTime invoice events + paidInTime invoice more := by
  simp [paidInTime, moves]

theorem paidInTime_of_still (still : moves invoice events = []) : paidInTime invoice events = 0 := by
  rw [paidInTime, still]
  rfl

theorem moves_append (events more : List Event) :
    moves invoice (events ++ more) = moves invoice events ++ moves invoice more :=
  List.filterMap_append

/-- As long as nothing comes late, all payments are in time. -/
theorem total_eq_paidInTime (early : ∀ event ∈ events, ∀ time ∈ event.time?,
    time ≤ timestamptz invoice.expireAt) : total invoice events = paidInTime invoice events := by
  induction events with
  | nil => rfl
  | cons first rest ih =>
      have later := ih fun event member => early event (List.mem_cons_of_mem _ member)
      have same : first.amountFor invoice = paidInTime invoice [first] := by
        have now := early first List.mem_cons_self
        cases first with
        | received time payment =>
            have inTime := now time rfl
            by_cases for' : payment.For invoice
            · simp [Event.amountFor, paidInTime, moves, Event.move?, for', inTime, Move.amount]
            · simp [Event.amountFor, paidInTime, moves, Event.move?, for']
        | created _ => rfl
        | cancelled time id =>
            by_cases inTime : id = invoice.id ∧ timestamptz time < timestamptz invoice.expireAt
            · simp [Event.amountFor, paidInTime, moves, Event.move?, inTime, Move.amount]
            · simp [Event.amountFor, paidInTime, moves, Event.move?, inTime]
        | expired _ => rfl
      have split : paidInTime invoice (first :: rest) =
          paidInTime invoice [first] + paidInTime invoice rest := paidInTime_append [first] rest
      rw [split, ← same, ← later]
      simp [total]

/-- Before an event in time all payments are in time. -/
theorem total_of_rising (rising : Rising (events ++ [event])) (now : time ∈ event.time?)
    (inTime : time ≤ timestamptz invoice.expireAt) :
    total invoice events = paidInTime invoice events := by
  refine total_eq_paidInTime fun earlier member time' at' => ?_
  have before := (List.pairwise_append.mp rising).2.2 earlier member event List.mem_cons_self
  exact (before time' at' time now).trans inTime

/-- After the invoice has expired nothing is in time. -/
theorem moves_of_late (late : ∀ event ∈ events, ∀ time ∈ event.time?,
    timestamptz invoice.expireAt < time) : moves invoice events = [] := by
  refine List.filterMap_eq_nil_iff.mpr fun event member => ?_
  have now := late event member
  cases event with
  | created _ => rfl
  | received time payment =>
      refine if_neg fun inTime => ?_
      exact absurd inTime.2 (not_le.mpr (now time rfl))
  | cancelled time id =>
      refine if_neg fun inTime => ?_
      have after := timestamptz_mono (now time rfl).le
      rw [timestamptz_idem] at after
      exact absurd inTime.2 (not_lt.mpr after)
  | expired _ => rfl

/-- Nothing is in time after the expired invoices have been marked. -/
theorem moves_of_marked (rising : Rising (.expired time :: events))
    (expired : timestamptz invoice.expireAt < timestamptz time) : moves invoice events = [] := by
  refine moves_of_late fun event member time' at' => ?_
  have after := (List.pairwise_cons.mp rising).1 event member time rfl time' at'
  exact expired.trans_le ((timestamptz_le time).trans after)

/-- While the invoice waits, no verdict is reached. -/
theorem verdict_of_waits (rising : Rising events) (waits : Waits invoice events) (rest : List Move) :
    verdict invoice.amount 0 (moves invoice events ++ rest) =
      verdict invoice.amount (paidInTime invoice events) rest := by
  induction events using List.reverseRecOn generalizing rest with
  | nil => rfl
  | append_singleton events event ih =>
      obtain ⟨before, goes⟩ := never_append_singleton.mp waits
      have earlier := ih (List.pairwise_append.mp rising).1 before
      rw [moves_append, List.append_assoc, earlier, paidInTime_append]
      have still (nothing : moves invoice [event] = []) :
          verdict invoice.amount (paidInTime invoice events) (moves invoice [event] ++ rest) =
            verdict invoice.amount (paidInTime invoice events + paidInTime invoice [event]) rest := by
        rw [paidInTime_of_still nothing, nothing, add_zero, List.nil_append]
      cases event with
      | created _ => exact still rfl
      | expired _ => exact still rfl
      | received time payment =>
          by_cases inTime : payment.For invoice ∧ time ≤ timestamptz invoice.expireAt
          · have moved : moves invoice [.received time payment] = [.pays payment.amount] := by
              simp [moves, Event.move?, inTime]
            have sum := total_of_rising rising rfl inTime.2
            have partially : ¬ invoice.amount ≤ paidInTime invoice events + payment.amount := by
              intro enough
              rw [← sum] at enough
              exact goes ⟨inTime.1, inTime.2, enough⟩
            have paid : paidInTime invoice [.received time payment] = payment.amount := by
              rw [paidInTime, moved]
              exact add_zero _
            rw [moved, paid, List.singleton_append, verdict, if_neg partially]
          · exact still (by simp [moves, Event.move?, inTime])
      | cancelled time id =>
          have late : ¬ (id = invoice.id ∧ timestamptz time < timestamptz invoice.expireAt) := goes
          exact still (by simp [moves, Event.move?, late])

/-- The verdict is reached where the invoice is finished. -/
theorem verdict_of_first {before after : List Event} (first : First (Finishes invoice) before event)
    (rising : Rising (before ++ event :: after)) :
    verdict invoice.amount 0 (moves invoice (before ++ event :: after)) =
      match event with
      | .received .. => .paid
      | .cancelled .. => .cancelled
      | .expired _ | .created _ => .expired := by
  obtain ⟨risingBefore, risingAfter, between⟩ := List.pairwise_append.mp rising
  have now : Rising (before ++ [event]) := by
    rw [← List.singleton_append, ← List.append_assoc] at rising
    exact (List.pairwise_append.mp rising).1
  have cons : moves invoice (event :: after) = moves invoice [event] ++ moves invoice after :=
    moves_append [event] after
  rw [moves_append, verdict_of_waits risingBefore first.never, cons]
  have finishes := first.counts
  cases event with
  | created _ => exact absurd finishes not_false
  | received time payment =>
      obtain ⟨for', inTime, enough⟩ := finishes
      have moved : moves invoice [.received time payment] = [.pays payment.amount] := by
        simp [moves, Event.move?, for', inTime]
      rw [total_of_rising now rfl inTime] at enough
      rw [moved, List.singleton_append, verdict, if_pos enough]
  | cancelled time id =>
      obtain ⟨names, inTime⟩ := finishes
      have moved : moves invoice [.cancelled time id] = [.cancels] := by
        simp [moves, Event.move?, names, inTime]
      rw [moved, List.singleton_append, verdict]
  | expired time =>
      rw [moves_of_marked risingAfter finishes, List.append_nil]
      rfl

variable {currency : UUID} {row : InvoiceRow}

/-- **What is in time decides the status of an invoice that is over.** -/
theorem Reference.status (reference : Reference invoice currency events row)
    (rising : Rising events) (past : Over invoice events) :
    row.status = verdict invoice.amount 0 (moves invoice events) := by
  cases current : row.status with
  | waiting =>
      obtain ⟨time, member, late⟩ := past
      obtain ⟨before, after, rfl⟩ := List.append_of_mem member
      have waits := reference.waiting.mp current
      exact absurd late (waits before (.expired time) after rfl)
  | paid =>
      obtain ⟨before, time, payment, after, rfl, first⟩ := reference.paid.mp current
      exact (verdict_of_first first rising).symm
  | cancelled =>
      obtain ⟨before, time, after, rfl, first⟩ := reference.cancelled.mp current
      exact (verdict_of_first first rising).symm
  | expired =>
      obtain ⟨before, time, after, rfl, first⟩ := reference.expired.mp current
      exact (verdict_of_first first rising).symm

/-- **An invoice that is not cancelled is paid exactly if the payments processed in time
come to its amount.** -/
theorem Reference.paid_iff (reference : Reference invoice currency events row)
    (rising : Rising events) (uncancelled : ∀ time, .cancelled time invoice.id ∉ events) :
    row.status = .paid ↔ ∃ before time payment after,
      events = before ++ .received time payment :: after ∧ payment.For invoice ∧
        time ≤ timestamptz invoice.expireAt ∧
        invoice.amount ≤ paidInTime invoice before + payment.amount := by
  have now : ∀ {before : List Event} {time : Time} {payment : Payment} {after : List Event},
      events = before ++ .received time payment :: after → time ≤ timestamptz invoice.expireAt →
      total invoice before = paidInTime invoice before := by
    rintro before time payment after rfl inTime
    rw [← List.singleton_append, ← List.append_assoc] at rising
    exact total_of_rising (List.pairwise_append.mp rising).1 rfl inTime
  constructor
  · intro paid
    obtain ⟨before, time, payment, after, place, ⟨for', inTime, enough⟩, _⟩ :=
      reference.paid.mp paid
    rw [now place inTime] at enough
    exact ⟨before, time, payment, after, place, for', inTime, enough⟩
  · rintro ⟨before, time, payment, after, place, for', inTime, enough⟩
    rw [← now place inTime] at enough
    have finishes : Finishes invoice before (.received time payment) := ⟨for', inTime, enough⟩
    cases current : row.status with
    | paid => rfl
    | waiting => exact absurd finishes (reference.waiting.mp current before _ after place)
    | cancelled =>
        obtain ⟨_, cancelledAt, _, there, _⟩ := reference.cancelled.mp current
        refine absurd ?_ (uncancelled cancelledAt)
        rw [there]
        exact List.mem_append_right _ List.mem_cons_self
    | expired =>
        -- The payment is in time, so it comes before the mark. But nothing before does.
        obtain ⟨before', markedAt, after', there, first⟩ := reference.expired.mp current
        have late : timestamptz invoice.expireAt < timestamptz markedAt := first.counts
        rw [place] at there
        rcases List.append_eq_append_iff.mp there with ⟨between, rfl, same⟩ | ⟨between, rfl, same⟩
        · cases between with
          | nil => cases (List.cons.inj same).1
          | cons next rest =>
              obtain ⟨rfl, _⟩ := List.cons.inj same
              exact absurd finishes (first.never before _ rest rfl)
        · cases between with
          | nil => cases (List.cons.inj same).1
          | cons next rest =>
              obtain ⟨rfl, _⟩ := List.cons.inj same
              rw [place, List.append_assoc] at rising
              obtain ⟨_, rising, _⟩ := List.pairwise_append.mp rising
              have marked := (List.pairwise_cons.mp rising).1 (.received time payment)
                (List.mem_append_right _ List.mem_cons_self) markedAt rfl time rfl
              exact absurd inTime (not_le.mpr (late.trans_le ((timestamptz_le markedAt).trans marked)))

/-- The payments of a positive amount come to it somewhere. -/
theorem exists_of_paidInTime (positive : 0 < invoice.amount)
    (enough : invoice.amount ≤ paidInTime invoice events) : ∃ before time payment after,
      events = before ++ .received time payment :: after ∧ payment.For invoice ∧
        time ≤ timestamptz invoice.expireAt ∧
        invoice.amount ≤ paidInTime invoice before + payment.amount := by
  induction events using List.reverseRecOn with
  | nil => exact absurd enough (not_le.mpr positive)
  | append_singleton events event ih =>
      rw [paidInTime_append] at enough
      have earlier (nothing : paidInTime invoice [event] = 0) : ∃ before time payment after,
          events ++ [event] = before ++ .received time payment :: after ∧ payment.For invoice ∧
            time ≤ timestamptz invoice.expireAt ∧
            invoice.amount ≤ paidInTime invoice before + payment.amount := by
        rw [nothing, add_zero] at enough
        obtain ⟨before, time, payment, after, rfl, holds⟩ := ih enough
        exact ⟨before, time, payment, after ++ [event], List.append_assoc .., holds⟩
      cases event with
      | created _ => exact earlier rfl
      | expired _ => exact earlier rfl
      | cancelled time id =>
          apply earlier
          by_cases inTime : id = invoice.id ∧ timestamptz time < timestamptz invoice.expireAt
          · simp [paidInTime, moves, Event.move?, inTime, Move.amount]
          · simp [paidInTime, moves, Event.move?, inTime]
      | received time payment =>
          by_cases inTime : payment.For invoice ∧ time ≤ timestamptz invoice.expireAt
          · have paid : paidInTime invoice [.received time payment] = payment.amount := by
              simp [paidInTime, moves, Event.move?, inTime, Move.amount]
            rw [paid] at enough
            exact ⟨events, time, payment, [], rfl, inTime.1, inTime.2, enough⟩
          · exact earlier (paidInTime_of_still (by simp [moves, Event.move?, inTime]))

/-- More payments come to more. -/
theorem paidInTime_nonneg (nonneg : ∀ time payment, .received time payment ∈ events →
    payment.For invoice → 0 ≤ payment.amount) : 0 ≤ paidInTime invoice events := by
  induction events with
  | nil => exact le_refl 0
  | cons event rest ih =>
      have split : paidInTime invoice (event :: rest) =
          paidInTime invoice [event] + paidInTime invoice rest := paidInTime_append [event] rest
      have later := ih fun time payment member => nonneg time payment (List.mem_cons_of_mem _ member)
      rw [split]
      refine Int.add_nonneg ?_ later
      cases event with
      | created _ => exact le_refl 0
      | expired _ => exact le_refl 0
      | cancelled time id =>
          by_cases inTime : id = invoice.id ∧ timestamptz time < timestamptz invoice.expireAt
          · simp [paidInTime, moves, Event.move?, inTime, Move.amount]
          · simp [paidInTime, moves, Event.move?, inTime]
      | received time payment =>
          by_cases inTime : payment.For invoice ∧ time ≤ timestamptz invoice.expireAt
          · have paid : paidInTime invoice [.received time payment] = payment.amount := by
              simp [paidInTime, moves, Event.move?, inTime, Move.amount]
            rw [paid]
            exact nonneg time payment List.mem_cons_self inTime.1
          · rw [paidInTime_of_still (by simp [moves, Event.move?, inTime])]

theorem paidInTime_le {before after : List Event} (nonneg : ∀ time payment,
    .received time payment ∈ before ++ after → payment.For invoice → 0 ≤ payment.amount) :
    paidInTime invoice before ≤ paidInTime invoice (before ++ after) := by
  rw [paidInTime_append]
  refine le_add_of_nonneg_right (paidInTime_nonneg fun time payment member => ?_)
  exact nonneg time payment (List.mem_append_right _ member)

/-- With payments that take nothing back, their sum decides. -/
theorem Reference.paid_iff_sum (reference : Reference invoice currency events row)
    (rising : Rising events) (uncancelled : ∀ time, .cancelled time invoice.id ∉ events)
    (positive : 0 < invoice.amount)
    (nonneg : ∀ time payment, .received time payment ∈ events → payment.For invoice →
      0 ≤ payment.amount) : row.status = .paid ↔ invoice.amount ≤ paidInTime invoice events := by
  rw [reference.paid_iff rising uncancelled]
  constructor
  · rintro ⟨before, time, payment, after, rfl, for', inTime, enough⟩
    have paid : paidInTime invoice [.received time payment] = payment.amount := by
      simp [paidInTime, moves, Event.move?, for', inTime, Move.amount]
    rw [← paid, ← paidInTime_append] at enough
    rw [← List.singleton_append, ← List.append_assoc] at nonneg ⊢
    exact enough.trans (paidInTime_le nonneg)
  · exact exists_of_paidInTime positive

end Moves

/-! ## Runs that process transactions -/

section Runs

variable [Libraries]

/-- What is done in a run. -/
inductive Deed where
  | createInvoice (invoice : Invoice)
  | process (account : Account) (tx : Transaction)
  | cancelInvoice (id : InvoiceID)
  | markExpired

/-- The operation that is done. The indexer saves the payments that it takes from a
transaction. -/
def Deed.operation : Deed → Option Operation
  | .createInvoice invoice => some (.createInvoice invoice)
  | .process account tx => (extractPayments tx account).map fun extracted =>
      .savePayments (paymentCall account tx extracted)
  | .cancelInvoice id => some (.cancelInvoice id)
  | .markExpired => some .markExpired

/-- What deeds mean for the invoices. -/
def eventsOf (deeds : List (Time × Deed)) : List Event :=
  deeds.flatMap fun deed => deed.2.operation.elim [] (Operation.events deed.1)

/-- A run of deeds, each at its time. The process may restart in between. -/
inductive TimedRun (w : World Unit) : List (Time × Deed) → World Unit → Prop where
  | nil : TimedRun w [] w
  | step {deeds : List (Time × Deed)} {time : Time} {deed : Deed} {operation : Operation}
      {w₁ w₂ : World Unit} (before : TimedRun w deeds w₁) (later : ∀ done ∈ deeds, done.1 ≤ time)
      (does : deed.operation = some operation) (happens : Happens time w₁ operation w₂) :
      TimedRun w (deeds ++ [(time, deed)]) w₂
  | restart {deeds : List (Time × Deed)} {w₁ : World Unit} (before : TimedRun w deeds w₁) :
      TimedRun w deeds w₁.restart

variable {w w' : World Unit} {deeds : List (Time × Deed)} {time : Time} {deed : Deed}

theorem eventsOf_append_singleton {operation : Operation} (does : deed.operation = some operation) :
    eventsOf (deeds ++ [(time, deed)]) = eventsOf deeds ++ operation.events time := by
  simp [eventsOf, does]

theorem TimedRun.invoiceRun (run : TimedRun w deeds w') : InvoiceRun w (eventsOf deeds) w' := by
  induction run with
  | nil => exact .nil
  | step _ _ does happens ih =>
      rw [eventsOf_append_singleton does]
      exact ih.step happens
  | restart _ ih => exact ih.restart

omit [Libraries] in
/-- An operation happens at its time. -/
theorem time_of_events {operation : Operation} {event : Event}
    (member : event ∈ operation.events time) {time' : Time} (at' : time' ∈ event.time?) :
    time' = time := by
  cases operation with
  | createInvoice invoice =>
      obtain rfl := List.mem_singleton.mp member
      cases at'
  | savePayments call =>
      obtain ⟨payment, _, rfl⟩ := List.mem_map.mp member
      exact (Option.mem_some_iff.mp at').symm
  | cancelInvoice id =>
      obtain rfl := List.mem_singleton.mp member
      exact (Option.mem_some_iff.mp at').symm
  | markExpired =>
      obtain rfl := List.mem_singleton.mp member
      exact (Option.mem_some_iff.mp at').symm

theorem exists_of_eventsOf {event : Event} (member : event ∈ eventsOf deeds) {time : Time}
    (at' : time ∈ event.time?) : ∃ done ∈ deeds, done.1 = time := by
  obtain ⟨done, there, member⟩ := List.mem_flatMap.mp member
  cases does : done.2.operation with
  | none =>
      rw [does] at member
      cases member
  | some operation =>
      rw [does] at member
      exact ⟨done, there, (time_of_events member at').symm⟩

/-- The clock of a run does not go back. -/
theorem TimedRun.rising (run : TimedRun w deeds w') : Rising (eventsOf deeds) := by
  induction run with
  | nil => exact .nil
  | step _ later does _ ih =>
      rw [eventsOf_append_singleton does]
      refine List.pairwise_append.mpr ⟨ih, ?_, ?_⟩
      · refine List.pairwise_of_forall_mem_list fun event member event' member' time at' time' at'' => ?_
        rw [time_of_events member at', time_of_events member' at'']
      · intro event member event' member' time at' time' at''
        obtain ⟨done, there, rfl⟩ := exists_of_eventsOf member at'
        rw [time_of_events member' at'']
        exact later done there
  | restart _ ih => exact ih

/-- **What is processed in time decides.** An invoice that is stored under an ID after a
run, and that nobody has cancelled, is paid exactly if the payments for it that are
processed no later than `expire_at` come to its amount at some payment; if no payment takes
anything back, exactly if they come to it in sum. Two runs that process the same payments
for an invoice in time, in the same order with the cancellations in time, come to the same
status, once the expired invoices are marked. Nothing else matters: not when the
transactions were made, nor how long each took. -/
theorem statuses_decided {w₁ w₂ : World Unit} {deeds₁ deeds₂ : List (Time × Deed)}
    (empty : w.db.invoices = .empty) (run₁ : TimedRun w deeds₁ w₁) (run₂ : TimedRun w deeds₂ w₂)
    {invoice : Invoice} {before₁ after₁ before₂ after₂ : List Event}
    (place₁ : eventsOf deeds₁ = before₁ ++ .created invoice :: after₁)
    (first₁ : First (Stores w.db.currencies invoice.id) before₁ (.created invoice))
    (place₂ : eventsOf deeds₂ = before₂ ++ .created invoice :: after₂)
    (first₂ : First (Stores w.db.currencies invoice.id) before₂ (.created invoice)) :
    ∃ row₁ row₂, w₁.db.invoices.find invoice.id = some row₁ ∧
      w₂.db.invoices.find invoice.id = some row₂ ∧
      ((∀ time, .cancelled time invoice.id ∉ after₁) →
        (row₁.status = .paid ↔ ∃ before time payment after,
          after₁ = before ++ .received time payment :: after ∧ payment.For invoice ∧
            time ≤ timestamptz invoice.expireAt ∧
            invoice.amount ≤ paidInTime invoice before + payment.amount) ∧
        (0 < invoice.amount → (∀ time payment, .received time payment ∈ after₁ →
            payment.For invoice → 0 ≤ payment.amount) →
          (row₁.status = .paid ↔ invoice.amount ≤ paidInTime invoice after₁))) ∧
      (moves invoice after₁ = moves invoice after₂ → Over invoice after₁ → Over invoice after₂ →
        row₁.status = row₂.status) := by
  have referenced : ∀ {w' : World Unit} {deeds : List (Time × Deed)} {before after : List Event},
      TimedRun w deeds w' → eventsOf deeds = before ++ .created invoice :: after →
      First (Stores w.db.currencies invoice.id) before (.created invoice) →
      ∃ currency row, w'.db.invoices.find invoice.id = some row ∧
        Reference invoice currency after row ∧ Rising after := by
    intro w' deeds before after run place first
    have rising := run.rising
    rw [place] at rising
    have rest := (List.pairwise_cons.mp (List.pairwise_append.mp rising).2.1).2
    have shown := run.invoiceRun.shows empty invoice.id
    cases found : w'.db.invoices.find invoice.id with
    | none =>
        rw [found, place] at shown
        obtain ⟨never⟩ := shown
        exact absurd never first.not_never
    | some row =>
        rw [found] at shown
        obtain _ | ⟨place', first', _, booked⟩ := shown
        obtain ⟨_, same, rfl⟩ := first.unique first' (place.symm.trans place')
        obtain rfl := Event.created.inj same
        exact ⟨_, row, rfl, booked.reference, rest⟩
  obtain ⟨_, row₁, found₁, reference₁, rising₁⟩ := referenced run₁ place₁ first₁
  obtain ⟨_, row₂, found₂, reference₂, rising₂⟩ := referenced run₂ place₂ first₂
  refine ⟨row₁, row₂, found₁, found₂, fun uncancelled => ⟨reference₁.paid_iff rising₁ uncancelled,
    reference₁.paid_iff_sum rising₁ uncancelled⟩, fun same past₁ past₂ => ?_⟩
  rw [reference₁.status rising₁ past₁, reference₂.status rising₂ past₂, same]

/-! ## A payment before and after the time -/

/-- What deeds lead to, when everything works. -/
def follow (last : Time) : List (Time × Deed) → World Unit → Option (World Unit)
  | [], w => some w
  | (time, deed) :: rest, w =>
      if last ≤ time then
        (deed.operation.bind (Operation.run time w)).bind (follow time rest)
      else none

theorem timedRun_of_follow {last : Time} {rest : List (Time × Deed)} {start : World Unit}
    (before : TimedRun start deeds w) (earlier : ∀ done ∈ deeds, done.1 ≤ last)
    (leads : follow last rest w = some w') : TimedRun start (deeds ++ rest) w' := by
  induction rest generalizing deeds last w with
  | nil =>
      cases leads
      rw [List.append_nil]
      exact before
  | cons first rest ih =>
      obtain ⟨later, leads⟩ := Option.ite_none_right_eq_some.mp leads
      obtain ⟨w₁, does, leads⟩ := Option.bind_eq_some_iff.mp leads
      obtain ⟨operation, same, runs⟩ := Option.bind_eq_some_iff.mp does
      have run := before.step (fun done member => (earlier done member).trans later) same
        (Operation.happens runs)
      have done := ih run (fun done member => ?_) leads
      · rw [List.append_assoc] at done
        exact done
      · rcases List.mem_append.mp member with there | here
        · exact (earlier done there).trans later
        · rw [List.mem_singleton.mp here]

/-- The invoices that are created. -/
def Deed.created? : Time × Deed → Option (Time × Invoice)
  | (time, .createInvoice invoice) => some (time, invoice)
  | _ => none

/-- The requests to cancel. -/
def Deed.cancelled? : Time × Deed → Option (Time × InvoiceID)
  | (time, .cancelInvoice id) => some (time, id)
  | _ => none

/-- The transactions that are processed. -/
def Deed.processed? : Time × Deed → Option (Account × Transaction)
  | (_, .process account tx) => some (account, tx)
  | _ => none

/-- Two runs over the same invoices, the same requests to cancel and the same
transactions. They may differ in when a transaction is processed, and when the expired
invoices are marked. -/
structure SameButDelays (deeds deeds' : List (Time × Deed)) : Prop where
  created : deeds.filterMap Deed.created? = deeds'.filterMap Deed.created?
  cancelled : deeds.filterMap Deed.cancelled? = deeds'.filterMap Deed.cancelled?
  processed : deeds.filterMap Deed.processed? = deeds'.filterMap Deed.processed?

/-! ## What does not decide -/

/-- The delays of the transactions would not matter for how an invoice ends. -/
def DelaysIgnored : Prop :=
  ∀ (w w₁ w₂ : World Unit) (deeds₁ deeds₂ : List (Time × Deed)), w.db.invoices = .empty →
    TimedRun w deeds₁ w₁ → TimedRun w deeds₂ w₂ → SameButDelays deeds₁ deeds₂ →
    ∀ invoice row₁ row₂, .created invoice ∈ eventsOf deeds₁ → Over invoice (eventsOf deeds₁) →
      Over invoice (eventsOf deeds₂) → w₁.db.invoices.find invoice.id = some row₁ →
      w₂.db.invoices.find invoice.id = some row₂ → row₁.status = row₂.status

/-- The sum of what is processed in time after the creation would decide, for these invoices
and payments. -/
def SumDecides (invoices : Invoice → Prop) (payments : Payment → Prop) : Prop :=
  ∀ (w w' : World Unit) (deeds : List (Time × Deed)), w.db.invoices = .empty →
    TimedRun w deeds w' → ∀ invoice row before after,
      eventsOf deeds = before ++ .created invoice :: after →
      First (Stores w.db.currencies invoice.id) before (.created invoice) → invoices invoice →
      (∀ time, .cancelled time invoice.id ∉ after) →
      (∀ time payment, .received time payment ∈ after → payments payment) →
      w'.db.invoices.find invoice.id = some row →
      (row.status = .paid ↔ invoice.amount ≤ paidInTime invoice after)

/-- The sum would count what is processed before the invoice is created too. -/
def EarlyCounts : Prop :=
  ∀ (w w' : World Unit) (deeds : List (Time × Deed)), w.db.invoices = .empty →
    TimedRun w deeds w' → ∀ invoice row, .created invoice ∈ eventsOf deeds → 0 < invoice.amount →
      (∀ time, .cancelled time invoice.id ∉ eventsOf deeds) →
      (∀ time payment, .received time payment ∈ eventsOf deeds → 0 ≤ payment.amount) →
      w'.db.invoices.find invoice.id = some row →
      (row.status = .paid ↔ invoice.amount ≤ paidInTime invoice (eventsOf deeds))

omit [Libraries] in
/-- What the clock has answered. -/
def reading? : Called Stmt Stmt.Val Err → Option Time
  | ⟨.now, .ok time⟩ => some time
  | _ => none

/-- What `processPayment` has looked up for an invoice, after it has read the clock in time. -/
def lookedUp (currencies : Currencies) (row : InvoiceRow) : Called Stmt Stmt.Val Err → ℤ
  | ⟨.selectForPayment _ payment now, .ok _⟩ =>
      if payment.Pays currencies row ∧ now ≤ row.expireAt then payment.amount else 0
  | _ => 0

/-- The sum would decide in every interleaving of the statements too, where nothing fails or
stops, everything has come to its end, and the clock has not gone back. -/
def SumDecidesInterleaved (printing : Printing) : Prop :=
  ∀ (rules : Rules Bool) (db : Database), Exclusive rules →
    (∀ w t op fault choice, rules.exec w t op fault choice → fault = .none) →
    (∀ w, ¬ rules.crash w) → db.Sane → db.Fresh →
    ∀ log c, Logged (system printing rules) (.idle (.idle db)) log c → (∀ t, c.pool t = none) →
      (log.filterMap reading?).Pairwise (· ≤ ·) →
      ∀ id row, c.state.db.invoices.find id = some row → 0 < row.amount → row.status ≠ .cancelled →
        (row.status = .paid ↔ row.amount ≤ (log.map (lookedUp c.state.db.currencies row)).sum)

end Runs

namespace Shop

attribute [local instance] Texts.libraries

/-- An invoice with an ID of version 7. -/
def dated : Invoice := { order with id := invoiceID }

/-- A transaction of the first second that pays it, with a comment. -/
def paying : Transaction where
  lt := 1
  hash := 5
  prevTxLt := 0
  prevTxHash := 0
  utime := 0
  success := true
  inMessage := { Message.zero with
    type := "Int"
    source := some payer
    value := 10
    decodedOperation := "TextComment"
    decodedBody := .object [("Text", .string (Texts.uuidString invoiceID))] }
  outMessages := []

/-- The account of the merchant. -/
def till : Account := ⟨merchant, ⟨0, merchant, none⟩⟩

/-- The transaction is processed at once. -/
def prompt : List (Time × Deed) :=
  [(0, .createInvoice dated), (1, .process till paying), (2000000, .markExpired)]

/-- The transaction is processed after the invoice has expired. -/
def slow : List (Time × Deed) :=
  [(0, .createInvoice dated), (2000000, .markExpired), (3000000, .process till paying)]

/-- What a list of deeds leads to in the opened shop. -/
def reaches (deeds : List (Time × Deed)) (status : InvoiceStatus) : Bool :=
  ((follow 0 deeds opened).bind fun w => w.db.invoices.find invoiceID).elim false
    fun row => decide (row.status = status)

theorem exists_of_reaches {deeds : List (Time × Deed)} {status : InvoiceStatus}
    (found : reaches deeds status = true) : ∃ w row, TimedRun opened deeds w ∧
      w.db.invoices.find invoiceID = some row ∧ row.status = status := by
  unfold reaches at found
  cases leads : follow 0 deeds opened with
  | none =>
      rw [leads] at found
      cases found
  | some w =>
      rw [leads, Option.bind_some] at found
      cases stored : w.db.invoices.find invoiceID with
      | none =>
          rw [stored] at found
          cases found
      | some row =>
          rw [stored] at found
          exact ⟨w, row, timedRun_of_follow .nil (fun _ impossible => by cases impossible) leads,
            stored, of_decide_eq_true found⟩

/-- What happens in the two runs. -/
theorem events_of_prompt : eventsOf prompt =
    [.created dated, .received 1 ⟨invoiceID, .ton, 10, payer, merchant, 5⟩, .expired 2000000] := by
  decide +kernel

theorem events_of_slow : eventsOf slow = [.created dated, .expired 2000000,
    .received 3000000 ⟨invoiceID, .ton, 10, payer, merchant, 5⟩] := by
  decide +kernel

/-- Two runs that differ only in the delay of one transaction come to different statuses of
its invoice, once it is over. -/
theorem delay_decides : ¬ DelaysIgnored := by
  intro same
  have soon : reaches prompt .paid = true := by decide +kernel
  have late : reaches slow .expired = true := by decide +kernel
  obtain ⟨w₁, row₁, run₁, found₁, paid⟩ := exists_of_reaches soon
  obtain ⟨w₂, row₂, run₂, found₂, expired⟩ := exists_of_reaches late
  have expires : timestamptz dated.expireAt < timestamptz 2000000 := by decide
  have equal := same opened w₁ w₂ prompt slow rfl run₁ run₂ ⟨rfl, rfl, rfl⟩ dated row₁ row₂
    (by rw [events_of_prompt]; exact List.mem_cons_self)
    ⟨2000000, by rw [events_of_prompt]; simp, expires⟩
    ⟨2000000, by rw [events_of_slow]; simp, expires⟩ found₁ found₂
  rw [paid, expired] at equal
  cases equal

/-- The transaction is processed before the invoice is created. -/
def ahead : List (Time × Deed) :=
  [(0, .process till paying), (1, .createInvoice dated), (2000000, .markExpired)]

theorem events_of_ahead : eventsOf ahead =
    [.received 0 ⟨invoiceID, .ton, 10, payer, merchant, 5⟩, .created dated, .expired 2000000] := by
  decide +kernel

/-- A payment that is processed before its invoice is created does not count. -/
theorem ahead_uncounted : ¬ EarlyCounts := by
  intro counts
  have forgotten : reaches ahead .expired = true := by decide +kernel
  obtain ⟨w, row, run, found, expired⟩ := exists_of_reaches forgotten
  have enough : dated.amount ≤ paidInTime dated (eventsOf ahead) := by
    rw [events_of_ahead]
    decide
  have paid := (counts opened w ahead rfl run dated row (by rw [events_of_ahead]; simp) (by decide)
    (by rw [events_of_ahead]; simp) (fun time payment member => ?_) found).mpr enough
  · rw [expired] at paid
    cases paid
  · rw [events_of_ahead] at member
    simp only [List.mem_cons, Event.received.injEq, reduceCtorEq, List.not_mem_nil, or_false] at member
    rw [member.2]
    decide

/-- An invoice over nothing. -/
def gift : Invoice := { dated with amount := 0 }

/-- Nobody pays it. -/
def unpaid : List (Time × Deed) := [(0, .createInvoice gift), (2000000, .markExpired)]

theorem events_of_unpaid : eventsOf unpaid = [.created gift, .expired 2000000] := by
  decide +kernel

/-- An invoice over nothing is not paid before a payment comes. -/
theorem gift_expires : ¬ SumDecides (fun _ => True) (fun payment => 0 ≤ payment.amount) := by
  intro decides
  have waits : reaches unpaid .expired = true := by decide +kernel
  obtain ⟨w, row, run, found, expired⟩ := exists_of_reaches waits
  have first : First (Stores opened.db.currencies gift.id) [] (.created gift) :=
    ⟨⟨rfl, by decide +kernel⟩, .nil⟩
  have paid := (decides opened w unpaid rfl run gift row [] [.expired 2000000] events_of_unpaid first
    trivial (by simp) (by simp) found).mpr (by decide)
  rw [expired] at paid
  cases paid

/-- A transaction of more than an `int64` holds. -/
def wrapping : Transaction :=
  { paying with lt := 2, inMessage := { paying.inMessage with value := 2 ^ 64 - 5 } }

/-- It is processed after the invoice has been paid. -/
def wrapped : List (Time × Deed) :=
  [(0, .createInvoice dated), (1, .process till paying), (2, .process till wrapping)]

theorem events_of_wrapped : eventsOf wrapped =
    [.created dated, .received 1 ⟨invoiceID, .ton, 10, payer, merchant, 5⟩,
      .received 2 ⟨invoiceID, .ton, -5, payer, merchant, 5⟩] := by
  decide +kernel

/-- What a payment takes back does not undo that the invoice is paid. -/
theorem wrapped_stays_paid : ¬ SumDecides (fun invoice => 0 < invoice.amount) (fun _ => True) := by
  intro decides
  have stays : reaches wrapped .paid = true := by decide +kernel
  obtain ⟨w, row, run, found, paid⟩ := exists_of_reaches stays
  have first : First (Stores opened.db.currencies dated.id) [] (.created dated) :=
    ⟨⟨rfl, by decide +kernel⟩, .nil⟩
  have enough := (decides opened w wrapped rfl run dated row [] _ events_of_wrapped first
    (by decide) (by simp) (fun _ _ _ => trivial) found).mp paid
  exact absurd enough (by decide)

/-- Nothing fails and nothing stops. -/
def flawless : Checks Bool where
  spawn := oneAtATime.spawn
  exec w t op fault choice := decide (fault = .none) && oneAtATime.exec w t op fault choice
  crash _ := false

theorem flawless_exclusive : Exclusive flawless.rules where
  creates := oneAtATime_exclusive.creates
  amounts := fun w t call fault choice allowed =>
    oneAtATime_exclusive.amounts w t call fault choice (Bool.and_eq_true_iff.mp allowed).2
  disjoint := fun w t call fault choice allowed =>
    oneAtATime_exclusive.disjoint w t call fault choice (Bool.and_eq_true_iff.mp allowed).2

/-- `processPayment` has read the clock, then the expired invoices are marked, and then it
looks the invoice up. -/
def markedBetween : List (Act Bool) :=
  .spawn true (.savePayments (call 1 10)) :: List.replicate 3 (run true 1) ++
    .spawn false .markExpired :: run false 2000000 ::
      .exec false .none { at' 2000000 with ids := [7] } :: List.replicate 4 (run false 2000000) ++
    List.replicate 6 (run true 2000001) ++ [.retire false, .retire true]

/-- The payment is in time by the clock that is read for it, and yet the invoice expires. -/
theorem overtaken_expires : ¬ SumDecidesInterleaved printing := by
  intro decides
  have computed : (flawless.schedule printing markedBetween (.idle (.idle database))).map (fun c =>
      decide ((c.pool true).isNone = true ∧ (c.pool false).isNone = true ∧
        (c.state.db.invoices.find 7).map (fun row => (row.status, row.amount,
          ((flawless.record printing markedBetween (.idle (.idle database))).map
            (lookedUp c.state.db.currencies row)).sum)) = some (.expired, 10, 10))) = some true := by
    decide +kernel
  have risen : ((flawless.record printing markedBetween (.idle (.idle database))).filterMap
      reading?).Pairwise (· ≤ ·) := by decide +kernel
  obtain ⟨c, leads, seen⟩ := Option.map_eq_some_iff.mp computed
  obtain ⟨ended, ended', there⟩ := of_decide_eq_true seen
  obtain ⟨row, found, same⟩ := Option.map_eq_some_iff.mp there
  obtain ⟨expired, rest⟩ := Prod.mk.inj same
  obtain ⟨amount, sum⟩ := Prod.mk.inj rest
  have idle : ∀ t, c.pool t = none := by
    rintro (_ | _)
    · exact Option.isNone_iff_eq_none.mp ended'
    · exact Option.isNone_iff_eq_none.mp ended
  have paid := (decides flawless.rules database flawless_exclusive
    (fun _ _ _ _ _ allowed => of_decide_eq_true (Bool.and_eq_true_iff.mp allowed).1)
    (fun _ impossible => Bool.noConfusion impossible) database_sane database_fresh _ c
    (Checks.logged leads .start) idle risen 7 row found (by rw [amount]; decide)
    (by rw [expired]; decide)).mpr (by rw [amount]; exact sum.ge)
  rw [expired] at paid
  cases paid

/-- **What decides is the processing, step after step, of invoices that are there.** The
delays matter, what comes before the invoice does not count, the sum alone decides only for
amounts of the usual kind, and only where no other step comes between. -/
theorem processing_decides : ¬ DelaysIgnored ∧ ¬ EarlyCounts ∧
    ¬ SumDecides (fun _ => True) (fun payment => 0 ≤ payment.amount) ∧
    ¬ SumDecides (fun invoice => 0 < invoice.amount) (fun _ => True) ∧
    ¬ SumDecidesInterleaved printing :=
  ⟨delay_decides, ahead_uncounted, gift_expires, wrapped_stays_paid, overtaken_expires⟩

/-- The prompt run pays the invoice, since its payment is in time. -/
theorem prompt_decided : ∃ w row, TimedRun opened prompt w ∧
    w.db.invoices.find dated.id = some row ∧
    (row.status = .paid ↔ dated.amount ≤ paidInTime dated
      [.received 1 ⟨invoiceID, .ton, 10, payer, merchant, 5⟩, .expired 2000000]) := by
  have soon : reaches prompt .paid = true := by decide +kernel
  obtain ⟨w, row, run, found, paid⟩ := exists_of_reaches soon
  have first : First (Stores opened.db.currencies dated.id) [] (.created dated) :=
    ⟨⟨rfl, by decide +kernel⟩, .nil⟩
  have empty : opened.db.invoices = .empty := rfl
  obtain ⟨row', _, found', _, decided, _⟩ :=
    statuses_decided empty run run events_of_prompt first events_of_prompt first
  obtain rfl := Option.some.inj (found.symm.trans found')
  refine ⟨w, row, run, found, (decided ?_).2 (by decide) ?_⟩
  · intro time member
    simp at member
  · intro time payment member _
    simp only [List.mem_cons, Event.received.injEq, reduceCtorEq, List.not_mem_nil, or_false] at member
    rw [member.2]
    decide

end Shop

end SpiceHarvester
