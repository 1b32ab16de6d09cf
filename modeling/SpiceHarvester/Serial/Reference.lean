import SpiceHarvester.Db.Invoices
import SpiceHarvester.Interleaving.First
import SpiceHarvester.Serial.Store

/-!
# The reference ledger

What happens to the invoices of a shop is a list of events: invoices are created,
payments are received, invoices are cancelled, and from time to time all the invoices
that are over are marked. The list says what should be in the row of an invoice, with no
regard to how it got there. All payments received for the invoice since it was created
count (`total`), and the invoice waits until the first event that finishes it (`Finishes`): a
payment in time that completes its amount, a cancellation in time, or a mark after its
time (`Booked`).

The store that the events lead to has exactly these rows (`Store.booked`).
-/

set_option autoImplicit false

namespace SpiceHarvester

open Interleaving Sql

/-! ## Events -/

/-- What happens to the invoices. -/
inductive Event where
  | created (invoice : Invoice)
  | received (time : Time) (payment : Payment)
  | cancelled (time : Time) (id : InvoiceID)
  | expired (time : Time)
  deriving DecidableEq

/-- The payment names the invoice, in exactly its currency and to exactly its
recipient. -/
def Payment.For (payment : Payment) (invoice : Invoice) : Prop :=
  payment.invoiceID = invoice.id ∧ payment.currency = invoice.currency ∧
    payment.recipient = invoice.recipient

instance (payment : Payment) (invoice : Invoice) : Decidable (payment.For invoice) :=
  inferInstanceAs (Decidable (_ ∧ _ ∧ _))

/-- What an invoice receives. -/
def Event.amountFor (invoice : Invoice) : Event → ℤ
  | .received _ payment => if payment.For invoice then payment.amount else 0
  | .created _ | .cancelled .. | .expired _ => 0

/-- The sum of the payments for an invoice. -/
def total (invoice : Invoice) (events : List Event) : ℤ :=
  (events.map (Event.amountFor invoice)).sum

@[simp] theorem total_nil (invoice : Invoice) : total invoice [] = 0 := rfl

@[simp] theorem total_append_singleton (invoice : Invoice) (events : List Event) (event : Event) :
    total invoice (events ++ [event]) = total invoice events + event.amountFor invoice := by
  simp [total]

/-- What would end an invoice that is still waiting, after what has happened since it was
created. -/
def Finishes (invoice : Invoice) (before : List Event) : Event → Prop
  | .created _ => False
  | .received time payment =>
      payment.For invoice ∧ time ≤ timestamptz invoice.expireAt ∧
        invoice.amount ≤ total invoice before + payment.amount
  | .cancelled time id => id = invoice.id ∧ timestamptz time < timestamptz invoice.expireAt
  | .expired time => timestamptz invoice.expireAt < timestamptz time

/-- The invoice is waiting. -/
def Waits (invoice : Invoice) : List Event → Prop := Never (Finishes invoice)

/-- The row of an invoice is as the events since it was created say. -/
structure Booked (invoice : Invoice) (currency : UUID) (events : List Event) (row : InvoiceRow) :
    Prop where
  terms : row.terms = (invoice.row currency).terms
  overpayment : row.overpayment =
    total invoice events - if row.status = .paid then invoice.amount else 0
  waiting : row.status = .waiting → Waits invoice events
  paid : row.status = .paid → ∃ before time payment after,
    events = before ++ .received time payment :: after ∧
      First (Finishes invoice) before (.received time payment) ∧
      row.paidBy = some payment.paidBy ∧ row.txHash = some payment.txHash ∧
      row.paidAt = some (timestamptz time)
  cancelled : row.status = .cancelled → ∃ before time after,
    events = before ++ .cancelled time invoice.id :: after ∧
      First (Finishes invoice) before (.cancelled time invoice.id)
  expired : row.status = .expired → ∃ before time after,
    events = before ++ .expired time :: after ∧ First (Finishes invoice) before (.expired time)
  unpaid : row.status ≠ .paid → row.paidBy = none ∧ row.txHash = none ∧ row.paidAt = none

/-- A new invoice: it waits, and nothing has been received for it. -/
structure Invoice.New (invoice : Invoice) : Prop where
  status : invoice.status = .waiting
  overpayment : invoice.overpayment = 0

namespace Booked

variable {invoice : Invoice} {currency : UUID} {events : List Event} {row : InvoiceRow}

/-- The row of a new invoice. -/
theorem created (new : invoice.New) (currency : UUID) :
    Booked invoice currency [] (invoice.row currency) := by
  have status : (invoice.row currency).status = .waiting := new.status
  have overpayment : (invoice.row currency).overpayment = 0 := new.overpayment
  refine ⟨rfl, ?_, fun _ => .nil, fun paid => ?_, fun cancelled => ?_, fun expired => ?_,
    fun _ => ⟨rfl, rfl, rfl⟩⟩
  · rw [overpayment, status]
    rfl
  · cases status.symm.trans paid
  · cases status.symm.trans cancelled
  · cases status.symm.trans expired

/-- What was first is first, whatever happens later. -/
theorem paid_later (booked : Booked invoice currency events row) (event : Event)
    (paid : row.status = .paid) : ∃ before time payment after,
      events ++ [event] = before ++ .received time payment :: after ∧
        First (Finishes invoice) before (.received time payment) ∧
        row.paidBy = some payment.paidBy ∧ row.txHash = some payment.txHash ∧
        row.paidAt = some (timestamptz time) := by
  obtain ⟨before, time, payment, after, rfl, first⟩ := booked.paid paid
  exact ⟨before, time, payment, after ++ [event], List.append_assoc .., first⟩

theorem cancelled_later (booked : Booked invoice currency events row) (event : Event)
    (cancelled : row.status = .cancelled) : ∃ before time after,
      events ++ [event] = before ++ .cancelled time invoice.id :: after ∧
        First (Finishes invoice) before (.cancelled time invoice.id) := by
  obtain ⟨before, time, after, rfl, first⟩ := booked.cancelled cancelled
  exact ⟨before, time, after ++ [event], List.append_assoc .., first⟩

theorem expired_later (booked : Booked invoice currency events row) (event : Event)
    (expired : row.status = .expired) : ∃ before time after,
      events ++ [event] = before ++ .expired time :: after ∧
        First (Finishes invoice) before (.expired time) := by
  obtain ⟨before, time, after, rfl, first⟩ := booked.expired expired
  exact ⟨before, time, after ++ [event], List.append_assoc .., first⟩

/-- An event that is not for the invoice, or that comes too late, leaves its row. -/
theorem skip (booked : Booked invoice currency events row) {event : Event}
    (nothing : event.amountFor invoice = 0)
    (waits : row.status = .waiting → ¬ Finishes invoice events event) :
    Booked invoice currency (events ++ [event]) row := by
  refine ⟨booked.terms, ?_, fun waiting => ?_, booked.paid_later event, booked.cancelled_later event,
    booked.expired_later event, booked.unpaid⟩
  · rw [total_append_singleton, nothing, Int.add_zero]
    exact booked.overpayment
  · exact never_append_singleton.mpr ⟨booked.waiting waiting, waits waiting⟩

theorem skip_created (booked : Booked invoice currency events row) (other : Invoice) :
    Booked invoice currency (events ++ [.created other]) row :=
  booked.skip rfl fun _ finishes => finishes

/-- The bounds of the row are those of the invoice. -/
theorem id (booked : Booked invoice currency events row) : row.id = invoice.id :=
  InvoiceRow.id_of_terms booked.terms

theorem amount (booked : Booked invoice currency events row) : row.amount = invoice.amount :=
  InvoiceRow.amount_of_terms booked.terms

theorem expireAt (booked : Booked invoice currency events row) :
    row.expireAt = timestamptz invoice.expireAt :=
  InvoiceRow.expireAt_of_terms booked.terms

/-- A waiting invoice has received what its row says. -/
theorem overpayment_of_waiting (booked : Booked invoice currency events row)
    (waiting : row.status = .waiting) : row.overpayment = total invoice events := by
  rw [booked.overpayment, if_neg (by rw [waiting]; exact InvoiceStatus.noConfusion), Int.sub_zero]

/-- A waiting invoice is closed by the event that finishes it. -/
theorem close (booked : Booked invoice currency events row) {event : Event} {status : InvoiceStatus}
    (nothing : event.amountFor invoice = 0) (waiting : row.status = .waiting)
    (open' : status ≠ .waiting) (unpaid : status ≠ .paid)
    (cancelled : status = .cancelled → ∃ time, event = .cancelled time invoice.id)
    (expired : status = .expired → ∃ time, event = .expired time)
    (finishes : Finishes invoice events event) (time : Time) :
    Booked invoice currency (events ++ [event]) (row.close status time) := by
  have first : First (Finishes invoice) events event := ⟨finishes, booked.waiting waiting⟩
  have before : row.status ≠ .paid := by
    rw [waiting]
    exact InvoiceStatus.noConfusion
  refine ⟨booked.terms, ?_, fun same => absurd same open', fun same => absurd same unpaid,
    fun same => ?_, fun same => ?_, fun _ => booked.unpaid before⟩
  · change row.overpayment = _ - if status = .paid then invoice.amount else 0
    rw [total_append_singleton, nothing, Int.add_zero, if_neg unpaid, Int.sub_zero]
    exact booked.overpayment_of_waiting waiting
  · obtain ⟨time, rfl⟩ := cancelled same
    exact ⟨events, time, [], rfl, first⟩
  · obtain ⟨time, rfl⟩ := expired same
    exact ⟨events, time, [], rfl, first⟩

/-- A payment for the invoice is received. -/
theorem receive (booked : Booked invoice currency events row) (time : Time) {payment : Payment}
    (for' : payment.For invoice) :
    Booked invoice currency (events ++ [.received time payment]) (row.receive time payment) := by
  have amountFor : (Event.received time payment).amountFor invoice = payment.amount := if_pos for'
  -- The payment is credited to a row that it does not pay.
  have credited (waits : row.status = .waiting → ¬ Finishes invoice events (.received time payment)) :
      Booked invoice currency (events ++ [.received time payment])
        (row.credit (row.overpayment + payment.amount) time) := by
    refine ⟨booked.terms, ?_, fun waiting => ?_, booked.paid_later _, booked.cancelled_later _,
      booked.expired_later _, booked.unpaid⟩
    · change row.overpayment + payment.amount = _ - if row.status = .paid then invoice.amount else 0
      rw [total_append_singleton, amountFor, booked.overpayment]
      omega
    · exact never_append_singleton.mpr ⟨booked.waiting waiting, waits waiting⟩
  unfold InvoiceRow.receive
  dsimp only
  split
  · rename_i closed
    refine credited fun waiting finishes => ?_
    have late := closed.resolve_left (not_not.mpr waiting)
    rw [booked.expireAt] at late
    exact absurd finishes.2.1 (not_le.mpr late)
  rename_i inTime
  obtain ⟨waiting, early⟩ := not_or.mp inTime
  rw [not_not] at waiting
  have sum := booked.overpayment_of_waiting waiting
  split
  · rename_i partially
    refine credited fun _ finishes => ?_
    rw [sum, booked.amount] at partially
    exact absurd finishes.2.2 (not_le.mpr partially)
  · rename_i enough
    have first : First (Finishes invoice) events (.received time payment) := by
      refine ⟨⟨for', ?_, ?_⟩, booked.waiting waiting⟩
      · rw [← booked.expireAt]
        exact not_lt.mp early
      · rw [← sum, ← booked.amount]
        exact not_lt.mp enough
    refine ⟨booked.terms, ?_, fun same => ?_, fun _ => ?_, fun same => ?_, fun same => ?_,
      fun unpaid => absurd rfl unpaid⟩
    · change row.overpayment + payment.amount - row.amount =
        _ - if InvoiceStatus.paid = .paid then invoice.amount else 0
      rw [total_append_singleton, amountFor, sum, booked.amount, if_pos rfl]
    · cases same
    · exact ⟨events, time, payment, [], rfl, first, rfl, rfl, rfl⟩
    · cases same
    · cases same

end Booked

/-- What the events since an invoice was created say of its row: the row has received all
payments for it, less its amount once it is paid, and its status is that of the first
event that finishes it. -/
structure Reference (invoice : Invoice) (currency : UUID) (events : List Event)
    (row : InvoiceRow) : Prop where
  terms : row.terms = (invoice.row currency).terms
  overpayment : row.overpayment =
    total invoice events - if row.status = .paid then invoice.amount else 0
  waiting : row.status = .waiting ↔ Waits invoice events
  paid : row.status = .paid ↔ ∃ before time payment after,
    events = before ++ .received time payment :: after ∧
      First (Finishes invoice) before (.received time payment)
  payment : ∀ before time payment after, events = before ++ .received time payment :: after →
    First (Finishes invoice) before (.received time payment) →
      row.paidBy = some payment.paidBy ∧ row.txHash = some payment.txHash ∧
        row.paidAt = some (timestamptz time)
  unpaid : row.status ≠ .paid → row.paidBy = none ∧ row.txHash = none ∧ row.paidAt = none
  cancelled : row.status = .cancelled ↔ ∃ before time after,
    events = before ++ .cancelled time invoice.id :: after ∧
      First (Finishes invoice) before (.cancelled time invoice.id)
  expired : row.status = .expired ↔ ∃ before time after,
    events = before ++ .expired time :: after ∧ First (Finishes invoice) before (.expired time)

/-- **A booked row is that of the reference.** There is one first event that finishes an
invoice, and the row has recorded it. -/
theorem Booked.reference {invoice : Invoice} {currency : UUID} {events : List Event}
    {row : InvoiceRow} (booked : Booked invoice currency events row) :
    Reference invoice currency events row := by
  -- The status that the row has recorded is that of the first event that finishes.
  have status : ∀ {before : List Event} {event : Event} {after : List Event},
      events = before ++ event :: after → First (Finishes invoice) before event →
      (∃ time payment, event = .received time payment ∧ row.status = .paid ∧
        row.paidBy = some payment.paidBy ∧ row.txHash = some payment.txHash ∧
        row.paidAt = some (timestamptz time)) ∨
      (∃ time, event = .cancelled time invoice.id ∧ row.status = .cancelled) ∨
      (∃ time, event = .expired time ∧ row.status = .expired) := by
    intro before event after place first
    cases current : row.status with
    | waiting =>
        have waits := booked.waiting current
        rw [place] at waits
        exact absurd waits first.not_never
    | paid =>
        obtain ⟨_, time, payment, _, place', first', recorded⟩ := booked.paid current
        obtain ⟨_, same, _⟩ := first.unique first' (place.symm.trans place')
        exact .inl ⟨time, payment, same, rfl, recorded⟩
    | cancelled =>
        obtain ⟨_, time, _, place', first'⟩ := booked.cancelled current
        obtain ⟨_, same, _⟩ := first.unique first' (place.symm.trans place')
        exact .inr (.inl ⟨time, same, rfl⟩)
    | expired =>
        obtain ⟨_, time, _, place', first'⟩ := booked.expired current
        obtain ⟨_, same, _⟩ := first.unique first' (place.symm.trans place')
        exact .inr (.inr ⟨time, same, rfl⟩)
  refine ⟨booked.terms, booked.overpayment, ⟨booked.waiting, fun waits => ?_⟩, ⟨fun paid => ?_, ?_⟩,
    ?_, booked.unpaid, ⟨booked.cancelled, ?_⟩, ⟨booked.expired, ?_⟩⟩
  · cases current : row.status with
    | waiting => rfl
    | paid =>
        obtain ⟨_, _, _, _, rfl, first, _⟩ := booked.paid current
        exact absurd waits first.not_never
    | cancelled =>
        obtain ⟨_, _, _, rfl, first⟩ := booked.cancelled current
        exact absurd waits first.not_never
    | expired =>
        obtain ⟨_, _, _, rfl, first⟩ := booked.expired current
        exact absurd waits first.not_never
  · obtain ⟨before, time, payment, after, place, first, _⟩ := booked.paid paid
    exact ⟨before, time, payment, after, place, first⟩
  · rintro ⟨before, time, payment, after, place, first⟩
    obtain ⟨_, _, _, paid, _⟩ | ⟨_, same, _⟩ | ⟨_, same, _⟩ := status place first
    · exact paid
    · cases same
    · cases same
  · intro before time payment after place first
    obtain ⟨_, _, same, _, recorded⟩ | ⟨_, same, _⟩ | ⟨_, same, _⟩ := status place first
    · cases same
      exact recorded
    · cases same
    · cases same
  · rintro ⟨before, time, after, place, first⟩
    obtain ⟨_, _, same, _⟩ | ⟨_, _, cancelled⟩ | ⟨_, same, _⟩ := status place first
    · cases same
    · exact cancelled
    · cases same
  · rintro ⟨before, time, after, place, first⟩
    obtain ⟨_, _, same, _⟩ | ⟨_, same, _⟩ | ⟨_, _, expired⟩ := status place first
    · cases same
    · cases same
    · exact expired

/-! ## The store that the events lead to -/

variable [Libraries]

/-- An event happens to the store. -/
def Store.happen (s : Store) : Event → Store
  | .created invoice =>
      match s.currencies.of invoice.currency with
      | some currency => s.create (invoice.row currency)
      | none => s
  | .received time payment => s.receive time payment
  | .cancelled time id => s.close .cancelled time (cancellable time id)
  | .expired time => s.close .expired time (expirable time)

/-- The event stores an invoice of the ID, unless there is one. -/
def Stores (currencies : Currencies) (id : InvoiceID) (_ : List Event) : Event → Prop
  | .created invoice => invoice.id = id ∧ (currencies.of invoice.currency).isSome
  | .received .. | .cancelled .. | .expired _ => False

/-- What is stored under an ID is the row of the first invoice of this ID, or nothing. -/
inductive Shows (currencies : Currencies) (events : List Event) (id : InvoiceID) :
    Option InvoiceRow → Prop where
  | absent (never : Never (Stores currencies id) events) : Shows currencies events id none
  | stored {before after : List Event} {invoice : Invoice} {currency : UUID} {row : InvoiceRow}
      (place : events = before ++ .created invoice :: after)
      (first : First (Stores currencies id) before (.created invoice))
      (tracked : currencies.of invoice.currency = some currency)
      (booked : Booked invoice currency after row) : Shows currencies events id (some row)

namespace Store

variable {s : Store} {id : InvoiceID} {events : List Event} {row : InvoiceRow}

@[simp] theorem currencies_happen (s : Store) (event : Event) :
    (s.happen event).currencies = s.currencies := by
  cases event with
  | created invoice =>
      unfold happen
      dsimp only
      split
      · exact s.currencies_create _
      · rfl
  | received time payment => exact s.currencies_receive time payment
  | cancelled time id => rfl
  | expired time => rfl

theorem happen_created_of_none {invoice : Invoice}
    (untracked : s.currencies.of invoice.currency = none) : s.happen (.created invoice) = s := by
  simp only [happen, untracked]

theorem happen_created_of_some {invoice : Invoice} {currency : UUID}
    (tracked : s.currencies.of invoice.currency = some currency) :
    s.happen (.created invoice) = s.create (invoice.row currency) := by
  simp only [happen, tracked]

theorem currencies_foldl (s : Store) (events : List Event) :
    (events.foldl happen s).currencies = s.currencies := by
  induction events generalizing s with
  | nil => rfl
  | cons first rest ih => exact (ih _).trans (s.currencies_happen first)

/-- A payment is received by the row that it is for, and by no other. -/
theorem find_receive_eq (time : Time) (payment : Payment) (id : InvoiceID) :
    (s.receive time payment).invoices.find id =
      (s.invoices.find id).map fun row =>
        if s.payableBy payment = some row then row.receive time payment else row := by
  unfold receive
  cases found : s.payableBy payment with
  | none => exact (congrFun Option.map_id _).symm
  | some paid =>
      obtain ⟨currency, _, payable⟩ := Option.bind_eq_some_iff.mp found
      have stored := (Option.filter_eq_some_iff.mp payable).1
      have named := Table.key_of_find stored
      refine (Table.find_update _ _ (InvoiceRow.id_receive time payment) id).trans ?_
      cases there : s.invoices.find id with
      | none => rfl
      | some row =>
          have key := Table.key_of_find there
          simp only [Option.map_some, Option.some.injEq]
          by_cases same : paid = row
          · rw [if_pos same, if_pos (by rw [← same, named, decide_eq_true rfl])]
          · refine (if_neg ?_).trans (if_neg same).symm
            rw [decide_eq_true_eq]
            rintro names
            rw [← key, names, stored] at there
            exact same (Option.some.inj there)

/-- A booked row receives the payments for its invoice. -/
theorem payableBy_iff {invoice : Invoice} {currency : UUID} {payment : Payment}
    (found : s.invoices.find id = some row) (booked : Booked invoice currency events row)
    (tracked : s.currencies.of invoice.currency = some currency) :
    s.payableBy payment = some row ↔ payment.For invoice := by
  have key : invoice.id = id := booked.id.symm.trans (Table.key_of_find found)
  have recipient : row.recipient = invoice.recipient := InvoiceRow.recipient_of_terms booked.terms
  have stored : row.currency = currency := InvoiceRow.currency_of_terms booked.terms
  constructor
  · intro pays
    obtain ⟨other, same, payable⟩ := Option.bind_eq_some_iff.mp pays
    obtain ⟨here, meets⟩ := Option.filter_eq_some_iff.mp payable
    rw [Bool.and_eq_true, decide_eq_true_eq, decide_eq_true_eq] at meets
    rw [← meets.1, stored] at same
    refine ⟨?_, Currencies.of_injective same tracked, ?_⟩
    · rw [← Table.key_of_find here, Table.key_of_find found, key]
    · rw [← meets.2, recipient]
  · rintro ⟨names, currency', recipient'⟩
    rw [payableBy, currency', tracked, Option.bind_some, payable, names, key, found]
    simp [stored, recipient, recipient']

/-- The row of an invoice that no payment is for stays as it is. -/
theorem find_receiveAll_of_others {invoice : Invoice} {currency : UUID} {time : Time}
    {payments : List Payment} (found : s.invoices.find id = some row)
    (booked : Booked invoice currency events row)
    (tracked : s.currencies.of invoice.currency = some currency)
    (others : ∀ payment ∈ payments, ¬ payment.For invoice) :
    (s.receiveAll time payments).invoices.find id = some row := by
  induction payments generalizing s with
  | nil => exact found
  | cons payment rest ih =>
      have stays : (s.receive time payment).invoices.find id = some row := by
        have other := mt (payableBy_iff found booked tracked).mp (others payment List.mem_cons_self)
        rw [find_receive_eq, found, Option.map_some, if_neg other]
      refine ih stays ?_ fun later member => others later (List.mem_cons_of_mem _ member)
      rw [currencies_receive]
      exact tracked

/-- The status of an invoice that is not waiting stays as it is. -/
theorem status_receiveAll {time : Time} {payments : List Payment}
    (found : s.invoices.find id = some row) (closed : row.status ≠ .waiting) :
    ∃ row', (s.receiveAll time payments).invoices.find id = some row' ∧
      row'.status = row.status := by
  induction payments generalizing s row with
  | nil => exact ⟨row, found, rfl⟩
  | cons payment rest ih =>
      have received : (row.receive time payment).status = row.status := by
        unfold InvoiceRow.receive
        rw [if_pos (.inl closed)]
        rfl
      have stays := s.find_receive_eq time payment id
      rw [found, Option.map_some] at stays
      by_cases pays : s.payableBy payment = some row
      · rw [if_pos pays] at stays
        obtain ⟨row', later, same⟩ := ih stays (by rw [received]; exact closed)
        exact ⟨row', later, same.trans received⟩
      · rw [if_neg pays] at stays
        exact ih stays closed

/-- Payments store no invoice. -/
theorem find_receiveAll_of_none {time : Time} {payments : List Payment}
    (absent : s.invoices.find id = none) : (s.receiveAll time payments).invoices.find id = none := by
  induction payments generalizing s with
  | nil => exact absent
  | cons payment rest ih =>
      apply ih
      rw [find_receive_eq, absent]
      rfl

/-- An invoice of a stored currency is stored, unless there is one of its ID. -/
theorem find_create {currency : CurrencyRow} (stored : s.currencies.table.find row.currency = some currency)
    (id : InvoiceID) : (s.create row).invoices.find id =
      (s.invoices.find id).or (if row.id = id then some row else none) := by
  rw [← Table.find_getD_insert?, create, stored]
  cases s.invoices.insert? row <;> rfl

/-- What is stored under an ID, after a new invoice. -/
theorem shows_created {invoice : Invoice} (new : invoice.New)
    (shown : Shows s.currencies events id (s.invoices.find id)) :
    Shows s.currencies (events ++ [.created invoice]) id
      ((s.happen (.created invoice)).invoices.find id) := by
  cases tracked : s.currencies.of invoice.currency with
  | none =>
      rw [happen_created_of_none tracked]
      cases found : s.invoices.find id with
      | none =>
          rw [found] at shown
          obtain ⟨never⟩ := shown
          refine .absent (never_append_singleton.mpr ⟨never, fun stores => ?_⟩)
          rw [Stores, tracked] at stores
          cases stores.2
      | some row =>
          rw [found] at shown
          obtain _ | ⟨place, first, currency, booked⟩ := shown
          exact .stored (by rw [place, List.append_assoc, List.cons_append]) first currency
            (booked.skip_created invoice)
  | some currency =>
      obtain ⟨stored, there⟩ := Option.isSome_iff_exists.mp (Currencies.isSome_of tracked)
      rw [happen_created_of_some tracked, find_create there]
      cases found : s.invoices.find id with
      | none =>
          rw [found] at shown
          obtain ⟨never⟩ := shown
          rw [Option.none_or]
          by_cases names : invoice.id = id
          · rw [if_pos (show (invoice.row currency).id = id from names)]
            have first : First (Stores s.currencies id) events (.created invoice) :=
              ⟨⟨names, Option.isSome_of_eq_some tracked⟩, never⟩
            exact .stored rfl first tracked (.created new currency)
          · rw [if_neg (show (invoice.row currency).id ≠ id from names)]
            exact .absent (never_append_singleton.mpr ⟨never, fun stores => names stores.1⟩)
      | some row =>
          rw [found] at shown
          obtain _ | ⟨place, first, currency, booked⟩ := shown
          exact .stored (by rw [place, List.append_assoc, List.cons_append]) first currency
            (booked.skip_created invoice)

/-- What is stored under an ID, after an event that creates no invoice and does to a row
what it should. -/
theorem shows_of_map {event : Event} {f : InvoiceRow → InvoiceRow}
    (creates : ∀ invoice, event ≠ .created invoice)
    (found : (s.happen event).invoices.find id = (s.invoices.find id).map f)
    (books : ∀ {invoice currency after row}, s.invoices.find id = some row →
      s.currencies.of invoice.currency = some currency → Booked invoice currency after row →
      Booked invoice currency (after ++ [event]) (f row))
    (shown : Shows s.currencies events id (s.invoices.find id)) :
    Shows s.currencies (events ++ [event]) id ((s.happen event).invoices.find id) := by
  rw [found]
  cases there : s.invoices.find id with
  | none =>
      rw [there] at shown
      obtain ⟨never⟩ := shown
      refine .absent (never_append_singleton.mpr ⟨never, fun stores => ?_⟩)
      cases event with
      | created invoice => exact creates invoice rfl
      | received time payment => exact stores
      | cancelled time id => exact stores
      | expired time => exact stores
  | some row =>
      rw [there] at shown
      obtain _ | ⟨place, first, tracked, booked⟩ := shown
      exact .stored (by rw [place, List.append_assoc, List.cons_append]) first tracked
        (books there tracked booked)

/-- **What is stored under an ID, after an event.** -/
theorem shows_happen {event : Event} (new : ∀ invoice, event = .created invoice → invoice.New)
    (shown : Shows s.currencies events id (s.invoices.find id)) :
    Shows s.currencies (events ++ [event]) id ((s.happen event).invoices.find id) := by
  cases event with
  | created invoice => exact shows_created (new invoice rfl) shown
  | received time payment =>
      refine shows_of_map (fun _ => Event.noConfusion) (s.find_receive_eq time payment id)
        (fun found tracked booked => ?_) shown
      have iff : s.payableBy payment = some _ ↔ payment.For _ := payableBy_iff found booked tracked
      split
      · rename_i pays
        exact booked.receive time (iff.mp pays)
      · rename_i other
        have for' := mt iff.mpr other
        refine booked.skip (if_neg for') fun _ finishes => ?_
        exact for' finishes.1
  | cancelled time closed =>
      refine shows_of_map (fun _ => Event.noConfusion)
        (Table.find_update _ _ (InvoiceRow.id_close .cancelled time) id)
        (fun found tracked booked => ?_) shown
      split
      · rename_i closes
        simp only [cancellable, Bool.and_eq_true, decide_eq_true_eq] at closes
        obtain ⟨⟨names, waiting⟩, early⟩ := closes
        rw [booked.id] at names
        rw [booked.expireAt] at early
        refine booked.close rfl waiting InvoiceStatus.noConfusion InvoiceStatus.noConfusion
          (fun _ => ⟨time, by rw [names]⟩) InvoiceStatus.noConfusion ?_ time
        exact ⟨names.symm, early⟩
      · rename_i stays
        refine booked.skip rfl fun waiting finishes => stays ?_
        rw [cancellable, waiting, booked.id, booked.expireAt, decide_eq_true finishes.1.symm,
          decide_eq_true finishes.2]
        rfl
  | expired time =>
      refine shows_of_map (fun _ => Event.noConfusion)
        (Table.find_update _ _ (InvoiceRow.id_close .expired time) id)
        (fun found tracked booked => ?_) shown
      split
      · rename_i closes
        simp only [expirable, Bool.and_eq_true, decide_eq_true_eq] at closes
        obtain ⟨waiting, late⟩ := closes
        rw [booked.expireAt] at late
        exact booked.close rfl waiting InvoiceStatus.noConfusion InvoiceStatus.noConfusion
          InvoiceStatus.noConfusion (fun _ => ⟨time, rfl⟩) late time
      · rename_i stays
        refine booked.skip rfl fun waiting finishes => stays ?_
        rw [expirable, waiting, booked.expireAt]
        exact decide_eq_true finishes

/-- **What is stored under an ID, after any events.** -/
theorem shows_foldl (empty : s.invoices = .empty)
    (new : ∀ invoice, Event.created invoice ∈ events → invoice.New) (id : InvoiceID) :
    Shows s.currencies events id ((events.foldl happen s).invoices.find id) := by
  induction events using List.reverseRecOn with
  | nil =>
      rw [List.foldl_nil, empty]
      exact .absent .nil
  | append_singleton events event ih =>
      have shown := ih fun invoice member => new invoice (List.mem_append_left _ member)
      rw [List.foldl_append]
      rw [← currencies_foldl s events] at shown ⊢
      refine shows_happen (fun invoice same => new invoice ?_) shown
      rw [same]
      exact List.mem_append_right _ List.mem_cons_self

end Store

end SpiceHarvester
