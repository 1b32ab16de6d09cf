import SpiceHarvester.Ledger.Status
import Mathlib.Algebra.BigOperators.Group.List.Basic

/-!
# The balance of an invoice

What an invoice has been credited with is its overpayment, and its amount beside
it once it is paid (`InvoiceRow.balance`). As long as no two open payment
transactions carry payments of one currency to one recipient, this is the sum of
the payments for the invoice in all committed calls (`Balanced.committed`): no
update is lost, although `processPayment` writes what it has computed from an
earlier `SELECT`. Inside an open transaction the same holds with its own payments
added, apart from the one that is looked up and not credited yet
(`Balanced.opened`).
-/

set_option autoImplicit false

namespace SpiceHarvester

open Interleaving Sql

/-! ## Rows -/

/-- An invoice to which nothing has happened yet. -/
structure InvoiceRow.Fresh (row : InvoiceRow) : Prop where
  status : row.status = .waiting
  overpayment : row.overpayment = 0
  paidBy : row.paidBy = none
  paidAt : row.paidAt = none
  txHash : row.txHash = none

/-- The columns of a payment are set in paid invoices, and in no others; an
invoice is paid in time, and never overpaid by less than nothing. -/
structure InvoiceRow.Consistent (row : InvoiceRow) : Prop where
  paid : row.status = .paid →
    row.paidBy.isSome ∧ row.txHash.isSome ∧ ∃ time, row.paidAt = some time ∧ time ≤ row.expireAt
  unpaid : row.status ≠ .paid → row.paidBy = none ∧ row.paidAt = none ∧ row.txHash = none
  overpayment : 0 ≤ row.overpayment

/-- What an invoice has been credited with. -/
def InvoiceRow.balance (row : InvoiceRow) : ℤ :=
  row.overpayment + if row.status = .paid then row.amount else 0

theorem InvoiceRow.balance_of_unpaid {row : InvoiceRow} (unpaid : row.status ≠ .paid) :
    row.balance = row.overpayment := by
  rw [balance, if_neg unpaid, add_zero]

theorem InvoiceRow.Fresh.consistent {row : InvoiceRow} (fresh : row.Fresh) : row.Consistent where
  paid := fun paid => by rw [fresh.status] at paid; cases paid
  unpaid := fun _ => ⟨fresh.paidBy, fresh.paidAt, fresh.txHash⟩
  overpayment := fresh.overpayment.ge

theorem InvoiceRow.Fresh.balance {row : InvoiceRow} (fresh : row.Fresh) : row.balance = 0 := by
  rw [balance_of_unpaid (by rw [fresh.status]; decide), fresh.overpayment]

/-- A row that differs from another in its status only, and is paid only if the
other is. -/
structure InvoiceRow.Like (row row' : InvoiceRow) : Prop where
  terms : row'.terms = row.terms
  overpayment : row'.overpayment = row.overpayment
  balance : row'.balance = row.balance
  consistent : row.Consistent → row'.Consistent
  unpaid : row.status ≠ .paid → row'.status ≠ .paid

theorem InvoiceRow.Like.refl (row : InvoiceRow) : row.Like row :=
  ⟨rfl, rfl, rfl, fun holds => holds, fun holds => holds⟩

/-- Closing a waiting invoice changes nothing else. -/
theorem InvoiceRow.like_close {row : InvoiceRow} {status : InvoiceStatus} (time : Time)
    (waiting : row.status = .waiting) (terminal : status = .cancelled ∨ status = .expired) :
    row.Like (row.close status time) := by
  have unpaid : row.status ≠ .paid := by rw [waiting]; decide
  have unpaid' : status ≠ .paid := by obtain rfl | rfl := terminal <;> decide
  exact {
    terms := rfl
    overpayment := rfl
    balance := by
      rw [balance_of_unpaid unpaid]
      exact balance_of_unpaid unpaid'
    consistent := fun consistent => {
      paid := fun paid => absurd paid unpaid'
      unpaid := fun _ => consistent.unpaid unpaid
      overpayment := consistent.overpayment }
    unpaid := fun _ => unpaid' }

/-! ## Payments -/

section Payments

variable [Libraries]

/-- The sum of the payments for an invoice among those looked up while it was
stored. -/
def received (currencies : Currencies) (looked : List (Payment × Bool)) (row : InvoiceRow) : ℤ :=
  ((looked.filter fun entry => entry.2 && decide (entry.1.Pays currencies row)).map
    fun entry => entry.1.amount).sum

variable {currencies : Currencies} {row row' : InvoiceRow}

theorem received_congr {looked : List (Payment × Bool)} (same : row'.terms = row.terms) :
    received currencies looked row' = received currencies looked row := by
  unfold received
  simp only [Payment.pays_congr same]

theorem received_append (looked looked' : List (Payment × Bool)) :
    received currencies (looked ++ looked') row =
      received currencies looked row + received currencies looked' row := by
  simp only [received, List.filter_append, List.map_append, List.sum_append]

theorem received_singleton (payment : Payment) (known : Bool) :
    received currencies [(payment, known)] row =
      if known = true ∧ payment.Pays currencies row then payment.amount else 0 := by
  unfold received
  by_cases holds : known = true ∧ payment.Pays currencies row
  · rw [if_pos holds, List.filter_cons_of_pos (by simpa using holds)]
    simp
  · rw [if_neg holds, List.filter_cons_of_neg (by simpa using holds)]
    simp

/-- Payments none of which is for the invoice. -/
theorem received_eq_zero {looked : List (Payment × Bool)}
    (none : ∀ entry ∈ looked, entry.2 = true → ¬ entry.1.Pays currencies row) :
    received currencies looked row = 0 := by
  have empty : (looked.filter fun entry => entry.2 && decide (entry.1.Pays currencies row)) = [] := by
    rw [List.filter_eq_nil_iff]
    intro entry member holds
    simp only [Bool.and_eq_true, decide_eq_true_eq] at holds
    exact none entry member holds.1 holds.2
  rw [received, empty]
  rfl

end Payments

/-! ## The invariant -/

/-- What the transaction has looked up for an invoice and not credited yet. -/
def Book.pending (book : Book) (id : InvoiceID) : ℤ :=
  match book.reading with
  | some reading =>
      if reading.payment.invoiceID = id ∧ reading.credited = false then reading.payment.amount else 0
  | none => 0

/-- Two calls carry no payments of one currency to one recipient. -/
def PaymentCall.Disjoint (call call' : PaymentCall) : Prop :=
  ∀ payment ∈ call.payments, ∀ payment' ∈ call'.payments,
    ¬ (payment.currency = payment'.currency ∧ payment.recipient = payment'.recipient)

theorem PaymentCall.Disjoint.symm {call call' : PaymentCall} (disjoint : call.Disjoint call') :
    call'.Disjoint call :=
  fun payment member payment' member' ⟨currency, recipient⟩ =>
    disjoint payment' member' payment member ⟨currency.symm, recipient.symm⟩

theorem Book.pending_of_settled {book : Book} (settled : Reading.Settled book.reading) (id : InvoiceID) :
    book.pending id = 0 := by
  unfold Book.pending
  cases current : book.reading with
  | none => rfl
  | some reading =>
      obtain ⟨credited, _⟩ := settled reading current
      exact if_neg fun holds => by
        rw [credited] at holds
        cases holds.2

variable [Libraries] {τ : Type}

/-- The call carries a payment for the invoice. -/
def Book.Touches (currencies : Currencies) (book : Book) (row : InvoiceRow) : Prop :=
  ∃ payment ∈ book.call.payments, payment.Pays currencies row

namespace Books

/-- Invoices are created fresh, and a payment transaction begins with payments of
non-negative amounts when no other one carries payments of the same currency to the
same recipient. -/
def exclusive : Guard τ where
  creates := InvoiceRow.Fresh
  closes _ _ := True
  begins b t call :=
    (∀ payment ∈ call.payments, 0 ≤ payment.amount) ∧
      ∀ u book, u ≠ t → b.books u = some book → call.Disjoint book.call

/-- The sum of the payments for an invoice in the committed calls. -/
def credited (b : Books τ) (row : InvoiceRow) : ℤ :=
  received b.currencies (b.calls.flatMap CommittedCall.looked) row

/-- The payment in progress has read its invoice: nothing has happened to the
overpayment since, and the invoice has not become paid meanwhile. -/
structure Current (b : Books τ) (t : τ) (book : Book) (reading : Reading) : Prop where
  carried : reading.payment ∈ book.call.payments
  seen : ∃ version, b.rows.seen t reading.payment.invoiceID = some version ∧
    reading.payment.Pays b.currencies version ∧ reading.row.terms = version.terms ∧
    (reading.credited = false → version.overpayment = reading.row.overpayment ∧
      (reading.row.status = .waiting → version.status ≠ .paid)) ∧
    (reading.credited = true → reading.pays = true →
      version.overpayment = reading.row.overpayment + reading.payment.amount ∧
        version.status ≠ .paid)

/-- What holds of an open payment transaction. -/
structure InProgress (b : Books τ) (t : τ) (book : Book) : Prop where
  amounts : ∀ payment ∈ book.call.payments, 0 ≤ payment.amount
  carried : ∀ entry ∈ book.looked, entry.1 ∈ book.call.payments
  known : ∀ entry ∈ book.looked, entry.2 = true → (b.rows.row entry.1.invoiceID).isSome
  touched : ∀ {id row}, b.rows.row id = some row → (b.rows.mine t id).isSome →
    book.Touches b.currencies row
  seen : ∀ {id version}, b.rows.seen t id = some version → version.Consistent ∧
    version.balance + book.pending id = b.credited version + received b.currencies book.looked version
  reading : ∀ {reading}, book.reading = some reading → b.Current t book reading

/-- **No payment is lost.** -/
structure Balanced (b : Books τ) : Prop where
  locked : b.rows.Locked
  keyed : ∀ {id row}, b.rows.row id = some row → row.id = id
  versions : ∀ {t id version}, b.rows.mine t id = some version →
    ∃ row, b.rows.row id = some row ∧ version.terms = row.terms
  idle : ∀ {t}, b.books t = none → ∀ id, b.rows.mine t id = none
  disjoint : ∀ {t u book book'}, t ≠ u → b.books t = some book → b.books u = some book' →
    book.call.Disjoint book'.call
  known : ∀ entry ∈ b.calls.flatMap CommittedCall.looked, entry.2 = true →
    (b.rows.row entry.1.invoiceID).isSome
  committed : ∀ {id row}, b.rows.row id = some row →
    row.Consistent ∧ row.balance = b.credited row
  running : ∀ {t book}, b.books t = some book → b.InProgress t book

section Facts

variable {b : Books τ} {t u : τ} {book book' : Book} {id : InvoiceID} {row version : InvoiceRow}

theorem credited_congr {row' : InvoiceRow} (same : row'.terms = row.terms) :
    b.credited row' = b.credited row :=
  received_congr same

/-- The version that a transaction reads has the terms of the stored row. -/
theorem Balanced.terms_seen (balanced : b.Balanced) (found : b.rows.row id = some row)
    (seen : b.rows.seen t id = some version) : version.terms = row.terms := by
  cases held : b.rows.mine t id with
  | none =>
      rw [Versions.seen_of_not_held held, found, Option.some.injEq] at seen
      exact seen ▸ rfl
  | some own =>
      rw [Versions.seen_of_held held, Option.some.injEq] at seen
      obtain ⟨row', found', same⟩ := balanced.versions held
      rw [found, Option.some.injEq] at found'
      exact seen ▸ found' ▸ same

theorem Balanced.key_seen (balanced : b.Balanced) (seen : b.rows.seen t id = some version) :
    version.id = id := by
  obtain ⟨row, found⟩ := balanced.locked.stored_of_seen seen
  exact (InvoiceRow.id_of_terms (balanced.terms_seen found seen)).trans (balanced.keyed found)

theorem touches_congr {currencies : Currencies} {row' : InvoiceRow}
    (same : row'.terms = row.terms) :
    book.Touches currencies row' ↔ book.Touches currencies row := by
  unfold Book.Touches
  simp only [Payment.pays_congr same]

/-- Only one transaction touches an invoice. -/
theorem Balanced.touches_once (balanced : b.Balanced) (other : t ≠ u)
    (opened : b.books t = some book) (opened' : b.books u = some book')
    (touches : book.Touches b.currencies row) : ¬ book'.Touches b.currencies row := by
  rintro ⟨payment', member', pays'⟩
  obtain ⟨payment, member, pays⟩ := touches
  exact balanced.disjoint other opened opened' payment member payment' member'
    (Payment.same_of_pays pays pays')

/-- A transaction leaves an invoice alone that it does not touch. -/
theorem InProgress.untouched (progress : b.InProgress t book) (found : b.rows.row id = some row)
    (untouched : ¬ book.Touches b.currencies row) :
    b.rows.mine t id = none ∧ received b.currencies book.looked row = 0 := by
  constructor
  · by_contra held
    exact untouched (progress.touched found (Option.isSome_iff_ne_none.mpr held))
  · exact received_eq_zero fun entry member _ pays =>
      untouched ⟨entry.1, progress.carried entry member, pays⟩

/-- Nor is a payment for it in progress. -/
theorem Balanced.pending_of_untouched (balanced : b.Balanced) (opened : b.books t = some book)
    (found : b.rows.row id = some row) (untouched : ¬ book.Touches b.currencies row) :
    book.pending id = 0 := by
  unfold Book.pending
  cases current : book.reading with
  | none => rfl
  | some reading =>
      refine if_neg ?_
      rintro ⟨rfl, _⟩
      have open' := (balanced.running opened).reading current
      obtain ⟨version, seen, pays, _⟩ := open'.seen
      exact untouched ⟨reading.payment, open'.carried,
        (Payment.pays_congr (balanced.terms_seen found seen)).mp pays⟩

end Facts

/-! ## One step -/

section Frames

variable {b c : Books τ} {t : τ} {book : Book}

/-- A transaction is not affected where its versions and the stored rows stay. -/
theorem InProgress.frame (progress : b.InProgress t book)
    (currencies : c.currencies = b.currencies) (row : c.rows.row = b.rows.row)
    (mine : c.rows.mine t = b.rows.mine t) (calls : c.calls = b.calls) :
    c.InProgress t book := by
  have seen : c.rows.seen t = b.rows.seen t := by
    funext id
    rw [Versions.seen, Versions.seen, row, mine]
  have credited : c.credited = b.credited := by
    funext row
    rw [Books.credited, Books.credited, currencies, calls]
  exact {
    amounts := progress.amounts
    carried := progress.carried
    known := by
      rw [row]
      exact progress.known
    touched := by
      rw [row, mine, currencies]
      exact progress.touched
    seen := by
      rw [seen, credited, currencies]
      exact progress.seen
    reading := by
      intro reading current
      obtain ⟨carried, version, found, rest⟩ := progress.reading current
      exact ⟨carried, version, seen ▸ found, currencies ▸ rest⟩ }

variable [DecidableEq τ]

/-- A step of one transaction that changes no stored row. -/
theorem Balanced.own (balanced : b.Balanced) {opened : Option Book}
    (books : c.books = Function.update b.books t opened)
    (currencies : c.currencies = b.currencies) (row : c.rows.row = b.rows.row)
    (calls : c.calls = b.calls) (mine : ∀ u, u ≠ t → c.rows.mine u = b.rows.mine u)
    (locked : c.rows.Locked)
    (versions : ∀ id version, c.rows.mine t id = some version →
      ∃ row, b.rows.row id = some row ∧ version.terms = row.terms)
    (idle : opened = none → ∀ id, c.rows.mine t id = none)
    (disjoint : ∀ book', opened = some book' → ∀ u book, u ≠ t → b.books u = some book →
      book'.call.Disjoint book.call)
    (progress : ∀ book', opened = some book' → c.InProgress t book') : c.Balanced := by
  have cases : ∀ {u : τ} {book : Option Book}, c.books u = book →
      (u = t ∧ opened = book) ∨ (u ≠ t ∧ b.books u = book) := by
    intro u book found
    rw [books] at found
    by_cases same : u = t
    · subst same
      rw [Function.update_self] at found
      exact .inl ⟨rfl, found⟩
    · rw [Function.update_of_ne same] at found
      exact .inr ⟨same, found⟩
  exact {
    locked := locked
    keyed := by
      rw [row]
      exact balanced.keyed
    versions := by
      intro u id version held
      rw [row]
      by_cases same : u = t
      · subst same
        exact versions id version held
      · rw [mine u same] at held
        exact balanced.versions held
    idle := by
      intro u closed id
      obtain ⟨rfl, same⟩ | ⟨other, before⟩ := cases closed
      · exact idle same id
      · rw [mine u other]
        exact balanced.idle before id
    disjoint := by
      intro u v book book' unlike found found'
      obtain ⟨rfl, same⟩ | ⟨other, before⟩ := cases found
      · obtain ⟨rfl, _⟩ | ⟨other', before'⟩ := cases found'
        · exact absurd rfl unlike
        · exact disjoint book same v book' other' before'
      · obtain ⟨rfl, same'⟩ | ⟨_, before'⟩ := cases found'
        · exact PaymentCall.Disjoint.symm (disjoint book' same' u book other before)
        · exact balanced.disjoint unlike before before'
    known := by
      rw [calls, row]
      exact balanced.known
    committed := by
      intro id stored found
      rw [row] at found
      rw [Books.credited, calls, currencies]
      exact balanced.committed found
    running := by
      intro u book found
      obtain ⟨rfl, same⟩ | ⟨other, before⟩ := cases found
      · exact progress book same
      · exact (balanced.running before).frame currencies row (mine u other) calls }

end Frames

namespace Balanced

variable {b : Books τ}

/-- A row is created. -/
theorem create (balanced : b.Balanced) {row : InvoiceRow} (new : b.rows.row row.id = none)
    (fresh : row.Fresh) :
    Books.Balanced { b with
      rows := b.rows.insert row.id row
      changes := b.changes ++ [row.snapshot] } := by
  have cases : ∀ {id stored}, (b.rows.insert row.id row).row id = some stored →
      (id = row.id ∧ stored = row) ∨ (id ≠ row.id ∧ b.rows.row id = some stored) := by
    intro id stored found
    by_cases same : id = row.id
    · subst same
      rw [Versions.row_insert_self, Option.some.injEq] at found
      exact .inl ⟨rfl, found.symm⟩
    · rw [Versions.row_insert_of_ne same] at found
      exact .inr ⟨same, found⟩
  have kept : ∀ {id}, (b.rows.row id).isSome → ((b.rows.insert row.id row).row id).isSome := by
    intro id stored
    by_cases same : id = row.id
    · subst same
      rw [Versions.row_insert_self]
      rfl
    · rwa [Versions.row_insert_of_ne same]
  -- No payment for the new invoice has been looked up while it was stored.
  have unknown : ∀ looked : List (Payment × Bool),
      (∀ entry ∈ looked, entry.2 = true → (b.rows.row entry.1.invoiceID).isSome) →
      received b.currencies looked row = 0 := fun looked known =>
    received_eq_zero fun entry member isKnown pays => by
      have stored := known entry member isKnown
      rw [pays.1, new] at stored
      cases stored
  have unwritten : ∀ t, b.rows.mine t row.id = none := by
    intro t
    by_contra held
    have stored := balanced.locked.stored (Option.isSome_iff_ne_none.mpr held)
    rw [new] at stored
    cases stored
  have seen : ∀ {t id version}, (b.rows.insert row.id row).seen t id = some version →
      (id = row.id ∧ version = row) ∨ (id ≠ row.id ∧ b.rows.seen t id = some version) := by
    intro t id version found
    by_cases same : id = row.id
    · subst same
      rw [Versions.seen_of_not_held (V := b.rows.insert row.id row) (unwritten t),
        Versions.row_insert_self, Option.some.injEq] at found
      exact .inl ⟨rfl, found.symm⟩
    · rw [Versions.seen, Versions.row_insert_of_ne same] at found
      exact .inr ⟨same, found⟩
  exact {
    locked := balanced.locked.insert _ _
    keyed := by
      intro id stored found
      obtain ⟨rfl, rfl⟩ | ⟨_, before⟩ := cases found
      · rfl
      · exact balanced.keyed before
    versions := by
      intro t id version held
      obtain ⟨stored, found, same⟩ := balanced.versions held
      refine ⟨stored, ?_, same⟩
      change (b.rows.insert row.id row).row id = some stored
      rw [Versions.row_insert_of_ne, found]
      rintro rfl
      rw [new] at found
      cases found
    idle := balanced.idle
    disjoint := balanced.disjoint
    known := fun entry member isKnown => kept (balanced.known entry member isKnown)
    committed := by
      intro id stored found
      obtain ⟨rfl, rfl⟩ | ⟨_, before⟩ := cases found
      · exact ⟨fresh.consistent, fresh.balance.trans (unknown _ balanced.known).symm⟩
      · exact balanced.committed before
    running := by
      intro t book opened
      have progress := balanced.running opened
      exact {
        amounts := progress.amounts
        carried := progress.carried
        known := fun entry member isKnown => kept (progress.known entry member isKnown)
        touched := by
          intro id stored found held
          obtain ⟨rfl, rfl⟩ | ⟨_, before⟩ := cases found
          · change (b.rows.mine t stored.id).isSome at held
            rw [unwritten t] at held
            cases held
          · exact progress.touched before held
        seen := by
          intro id version found
          obtain ⟨rfl, rfl⟩ | ⟨_, before⟩ := seen found
          · refine ⟨fresh.consistent, ?_⟩
            have idle : book.pending version.id = 0 := by
              unfold Book.pending
              cases current : book.reading with
              | none => rfl
              | some reading =>
                  refine if_neg ?_
                  rintro ⟨same, _⟩
                  obtain ⟨_, _, found, _⟩ := progress.reading current
                  obtain ⟨_, stored⟩ := balanced.locked.stored_of_seen found
                  rw [same, new] at stored
                  cases stored
            rw [fresh.balance, idle]
            change 0 + 0 = received b.currencies _ version + received b.currencies _ version
            rw [unknown _ balanced.known, unknown _ progress.known]
          · exact progress.seen before
        reading := by
          intro reading current
          obtain ⟨carried, version, found, rest⟩ := progress.reading current
          refine ⟨carried, version, ?_, rest⟩
          change (b.rows.insert row.id row).seen t _ = some version
          rw [Versions.seen, Versions.row_insert_of_ne]
          · exact found
          · intro same
            obtain ⟨_, stored⟩ := balanced.locked.stored_of_seen found
            rw [same, new] at stored
            cases stored } }

/-- Invoices are closed. -/
theorem close (balanced : b.Balanced) {status : InvoiceStatus} {time : Time}
    {condition : InvoiceRow → Bool} {closed : List Snapshot}
    (terminal : status = .cancelled ∨ status = .expired)
    (waiting : ∀ row, condition row = true → row.status = .waiting) :
    Books.Balanced { b with
      rows := b.rows.update fun row => if condition row then row.close status time else row
      changes := b.changes ++ closed } := by
  have like : ∀ row : InvoiceRow, row.Like (if condition row then row.close status time else row) := by
    intro row
    split
    · rename_i hits
      exact InvoiceRow.like_close time (waiting row hits) terminal
    · exact .refl row
  have stored : ∀ {id row'},
      (b.rows.update fun row => if condition row then row.close status time else row).row id =
        some row' → ∃ row, b.rows.row id = some row ∧ row.Like row' := by
    intro id row' found
    obtain ⟨row, before, rfl⟩ := Option.map_eq_some_iff.mp found
    exact ⟨row, before, like row⟩
  have kept : ∀ {id row}, b.rows.row id = some row → ∃ row',
      (b.rows.update fun row => if condition row then row.close status time else row).row id =
        some row' ∧ row.Like row' :=
    fun {id row} found => ⟨_, by change (b.rows.row id).map _ = _; rw [found]; rfl, like row⟩
  have seen : ∀ {t id version'},
      (b.rows.update fun row => if condition row then row.close status time else row).seen t id =
        some version' → ∃ version, b.rows.seen t id = some version ∧ version.Like version' := by
    intro t id version' found
    cases held : b.rows.mine t id with
    | none =>
        rw [Versions.seen_update_of_not_held _ held, Option.map_eq_some_iff] at found
        obtain ⟨version, found, rfl⟩ := found
        exact ⟨version, found, like version⟩
    | some own =>
        rw [Versions.seen_update_of_held _ held, Option.some.injEq] at found
        exact ⟨own, Versions.seen_of_held held, found ▸ .refl own⟩
  have sees : ∀ {t id version}, b.rows.seen t id = some version → ∃ version',
      (b.rows.update fun row => if condition row then row.close status time else row).seen t id =
        some version' ∧ version.Like version' := by
    intro t id version found
    cases held : b.rows.mine t id with
    | none =>
        refine ⟨_, ?_, like version⟩
        rw [Versions.seen_update_of_not_held _ held, found]
        rfl
    | some own =>
        rw [Versions.seen_of_held held, Option.some.injEq] at found
        exact ⟨own, Versions.seen_update_of_held _ held, found ▸ .refl own⟩
  exact {
    locked := balanced.locked.update _
    keyed := by
      intro id row' found
      obtain ⟨row, found, like⟩ := stored found
      exact (InvoiceRow.id_of_terms like.terms).trans (balanced.keyed found)
    versions := by
      intro t id version held
      obtain ⟨row, found, same⟩ := balanced.versions held
      obtain ⟨row', found', like⟩ := kept found
      exact ⟨row', found', same.trans like.terms.symm⟩
    idle := balanced.idle
    disjoint := balanced.disjoint
    known := by
      intro entry member isKnown
      obtain ⟨row, found⟩ := Option.isSome_iff_exists.mp (balanced.known entry member isKnown)
      obtain ⟨row', found', _⟩ := kept found
      exact Option.isSome_iff_exists.mpr ⟨row', found'⟩
    committed := by
      intro id row' found
      obtain ⟨row, found, like⟩ := stored found
      obtain ⟨consistent, balance⟩ := balanced.committed found
      refine ⟨like.consistent consistent, ?_⟩
      rw [like.balance, balance]
      exact (credited_congr like.terms).symm
    running := by
      intro t book opened
      have progress := balanced.running opened
      exact {
        amounts := progress.amounts
        carried := progress.carried
        known := by
          intro entry member isKnown
          obtain ⟨row, found⟩ := Option.isSome_iff_exists.mp (progress.known entry member isKnown)
          obtain ⟨row', found', _⟩ := kept found
          exact Option.isSome_iff_exists.mpr ⟨row', found'⟩
        touched := by
          intro id row' found held
          obtain ⟨row, found, like⟩ := stored found
          exact (touches_congr like.terms).mpr (progress.touched found held)
        seen := by
          intro id version' found
          obtain ⟨version, found, like⟩ := seen found
          obtain ⟨consistent, balance⟩ := progress.seen found
          refine ⟨like.consistent consistent, ?_⟩
          rw [like.balance, balance, received_congr like.terms]
          exact congrArg (· + _) (credited_congr like.terms).symm
        reading := by
          intro reading current
          obtain ⟨carried, version, found, pays, terms, before, after⟩ := progress.reading current
          obtain ⟨version', found', like⟩ := sees found
          refine ⟨carried, version', found', (Payment.pays_congr like.terms).mpr pays,
            terms.trans like.terms.symm, fun uncredited => ?_, fun credited isPays => ?_⟩
          · obtain ⟨overpayment, unpaid⟩ := before uncredited
            exact ⟨like.overpayment.trans overpayment, fun wait => like.unpaid (unpaid wait)⟩
          · obtain ⟨overpayment, unpaid⟩ := after credited isPays
            exact ⟨like.overpayment.trans overpayment, like.unpaid unpaid⟩ } }

end Balanced

section Own

variable {b : Books τ} {t : τ} {book : Book}

/-- The other transactions stay disjoint from one that keeps its call. -/
theorem Balanced.others (balanced : b.Balanced) (opened : b.books t = some book) {book' : Book}
    (call : book'.call = book.call) :
    ∀ u other, u ≠ t → b.books u = some other → book'.call.Disjoint other.call := by
  intro u other unlike found
  rw [call]
  exact balanced.disjoint unlike.symm opened found

variable [DecidableEq τ]

/-- A payment transaction begins. -/
theorem Balanced.begin (balanced : b.Balanced) {call : PaymentCall} (closed : b.books t = none)
    (amounts : ∀ payment ∈ call.payments, 0 ≤ payment.amount)
    (disjoint : ∀ u book, u ≠ t → b.books u = some book → call.Disjoint book.call) :
    (b.setBook t (some (.begun call))).Balanced := by
  refine balanced.own rfl rfl rfl rfl (fun _ _ => rfl) balanced.locked
    (fun _ _ => balanced.versions) (fun none => by cases none) ?_ ?_
  · rintro _ same
    cases same
    exact disjoint
  · rintro _ same
    cases same
    exact {
      amounts := amounts
      carried := fun _ member => by cases member
      known := fun _ member => by cases member
      touched := by
        intro id row _ held
        change (b.rows.mine t id).isSome at held
        rw [balanced.idle closed] at held
        cases held
      seen := by
        intro id version found
        change b.rows.seen t id = some version at found
        rw [Versions.seen_of_not_held (balanced.idle closed id)] at found
        obtain ⟨consistent, balance⟩ := balanced.committed found
        refine ⟨consistent, ?_⟩
        change version.balance + 0 = b.credited version + 0
        rw [balance]
      reading := fun current => by cases current }

/-- A payment is looked up. -/
theorem Balanced.look (balanced : b.Balanced) {payment : Payment} {time : Time}
    (opened : b.books t = some book) (settled : Reading.Settled book.reading)
    (carried : payment ∈ book.call.payments) :
    (b.setBook t (some { book with
      looked := book.looked ++ [(payment, (b.rows.seen t payment.invoiceID).isSome)]
      reading := (b.payable t payment).map fun row => ⟨payment, row, time, false⟩ })).Balanced := by
  have progress := balanced.running opened
  have payable : ∀ {row}, b.payable t payment = some row ↔
      b.rows.seen t payment.invoiceID = some row ∧ payment.Pays b.currencies row := by
    intro row
    rw [Books.payable, Option.filter_eq_some_iff, Bool.and_eq_true, decide_eq_true_eq,
      decide_eq_true_eq, Payment.Pays]
    constructor
    · rintro ⟨found, currency, recipient⟩
      exact ⟨found, (balanced.key_seen found).symm, currency, recipient.symm⟩
    · rintro ⟨found, _, currency, recipient⟩
      exact ⟨found, currency, recipient.symm⟩
  refine balanced.own rfl rfl rfl rfl (fun _ _ => rfl) balanced.locked
    (fun _ _ => balanced.versions) (fun none => by cases none) ?_ ?_
  · rintro _ same
    cases same
    exact balanced.others opened rfl
  · rintro _ same
    cases same
    exact {
      amounts := progress.amounts
      carried := by
        intro entry member
        obtain member | member := List.mem_append.mp member
        · exact progress.carried entry member
        · rw [List.mem_singleton.mp member]
          exact carried
      known := by
        intro entry member isKnown
        obtain member | member := List.mem_append.mp member
        · exact progress.known entry member isKnown
        · rw [List.mem_singleton] at member
          subst member
          obtain ⟨version, found⟩ := Option.isSome_iff_exists.mp isKnown
          exact Option.isSome_iff_exists.mpr (balanced.locked.stored_of_seen found)
      touched := progress.touched
      seen := by
        intro id version found
        change b.rows.seen t id = some version at found
        obtain ⟨consistent, balance⟩ := progress.seen found
        refine ⟨consistent, ?_⟩
        rw [Book.pending_of_settled settled, add_zero] at balance
        change version.balance + Book.pending _ id = b.credited version +
          received b.currencies (book.looked ++ [_]) version
        rw [received_append, received_singleton, balance, add_assoc, add_left_cancel_iff,
          add_left_cancel_iff]
        -- What is looked up is pending, if it pays this invoice.
        by_cases here : payment.invoiceID = id
        · subst here
          by_cases pays : payment.Pays b.currencies version
          · rw [if_pos ⟨by rw [found]; rfl, pays⟩]
            unfold Book.pending
            rw [payable.mpr ⟨found, pays⟩]
            exact if_pos ⟨rfl, rfl⟩
          · rw [if_neg fun holds => pays holds.2]
            unfold Book.pending
            cases found' : b.payable t payment with
            | none => rfl
            | some row =>
                obtain ⟨seen, pays'⟩ := payable.mp found'
                rw [found, Option.some.injEq] at seen
                exact absurd (seen ▸ pays') pays
        · rw [if_neg fun holds => here (holds.2.1.trans (balanced.key_seen found))]
          unfold Book.pending
          cases b.payable t payment with
          | none => rfl
          | some row => exact if_neg fun holds => here holds.1
      reading := by
        intro reading current
        obtain ⟨row, found, rfl⟩ := Option.map_eq_some_iff.mp current
        obtain ⟨seen, pays⟩ := payable.mp found
        refine ⟨carried, row, seen, pays, rfl, fun _ => ⟨rfl, fun waiting => ?_⟩,
          fun credited => by cases credited⟩
        rw [waiting]
        decide }

/-- What a transaction writes of one invoice: the version it reads of another
invoice stays. -/
theorem Balanced.write (balanced : b.Balanced) (opened : b.books t = some book) {id : InvoiceID}
    {version : InvoiceRow} {f : InvoiceRow → InvoiceRow} {book' : Book}
    (free : (b.rows.seen t id).isSome → ∀ u, u ≠ t → b.rows.mine u id = none)
    (found : b.rows.seen t id = some version) (touches : book.Touches b.currencies version)
    (terms : (f version).terms = version.terms) (call : book'.call = book.call)
    (looked : book'.looked = book.looked)
    (pending : ∀ other, other ≠ id → book'.pending other = book.pending other)
    (consistent : (f version).Consistent)
    (balance : (f version).balance + book'.pending id = version.balance + book.pending id)
    (reading : ∀ {reading}, book'.reading = some reading →
      reading.payment.invoiceID = id ∧ reading.payment ∈ book.call.payments ∧
      reading.payment.Pays b.currencies version ∧ reading.row.terms = version.terms ∧
      reading.credited = true ∧ (reading.pays = true →
        (f version).overpayment = reading.row.overpayment + reading.payment.amount ∧
          (f version).status ≠ .paid)) :
    Books.Balanced { b.setBook t (some book') with rows := b.rows.rewrite t id f } := by
  have progress := balanced.running opened
  have here : (b.rows.rewrite t id f).seen t id = some (f version) :=
    Versions.seen_of_held (by rw [Versions.mine_rewrite_self, found]; rfl)
  refine balanced.own (c := { b.setBook t (some book') with rows := b.rows.rewrite t id f })
    rfl rfl rfl rfl (fun u other => Versions.mine_rewrite_of_ne other)
    (balanced.locked.rewrite f free) ?_ (fun none => by cases none) ?_ ?_
  · intro other written held
    obtain before | ⟨_, rfl, before, seen, rfl⟩ := Versions.mine_rewrite_cases held
    · exact balanced.versions before
    · rw [found, Option.some.injEq] at seen
      subst seen
      obtain ⟨row, stored⟩ := balanced.locked.stored_of_seen found
      exact ⟨row, stored, terms.trans (balanced.terms_seen stored found)⟩
  · rintro _ same
    cases same
    exact balanced.others opened call
  · rintro _ same
    cases same
    exact {
      amounts := call ▸ progress.amounts
      carried := looked ▸ call ▸ progress.carried
      known := looked ▸ progress.known
      touched := by
        intro other row stored held
        unfold Book.Touches
        rw [call]
        by_cases same : other = id
        · subst same
          exact (touches_congr (balanced.terms_seen stored found)).mp touches
        · change ((b.rows.rewrite t id f).mine t other).isSome at held
          rw [Versions.mine_rewrite_of_key same] at held
          exact progress.touched stored held
      seen := by
        intro other written seen
        rw [looked]
        by_cases same : other = id
        · subst same
          change (b.rows.rewrite t other f).seen t other = some written at seen
          rw [here, Option.some.injEq] at seen
          subst seen
          refine ⟨consistent, ?_⟩
          rw [balance, (progress.seen found).2, received_congr terms]
          exact congrArg (· + _) (credited_congr terms).symm
        · change (b.rows.rewrite t id f).seen t other = some written at seen
          rw [Versions.seen_rewrite_of_key same] at seen
          rw [pending other same]
          exact progress.seen seen
      reading := by
        intro reading' current
        obtain ⟨rfl, carried, pays, same, credited, paying⟩ := reading current
        refine ⟨call ▸ carried, f version, here, (Payment.pays_congr terms).mpr pays,
          same.trans terms.symm, fun uncredited => ?_, fun _ => paying⟩
        rw [credited] at uncredited
        cases uncredited }

/-- The payment that has been looked up is credited. -/
theorem Balanced.credit (balanced : b.Balanced) {reading : Reading} (opened : b.books t = some book)
    (current : book.reading = some reading) (fresh : reading.credited = false)
    (free : (b.rows.seen t reading.payment.invoiceID).isSome →
      ∀ u, u ≠ t → b.rows.mine u reading.payment.invoiceID = none) :
    Books.Balanced { b.setBook t (some { book with
        reading := some { reading with credited := true } }) with
      rows := b.rows.rewrite t reading.payment.invoiceID
        (.credit (reading.row.overpayment + reading.payment.amount) reading.now) } := by
  have progress := balanced.running opened
  obtain ⟨carried, version, found, pays, same, before, _⟩ := progress.reading current
  obtain ⟨overpayment, unpaid⟩ := before fresh
  obtain ⟨consistent, _⟩ := progress.seen found
  have amount := progress.amounts _ carried
  have pending : book.pending reading.payment.invoiceID = reading.payment.amount := by
    unfold Book.pending
    rw [current]
    exact if_pos ⟨rfl, fresh⟩
  refine balanced.write opened free found ⟨_, carried, pays⟩ rfl rfl rfl ?_ ?_ ?_ ?_
  · intro other unlike
    unfold Book.pending
    rw [current]
    exact (if_neg fun holds => unlike holds.1.symm).trans
      (if_neg fun holds => unlike holds.1.symm).symm
  · exact {
      paid := consistent.paid
      unpaid := consistent.unpaid
      overpayment := by
        have least := consistent.overpayment
        rw [overpayment] at least
        exact Int.add_nonneg least amount }
  · have settled : Book.pending { book with reading := some { reading with credited := true } }
        reading.payment.invoiceID = 0 := if_neg fun holds => by cases holds.2
    rw [settled, pending, InvoiceRow.balance, InvoiceRow.balance, overpayment, add_zero]
    exact add_right_comm ..
  · rintro _ same'
    cases same'
    refine ⟨rfl, carried, pays, same, rfl, fun isPays => ⟨rfl, unpaid ?_⟩⟩
    simp only [Reading.pays, Bool.and_eq_true, decide_eq_true_eq] at isPays
    exact isPays.1.1

/-- The payment that has been credited makes its invoice paid. -/
theorem Balanced.pay (balanced : b.Balanced) {reading : Reading} (opened : b.books t = some book)
    (current : book.reading = some reading) (credited : reading.credited = true)
    (pays : reading.pays = true)
    (free : (b.rows.seen t reading.payment.invoiceID).isSome →
      ∀ u, u ≠ t → b.rows.mine u reading.payment.invoiceID = none) :
    Books.Balanced { b.setBook t (some { book with
        reading := none
        paid := book.paid ++ [reading.payment.invoiceID] }) with
      rows := b.rows.rewrite t reading.payment.invoiceID
        (.pay reading.now reading.payment.paidBy
          (reading.row.overpayment + reading.payment.amount - reading.row.amount)
          reading.payment.txHash) } := by
  have progress := balanced.running opened
  obtain ⟨carried, version, found, isFor, same, _, after⟩ := progress.reading current
  obtain ⟨overpayment, unpaid⟩ := after credited pays
  have pending : ∀ id, book.pending id = 0 := by
    intro id
    unfold Book.pending
    rw [current]
    exact if_neg fun holds => by rw [credited] at holds; cases holds.2
  simp only [Reading.pays, Bool.and_eq_true, decide_eq_true_eq, Bool.not_eq_true',
    decide_eq_false_iff_not, not_lt] at pays
  obtain ⟨⟨_, inTime⟩, enough⟩ := pays
  refine balanced.write opened free found ⟨_, carried, isFor⟩ rfl rfl rfl
    (fun other _ => (pending other).symm) ?_ ?_ (fun none => by cases none)
  · exact {
      paid := fun _ => ⟨rfl, rfl, _, rfl, (timestamptz_le _).trans
        ((InvoiceRow.expireAt_of_terms same) ▸ inTime)⟩
      unpaid := fun unpaid => absurd rfl unpaid
      overpayment := Int.sub_nonneg_of_le enough }
  · rw [pending, InvoiceRow.balance_of_unpaid unpaid, overpayment]
    change reading.row.overpayment + reading.payment.amount - reading.row.amount +
      version.amount + 0 = _
    rw [InvoiceRow.amount_of_terms same, add_zero, add_zero]
    exact Int.sub_add_cancel ..

/-- The other transactions read what they have read before of the invoices that the
committed one does not touch. -/
theorem Balanced.seen_commit (balanced : b.Balanced) (opened : b.books t = some book) {u : τ}
    (other : u ≠ t) {id : InvoiceID} {row : InvoiceRow} (found : b.rows.row id = some row)
    (untouched : ¬ book.Touches b.currencies row) :
    (b.rows.commit t).seen u id = b.rows.seen u id := by
  obtain ⟨free, _⟩ := (balanced.running opened).untouched found untouched
  rw [Versions.seen, Versions.seen, Versions.row_commit, Versions.seen_of_not_held free,
    Versions.mine_commit_of_ne other]

/-- A transaction commits. -/
theorem Balanced.commit (balanced : b.Balanced) (opened : b.books t = some book)
    (settled : Reading.Settled book.reading) :
    Books.Balanced { b.setBook t none with
      rows := b.rows.commit t
      calls := b.calls ++ [⟨book.call, book.looked⟩]
      changes := b.changes ++ b.settles t book.paid } := by
  have progress := balanced.running opened
  have looked : (b.calls ++ [(⟨book.call, book.looked⟩ : CommittedCall)]).flatMap
      CommittedCall.looked =
      b.calls.flatMap CommittedCall.looked ++ book.looked := by
    simp
  have credited : ∀ row, received b.currencies
      ((b.calls ++ [(⟨book.call, book.looked⟩ : CommittedCall)]).flatMap CommittedCall.looked) row =
        b.credited row + received b.currencies book.looked row := by
    intro row
    rw [looked, received_append]
    rfl
  have own : ∀ {id version}, b.rows.seen t id = some version → version.Consistent ∧
      version.balance = b.credited version + received b.currencies book.looked version := by
    intro id version found
    obtain ⟨consistent, balance⟩ := progress.seen found
    rw [Book.pending_of_settled settled, add_zero] at balance
    exact ⟨consistent, balance⟩
  have stored : ∀ {u id}, u ≠ t → (b.rows.mine u id).isSome →
      (b.rows.commit t).row id = b.rows.row id :=
    fun other held => balanced.locked.row_commit_of_held other held
  exact {
    locked := balanced.locked.commit t
    keyed := balanced.key_seen
    versions := by
      intro u id version held
      have other : u ≠ t := by
        rintro rfl
        rw [Versions.mine_commit_self] at held
        cases held
      rw [Versions.mine_commit_of_ne other] at held
      obtain ⟨row, found, same⟩ := balanced.versions held
      exact ⟨row, (stored other (by rw [held]; rfl)).trans found, same⟩
    idle := by
      intro u closed id
      by_cases same : u = t
      · subst same
        exact congrFun Versions.mine_commit_self id
      · change Function.update b.books t none u = none at closed
        rw [Function.update_of_ne same] at closed
        exact (congrFun (Versions.mine_commit_of_ne same) id).trans (balanced.idle closed id)
    disjoint := by
      intro u v first second unlike found found'
      obtain ⟨_, none⟩ | ⟨_, before⟩ := books_setBook found
      · cases none
      · obtain ⟨_, none⟩ | ⟨_, before'⟩ := books_setBook found'
        · cases none
        · exact balanced.disjoint unlike before before'
    known := by
      intro entry member isKnown
      rw [looked] at member
      refine Versions.isSome_seen ?_
      obtain member | member := List.mem_append.mp member
      · exact balanced.known entry member isKnown
      · exact progress.known entry member isKnown
    committed := by
      intro id version found
      obtain ⟨consistent, balance⟩ := own found
      exact ⟨consistent, balance.trans (credited version).symm⟩
    running := by
      intro u current found
      obtain ⟨_, none⟩ | ⟨other, before⟩ := books_setBook found
      · cases none
      have progress' := balanced.running before
      exact {
        amounts := progress'.amounts
        carried := progress'.carried
        known := fun entry member isKnown =>
          Versions.isSome_seen (progress'.known entry member isKnown)
        touched := by
          intro id row found held
          change ((b.rows.commit t).mine u id).isSome at held
          rw [Versions.mine_commit_of_ne other] at held
          change (b.rows.commit t).row id = some row at found
          rw [stored other held] at found
          exact progress'.touched found held
        seen := by
          intro id version found
          change (b.rows.commit t).seen u id = some version at found
          obtain ⟨row, before'⟩ : ∃ row, b.rows.row id = some row := by
            obtain ⟨_, committed⟩ := (balanced.locked.commit t).stored_of_seen found
            exact balanced.locked.stored_of_seen committed
          change version.Consistent ∧ version.balance + current.pending id =
            received b.currencies _ version + received b.currencies current.looked version
          rw [credited]
          by_cases touches : book.Touches b.currencies row
          -- What the commit has credited is not the other transaction's to credit.
          · have untouched := balanced.touches_once other.symm opened before touches
            obtain ⟨free, nothing⟩ := progress'.untouched before' untouched
            rw [Versions.seen_commit_of_not_held other free] at found
            obtain ⟨consistent, balance⟩ := own found
            have none : received b.currencies current.looked version = 0 :=
              (received_congr (balanced.terms_seen before' found)).trans nothing
            refine ⟨consistent, ?_⟩
            rw [balanced.pending_of_untouched before before' untouched, none, add_zero, add_zero,
              balance]
          · rw [balanced.seen_commit opened other before' touches] at found
            obtain ⟨consistent, balance⟩ := progress'.seen found
            have none : received b.currencies book.looked version = 0 :=
              (received_congr (balanced.terms_seen before' found)).trans
                (progress.untouched before' touches).2
            refine ⟨consistent, ?_⟩
            rw [none, add_zero, balance]
        reading := by
          intro reading open'
          obtain ⟨carried, version, found, pays, rest⟩ := progress'.reading open'
          refine ⟨carried, version, ?_, pays, rest⟩
          obtain ⟨row, found'⟩ := balanced.locked.stored_of_seen found
          change (b.rows.commit t).seen u _ = some version
          rw [balanced.seen_commit opened other found', found]
          refine balanced.touches_once other before opened ⟨_, carried, ?_⟩
          exact (Payment.pays_congr (balanced.terms_seen found' found)).mp pays } }

/-- A transaction is dropped. -/
theorem Balanced.drop (balanced : b.Balanced) (t : τ) :
    Books.Balanced { b.setBook t none with rows := b.rows.release t } := by
  refine balanced.own (c := { b.setBook t none with rows := b.rows.release t }) rfl rfl rfl rfl
    (fun _ other => Versions.mine_release_of_ne other) (balanced.locked.release t) ?_
    (fun _ id => congrFun Versions.mine_release_self id) (fun _ none => by cases none)
    (fun _ none => by cases none)
  intro id version held
  rw [Versions.mine_release_self] at held
  cases held

/-- **Every step that begins transactions exclusively keeps the balances.** -/
theorem Balanced.step {b' : Books τ} (balanced : b.Balanced) (step : Step exclusive b b') :
    b'.Balanced := by
  cases step with
  | create new allowed => exact balanced.create new allowed
  | close terminal waiting _ _ _ => exact balanced.close terminal waiting
  | begin closed allowed => exact balanced.begin closed allowed.1 allowed.2
  | @look t book payment time opened settled next =>
      refine balanced.look opened settled ?_
      obtain ⟨rest, all⟩ := next
      refine PaymentCall.mem_tracked b.currencies ?_
      rw [all]
      exact List.mem_append_right _ (List.mem_cons_self ..)
  | credit opened current fresh free => exact balanced.credit opened current fresh free
  | pay opened current credited pays free => exact balanced.pay opened current credited pays free
  | commit opened settled _ => exact balanced.commit opened settled
  | drop t => exact balanced.drop t
  | stop =>
      exact {
        locked := .idle _
        keyed := balanced.keyed
        versions := fun held => by cases held
        idle := fun _ _ => rfl
        disjoint := fun _ opened => by cases opened
        known := balanced.known
        committed := balanced.committed
        running := fun opened => by cases opened }

/-- A transaction commits when it has looked up its tracked payments. -/
theorem Step.looked {G : Guard τ} {b' : Books τ}
    (complete : ∀ done ∈ b.calls, done.looked.map Prod.fst = done.call.tracked b.currencies)
    (step : Step G b b') :
    ∀ done ∈ b'.calls, done.looked.map Prod.fst = done.call.tracked b'.currencies := by
  cases step with
  | commit _ _ all =>
      intro done member
      obtain member | member := List.mem_append.mp member
      · exact complete done member
      · rw [List.mem_singleton.mp member]
        exact all
  | create _ _ => exact complete
  | close _ _ _ _ _ => exact complete
  | begin _ _ => exact complete
  | look _ _ _ => exact complete
  | credit _ _ _ _ => exact complete
  | pay _ _ _ _ _ => exact complete
  | drop _ => exact complete
  | stop => exact complete

end Own

end Books

end SpiceHarvester
