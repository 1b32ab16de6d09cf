import SpiceHarvester.Db.Currencies
import SpiceHarvester.Sql.Versions

/-!
# The books of the invoices

What the service does to invoices, apart from everything else it does. The books
are the stored invoices with the row versions of the payment transactions in
progress, and of each such transaction the payments it has looked up and the one
it works on. Nine things happen to them (`Books.Step`): an invoice is created,
the waiting invoices of some condition are closed, a payment transaction begins,
looks a payment up, credits it, makes its invoice paid, commits or is dropped, or
the process stops.

A `Guard` says which invoices may be created, when invoices may be closed and
when a payment transaction may begin.
-/

set_option autoImplicit false

namespace SpiceHarvester

open Sql

variable [Libraries]

/-! ## Payment transactions -/

/-- A payment transaction in progress. -/
structure Book where
  call : PaymentCall
  looked : List (Payment × Bool)
  reading : Option Reading
  paid : List InvoiceID

def Book.begun (call : PaymentCall) : Book := ⟨call, [], none, []⟩

/-! ## The books -/

structure Books (τ : Type) where
  currencies : Currencies
  rows : Versions τ InvoiceID InvoiceRow
  books : τ → Option Book
  calls : List CommittedCall
  changes : List Snapshot

/-- What the outside may do to the books. -/
structure Guard (τ : Type) where
  creates : InvoiceRow → Prop
  closes : Books τ → (InvoiceRow → Bool) → Prop
  begins : Books τ → τ → PaymentCall → Prop

namespace Books

variable {τ : Type}

/-- The invoice that a payment pays, as a transaction reads it. -/
def payable (b : Books τ) (t : τ) (payment : Payment) : Option InvoiceRow :=
  (b.rows.seen t payment.invoiceID).filter fun row =>
    decide (b.currencies.of payment.currency = some row.currency) &&
      decide (row.recipient = payment.recipient)

/-- The statuses that the payments of a transaction lead to, at its commit. -/
def settles (b : Books τ) (t : τ) (paid : List InvoiceID) : List Snapshot :=
  paid.map fun id => ⟨id, .paid, ((b.rows.seen t id).map InvoiceRow.version).getD 0⟩

variable [DecidableEq τ]

def setBook (b : Books τ) (t : τ) (book : Option Book) : Books τ :=
  { b with books := Function.update b.books t book }

/-- One step of the books. -/
inductive Step (G : Guard τ) (b : Books τ) : Books τ → Prop where
  | create {row : InvoiceRow} (new : b.rows.row row.id = none) (allowed : G.creates row) :
      Step G b { b with
        rows := b.rows.insert row.id row
        changes := b.changes ++ [row.snapshot] }
  | close {status : InvoiceStatus} {time : Time} {condition : InvoiceRow → Bool}
      {closed : List Snapshot} (terminal : status = .cancelled ∨ status = .expired)
      (waiting : ∀ row, condition row = true → row.status = .waiting)
      (free : ∀ t id row, b.rows.row id = some row → condition row = true → b.rows.mine t id = none)
      (hit : ∀ change, change ∈ closed ↔ ∃ row, b.rows.row change.id = some row ∧
        condition row = true ∧ change = ⟨row.id, status, row.version + 1⟩)
      (allowed : G.closes b condition) :
      Step G b { b with
        rows := b.rows.update fun row => if condition row then row.close status time else row
        changes := b.changes ++ closed }
  | begin {t : τ} {call : PaymentCall} (closed : b.books t = none) (allowed : G.begins b t call) :
      Step G b (b.setBook t (some (.begun call)))
  | look {t : τ} {book : Book} {payment : Payment} {time : Time} (opened : b.books t = some book)
      (settled : Reading.Settled book.reading)
      (next : ∃ rest, book.call.tracked b.currencies = book.looked.map Prod.fst ++ payment :: rest) :
      Step G b (b.setBook t (some { book with
        looked := book.looked ++ [(payment, (b.rows.seen t payment.invoiceID).isSome)]
        reading := (b.payable t payment).map fun row => ⟨payment, row, time, false⟩ }))
  | credit {t : τ} {book : Book} {reading : Reading} (opened : b.books t = some book)
      (current : book.reading = some reading) (fresh : reading.credited = false)
      (free : (b.rows.seen t reading.payment.invoiceID).isSome →
        ∀ u, u ≠ t → b.rows.mine u reading.payment.invoiceID = none) :
      Step G b { b.setBook t (some { book with
          reading := some { reading with credited := true } }) with
        rows := b.rows.rewrite t reading.payment.invoiceID
          (.credit (reading.row.overpayment + reading.payment.amount) reading.now) }
  | pay {t : τ} {book : Book} {reading : Reading} (opened : b.books t = some book)
      (current : book.reading = some reading) (credited : reading.credited = true)
      (pays : reading.pays = true)
      (free : (b.rows.seen t reading.payment.invoiceID).isSome →
        ∀ u, u ≠ t → b.rows.mine u reading.payment.invoiceID = none) :
      Step G b { b.setBook t (some { book with
          reading := none
          paid := book.paid ++ [reading.payment.invoiceID] }) with
        rows := b.rows.rewrite t reading.payment.invoiceID
          (.pay reading.now reading.payment.paidBy
            (reading.row.overpayment + reading.payment.amount - reading.row.amount)
            reading.payment.txHash) }
  | commit {t : τ} {book : Book} (opened : b.books t = some book)
      (settled : Reading.Settled book.reading)
      (complete : book.looked.map Prod.fst = book.call.tracked b.currencies) :
      Step G b { b.setBook t none with
        rows := b.rows.commit t
        calls := b.calls ++ [⟨book.call, book.looked⟩]
        changes := b.changes ++ b.settles t book.paid }
  | drop (t : τ) : Step G b { b.setBook t none with rows := b.rows.release t }
  | stop : Step G b { b with rows := .idle b.rows.row, books := fun _ => none }

end Books

end SpiceHarvester
