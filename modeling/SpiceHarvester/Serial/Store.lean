import SpiceHarvester.Db.Frame

/-!
# The stored invoices and keys

What the operations of the service come to when each is taken as one step: functions
on the tables of the invoices and of the keys. A payment is received, an invoice is
stored, waiting invoices are closed, a key is offered, and the keys that nobody has
accepted are purged.
-/

set_option autoImplicit false

namespace SpiceHarvester

open Sql

/-- A payment is credited to the invoice it is for. It pays the invoice when that is
waiting, has not expired and gets its amount. -/
def InvoiceRow.receive (time : Time) (payment : Payment) (row : InvoiceRow) : InvoiceRow :=
  let credited := row.credit (row.overpayment + payment.amount) time
  if row.status ≠ .waiting ∨ row.expireAt < time then credited
  else if row.overpayment + payment.amount < row.amount then credited
  else
    credited.pay time payment.paidBy (row.overpayment + payment.amount - row.amount) payment.txHash

@[simp] theorem InvoiceRow.id_receive (time : Time) (payment : Payment) (row : InvoiceRow) :
    (row.receive time payment).id = row.id := by
  unfold receive
  dsimp only
  split
  · rfl
  · split <;> rfl

@[simp] theorem InvoiceRow.terms_receive (time : Time) (payment : Payment) (row : InvoiceRow) :
    (row.receive time payment).terms = row.terms := by
  unfold receive
  dsimp only
  split
  · rfl
  · split <;> rfl

/-- The payments that `SavePayments` goes through: none beside a parsing error. -/
def PaymentCall.recorded (call : PaymentCall) : List Payment :=
  match call.parsingError with
  | some _ => []
  | none => call.payments

variable [Libraries]

/-- The tables that the operations on invoices and keys work on. -/
structure Store where
  currencies : Currencies
  invoices : Table InvoiceRow.id
  keys : Table KeyRow.address

namespace Store

/-- The invoice that a payment is for. -/
def payableBy (s : Store) (payment : Payment) : Option InvoiceRow :=
  (s.currencies.of payment.currency).bind fun currency => payable s.invoices currency payment

/-- `UPDATE payments.keys SET accepted = true WHERE address = $1 AND accepted = false`. -/
def accept (s : Store) (address : AccountID) : Store :=
  { s with
    keys := s.keys.update (fun row => decide (row.address = address) && !row.accepted)
      KeyRow.accept KeyRow.address_accept }

/-- A payment is credited, and the key of its sender accepted. -/
def credit (time : Time) (s : Store) (payment : Payment) : Store :=
  { s.accept payment.paidBy with
    invoices := s.invoices.update (fun row => decide (row.id = payment.invoiceID))
      (.receive time payment) (InvoiceRow.id_receive time payment) }

/-- A payment is received: it is credited when there is an invoice it is for. -/
def receive (time : Time) (s : Store) (payment : Payment) : Store :=
  match s.payableBy payment with
  | none => s
  | some _ => s.credit time payment

/-- The payments of a call are received one after the other. -/
def receiveAll (time : Time) (s : Store) (payments : List Payment) : Store :=
  payments.foldl (receive time) s

/-- An invoice is stored. Its currency must be stored and its ID must be new. -/
def create (s : Store) (row : InvoiceRow) : Store :=
  match s.currencies.table.find row.currency, s.invoices.insert? row with
  | some _, some invoices => { s with invoices := invoices }
  | _, _ => s

/-- The invoices of a condition are closed. -/
def close (s : Store) (status : InvoiceStatus) (time : Time) (condition : InvoiceRow → Bool) :
    Store :=
  { s with
    invoices := s.invoices.update condition (.close status time) (InvoiceRow.id_close _ _) }

/-- A key is stored, unless there is one of its account. -/
def offer (s : Store) (account : AccountID) (key : List UInt8) (time : Time) : Store :=
  match s.keys.insert? ⟨account, key, timestamptz time, false⟩ with
  | some keys => { s with keys := keys }
  | none => s

/-- The keys from before a time that have not been accepted are deleted. -/
def purge (s : Store) (before : Time) : Store :=
  { s with
    keys := s.keys.delete fun row => decide (row.createdAt < timestamptz before) && !row.accepted }

/-! ## What stays -/

variable (s : Store)

@[simp] theorem currencies_accept (address : AccountID) : (s.accept address).currencies = s.currencies :=
  rfl

@[simp] theorem currencies_receive (time : Time) (payment : Payment) :
    (s.receive time payment).currencies = s.currencies := by
  unfold receive
  split <;> rfl

@[simp] theorem currencies_receiveAll (time : Time) (payments : List Payment) :
    (s.receiveAll time payments).currencies = s.currencies := by
  induction payments generalizing s with
  | nil => rfl
  | cons first rest ih => exact (ih _).trans (s.currencies_receive time first)

@[simp] theorem currencies_create (row : InvoiceRow) : (s.create row).currencies = s.currencies := by
  unfold create
  split <;> rfl

@[simp] theorem keys_create (row : InvoiceRow) : (s.create row).keys = s.keys := by
  unfold create
  split <;> rfl

@[simp] theorem currencies_offer (account : AccountID) (key : List UInt8) (time : Time) :
    (s.offer account key time).currencies = s.currencies := by
  unfold offer
  split <;> rfl

@[simp] theorem invoices_offer (account : AccountID) (key : List UInt8) (time : Time) :
    (s.offer account key time).invoices = s.invoices := by
  unfold offer
  split <;> rfl

/-! ## The invoices that payments are for -/

variable {s}

/-- A payment that is received leaves the terms of every invoice. -/
theorem find_receive (time : Time) (payment : Payment) (key : InvoiceID) :
    ∃ f : InvoiceRow → InvoiceRow, (∀ row, (f row).terms = row.terms) ∧
      (s.receive time payment).invoices.find key = (s.invoices.find key).map f := by
  unfold receive
  split
  · exact ⟨id, fun _ => rfl, (congrFun Option.map_id _).symm⟩
  · refine ⟨_, fun row => ?_, Table.find_update _ _ (InvoiceRow.id_receive time payment) _⟩
    split
    · exact row.terms_receive time payment
    · rfl

/-- Whether there is an invoice that a payment is for does not depend on the payments
received before. -/
theorem isSome_payableBy_receive (time : Time) (first payment : Payment) :
    ((s.receive time first).payableBy payment).isSome = (s.payableBy payment).isSome := by
  obtain ⟨f, terms, found⟩ := s.find_receive time first payment.invoiceID
  unfold payableBy payable
  rw [currencies_receive, found]
  cases s.currencies.of payment.currency with
  | none => rfl
  | some currency =>
      cases s.invoices.find payment.invoiceID with
      | none => rfl
      | some row =>
          simp only [Option.bind_some, Option.map_some, Option.filter_some,
            InvoiceRow.currency_of_terms (terms row), InvoiceRow.recipient_of_terms (terms row)]
          split <;> rfl

end Store

/-- The tables of the state. -/
def World.store {τ : Type} (w : World τ) : Store := ⟨w.db.currencies, w.db.invoices, w.db.keys⟩

end SpiceHarvester
