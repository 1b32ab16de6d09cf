import SpiceHarvester.Db.Currencies
import SpiceHarvester.Json.Strip

/-!
# `pkg/db/invoices.go`

The functions of the file as programs over their statements. An error of a
statement ends the function, unless the function looks at it; `attempt` stands
where it does.
-/

set_option autoImplicit false

namespace SpiceHarvester

open Interleaving

/-! ## Invoices -/

/-- `marshalJsonForDb`, field by field: U+0000 goes from the keys, and its escape from
the texts. On the text of a whole value it is `Json.marshalJsonForDb`. -/
def marshalJsonForDb (fields : RawMap) : RawMap :=
  fields.map fun field => (stripString field.1, field.2.replace "\\u0000" "")

/-- The row that `saveInvoice` inserts. -/
def Invoice.row (invoice : Invoice) (currencyID : UUID) : InvoiceRow where
  id := invoice.id
  currency := currencyID
  createdAt := timestamptz invoice.createdAt
  expireAt := timestamptz invoice.expireAt
  updatedAt := timestamptz invoice.updatedAt
  paidAt := none
  amount := invoice.amount
  overpayment := invoice.overpayment
  status := invoice.status
  recipient := invoice.recipient
  paidBy := none
  txHash := none
  privateInfo := marshalJsonForDb invoice.privateInfo
  metadata := marshalJsonForDb invoice.metadata
  version := invoice.version

/-- The invoice that `GetInvoice` scans from a row. -/
def InvoiceRow.invoice (row : InvoiceRow) (currency : Currency) : Invoice where
  id := row.id
  recipient := row.recipient
  status := row.status
  amount := row.amount
  overpayment := row.overpayment
  currency := currency
  createdAt := row.createdAt
  expireAt := row.expireAt
  updatedAt := row.updatedAt
  privateInfo := row.privateInfo
  metadata := row.metadata
  paidBy := row.paidBy
  paidAt := row.paidAt
  txHash := row.txHash
  version := row.version

/-- `GetInvoice`, which depends on the currencies only through `decode`. -/
def getInvoice [Libraries] (id : InvoiceID) : Action Invoice := do
  let row ← queryRow (.selectInvoice id)
  let currency ← getCurrencyByID row.currency
  return row.invoice currency

section Invoices

variable [Libraries]

/-- `saveInvoice`. -/
def saveInvoice (invoice : Invoice) (isNotify : Bool) : Action Unit := do
  let currencyID ← getCurrencyID invoice.currency
  if isNotify then
    perform (.insertNotification (invoice.row currencyID))
  else
    perform (.insertInvoice (invoice.row currencyID))

/-- `CreateInvoice`. -/
def createInvoice (invoice : Invoice) : Action Unit := do
  saveInvoice invoice false
  saveInvoice invoice true

/-- `CancelInvoice`. -/
def cancelInvoice (id : InvoiceID) : Action Invoice := do
  let now ← perform .now
  let affected : ℕ ← perform (.cancelInvoice now id)
  if affected = 0 then
    Prog.fail .notFound
  else
    let invoice ← getInvoice id
    saveInvoice invoice true
    return invoice

/-- The body of the last loop of `MarkExpired`. -/
def notifyExpired (id : InvoiceID) : Action Unit := do
  let invoice ← getInvoice id
  saveInvoice invoice true

/-- `MarkExpired`. -/
def markExpired : Action Unit := do
  let now ← perform .now
  let ids : List InvoiceID ← perform (.markExpired now)
  ids.forM notifyExpired

/-- `getInvoicesByIDs`. -/
def getInvoicesByIDs (ids : List InvoiceID) : Action (List Invoice) := ids.mapM getInvoice

/-- `GetInvoiceNotifications`. -/
def getInvoiceNotifications (limit : ℕ) : Action (List Invoice) := do
  let ids : List InvoiceID ← perform (.selectNotifications limit)
  getInvoicesByIDs ids

/-- `DeleteInvoiceNotification`. -/
def deleteInvoiceNotification (id : InvoiceID) : Action Unit :=
  perform (.deleteNotification id)

/-! ## Payments -/

/-- The invoice that `processPayment` returns for the outbox. -/
def paidInvoice (row : InvoiceRow) (payment : Payment) (now : Time) : Invoice where
  id := payment.invoiceID
  recipient := payment.recipient
  status := .paid
  amount := row.amount
  overpayment := row.overpayment + payment.amount - row.amount
  currency := payment.currency
  createdAt := row.createdAt
  expireAt := row.expireAt
  updatedAt := now
  privateInfo := row.privateInfo
  metadata := row.metadata
  paidBy := some payment.paidBy
  paidAt := some now
  txHash := none
  version := row.version + 2

/-- `processPayment`, after its `SELECT` has found the invoice. -/
def creditPayment (payment : Payment) (now : Time) (row : InvoiceRow) :
    Action (List Invoice) := do
  perform (.acceptKey payment.paidBy)
  perform (.setOverpayment (row.overpayment + payment.amount) now payment.invoiceID)
  if row.status ≠ .waiting ∨ row.expireAt < now then
    return []
  else if row.overpayment + payment.amount < row.amount then
    return []
  else
    perform (.setPaid now payment.paidBy (row.overpayment + payment.amount - row.amount)
      payment.txHash payment.invoiceID)
    return [paidInvoice row payment now]

/-- `processPayment`. -/
def processPayment (payment : Payment) : Action (List Invoice) := do
  match ← (getCurrencyID payment.currency).attempt with
  | .error .notFound => return []
  | .error error => Prog.fail error
  | .ok currencyID =>
      let now ← perform .now
      match ← (perform (.selectForPayment currencyID payment now)).attempt with
      | .error .noRows => return []
      | .error error => Prog.fail error
      | .ok row => creditPayment payment now row

/-- The loop of `SavePayments` over the payments. -/
def processPayments : List Payment → Action (List Invoice)
  | [] => return []
  | payment :: rest => do
      let paid ← processPayment payment
      let others ← processPayments rest
      return paid ++ others

/-- What `SavePayments` records of the transaction: the parsing error, or the
payments. -/
def recordPayments (call : PaymentCall) : Action (List Invoice) :=
  match call.parsingError with
  | some error => do
      perform (.setProcessingError error call.account call.txLt)
      return []
  | none => processPayments call.payments

/-- What `SavePayments` does between `BEGIN` and `COMMIT`. -/
def writePayments (call : PaymentCall) : Action (List Invoice) := do
  let paid ← recordPayments call
  perform (.setLastProcessed call.txLt call.account)
  return paid

/-- `SavePayments` without the deferred rollback. -/
def commitPayments (call : PaymentCall) : Action Unit := do
  perform (.begin call)
  let paid ← writePayments call
  perform .commit
  paid.forM fun invoice => saveInvoice invoice true

/-- `SavePayments`. The deferred rollback runs on every way out; after a commit
it does nothing. Where `BEGIN` fails there is no rollback to run, but the driver
drops the connection, which comes to the same. -/
def savePayments (call : PaymentCall) : Action Unit := do
  let result ← (commitPayments call).attempt
  perform .rollback
  .ret result

end Invoices

end SpiceHarvester
