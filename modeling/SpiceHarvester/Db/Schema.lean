import SpiceHarvester.Core
import SpiceHarvester.Sql.Table
import Mathlib.Data.Fintype.Defs

/-!
# The tables, the open transactions and the threads

The tables of `0001_init.up.sql` that the modelled functions read or write. A
text column that holds an account holds the account; the text matters only in
`payments.currencies`, where it is kept.

The state of the process is the database and, for each thread, what belongs to
that thread: its open transaction with the row versions written so far, and
the fields of the worker that runs on it. Beside this the state carries
observations that no function reads: which payments a call of `SavePayments`
has looked up, which status changes have been committed and which outbox rows
they are owed, what has been delivered. The properties of the service are
stated about them.
-/

set_option autoImplicit false

namespace SpiceHarvester

open Sql

/-! ## Rows -/

/-- A row of `payments.currencies`. -/
structure CurrencyRow where
  id : UUID
  type : CurrencyType
  info : String
  deriving DecidableEq

/-- `payments.currencies`, with both of its keys. Only `saveCurrency` inserts
rows, so that each is the row of some currency. -/
structure Currencies [Libraries] where
  table : Table CurrencyRow.id
  distinct : (table.rows.map fun row => (row.type, row.info)).Nodup
  saved : ∀ row ∈ table.rows, ∃ currency : Currency, row.type = currency.type ∧
    row.info = currency.info

/-- A row of `payments.invoices`. `version` counts the updates of the row. -/
structure InvoiceRow where
  id : InvoiceID
  currency : UUID
  createdAt : Time
  expireAt : Time
  updatedAt : Time
  paidAt : Option Time
  amount : ℤ
  overpayment : ℤ
  status : InvoiceStatus
  recipient : AccountID
  paidBy : Option AccountID
  txHash : Option Bits256
  privateInfo : RawMap
  metadata : RawMap
  version : ℕ
  deriving DecidableEq

/-- A version of an invoice, with the status it has. -/
structure Snapshot where
  id : InvoiceID
  status : InvoiceStatus
  version : ℕ
  deriving DecidableEq

def InvoiceRow.snapshot (row : InvoiceRow) : Snapshot := ⟨row.id, row.status, row.version⟩

/-- A row of `payments.invoice_notifications`, which has no key. `change` is an
observation: the version of the invoice that the row was written for. -/
structure Notification where
  row : InvoiceRow
  change : ℕ
  deriving DecidableEq

/-- A row of `payments.keys`. -/
structure KeyRow where
  address : AccountID
  encryptionKey : List UInt8
  createdAt : Time
  accepted : Bool
  deriving DecidableEq

/-- A row of `blockchain.accounts`. -/
structure AccountRow where
  address : AccountID
  lastProcessedLt : ℕ
  lastTxLt : ℕ
  lastTxHash : Bits256
  startTxLt : ℕ
  lastCheckedBlock : ℕ
  indexerTimestamp : Time
  deriving DecidableEq

/-- A row of `blockchain.transactions`. A JSON column holds the message it
encodes, and nothing when the message could not be encoded. -/
structure TransactionRow where
  hash : Bits256
  lt : ℕ
  accountID : AccountID
  prevTxHash : Bits256
  prevTxLt : ℕ
  utime : UInt32
  inMessage : Option Message
  outMessages : List (Option Message)
  success : Bool
  processingError : Option String

/-- The tables. -/
structure Database [Libraries] where
  currencies : Currencies
  invoices : Table InvoiceRow.id
  notifications : List Notification
  keys : Table KeyRow.address
  accounts : Table AccountRow.address
  transactions : Table TransactionRow.hash

/-! ## Open transactions -/

/-- The arguments of a call of `SavePayments`. -/
structure PaymentCall where
  account : AccountID
  txLt : ℕ
  payments : List Payment
  parsingError : Option String
  deriving DecidableEq

/-- The payment that `processPayment` works on, the row it has read for it and
the clock it has read before. -/
structure Reading where
  payment : Payment
  row : InvoiceRow
  now : Time
  credited : Bool
  deriving DecidableEq

/-- The payment makes the invoice paid: `processPayment` reaches its last
`UPDATE`. -/
def Reading.pays (reading : Reading) : Bool :=
  decide (reading.row.status = .waiting) && !decide (reading.row.expireAt < reading.now) &&
    !decide (reading.row.overpayment + reading.payment.amount < reading.row.amount)

/-- No payment is in progress: the last one has been dealt with. -/
def Reading.Settled (reading : Option Reading) : Prop :=
  ∀ found, reading = some found → found.credited = true ∧ found.pays = false

/-- An open transaction: the row versions it has written and, as observations,
the call that opened it, the payments it has looked up with whether an invoice
of their ID was stored, the payment in progress, the invoices it has made paid
and whether it has written its parsing error and `last_processed_lt`. -/
structure Tx where
  call : PaymentCall
  invoices : List InvoiceRow
  keys : List KeyRow
  accounts : List AccountRow
  transactions : List TransactionRow
  looked : List (Payment × Bool)
  reading : Option Reading
  paid : List InvoiceID
  marked : Bool
  processed : Bool

/-- The transaction just after `BEGIN`. -/
def Tx.begun (call : PaymentCall) : Tx where
  call := call
  invoices := []
  keys := []
  accounts := []
  transactions := []
  looked := []
  reading := none
  paid := []
  marked := false
  processed := false

/-! ## Threads -/

/-- An operation of the service that a goroutine runs. The endless loops run
for a number of rounds that is arbitrary, so that every behaviour of such a
loop up to some time is a behaviour of one of these. -/
inductive Job where
  | createInvoice (invoice : Invoice)
  | cancelInvoice (id : InvoiceID)
  | markExpired
  | savePayments (call : PaymentCall)
  | indexerWorker (account : Account) (rounds : ℕ)
  | loaderWorker (account : Account) (rounds : ℕ)
  | notifier (rounds : ℕ)
  deriving DecidableEq

/-- The operations whose error says that no invoice has changed. -/
def Job.reports : Job → Bool
  | .createInvoice _ | .cancelInvoice _ => true
  | _ => false

def Job.isNotifier : Job → Bool
  | .notifier _ => true
  | _ => false

/-- What belongs to one thread: its open transaction, `w.lastLt` of a loader,
and observations. -/
structure Thread where
  job : Job
  tx : Option Tx
  lastLt : ℕ
  /-- The committed changes whose outbox row the thread has not written yet. -/
  owed : List Snapshot
  /-- A statement failed while the thread owed an outbox row, or after it had
  changed an invoice in an operation that reports its errors. -/
  failed : Bool
  /-- The thread has created an invoice or changed a status. -/
  changed : Bool
  /-- The invoice that the thread has read last. -/
  lastRead : Option InvoiceRow
  /-- The invoices that a notifier has read and not yet dealt with. -/
  held : List Snapshot
  /-- `i.lastIndexed` of an indexer at its last query. -/
  cursor : Option ℕ
  /-- The transaction that this query found. -/
  fetched : Option TransactionRow
  /-- A call of `SavePayments` has committed since. -/
  saved : Bool
  /-- The call has credited a payment. -/
  credited : Bool
  /-- A statement failed after a call that credited a payment had committed. -/
  unsure : Bool
  /-- The last page of transactions that a loader received. -/
  page : List Transaction

/-- A thread that starts a job. -/
def Thread.start (job : Job) : Thread where
  job := job
  tx := none
  lastLt := 0
  owed := []
  failed := false
  changed := false
  lastRead := none
  held := []
  cursor := none
  fetched := none
  saved := false
  credited := false
  unsure := false
  page := []

/-- A call of `SavePayments` that has committed, with the payments it looked up
and whether an invoice of their ID was stored then. -/
structure CommittedCall where
  call : PaymentCall
  looked : List (Payment × Bool)
  deriving DecidableEq

/-- What has happened so far. -/
structure History where
  /-- The committed calls of `SavePayments`. -/
  calls : List CommittedCall
  /-- The committed creations and status changes. -/
  changes : List Snapshot
  /-- Every outbox row ever written, by invoice and status. -/
  outbox : List (InvoiceID × InvoiceStatus)
  /-- What `Send` has delivered. -/
  delivered : List Snapshot
  /-- The outbox rows that a notifier has removed. -/
  removed : List Notification

def History.empty : History := ⟨[], [], [], [], []⟩

/-- The state of the process and its database. Threads are named by `τ`. -/
structure World [Libraries] (τ : Type) where
  db : Database
  threads : τ → Option Thread
  history : History

namespace World

variable [Libraries] {τ : Type}

/-- The process just after its start, over a database. -/
def idle (db : Database) : World τ := ⟨db, fun _ => none, .empty⟩

/-- The open transaction of a thread. -/
def tx (w : World τ) (t : τ) : Option Tx := (w.threads t).bind Thread.tx

variable [DecidableEq τ]

/-- Change what belongs to one thread. -/
def setThread (w : World τ) (t : τ) (f : Thread → Thread) : World τ :=
  { w with threads := Function.update w.threads t ((w.threads t).map f) }

@[simp] theorem db_setThread (w : World τ) (t : τ) (f : Thread → Thread) :
    (w.setThread t f).db = w.db := rfl

@[simp] theorem history_setThread (w : World τ) (t : τ) (f : Thread → Thread) :
    (w.setThread t f).history = w.history := rfl

@[simp] theorem threads_setThread (w : World τ) (t : τ) (f : Thread → Thread) :
    (w.setThread t f).threads t = (w.threads t).map f := Function.update_self ..

theorem threads_setThread_of_ne {w : World τ} {t u : τ} {f : Thread → Thread} (other : u ≠ t) :
    (w.setThread t f).threads u = w.threads u := Function.update_of_ne other ..

variable [Fintype τ]

/-- Another thread has an open transaction that holds the lock of the row. -/
def lockedByOther {ρ κ : Type} [DecidableEq κ] (w : World τ) (t : τ) (key : ρ → κ)
    (written : Tx → List ρ) (k : κ) : Bool :=
  decide (∃ u, u ≠ t ∧ Table.owns key ((w.tx u).elim [] written) k = true)

/-- An `UPDATE` or `DELETE` has to wait: a row that it hits is locked by another
thread. -/
def blocked {ρ κ : Type} [DecidableEq κ] {key : ρ → κ} (w : World τ) (t : τ)
    (written : Tx → List ρ) (seen : Table key) (condition : ρ → Bool) : Bool :=
  seen.rows.any fun row => condition row && w.lockedByOther t key written (key row)

theorem free_of_not_blocked {ρ κ : Type} [DecidableEq κ] {key : ρ → κ} {w : World τ} {t u : τ}
    {written : Tx → List ρ} {seen : Table key} {condition : ρ → Bool} {row : ρ}
    (free : w.blocked t written seen condition = false) (other : u ≠ t) {tx : Tx}
    (holds : w.tx u = some tx) (member : row ∈ seen.rows) (hit : condition row = true) :
    Table.owns key (written tx) (key row) = false := by
  rw [blocked, List.any_eq_false] at free
  have unlocked := free row member
  rw [hit, Bool.true_and, lockedByOther, decide_eq_true_eq] at unlocked
  by_contra held
  rw [Bool.not_eq_false] at held
  exact unlocked ⟨u, other, by rw [holds]; exact held⟩

end World

end SpiceHarvester
