import SpiceHarvester.Core.Printable
import SpiceHarvester.Db.Schema
import Mathlib.Data.Fintype.Basic
import Mathlib.Data.List.Perm.Basic
import Mathlib.Data.List.Sort

/-!
# The statements and what they do

One constructor of `Stmt` for each SQL statement of `pkg/db`, for the calls of
the lite server and of the sender, for `time.Now` and for the fields a worker
keeps. `Stmt.run` is the effect of one statement, in one step, on the state: a
statement outside a transaction commits at once, a statement of a transaction
writes row versions that only its own thread sees until `COMMIT`.

A statement that hits a row locked by another thread has no effect yet: it
waits, and is evaluated again, with its `WHERE` clause, on the rows it finds
later. What a statement may answer in more than one way is fixed by a
`Choice`: the clock, the order of rows that `ORDER BY` leaves open, the answer
of the network. A statement can also be refused before it takes effect, or
take effect without its answer arriving (`Fault`).
-/

set_option autoImplicit false

namespace SpiceHarvester

open Sql

/-- The statements that the functions of the service call. -/
inductive Stmt where
  | now
  | selectCurrencyID (type : CurrencyType) (info : Option String)
  | selectCurrency (id : UUID)
  | insertInvoice (row : InvoiceRow)
  | insertNotification (row : InvoiceRow)
  | selectInvoice (id : InvoiceID)
  | cancelInvoice (now : Time) (id : InvoiceID)
  | markExpired (now : Time)
  | selectNotifications (limit : ℕ)
  | deleteNotification (id : InvoiceID)
  | send (invoice : Invoice) (printable : PrivateInvoicePrintable)
  | skip (invoice : Invoice)
  | begin (call : PaymentCall)
  | selectForPayment (currency : UUID) (payment : Payment) (now : Time)
  | acceptKey (address : AccountID)
  | setOverpayment (overpayment : ℤ) (now : Time) (id : InvoiceID)
  | setPaid (now : Time) (paidBy : AccountID) (overpayment : ℤ) (txHash : Bits256) (id : InvoiceID)
  | setProcessingError (error : String) (account : AccountID) (lt : ℕ)
  | setLastProcessed (lt : ℕ) (account : AccountID)
  | commit
  | rollback
  | insertKey (address : AccountID) (key : List UInt8) (now : Time)
  | selectKey (address : AccountID)
  | deleteExpiredKeys (before : Time)
  | updateAccount (last : TxID) (block : ℕ) (now : Time) (account : AccountID)
  | selectLastProcessed (account : AccountID)
  | selectTransactionByParent (account : AccountID) (lt : ℕ)
  | insertTransaction (row : TransactionRow)
  | selectGaps (account : AccountID)
  | selectLtBelow (account : AccountID) (lt : ℕ)
  | selectLastLt (account : AccountID)
  | getTransactions (account : AccountID) (lt : ℕ) (hash : Bits256)
  | getAccountState (account : AccountID)
  | getLastLt
  | setLastLt (lt : ℕ)

/-- What a statement answers when it does not fail. -/
@[reducible] def Stmt.Val : Stmt → Type
  | .now => Time
  | .selectCurrencyID .. => UUID
  | .selectCurrency _ => CurrencyRow
  | .selectInvoice _ => InvoiceRow
  | .cancelInvoice .. => ℕ
  | .markExpired _ => List InvoiceID
  | .selectNotifications _ => List InvoiceID
  | .selectForPayment .. => InvoiceRow
  | .selectKey _ => List UInt8
  | .selectLastProcessed _ => ℕ
  | .selectTransactionByParent .. => TransactionRow
  | .selectGaps _ => List (ℕ × Bits256)
  | .selectLtBelow .. => ℕ
  | .selectLastLt _ => ℕ
  | .getTransactions .. => List Transaction
  | .getAccountState _ => TxID × ℕ
  | .getLastLt => ℕ
  | _ => Unit

/-- A statement that only looks at the clock or at the worker's own fields, or
ends a transaction for certain, does not fail. -/
def Stmt.canFail : Stmt → Bool
  | .now | .getLastLt | .setLastLt _ | .rollback | .skip _ => false
  | _ => true

/-- What the outside fixes about the next answer. -/
structure Choice where
  clock : Time
  batch : List Notification
  ids : List InvoiceID
  gaps : List (ℕ × Bits256)
  delivered : Bool
  page : Except Err (List Transaction)
  accountState : Except Err (TxID × ℕ)

/-- Whether a statement runs, is refused before it takes effect, or takes
effect and its answer is lost. -/
inductive Fault where
  | none
  | refused
  | lost
  deriving DecidableEq

/-! ## Queries -/

/-- The row of `QueryRow`. -/
def orNoRows {α : Type} : Option α → Except Err α
  | none => .error .noRows
  | some row => .ok row

/-- `SELECT id FROM payments.currencies WHERE type = $1 [and info = $2]`. -/
def Currencies.idOf [Libraries] (currencies : Currencies) (type : CurrencyType)
    (info : Option String) : Option UUID :=
  (currencies.table.rows.find? fun row =>
    decide (row.type = type) && decide (info = none ∨ info = some row.info)).map CurrencyRow.id

/-- The invoice that a payment pays, as the `SELECT` of `processPayment` finds
it. -/
def payable (invoices : Table InvoiceRow.id) (currency : UUID) (payment : Payment) :
    Option InvoiceRow :=
  (invoices.find payment.invoiceID).filter fun row =>
    decide (row.currency = currency) && decide (row.recipient = payment.recipient)

/-- The `WHERE` clause of `CancelInvoice`. -/
def cancellable (now : Time) (id : InvoiceID) (row : InvoiceRow) : Bool :=
  decide (row.id = id) && decide (row.status = .waiting) &&
    decide (timestamptz now < row.expireAt)

/-- The `WHERE` clause of `MarkExpired`. -/
def expirable (now : Time) (row : InvoiceRow) : Bool :=
  decide (row.status = .waiting) && decide (row.expireAt < timestamptz now)

/-- `SELECT ... WHERE account_id = $1 AND prev_tx_lt = $2`. -/
def childOf (transactions : Table TransactionRow.hash) (account : AccountID) (lt : ℕ) :
    Option TransactionRow :=
  transactions.rows.find? fun row => decide (row.accountID = account) && decide (row.prevTxLt = lt)

/-- The predecessors that the stored transactions of an account name and that
are not stored: the first query of `GetGaps`. -/
def missing (transactions : Table TransactionRow.hash) (account : AccountID) :
    List (ℕ × Bits256) :=
  (transactions.rows.filter fun row =>
    decide (row.accountID = account) && (transactions.find row.prevTxHash).isNone &&
      decide (row.prevTxLt ≠ 0)).map fun row => (row.prevTxLt, row.prevTxHash)

/-- `SELECT lt ... WHERE account_id = $1 AND lt < $2 ORDER BY lt DESC LIMIT 1`,
and the same without the bound. -/
def highestLt (transactions : Table TransactionRow.hash) (account : AccountID)
    (below : Option ℕ) : Option ℕ :=
  ((transactions.rows.filter fun row =>
    decide (row.accountID = account) && below.all fun lt => decide (row.lt < lt)).map
      TransactionRow.lt).max?

/-! ## Updates -/

/-- `SET status = $1, updated_at = $2`. -/
def InvoiceRow.close (status : InvoiceStatus) (now : Time) (row : InvoiceRow) : InvoiceRow :=
  { row with status := status, updatedAt := timestamptz now, version := row.version + 1 }

/-- `SET overpayment = $1, updated_at = $2`. -/
def InvoiceRow.credit (overpayment : ℤ) (now : Time) (row : InvoiceRow) : InvoiceRow :=
  { row with overpayment := overpayment, updatedAt := timestamptz now, version := row.version + 1 }

/-- `SET status = 'paid', updated_at = $2, paid_by = $3, overpayment = $4,
paid_at = $5, tx_hash = $6`. -/
def InvoiceRow.pay (now : Time) (paidBy : AccountID) (overpayment : ℤ) (txHash : Bits256)
    (row : InvoiceRow) : InvoiceRow :=
  { row with
    status := .paid
    updatedAt := timestamptz now
    paidBy := some paidBy
    overpayment := overpayment
    paidAt := some (timestamptz now)
    txHash := some txHash
    version := row.version + 1 }

def KeyRow.accept (row : KeyRow) : KeyRow := { row with accepted := true }

def TransactionRow.markError (error : String) (row : TransactionRow) : TransactionRow :=
  { row with processingError := some error }

def AccountRow.process (lt : ℕ) (row : AccountRow) : AccountRow := { row with lastProcessedLt := lt }

def AccountRow.refresh (last : TxID) (block : ℕ) (now : Time) (row : AccountRow) : AccountRow :=
  { row with
    lastTxLt := last.lt
    lastTxHash := last.hash
    lastCheckedBlock := block
    indexerTimestamp := timestamptz now }

@[simp] theorem InvoiceRow.id_close (status : InvoiceStatus) (now : Time) (row : InvoiceRow) :
    (row.close status now).id = row.id := rfl

@[simp] theorem InvoiceRow.id_credit (overpayment : ℤ) (now : Time) (row : InvoiceRow) :
    (row.credit overpayment now).id = row.id := rfl

@[simp] theorem InvoiceRow.id_pay (now : Time) (paidBy : AccountID) (overpayment : ℤ)
    (txHash : Bits256) (row : InvoiceRow) : (row.pay now paidBy overpayment txHash).id = row.id :=
  rfl

@[simp] theorem KeyRow.address_accept (row : KeyRow) : row.accept.address = row.address := rfl

@[simp] theorem TransactionRow.hash_markError (error : String) (row : TransactionRow) :
    (row.markError error).hash = row.hash := rfl

@[simp] theorem AccountRow.address_process (lt : ℕ) (row : AccountRow) :
    (row.process lt).address = row.address := rfl

@[simp] theorem AccountRow.address_refresh (last : TxID) (block : ℕ) (now : Time)
    (row : AccountRow) : (row.refresh last block now).address = row.address := rfl

/-! ## Effects on the state -/

/-- The creations and status changes of a transaction that commits. -/
def Tx.changes (tx : Tx) (invoices : Table InvoiceRow.id) : List Snapshot :=
  tx.paid.map fun id => ⟨id, .paid, ((invoices.find id).map InvoiceRow.version).getD 0⟩

/-- The transaction has credited a payment to an invoice. -/
def Tx.credits (tx : Tx) : Bool := !tx.invoices.isEmpty

namespace Thread

/-- The thread has committed creations or status changes, and owes the outbox a
row for each. -/
def owe (changes : List Snapshot) (thread : Thread) : Thread :=
  { thread with
    owed := thread.owed ++ changes
    changed := thread.changed || !changes.isEmpty }

/-- The version that an outbox row of an invoice is written for. -/
def owedVersion (thread : Thread) (id : InvoiceID) : ℕ :=
  ((thread.owed.find? fun change => decide (change.id = id)).map Snapshot.version).getD 0

/-- The thread has written an outbox row of an invoice. -/
def announce (id : InvoiceID) (thread : Thread) : Thread :=
  { thread with owed := thread.owed.filter fun change => !decide (change.id = id) }

/-- The transaction of the thread has committed. -/
def close (changes : List Snapshot) (credited : Bool) (thread : Thread) : Thread :=
  { thread.owe changes with tx := none, saved := true, credited := credited }

/-- The thread has read an invoice. -/
def read (row : Option InvoiceRow) (thread : Thread) : Thread :=
  { thread with
    lastRead := row
    held := thread.held ++ if thread.job.isNotifier then row.toList.map InvoiceRow.snapshot else [] }

/-- A statement of the thread has failed. -/
def fail (thread : Thread) : Thread :=
  { thread with
    failed := thread.failed || !thread.owed.isEmpty || thread.changed && thread.job.reports
    unsure := thread.unsure || thread.credited }

end Thread

namespace World

variable [Libraries] {τ : Type} [DecidableEq τ]

/-- Replace the open transaction of a thread. -/
def setTx (w : World τ) (t : τ) (tx : Tx) : World τ :=
  w.setThread t fun thread => { thread with tx := some tx }

/-- An invoice is stored. -/
def create (w : World τ) (t : τ) (row : InvoiceRow) (invoices : Table InvoiceRow.id) : World τ :=
  { w.setThread t (Thread.owe [row.snapshot]) with
    db := { w.db with invoices := invoices }
    history := { w.history with changes := w.history.changes ++ [row.snapshot] } }

/-- `INSERT INTO payments.invoices`. The currency of the row must be stored and
its ID must be new. -/
def insertInvoice (w : World τ) (t : τ) (row : InvoiceRow) : Except Err Unit × World τ :=
  match w.db.currencies.table.find row.currency, w.db.invoices.insert? row with
  | some _, some invoices => (.ok (), w.create t row invoices)
  | _, _ => (.error .failed, w)

/-- An outbox row is stored. -/
def announce (w : World τ) (t : τ) (row : InvoiceRow) : World τ :=
  { w.setThread t (Thread.announce row.id) with
    db := { w.db with
      notifications := w.db.notifications ++
        [⟨row, (w.threads t).elim 0 fun thread => thread.owedVersion row.id⟩] }
    history := { w.history with outbox := w.history.outbox ++ [(row.id, row.status)] } }

/-- `INSERT INTO payments.invoice_notifications`. The currency of the row must
be stored. -/
def insertNotification (w : World τ) (t : τ) (row : InvoiceRow) : Except Err Unit × World τ :=
  match w.db.currencies.table.find row.currency with
  | some _ => (.ok (), w.announce t row)
  | none => (.error .failed, w)

/-- The versions that an `UPDATE` of the status makes of the rows it hits. -/
def closed (w : World τ) (status : InvoiceStatus) (condition : InvoiceRow → Bool) :
    List Snapshot :=
  (w.db.invoices.rows.filter condition).map fun row => ⟨row.id, status, row.version + 1⟩

/-- `UPDATE payments.invoices SET status = $1 ... WHERE`, outside a transaction. -/
def closeInvoices (w : World τ) (t : τ) (status : InvoiceStatus) (now : Time)
    (condition : InvoiceRow → Bool) : World τ :=
  { w.setThread t (Thread.owe (w.closed status condition)) with
    db := { w.db with
      invoices := w.db.invoices.update condition (.close status now) (InvoiceRow.id_close _ _) }
    history := { w.history with changes := w.history.changes ++ w.closed status condition } }

/-- `DELETE FROM payments.invoice_notifications WHERE id = $1`. -/
def deleteNotification (w : World τ) (t : τ) (id : InvoiceID) : World τ :=
  { w.setThread t fun thread => { thread with held := thread.held.tail } with
    db := { w.db with
      notifications := w.db.notifications.filter fun entry => !decide (entry.row.id = id) }
    history := { w.history with
      removed := w.history.removed ++
        w.db.notifications.filter fun entry => decide (entry.row.id = id) } }

/-- `COMMIT`. -/
def commit (w : World τ) (t : τ) (tx : Tx) : World τ :=
  let invoices := w.db.invoices.view tx.invoices
  { w.setThread t (Thread.close (tx.changes invoices) tx.credits) with
    db := { w.db with
      invoices := invoices
      keys := w.db.keys.view tx.keys
      accounts := w.db.accounts.view tx.accounts
      transactions := w.db.transactions.view tx.transactions }
    history := { w.history with
      calls := w.history.calls ++ [⟨tx.call, tx.looked⟩]
      changes := w.history.changes ++ tx.changes invoices } }

end World

/-! ## Running a statement -/

namespace Stmt

variable [Libraries] {τ : Type} [DecidableEq τ] [Fintype τ]

/-- What a statement called by a thread answers and does. There is no result
when the statement has to wait, or when the choice is not one it has. -/
def run (choice : Choice) (t : τ) : (op : Stmt) → World τ → Option (Except Err op.Val × World τ)
  | .now, w => some (.ok choice.clock, w)
  | .selectCurrencyID type info, w => some (orNoRows (w.db.currencies.idOf type info), w)
  | .selectCurrency id, w => some (orNoRows (w.db.currencies.table.find id), w)
  | .insertInvoice row, w => some (w.insertInvoice t row)
  | .insertNotification row, w => some (w.insertNotification t row)
  | .selectInvoice id, w =>
      let row := w.db.invoices.find id
      some (orNoRows row, w.setThread t (Thread.read row))
  | .cancelInvoice time id, w =>
      if w.blocked t Tx.invoices w.db.invoices (cancellable time id) then none
      else some (.ok (w.closed .cancelled (cancellable time id)).length,
        w.closeInvoices t .cancelled time (cancellable time id))
  | .markExpired time, w =>
      if w.blocked t Tx.invoices w.db.invoices (expirable time) then none
      else if choice.ids.Perm ((w.closed .expired (expirable time)).map Snapshot.id) then
        some (.ok choice.ids, w.closeInvoices t .expired time (expirable time))
      else none
  | .selectNotifications limit, w =>
      if choice.batch.Perm w.db.notifications ∧
          choice.batch.Pairwise fun entry later => entry.row.updatedAt ≤ later.row.updatedAt then
        some (.ok ((choice.batch.take limit).map fun entry => entry.row.id),
          w.setThread t fun thread => { thread with held := [] })
      else none
  | .deleteNotification id, w => some (.ok (), w.deleteNotification t id)
  | .send invoice _, w =>
      if choice.delivered then
        some (.ok (), { w with history := { w.history with
          delivered := w.history.delivered ++ [⟨invoice.id, invoice.status, invoice.version⟩] } })
      else some (.error .failed, w.setThread t fun thread => { thread with held := [] })
  | .skip _, w => some (.ok (), w.setThread t fun thread => { thread with held := thread.held.tail })
  | .begin call, w =>
      some (.ok (), w.setThread t fun thread =>
        { thread with tx := some (.begun call), credited := false })
  | .selectForPayment currency payment time, w =>
      (w.tx t).map fun tx =>
        let seen := w.db.invoices.view tx.invoices
        let row := payable seen currency payment
        (orNoRows row, w.setTx t { tx with
          looked := tx.looked ++ [(payment, (seen.find payment.invoiceID).isSome)]
          reading := row.map fun row => ⟨payment, row, time, false⟩ })
  | .acceptKey address, w =>
      (w.tx t).bind fun tx =>
        let seen := w.db.keys.view tx.keys
        let condition := fun row : KeyRow => decide (row.address = address) && !row.accepted
        if w.blocked t Tx.keys seen condition then none
        else some (.ok (), w.setTx t { tx with
          keys := w.db.keys.rewrite tx.keys condition KeyRow.accept })
  | .setOverpayment overpayment time id, w =>
      (w.tx t).bind fun tx =>
        let seen := w.db.invoices.view tx.invoices
        let condition := fun row : InvoiceRow => decide (row.id = id)
        if w.blocked t Tx.invoices seen condition then none
        else some (.ok (), w.setTx t { tx with
          invoices := w.db.invoices.rewrite tx.invoices condition (.credit overpayment time)
          reading := tx.reading.map fun reading => { reading with credited := true } })
  | .setPaid time paidBy overpayment txHash id, w =>
      (w.tx t).bind fun tx =>
        let seen := w.db.invoices.view tx.invoices
        let condition := fun row : InvoiceRow => decide (row.id = id)
        if w.blocked t Tx.invoices seen condition then none
        else some (.ok (), w.setTx t { tx with
          invoices := w.db.invoices.rewrite tx.invoices condition
            (.pay time paidBy overpayment txHash)
          reading := none
          paid := tx.paid ++ [id] })
  | .setProcessingError error account lt, w =>
      (w.tx t).bind fun tx =>
        let seen := w.db.transactions.view tx.transactions
        let condition := fun row : TransactionRow =>
          decide (row.accountID = account) && decide (row.lt = lt)
        if w.blocked t Tx.transactions seen condition then none
        else some (.ok (), w.setTx t { tx with
          transactions := w.db.transactions.rewrite tx.transactions condition (.markError error)
          marked := true })
  | .setLastProcessed lt account, w =>
      (w.tx t).bind fun tx =>
        let seen := w.db.accounts.view tx.accounts
        let condition := fun row : AccountRow => decide (row.address = account)
        if w.blocked t Tx.accounts seen condition then none
        else some (.ok (), w.setTx t { tx with
          accounts := w.db.accounts.rewrite tx.accounts condition (.process lt)
          processed := true })
  | .commit, w => (w.tx t).map fun tx => (.ok (), w.commit t tx)
  | .rollback, w => some (.ok (), w.setThread t fun thread => { thread with tx := none })
  | .insertKey address key time, w =>
      some (.ok (), match w.db.keys.insert? ⟨address, key, timestamptz time, false⟩ with
        | some keys => { w with db := { w.db with keys := keys } }
        | none => w)
  | .selectKey address, w =>
      some (orNoRows (((w.db.keys.find address).filter KeyRow.accepted).map KeyRow.encryptionKey), w)
  | .deleteExpiredKeys before, w =>
      let condition := fun row : KeyRow =>
        decide (row.createdAt < timestamptz before) && !row.accepted
      if w.blocked t Tx.keys w.db.keys condition then none
      else some (.ok (), { w with db := { w.db with keys := w.db.keys.delete condition } })
  | .updateAccount last block time account, w =>
      let condition := fun row : AccountRow => decide (row.address = account)
      if w.blocked t Tx.accounts w.db.accounts condition then none
      else some (.ok (), { w with db := { w.db with
        accounts := w.db.accounts.update condition (.refresh last block time)
          (AccountRow.address_refresh _ _ _) } })
  | .selectLastProcessed account, w =>
      let lt := (w.db.accounts.find account).map AccountRow.lastProcessedLt
      some (orNoRows lt, w.setThread t fun thread => { thread with cursor := lt, saved := false })
  | .selectTransactionByParent account lt, w =>
      let row := childOf w.db.transactions account lt
      some (orNoRows row, w.setThread t fun thread =>
        { thread with cursor := some lt, fetched := row, saved := false })
  | .insertTransaction row, w =>
      some (.ok (), match w.db.transactions.insert? row with
        | some transactions => { w with db := { w.db with transactions := transactions } }
        | none => w)
  | .selectGaps account, w =>
      if choice.gaps.Perm (missing w.db.transactions account) then some (.ok choice.gaps, w)
      else none
  | .selectLtBelow account lt, w =>
      some (orNoRows (highestLt w.db.transactions account (some lt)), w)
  | .selectLastLt account, w => some (orNoRows (highestLt w.db.transactions account none), w)
  | .getTransactions _ _ _, w =>
      some (choice.page, w.setThread t fun thread =>
        { thread with page := choice.page.toOption.getD [] })
  | .getAccountState _, w => some (choice.accountState, w)
  | .getLastLt, w => some (.ok ((w.threads t).elim 0 Thread.lastLt), w)
  | .setLastLt lt, w => some (.ok (), w.setThread t fun thread => { thread with lastLt := lt })

/-! ### What a statement that ran has found -/

section Inversion

variable {choice : Choice} {t : τ} {w w' : World τ}

theorem run_insertInvoice {row : InvoiceRow} {answer : Except Err Unit}
    (runs : (Stmt.insertInvoice row).run choice t w = some (answer, w')) :
    (∃ currency invoices, w.db.currencies.table.find row.currency = some currency ∧
      w.db.invoices.insert? row = some invoices ∧ answer = .ok () ∧
      w' = w.create t row invoices) ∨
    (answer = .error .failed ∧ w' = w) := by
  simp only [run, Option.some.injEq, World.insertInvoice] at runs
  split at runs
  · rename_i currency invoices stored inserted
    rw [Prod.mk.injEq] at runs
    exact .inl ⟨currency, invoices, stored, inserted, runs.1.symm, runs.2.symm⟩
  · rw [Prod.mk.injEq] at runs
    exact .inr ⟨runs.1.symm, runs.2.symm⟩

theorem run_insertNotification {row : InvoiceRow} {answer : Except Err Unit}
    (runs : (Stmt.insertNotification row).run choice t w = some (answer, w')) :
    (∃ currency, w.db.currencies.table.find row.currency = some currency ∧ answer = .ok () ∧
      w' = w.announce t row) ∨
    (w.db.currencies.table.find row.currency = none ∧ answer = .error .failed ∧ w' = w) := by
  simp only [run, Option.some.injEq, World.insertNotification] at runs
  split at runs
  · rename_i currency stored
    rw [Prod.mk.injEq] at runs
    exact .inl ⟨currency, stored, runs.1.symm, runs.2.symm⟩
  · rename_i none
    rw [Prod.mk.injEq] at runs
    exact .inr ⟨none, runs.1.symm, runs.2.symm⟩

theorem run_cancelInvoice {time : Time} {id : InvoiceID} {answer : Except Err ℕ}
    (runs : (Stmt.cancelInvoice time id).run choice t w = some (answer, w')) :
    w.blocked t Tx.invoices w.db.invoices (cancellable time id) = false ∧
      answer = .ok (w.closed .cancelled (cancellable time id)).length ∧
      w' = w.closeInvoices t .cancelled time (cancellable time id) := by
  simp only [run, Option.ite_none_left_eq_some, Option.some.injEq, Prod.mk.injEq] at runs
  exact ⟨by simpa using runs.1, runs.2.1.symm, runs.2.2.symm⟩

theorem run_markExpired {time : Time} {answer : Except Err (List InvoiceID)}
    (runs : (Stmt.markExpired time).run choice t w = some (answer, w')) :
    w.blocked t Tx.invoices w.db.invoices (expirable time) = false ∧
      (∃ ids : List InvoiceID, answer = .ok ids ∧
        ids.Perm ((w.closed .expired (expirable time)).map Snapshot.id)) ∧
      w' = w.closeInvoices t .expired time (expirable time) := by
  simp only [run, Option.ite_none_left_eq_some, Option.ite_none_right_eq_some, Option.some.injEq,
    Prod.mk.injEq] at runs
  obtain ⟨free, perm, rfl, rfl⟩ := runs
  exact ⟨by simpa using free, ⟨_, rfl, perm⟩, rfl⟩

theorem run_selectNotifications {limit : ℕ} {answer : Except Err (List InvoiceID)}
    (runs : (Stmt.selectNotifications limit).run choice t w = some (answer, w')) :
    ∃ batch : List Notification, batch.Perm w.db.notifications ∧
      batch.Pairwise (fun entry later => entry.row.updatedAt ≤ later.row.updatedAt) ∧
      answer = .ok ((batch.take limit).map fun entry => entry.row.id) ∧
      w' = w.setThread t fun thread => { thread with held := [] } := by
  simp only [run, Option.ite_none_right_eq_some, Option.some.injEq, Prod.mk.injEq] at runs
  obtain ⟨⟨perm, sorted⟩, rfl, rfl⟩ := runs
  exact ⟨choice.batch, perm, sorted, rfl, rfl⟩

theorem run_selectForPayment {currency : UUID} {payment : Payment} {time : Time}
    {answer : Except Err InvoiceRow}
    (runs : (Stmt.selectForPayment currency payment time).run choice t w = some (answer, w')) :
    ∃ tx, w.tx t = some tx ∧
      answer = orNoRows (payable (w.db.invoices.view tx.invoices) currency payment) ∧
      w' = w.setTx t { tx with
        looked := tx.looked ++
          [(payment, ((w.db.invoices.view tx.invoices).find payment.invoiceID).isSome)]
        reading := (payable (w.db.invoices.view tx.invoices) currency payment).map fun row =>
          ⟨payment, row, time, false⟩ } := by
  simp only [run, Option.map_eq_some_iff, Prod.mk.injEq] at runs
  obtain ⟨tx, opened, rfl, rfl⟩ := runs
  exact ⟨tx, opened, rfl, rfl⟩

theorem run_acceptKey {address : AccountID} {answer : Except Err Unit}
    (runs : (Stmt.acceptKey address).run choice t w = some (answer, w')) :
    ∃ tx, w.tx t = some tx ∧ answer = .ok () ∧
      w.blocked t Tx.keys (w.db.keys.view tx.keys)
        (fun row => decide (row.address = address) && !row.accepted) = false ∧
      w' = w.setTx t { tx with
        keys := w.db.keys.rewrite tx.keys
          (fun row => decide (row.address = address) && !row.accepted) KeyRow.accept } := by
  simp only [run, Option.bind_eq_some_iff, Option.ite_none_left_eq_some, Option.some.injEq,
    Prod.mk.injEq] at runs
  obtain ⟨tx, opened, free, rfl, rfl⟩ := runs
  exact ⟨tx, opened, rfl, by simpa using free, rfl⟩

theorem run_setOverpayment {overpayment : ℤ} {time : Time} {id : InvoiceID}
    {answer : Except Err Unit}
    (runs : (Stmt.setOverpayment overpayment time id).run choice t w = some (answer, w')) :
    ∃ tx, w.tx t = some tx ∧ answer = .ok () ∧
      w.blocked t Tx.invoices (w.db.invoices.view tx.invoices) (fun row => decide (row.id = id)) =
        false ∧
      w' = w.setTx t { tx with
        invoices := w.db.invoices.rewrite tx.invoices (fun row => decide (row.id = id))
          (.credit overpayment time)
        reading := tx.reading.map fun reading => { reading with credited := true } } := by
  simp only [run, Option.bind_eq_some_iff, Option.ite_none_left_eq_some, Option.some.injEq,
    Prod.mk.injEq] at runs
  obtain ⟨tx, opened, free, rfl, rfl⟩ := runs
  exact ⟨tx, opened, rfl, by simpa using free, rfl⟩

theorem run_setPaid {time : Time} {paidBy : AccountID} {overpayment : ℤ} {txHash : Bits256}
    {id : InvoiceID} {answer : Except Err Unit}
    (runs : (Stmt.setPaid time paidBy overpayment txHash id).run choice t w = some (answer, w')) :
    ∃ tx, w.tx t = some tx ∧ answer = .ok () ∧
      w.blocked t Tx.invoices (w.db.invoices.view tx.invoices) (fun row => decide (row.id = id)) =
        false ∧
      w' = w.setTx t { tx with
        invoices := w.db.invoices.rewrite tx.invoices (fun row => decide (row.id = id))
          (.pay time paidBy overpayment txHash)
        reading := none
        paid := tx.paid ++ [id] } := by
  simp only [run, Option.bind_eq_some_iff, Option.ite_none_left_eq_some, Option.some.injEq,
    Prod.mk.injEq] at runs
  obtain ⟨tx, opened, free, rfl, rfl⟩ := runs
  exact ⟨tx, opened, rfl, by simpa using free, rfl⟩

theorem run_setProcessingError {error : String} {account : AccountID} {lt : ℕ}
    {answer : Except Err Unit}
    (runs : (Stmt.setProcessingError error account lt).run choice t w = some (answer, w')) :
    ∃ tx, w.tx t = some tx ∧ answer = .ok () ∧
      w' = w.setTx t { tx with
        transactions := w.db.transactions.rewrite tx.transactions
          (fun row => decide (row.accountID = account) && decide (row.lt = lt))
          (.markError error)
        marked := true } := by
  simp only [run, Option.bind_eq_some_iff, Option.ite_none_left_eq_some, Option.some.injEq,
    Prod.mk.injEq] at runs
  obtain ⟨tx, opened, _, rfl, rfl⟩ := runs
  exact ⟨tx, opened, rfl, rfl⟩

theorem run_setLastProcessed {lt : ℕ} {account : AccountID} {answer : Except Err Unit}
    (runs : (Stmt.setLastProcessed lt account).run choice t w = some (answer, w')) :
    ∃ tx, w.tx t = some tx ∧ answer = .ok () ∧
      w.blocked t Tx.accounts (w.db.accounts.view tx.accounts)
        (fun row => decide (row.address = account)) = false ∧
      w' = w.setTx t { tx with
        accounts := w.db.accounts.rewrite tx.accounts (fun row => decide (row.address = account))
          (.process lt)
        processed := true } := by
  simp only [run, Option.bind_eq_some_iff, Option.ite_none_left_eq_some, Option.some.injEq,
    Prod.mk.injEq] at runs
  obtain ⟨tx, opened, free, rfl, rfl⟩ := runs
  exact ⟨tx, opened, rfl, by simpa using free, rfl⟩

theorem run_commit {answer : Except Err Unit}
    (runs : Stmt.commit.run choice t w = some (answer, w')) :
    ∃ tx, w.tx t = some tx ∧ answer = .ok () ∧ w' = w.commit t tx := by
  simp only [run, Option.map_eq_some_iff, Prod.mk.injEq] at runs
  obtain ⟨tx, opened, rfl, rfl⟩ := runs
  exact ⟨tx, opened, rfl, rfl⟩

theorem run_deleteExpiredKeys {before : Time} {answer : Except Err Unit}
    (runs : (Stmt.deleteExpiredKeys before).run choice t w = some (answer, w')) :
    answer = .ok () ∧
      w' = { w with db := { w.db with
        keys := w.db.keys.delete fun row =>
          decide (row.createdAt < timestamptz before) && !row.accepted } } := by
  simp only [run, Option.ite_none_left_eq_some, Option.some.injEq, Prod.mk.injEq] at runs
  obtain ⟨_, rfl, rfl⟩ := runs
  exact ⟨rfl, rfl⟩

theorem run_updateAccount {last : TxID} {block : ℕ} {time : Time} {account : AccountID}
    {answer : Except Err Unit}
    (runs : (Stmt.updateAccount last block time account).run choice t w = some (answer, w')) :
    answer = .ok () ∧
      w.blocked t Tx.accounts w.db.accounts (fun row => decide (row.address = account)) = false ∧
      w' = { w with db := { w.db with
        accounts := w.db.accounts.update (fun row => decide (row.address = account))
          (.refresh last block time) (AccountRow.address_refresh _ _ _) } } := by
  simp only [run, Option.ite_none_left_eq_some, Option.some.injEq, Prod.mk.injEq] at runs
  obtain ⟨free, rfl, rfl⟩ := runs
  exact ⟨rfl, by simpa using free, rfl⟩

theorem run_selectGaps {account : AccountID} {answer : Except Err (List (ℕ × Bits256))}
    (runs : (Stmt.selectGaps account).run choice t w = some (answer, w')) :
    w' = w ∧ ∃ gaps, answer = .ok gaps ∧ gaps.Perm (missing w.db.transactions account) := by
  simp only [run, Option.ite_none_right_eq_some, Option.some.injEq, Prod.mk.injEq] at runs
  obtain ⟨perm, rfl, rfl⟩ := runs
  exact ⟨rfl, _, rfl, perm⟩

end Inversion

/-- A statement under a fault: refused before it takes effect, or effective
without its answer. -/
def runUnder (fault : Fault) (choice : Choice) (t : τ) (op : Stmt) (w : World τ) :
    Option (Except Err op.Val × World τ) :=
  match fault with
  | .none => op.run choice t w
  | .refused => if op.canFail then some (.error .failed, w.setThread t Thread.fail) else none
  | .lost =>
      if op.canFail then
        (op.run choice t w).map fun done => (.error .failed, done.2.setThread t Thread.fail)
      else none

/-- A statement runs, is refused, or loses its answer. -/
theorem runUnder_cases {fault : Fault} {choice : Choice} {t : τ} {op : Stmt} {w w' : World τ}
    {answer : Except Err op.Val} (runs : op.runUnder fault choice t w = some (answer, w')) :
    (fault = .none ∧ op.run choice t w = some (answer, w')) ∨
    (fault = .refused ∧ op.canFail = true ∧ answer = .error .failed ∧
      w' = w.setThread t Thread.fail) ∨
    (fault = .lost ∧ op.canFail = true ∧ answer = .error .failed ∧
      ∃ lost w₀, op.run choice t w = some (lost, w₀) ∧ w' = w₀.setThread t Thread.fail) := by
  cases fault with
  | none => exact .inl ⟨rfl, runs⟩
  | refused =>
      simp only [runUnder, Option.ite_none_right_eq_some, Option.some.injEq, Prod.mk.injEq] at runs
      exact .inr (.inl ⟨rfl, runs.1, runs.2.1.symm, runs.2.2.symm⟩)
  | lost =>
      simp only [runUnder, Option.ite_none_right_eq_some, Option.map_eq_some_iff, Prod.mk.injEq]
        at runs
      obtain ⟨may, ⟨lost, w₀⟩, ran, rfl, rfl⟩ := runs
      exact .inr (.inr ⟨rfl, may, rfl, lost, w₀, ran, rfl⟩)

/-- A statement whose answer no fault can give has run. -/
theorem run_of_ok {fault : Fault} {choice : Choice} {t : τ} {op : Stmt} {w w' : World τ}
    {value : op.Val} (runs : op.runUnder fault choice t w = some (.ok value, w')) :
    op.run choice t w = some (.ok value, w') := by
  obtain ⟨_, ran⟩ | ⟨_, _, impossible, _⟩ | ⟨_, _, impossible, _⟩ := runUnder_cases runs
  · exact ran
  · cases impossible
  · cases impossible

end Stmt

/-! ## Threads and the process -/

namespace World

variable [Libraries] {τ : Type} [DecidableEq τ]

/-- A thread starts a job. -/
def start (w : World τ) (t : τ) (job : Job) : World τ :=
  { w with threads := Function.update w.threads t (some (Thread.start job)) }

/-- A thread ends. Its connection is returned without an open transaction. -/
def leave (w : World τ) (t : τ) : World τ :=
  { w with threads := Function.update w.threads t none }

/-- The process stops: its threads are gone, and the database rolls their open
transactions back. -/
def restart (w : World τ) : World τ := { w with threads := fun _ => none }

@[simp] theorem threads_start (w : World τ) (t : τ) (job : Job) :
    (w.start t job).threads t = some (Thread.start job) := Function.update_self ..

theorem threads_start_of_ne {w : World τ} {t u : τ} {job : Job} (other : u ≠ t) :
    (w.start t job).threads u = w.threads u := Function.update_of_ne other ..

@[simp] theorem threads_leave (w : World τ) (t : τ) : (w.leave t).threads t = none :=
  Function.update_self ..

theorem threads_leave_of_ne {w : World τ} {t u : τ} (other : u ≠ t) :
    (w.leave t).threads u = w.threads u := Function.update_of_ne other ..

end World

end SpiceHarvester
