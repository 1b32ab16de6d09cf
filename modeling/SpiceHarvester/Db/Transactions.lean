import SpiceHarvester.Db.Invoices

/-!
# `pkg/db/transactions.go`, `pkg/db/accounts.go` and `pkg/db/keys.go`

The functions that the loader, the indexer and the key handlers call.
-/

set_option autoImplicit false

namespace SpiceHarvester

open Interleaving

/-! ## Transactions -/

/-- The transaction that `GetTransactionByParentLt` scans from a row: a message
that is not there cannot be decoded. -/
def TransactionRow.transaction (row : TransactionRow) : Except Err Transaction :=
  match row.inMessage, row.outMessages.mapM id with
  | some inMessage, some outMessages => .ok {
      lt := row.lt
      hash := row.hash
      prevTxLt := row.prevTxLt
      prevTxHash := row.prevTxHash
      utime := row.utime
      success := row.success
      inMessage := inMessage
      outMessages := outMessages }
  | _, _ => .error (.invalid "EOF")

/-- `GetTransactionByParentLt`. -/
def getTransactionByParentLt (account : AccountID) (lt : ℕ) : Action Transaction := do
  let row ← queryRow (.selectTransactionByParent account lt)
  .ret row.transaction

/-- The row that `SaveTransactions` inserts. -/
def Transaction.row (account : AccountID) (tx : Transaction) : TransactionRow where
  hash := tx.hash
  lt := tx.lt
  accountID := account
  prevTxHash := tx.prevTxHash
  prevTxLt := tx.prevTxLt
  utime := tx.utime
  inMessage := some tx.inMessage
  outMessages := tx.outMessages.map some
  success := tx.success
  processingError := none

/-- `SaveTransactions`, with an `INSERT` that ignores a conflict for each. -/
def saveTransactions (account : AccountID) (txs : List Transaction) : Action Unit :=
  txs.forM fun tx => perform (.insertTransaction (tx.row account))

/-- A query for one LT, which is 0 when there is no row. -/
def queryLt (op : Stmt) (value : op.Val → ℕ) : Action ℕ := do
  match ← (perform op).attempt with
  | .ok lt => return value lt
  | .error .noRows => return 0
  | .error error => Prog.fail error

/-- `GetGaps`. -/
def getGaps (account : AccountID) : Action (List TxGap × ℕ) := do
  let starts : List (ℕ × Bits256) ← perform (.selectGaps account)
  let gaps ← starts.mapM fun start => do
    let endLt ← queryLt (.selectLtBelow account start.1) id
    return (⟨start.1, endLt, start.2⟩ : TxGap)
  let lastLt ← queryLt (.selectLastLt account) id
  return (gaps, lastLt)

/-! ## Accounts -/

/-- `UpdateAccount`. -/
def updateAccount (account : AccountID) (lastTx : TxID) (mcSeqno : ℕ) : Action Unit := do
  let now ← perform .now
  perform (.updateAccount lastTx mcSeqno now account)

/-- `LastProcessedLT`. -/
def lastProcessedLT (account : AccountID) : Action ℕ := perform (.selectLastProcessed account)

/-! ## Keys -/

/-- `SaveEncryptionKey`. -/
def saveEncryptionKey (account : AccountID) (encryptionKey : List UInt8) : Action Unit := do
  let now ← perform .now
  perform (.insertKey account encryptionKey now)

/-- `GetEncryptionKey`. -/
def getEncryptionKey (account : AccountID) : Action (List UInt8) := queryRow (.selectKey account)

/-- `DeleteExpiredKeys`: after an hour. -/
def deleteExpiredKeys : Action Unit := do
  let now : Time ← perform .now
  perform (.deleteExpiredKeys (now - 3600 * 1000000000))

end SpiceHarvester
