import SpiceHarvester.Db.Transactions
import SpiceHarvester.Indexer.Extract

/-!
# The indexer worker

`indexerWorker` of `pkg/indexer/indexer.go`: it looks for the transaction after
the last one indexed, extracts its payments and saves them. A failed round is
tried again.
-/

set_option autoImplicit false

namespace SpiceHarvester

open Interleaving

variable [Libraries]

/-- The call of `SavePayments` for a transaction. -/
def paymentCall (account : Account) (tx : Transaction) (extracted : Except String (List Payment)) :
    PaymentCall where
  account := account.accountID
  txLt := tx.lt
  payments := extracted.toOption.getD []
  parsingError := match extracted with
    | .ok _ => none
    | .error error => some error

/-- One round of `indexerWorker.Run`: the new value of `lastIndexed`. -/
def indexerRound (account : Account) (lastIndexed : ℕ) : Action ℕ := do
  match ← (getTransactionByParentLt account.accountID lastIndexed).attempt with
  | .error _ => return lastIndexed
  | .ok tx =>
      match extractPayments tx account with
      | none => Prog.fail (.invalid "nil dereference")
      | some extracted =>
          match ← (savePayments (paymentCall account tx extracted)).attempt with
          | .error _ => return lastIndexed
          | .ok _ => return tx.lt

/-- `indexerWorker.Run`, for a number of rounds. -/
def indexerRun (account : Account) : ℕ → ℕ → Action Unit
  | 0, _ => return ()
  | rounds + 1, lastIndexed => do
      let lastIndexed ← indexerRound account lastIndexed
      indexerRun account rounds lastIndexed

/-- `newIndexerWorker` and its `Run`. -/
def indexerWorker (account : Account) (rounds : ℕ) : Action Unit := do
  let lastIndexed ← lastProcessedLT account.accountID
  indexerRun account rounds lastIndexed

end SpiceHarvester
