import SpiceHarvester.Db.Transactions

/-!
# The loader worker

`loaderWorker` of `pkg/indexer/loader.go` with `GetTransactions` of
`pkg/blockchain`. Pages come from the lite server newest first and are inserted
in this order. A panic ends the program with an error that nothing catches.
The loops over pages and over refreshes run for at most a number of rounds; a
program that uses them up ends, like one that is killed there.
-/

set_option autoImplicit false

namespace SpiceHarvester

open Interleaving

/-- The loop of the client over a page of the lite server: it stops at the depth
bound, and at a transaction that the one before does not name. -/
def checkPage (maxDepthLt : ℕ) : Bits256 → List Transaction → Except Err (List Transaction)
  | _, [] => .ok []
  | hash, tx :: rest =>
      if tx.hash ≠ hash then .error (.invalid "mismatched tx hash")
      else if tx.lt ≤ maxDepthLt then .ok []
      else (checkPage maxDepthLt tx.prevTxHash rest).map (tx :: ·)

/-- `GetTransactions` of the blockchain client. -/
def getTransactions (account : AccountID) (lt maxDepthLt : ℕ) (hash : Bits256) :
    Action (List Transaction) := do
  let page ← perform (.getTransactions account lt hash)
  .ret (checkPage maxDepthLt hash page)

/-- The retries of `syncGapIteration`: the last answer, the first one with a
transaction. -/
def retryTransactions (account : AccountID) (startLt endLt : ℕ) (startHash : Bits256) :
    ℕ → Except Err (List Transaction) → Action (Except Err (List Transaction))
  | 0, last => return last
  | retries + 1, _ => do
      match ← (getTransactions account startLt endLt startHash).attempt with
      | .ok (tx :: txs) => return .ok (tx :: txs)
      | answer => retryTransactions account startLt endLt startHash retries answer

/-- `syncGapIteration`. -/
def syncGapIteration (account : AccountID) (startHash : Bits256) (startLt endLt : ℕ) :
    Action (Bits256 × ℕ) := do
  let answer ← retryTransactions account startLt endLt startHash 200 (.ok [])
  match answer with
  | .error error => Prog.fail error
  | .ok [] => Prog.fail (.invalid "no transactions")
  | .ok (tx :: txs) => do
      saveTransactions account (tx :: txs)
      let last := (tx :: txs).getLast (List.cons_ne_nil tx txs)
      return (last.prevTxHash, last.prevTxLt)

/-- The loop of `syncHistoryGap`. It tells whether `w.lastLt` is to be set: the
loop was left by its `break`. -/
def syncPages (account : AccountID) (endLt : ℕ) : ℕ → Bits256 → ℕ → Action Bool
  | 0, _, _ => Prog.fail (.invalid "out of rounds")
  | rounds + 1, startHash, startLt =>
      if startLt = endLt then return false
      else do
        let next ← syncGapIteration account startHash startLt endLt
        if next.2 ≤ endLt then return true
        else syncPages account endLt rounds next.1 next.2

/-- `syncHistoryGap`. -/
def syncHistoryGap (account : Account) (rounds : ℕ) (startHash : Bits256) (startLt endLt : ℕ) :
    Action Unit := do
  let left ← syncPages account.accountID (max endLt account.info.maxDepthLt) rounds startHash startLt
  if left then
    perform (.setLastLt startLt)
  else
    return ()

/-- `refreshAccount`. Its error is only logged. -/
def refreshAccount (account : Account) (rounds : ℕ) : Action (Except Err Unit) := do
  match ← (perform (.getAccountState account.accountID)).attempt with
  | .error error => return .error error
  | .ok (last, blockSeqno) => do
      let lastLt : ℕ ← perform .getLastLt
      if last.lt < lastLt then
        return .error (.invalid "account has older state than previous")
      else
        match ← (updateAccount account.accountID last blockSeqno).attempt with
        | .error error => return .error error
        | .ok _ => do
            let lastLt : ℕ ← perform .getLastLt
            syncHistoryGap account rounds last.hash last.lt lastLt
            return .ok ()

/-- The endless loop of `loaderWorker.Run`. -/
def refreshLoop (account : Account) (rounds : ℕ) : ℕ → Action Unit
  | 0 => return ()
  | remaining + 1 => do
      let _ ← refreshAccount account rounds
      refreshLoop account rounds remaining

/-- `loaderWorker.Run`: `GetGaps` is tried twice. -/
def loaderWorker (account : Account) (rounds : ℕ) : Action Unit := do
  let found ← match ← (getGaps account.accountID).attempt with
    | .ok found => pure found
    | .error _ => getGaps account.accountID
  perform (.setLastLt found.2)
  found.1.forM fun gap => syncHistoryGap account rounds gap.startHash gap.startLt gap.endLt
  refreshLoop account rounds rounds

end SpiceHarvester
