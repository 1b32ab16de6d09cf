import SpiceHarvester.Indexer.Loader
import SpiceHarvester.Indexer.Worker

/-!
# The statements that the indexer and the loader call

`SavePayments` works on the row that its transaction has read and builds the
invoice of an outbox row from it. Neither it nor the worker around it reads an
invoice back with `GetInvoice`, or calls anything outside `Stmt.indexes`
(`savePayments_calls`, `indexerWorker_calls`). A loader calls statements of
`Stmt.loads` (`loaderWorker_calls`).
-/

set_option autoImplicit false

namespace SpiceHarvester

open Interleaving

/-- A statement of `SavePayments` or of `indexerWorker.Run`. -/
def Stmt.indexes : Stmt → Bool
  | .now | .selectCurrencyID .. | .insertNotification _ => true
  | .begin _ | .selectForPayment .. | .acceptKey _ | .setOverpayment .. | .setPaid .. => true
  | .setProcessingError .. | .setLastProcessed .. | .commit | .rollback => true
  | .selectLastProcessed _ | .selectTransactionByParent .. => true
  | _ => false

/-- The program calls statements of the indexer only. -/
abbrev Indexes {α : Type} (program : Action α) : Prop := program.Calls fun op => op.indexes = true

theorem queryRow_indexes {op : Stmt} (indexes : op.indexes = true) : Indexes (queryRow op) :=
  .call indexes fun _ => .ret _

section Indexer

variable [Libraries]

theorem announces_indexes (invoice : Invoice) : Indexes (saveInvoice invoice true) :=
  (queryRow_indexes rfl).bind fun _ => .query rfl

omit [Libraries] in
theorem creditPayment_indexes (payment : Payment) (now : Time) (row : InvoiceRow) :
    Indexes (creditPayment payment now row) := by
  refine Prog.Calls.bind (.query rfl) fun _ => Prog.Calls.bind (.query rfl) fun _ => ?_
  split
  · exact .ret _
  · split
    · exact .ret _
    · exact Prog.Calls.bind (.query rfl) fun _ => .ret _

theorem processPayment_indexes (payment : Payment) : Indexes (processPayment payment) := by
  refine (queryRow_indexes rfl).attempt.bind fun found => ?_
  split
  · exact .ret _
  · exact .ret _
  · refine Prog.Calls.bind (.query rfl) fun now => ?_
    refine Prog.Calls.bind (Prog.Calls.attempt (.query rfl)) fun row => ?_
    split
    · exact .ret _
    · exact .ret _
    · exact creditPayment_indexes _ _ _

theorem processPayments_indexes (payments : List Payment) : Indexes (processPayments payments) := by
  induction payments with
  | nil => exact .ret _
  | cons payment rest ih =>
      exact (processPayment_indexes payment).bind fun _ => ih.bind fun _ => .ret _

theorem recordPayments_indexes (call : PaymentCall) : Indexes (recordPayments call) := by
  unfold recordPayments
  split
  · exact Prog.Calls.bind (.query rfl) fun _ => .ret _
  · exact processPayments_indexes _

/-- **`SavePayments` calls statements of the indexer only.** -/
theorem savePayments_calls (call : PaymentCall) : Indexes (savePayments call) := by
  have writes : Indexes (writePayments call) :=
    (recordPayments_indexes call).bind fun _ => Prog.Calls.bind (.query rfl) fun _ => .ret _
  have commits : Indexes (commitPayments call) :=
    Prog.Calls.bind (.query rfl) fun _ => writes.bind fun paid =>
      Prog.Calls.bind (.query rfl) fun _ => .forM announces_indexes paid
  exact commits.attempt.bind fun _ => Prog.Calls.bind (.query rfl) fun _ => .ret _

theorem indexerRound_indexes (account : Account) (lastIndexed : ℕ) :
    Indexes (indexerRound account lastIndexed) := by
  have parent : Indexes (getTransactionByParentLt account.accountID lastIndexed) :=
    (queryRow_indexes rfl).bind fun _ => .ret _
  refine parent.attempt.bind fun found => ?_
  split
  · exact .ret _
  · split
    · exact .ret _
    · refine (savePayments_calls _).attempt.bind fun saved => ?_
      split <;> exact .ret _

theorem indexerRun_indexes (account : Account) (rounds lastIndexed : ℕ) :
    Indexes (indexerRun account rounds lastIndexed) := by
  induction rounds generalizing lastIndexed with
  | zero => exact .ret _
  | succ rounds ih => exact (indexerRound_indexes account lastIndexed).bind ih

/-- **The worker calls statements of the indexer only.** -/
theorem indexerWorker_calls (account : Account) (rounds : ℕ) :
    Indexes (indexerWorker account rounds) :=
  Prog.Calls.bind (.query rfl) fun lastIndexed => indexerRun_indexes account rounds lastIndexed

end Indexer

/-! ## The loader -/

/-- A statement of `loaderWorker.Run`. -/
def Stmt.loads : Stmt → Bool
  | .now | .updateAccount .. | .insertTransaction _ => true
  | .selectGaps _ | .selectLtBelow .. | .selectLastLt _ => true
  | .getTransactions .. | .getAccountState _ | .getLastLt | .setLastLt _ => true
  | _ => false

/-- The program calls statements of the loader only. -/
abbrev CallsLoader {α : Type} (program : Action α) : Prop :=
  program.Calls fun op => op.loads = true

theorem perform_loads (op : Stmt) (loads : op.loads = true) : CallsLoader (perform op) :=
  .query loads

theorem getTransactions_loads (account : AccountID) (lt maxDepthLt : ℕ) (hash : Bits256) :
    CallsLoader (getTransactions account lt maxDepthLt hash) := .bind (.query rfl) fun _ => .ret _

theorem syncGapIteration_loads (account : AccountID) (startHash : Bits256) (startLt endLt : ℕ) :
    CallsLoader (syncGapIteration account startHash startLt endLt) := by
  have retry : ∀ retries last,
      CallsLoader (retryTransactions account startLt endLt startHash retries last) := by
    intro retries
    induction retries with
    | zero => exact fun _ => .ret _
    | succ retries ih =>
        refine fun last => ?_
        refine (getTransactions_loads account startLt endLt startHash).attempt.bind fun answer => ?_
        split
        · exact .ret _
        · exact ih _
  refine (retry 200 (.ok [])).bind fun answer => ?_
  split
  · exact .ret _
  · exact .ret _
  · exact (Prog.Calls.forM (fun _ => perform_loads (.insertTransaction _) rfl) _).bind
      fun _ => .ret _

theorem syncHistoryGap_loads (account : Account) (rounds : ℕ) (startHash : Bits256)
    (startLt endLt : ℕ) :
    CallsLoader (syncHistoryGap account rounds startHash startLt endLt) := by
  have pages : ∀ bound rounds hash lt,
      CallsLoader (syncPages account.accountID bound rounds hash lt) := by
    intro bound rounds
    induction rounds with
    | zero => exact fun _ _ => .ret _
    | succ rounds ih =>
        intro hash lt
        unfold syncPages
        split
        · exact .ret _
        · refine (syncGapIteration_loads _ _ _ _).bind fun next => ?_
          split
          · exact .ret _
          · exact ih _ _
  refine (pages _ _ _ _).bind fun left => ?_
  split
  · exact .query rfl
  · exact .ret _

theorem refreshAccount_loads (account : Account) (rounds : ℕ) :
    CallsLoader (refreshAccount account rounds) := by
  have updates : ∀ account last block,
      CallsLoader (updateAccount account last block) := fun _ _ _ =>
    (perform_loads .now rfl).bind fun _ => perform_loads (.updateAccount _ _ _ _) rfl
  refine (perform_loads (.getAccountState _) rfl).attempt.bind fun found => ?_
  split
  · exact .ret _
  · refine (perform_loads .getLastLt rfl).bind fun lastLt => ?_
    split
    · exact .ret _
    · refine (updates _ _ _).attempt.bind fun updated => ?_
      split
      · exact .ret _
      · exact (perform_loads .getLastLt rfl).bind fun _ =>
          (syncHistoryGap_loads _ _ _ _ _).bind fun _ => .ret _

/-- **A loader calls statements of the loader only.** -/
theorem loaderWorker_calls (account : Account) (rounds : ℕ) :
    CallsLoader (loaderWorker account rounds) := by
  have queries : ∀ op value, op.loads = true → CallsLoader (queryLt op value) := by
    intro op value loads
    refine (perform_loads op loads).attempt.bind fun answer => ?_
    split <;> exact .ret _
  have gaps : CallsLoader (getGaps account.accountID) := by
    refine (perform_loads (.selectGaps _) rfl).bind fun starts => ?_
    refine (Prog.Calls.mapM (fun start => ?_) starts).bind fun gaps => ?_
    · exact (queries (.selectLtBelow _ start.1) id rfl).bind fun _ => .ret _
    · exact (queries (.selectLastLt _) id rfl).bind fun _ => .ret _
  have refreshes : ∀ remaining, CallsLoader (refreshLoop account rounds remaining) := by
    intro remaining
    induction remaining with
    | zero => exact .ret _
    | succ remaining ih => exact (refreshAccount_loads account rounds).bind fun _ => ih
  have rest : ∀ found : List TxGap × ℕ, CallsLoader (do
      perform (.setLastLt found.2)
      found.1.forM fun gap => syncHistoryGap account rounds gap.startHash gap.startLt gap.endLt
      refreshLoop account rounds rounds) := fun found =>
    (perform_loads (.setLastLt _) rfl).bind fun _ =>
      (Prog.Calls.forM (fun gap => syncHistoryGap_loads _ _ _ _ _) _).bind fun _ => refreshes rounds
  refine gaps.attempt.bind fun answer => ?_
  split
  · exact (Prog.Calls.ret _).bind rest
  · exact gaps.bind rest

end SpiceHarvester
