import SpiceHarvester.Db.Frame
import SpiceHarvester.Db.Transactions
import SpiceHarvester.Interleaving.Alone
import SpiceHarvester.Serial.Store

/-!
# What the operations do to the store

An operation runs alone at one time, and each of its statements may fail. What it
leaves in the tables is then one step of the store, or nothing: an operation that ends
with an error may have stored its result or not.

Inside its transaction `SavePayments` sees the store as the payments received so far
leave it (`World.seen`), and its `COMMIT` makes this the store.
-/

set_option autoImplicit false

namespace SpiceHarvester

open Interleaving Sql

variable [Libraries]

/-- A statement of a process with a single thread runs at a time, under any fault. -/
def At (time : Time) (op : Stmt) (w : World Unit) (answer : Except Err op.Val)
    (w' : World Unit) : Prop :=
  ∃ fault choice, choice.clock = time ∧ op.runUnder fault choice () w = some (answer, w')

/-- The tables and what has been recorded are as before. -/
structure World.Unwritten (w w' : World Unit) : Prop where
  db : w'.db = w.db
  history : w'.history = w.history

theorem World.Unwritten.refl (w : World Unit) : w.Unwritten w := ⟨rfl, rfl⟩

theorem World.Unwritten.trans {w w₁ w' : World Unit} (first : w.Unwritten w₁)
    (later : w₁.Unwritten w') : w.Unwritten w' :=
  ⟨later.db.trans first.db, later.history.trans first.history⟩

theorem World.Unwritten.store {w w' : World Unit} (same : w.Unwritten w') : w'.store = w.store := by
  unfold World.store
  rw [same.db]

/-- The store as the transaction of the thread sees it. -/
def World.seen (w : World Unit) : Option Store :=
  (w.tx ()).map fun tx =>
    ⟨w.db.currencies, w.db.invoices.view tx.invoices, w.db.keys.view tx.keys⟩

variable {time : Time} {w w' : World Unit} {s : Store}

/-! ## Single statements -/

/-- The statements that change no table by themselves. -/
def Stmt.changesNothing : Stmt → Bool
  | .now | .selectCurrencyID .. | .selectCurrency _ | .selectInvoice _ | .begin _
  | .selectForPayment .. | .acceptKey _ | .setOverpayment .. | .setPaid .. | .setProcessingError ..
  | .setLastProcessed .. | .rollback | .selectKey _ => true
  | _ => false

theorem Stmt.run_changesNothing {op : Stmt} {choice : Choice} {answer : Except Err op.Val}
    (nothing : op.changesNothing = true) (runs : op.run choice () w = some (answer, w')) :
    w.Unwritten w' := by
  cases op with
  | now => cases runs; exact ⟨rfl, rfl⟩
  | selectCurrencyID type info => cases runs; exact ⟨rfl, rfl⟩
  | selectCurrency id => cases runs; exact ⟨rfl, rfl⟩
  | selectInvoice id => cases runs; exact ⟨rfl, rfl⟩
  | begin call => cases runs; exact ⟨rfl, rfl⟩
  | selectForPayment currency payment time =>
      obtain ⟨tx, _, _, rfl⟩ := run_selectForPayment runs
      exact ⟨rfl, rfl⟩
  | acceptKey address =>
      obtain ⟨tx, _, _, _, rfl⟩ := run_acceptKey runs
      exact ⟨rfl, rfl⟩
  | setOverpayment overpayment time id =>
      obtain ⟨tx, _, _, _, rfl⟩ := run_setOverpayment runs
      exact ⟨rfl, rfl⟩
  | setPaid time paidBy overpayment txHash id =>
      obtain ⟨tx, _, _, _, rfl⟩ := run_setPaid runs
      exact ⟨rfl, rfl⟩
  | setProcessingError error account lt =>
      obtain ⟨tx, _, _, rfl⟩ := run_setProcessingError runs
      exact ⟨rfl, rfl⟩
  | setLastProcessed lt account =>
      obtain ⟨tx, _, _, _, rfl⟩ := run_setLastProcessed runs
      exact ⟨rfl, rfl⟩
  | rollback => cases runs; exact ⟨rfl, rfl⟩
  | selectKey address => cases runs; exact ⟨rfl, rfl⟩
  | _ => cases nothing

namespace At

variable {op : Stmt}

/-- A statement that does not fail runs as it should. -/
theorem run_of_ok {value : op.Val} (runs : At time op w (.ok value) w') :
    ∃ choice : Choice, choice.clock = time ∧ op.run choice () w = some (.ok value, w') := by
  obtain ⟨fault, choice, clock, runs⟩ := runs
  rcases Stmt.runUnder_cases runs with ⟨_, ran⟩ | ⟨_, _, impossible, _⟩ | ⟨_, _, impossible, _⟩
  · exact ⟨choice, clock, ran⟩
  · cases impossible
  · cases impossible

/-- An error is that of the statement, or else of a fault. -/
theorem run_of_error {error : Err} (runs : At time op w (.error error) w') :
    error = .failed ∨
      ∃ choice : Choice, choice.clock = time ∧ op.run choice () w = some (.error error, w') := by
  obtain ⟨fault, choice, clock, runs⟩ := runs
  rcases Stmt.runUnder_cases runs with ⟨_, ran⟩ | ⟨_, _, failed, _⟩ | ⟨_, _, failed, _⟩
  · exact .inr ⟨choice, clock, ran⟩
  · exact .inl (Except.error.inj failed)
  · exact .inl (Except.error.inj failed)

/-- A statement leaves the tables, or does to them what it does without a fault. -/
theorem tables_cases {answer : Except Err op.Val} (runs : At time op w answer w') :
    w.Unwritten w' ∨ ∃ (choice : Choice) (found : Except Err op.Val) (w₁ : World Unit),
      choice.clock = time ∧ op.run choice () w = some (found, w₁) ∧ w₁.Unwritten w' := by
  obtain ⟨fault, choice, clock, runs⟩ := runs
  rcases Stmt.runUnder_cases runs with ⟨_, ran⟩ | ⟨_, _, _, rfl⟩ | ⟨_, _, _, lost, w₁, ran, rfl⟩
  · exact .inr ⟨choice, _, w', clock, ran, .refl w'⟩
  · exact .inl ⟨rfl, rfl⟩
  · exact .inr ⟨choice, _, w₁, clock, ran, rfl, rfl⟩

theorem unwritten {answer : Except Err op.Val} (runs : At time op w answer w')
    (nothing : op.changesNothing = true) : w.Unwritten w' := by
  rcases runs.tables_cases with same | ⟨choice, found, w₁, _, ran, same⟩
  · exact same
  · exact (Stmt.run_changesNothing nothing ran).trans same

end At

/-! ## Inside the transaction -/

namespace World

theorem seen_eq {tx : Tx} (opened : w.tx () = some tx) (sees : w.seen = some s) :
    s = ⟨w.db.currencies, w.db.invoices.view tx.invoices, w.db.keys.view tx.keys⟩ := by
  rw [seen, opened] at sees
  exact (Option.some.inj sees).symm

/-- Only the own transaction has changed, and sees the store as it writes it. -/
theorem seen_setTx {tx tx' : Tx} (opened : w.tx () = some tx) :
    (w.setTx () tx').seen =
      some ⟨w.db.currencies, w.db.invoices.view tx'.invoices, w.db.keys.view tx'.keys⟩ := by
  rw [seen, tx_setTx opened]
  rfl

end World

namespace Stmt

variable {choice : Choice}

theorem seen_begin {call : PaymentCall} {answer : Except Err Unit} (started : (w.threads ()).isSome)
    (runs : (Stmt.begin call).run choice () w = some (answer, w')) : w'.seen = some w.store := by
  cases runs
  obtain ⟨thread, held⟩ := Option.isSome_iff_exists.mp started
  have opened : (w.setThread () fun thread =>
      { thread with tx := some (.begun call), credited := false }).tx () = some (.begun call) := by
    rw [World.tx, World.threads_setThread, held]
    rfl
  rw [World.seen, opened]
  simp [Tx.begun, World.store]

theorem seen_selectForPayment {currency : UUID} {payment : Payment} {now : Time}
    {answer : Except Err InvoiceRow} (sees : w.seen = some s)
    (runs : (Stmt.selectForPayment currency payment now).run choice () w = some (answer, w')) :
    answer = orNoRows (payable s.invoices currency payment) ∧ w'.seen = some s := by
  obtain ⟨tx, opened, answered, rfl⟩ := run_selectForPayment runs
  obtain rfl := World.seen_eq opened sees
  exact ⟨answered, World.seen_setTx opened⟩

theorem seen_acceptKey {address : AccountID} {answer : Except Err Unit} (sees : w.seen = some s)
    (runs : (Stmt.acceptKey address).run choice () w = some (answer, w')) :
    w'.seen = some (s.accept address) := by
  obtain ⟨tx, opened, _, _, rfl⟩ := run_acceptKey runs
  obtain rfl := World.seen_eq opened sees
  rw [World.seen_setTx opened, Table.view_rewrite _ _ _ KeyRow.address_accept]
  rfl

theorem seen_setOverpayment {overpayment : ℤ} {now : Time} {id : InvoiceID}
    {answer : Except Err Unit} (sees : w.seen = some s)
    (runs : (Stmt.setOverpayment overpayment now id).run choice () w = some (answer, w')) :
    w'.seen = some { s with
      invoices := s.invoices.update (fun row => decide (row.id = id)) (.credit overpayment now)
        (InvoiceRow.id_credit _ _) } := by
  obtain ⟨tx, opened, _, _, rfl⟩ := run_setOverpayment runs
  obtain rfl := World.seen_eq opened sees
  rw [World.seen_setTx opened, Table.view_rewrite _ _ _ (InvoiceRow.id_credit _ _)]

theorem seen_setPaid {now : Time} {paidBy : AccountID} {overpayment : ℤ} {txHash : Bits256}
    {id : InvoiceID} {answer : Except Err Unit} (sees : w.seen = some s)
    (runs : (Stmt.setPaid now paidBy overpayment txHash id).run choice () w = some (answer, w')) :
    w'.seen = some { s with
      invoices := s.invoices.update (fun row => decide (row.id = id))
        (.pay now paidBy overpayment txHash) (InvoiceRow.id_pay _ _ _ _) } := by
  obtain ⟨tx, opened, _, _, rfl⟩ := run_setPaid runs
  obtain rfl := World.seen_eq opened sees
  rw [World.seen_setTx opened, Table.view_rewrite _ _ _ (InvoiceRow.id_pay _ _ _ _)]

theorem seen_setProcessingError {error : String} {account : AccountID} {lt : ℕ}
    {answer : Except Err Unit} (sees : w.seen = some s)
    (runs : (Stmt.setProcessingError error account lt).run choice () w = some (answer, w')) :
    w'.seen = some s := by
  obtain ⟨tx, opened, _, rfl⟩ := run_setProcessingError runs
  obtain rfl := World.seen_eq opened sees
  exact World.seen_setTx opened

theorem seen_setLastProcessed {lt : ℕ} {account : AccountID} {answer : Except Err Unit}
    (sees : w.seen = some s)
    (runs : (Stmt.setLastProcessed lt account).run choice () w = some (answer, w')) :
    w'.seen = some s := by
  obtain ⟨tx, opened, _, _, rfl⟩ := run_setLastProcessed runs
  obtain rfl := World.seen_eq opened sees
  exact World.seen_setTx opened

/-- `COMMIT` makes what the transaction sees the store. -/
theorem store_commit {answer : Except Err Unit} (sees : w.seen = some s)
    (runs : Stmt.commit.run choice () w = some (answer, w')) :
    w'.store = s ∧ ∃ call, w'.history.calls = w.history.calls ++ [call] := by
  obtain ⟨tx, opened, _, rfl⟩ := run_commit runs
  obtain rfl := World.seen_eq opened sees
  exact ⟨rfl, _, rfl⟩

end Stmt

/-! ## `processPayment` -/

section Payments

variable {log : List (Called Stmt Stmt.Val Err)} {payment : Payment}

theorem unwritten_query {op : Stmt} {result : Except Err op.Val} (nothing : op.changesNothing = true)
    (runs : Alone (At time) (perform op) w log result w') : w.Unwritten w' :=
  (Alone.query_cases runs).1.unwritten nothing

omit [Libraries] in
/-- What a query of one row has answered says whether there is the row. -/
theorem eq_of_orNoRows {α : Type} {row : Option α} :
    (∀ value, .ok value = orNoRows row → row = some value) ∧
      (.error .noRows = orNoRows row → row = none) := by
  cases row with
  | none => exact ⟨fun _ same => (nomatch same), fun _ => rfl⟩
  | some _ =>
      refine ⟨fun _ same => ?_, fun same => (nomatch same)⟩
      cases same
      rfl

/-- `getCurrencyID` finds the currency, or there is none, or it fails. -/
theorem getCurrencyID_alone {currency : Currency} {result : Except Err UUID}
    (runs : Alone (At time) (getCurrencyID currency) w log result w') :
    w.Unwritten w' ∧ (∀ id, result = .ok id → w.db.currencies.of currency = some id ∧ w' = w) ∧
      (result = .error .notFound → w.db.currencies.of currency = none ∧ w' = w) := by
  obtain ⟨answer, w₁, later, asks, rfl, ended⟩ := Alone.call_cases runs
  obtain ⟨_, rfl, rfl⟩ := Alone.ret_cases ended
  refine ⟨asks.unwritten rfl, fun id found => ?_, fun missing => ?_⟩
  · cases answer with
    | error _ => cases found
    | ok value =>
        cases found
        obtain ⟨_, _, ran⟩ := asks.run_of_ok
        simp only [Stmt.run, Option.some.injEq, Prod.mk.injEq] at ran
        exact ⟨eq_of_orNoRows.1 _ ran.1.symm, ran.2.symm⟩
  · cases answer with
    | ok _ => cases missing
    | error error =>
        rcases asks.run_of_error with rfl | ⟨_, _, ran⟩
        · cases missing
        · simp only [Stmt.run, Option.some.injEq, Prod.mk.injEq] at ran
          refine ⟨?_, ran.2.symm⟩
          cases stored : w.db.currencies.idOf currency.type currency.condition with
          | none => exact stored
          | some _ =>
              rw [stored] at ran
              cases ran.1

/-- The transaction finds the invoice of a payment, or there is none, or it fails. -/
theorem selectForPayment_alone {currency : UUID} {result : Except Err InvoiceRow}
    (runs : Alone (At time) (perform (.selectForPayment currency payment time)) w log result w')
    (sees : w.seen = some s) :
    w.Unwritten w' ∧
      (∀ row, result = .ok row → payable s.invoices currency payment = some row ∧ w'.seen = some s) ∧
      (result = .error .noRows → payable s.invoices currency payment = none ∧ w'.seen = some s) := by
  have asks := (Alone.query_cases runs).1
  refine ⟨asks.unwritten rfl, fun row found => ?_, fun missing => ?_⟩
  · subst found
    obtain ⟨_, _, ran⟩ := asks.run_of_ok
    obtain ⟨answered, sees'⟩ := Stmt.seen_selectForPayment sees ran
    exact ⟨eq_of_orNoRows.1 _ answered, sees'⟩
  · subst missing
    rcases asks.run_of_error with impossible | ⟨_, _, ran⟩
    · cases impossible
    · obtain ⟨answered, sees'⟩ := Stmt.seen_selectForPayment sees ran
      exact ⟨eq_of_orNoRows.2 answered, sees'⟩

/-- The row that a payment is credited to is the only one of its ID. -/
theorem Store.row_of_payable {row other : InvoiceRow} (found : s.payableBy payment = some row)
    (member : other ∈ s.invoices.rows) (same : decide (other.id = payment.invoiceID) = true) :
    other = row := by
  obtain ⟨currency, _, payable⟩ := Option.bind_eq_some_iff.mp found
  have stored := (Option.filter_eq_some_iff.mp payable).1
  have here := Table.find_of_mem member
  rw [of_decide_eq_true same, stored] at here
  exact (Option.some.inj here).symm

/-- The payment is credited, and the invoice is paid or not. -/
theorem creditPayment_alone {row : InvoiceRow} {result : Except Err (List Invoice)}
    (runs : Alone (At time) (creditPayment payment time row) w log result w')
    (sees : w.seen = some s) (found : s.payableBy payment = some row) :
    w.Unwritten w' ∧ ∀ paid, result = .ok paid → w'.seen = some (s.credit time payment) := by
  unfold creditPayment at runs
  rcases Alone.bind_cases runs with ⟨_, first, rfl⟩ | ⟨_, w₁, _, _, first, runs, _⟩
  · exact ⟨unwritten_query rfl first, fun _ impossible => by cases impossible⟩
  have same₁ := unwritten_query rfl first
  obtain ⟨_, _, ran⟩ := (Alone.query_cases first).1.run_of_ok
  have sees₁ := Stmt.seen_acceptKey sees ran
  rcases Alone.bind_cases runs with ⟨_, first, rfl⟩ | ⟨_, w₂, _, _, first, runs, _⟩
  · exact ⟨same₁.trans (unwritten_query rfl first), fun _ impossible => by cases impossible⟩
  have same₂ := same₁.trans (unwritten_query rfl first)
  obtain ⟨_, _, ran⟩ := (Alone.query_cases first).1.run_of_ok
  have sees₂ := Stmt.seen_setOverpayment sees₁ ran
  -- A row that is not paid by this payment is credited only.
  have credited : InvoiceRow.receive time payment row =
      row.credit (row.overpayment + payment.amount) time → w₂.seen = some (s.credit time payment) := by
    intro only
    rw [sees₂, Store.credit]
    congr 2
    refine Table.update_congr _ _ fun other member same => ?_
    rw [Store.row_of_payable found member same]
    exact only.symm
  split at runs
  · rename_i closed
    obtain ⟨_, rfl, rfl⟩ := Alone.ret_cases runs
    exact ⟨same₂, fun _ _ => credited (if_pos closed)⟩
  rename_i opened
  split at runs
  · rename_i partially
    obtain ⟨_, rfl, rfl⟩ := Alone.ret_cases runs
    exact ⟨same₂, fun _ _ => credited ((if_neg opened).trans (if_pos partially))⟩
  rename_i enough
  rcases Alone.bind_cases runs with ⟨_, first, rfl⟩ | ⟨_, w₃, _, _, first, runs, _⟩
  · exact ⟨same₂.trans (unwritten_query rfl first), fun _ impossible => by cases impossible⟩
  have same₃ := same₂.trans (unwritten_query rfl first)
  obtain ⟨_, _, ran⟩ := (Alone.query_cases first).1.run_of_ok
  have sees₃ := Stmt.seen_setPaid sees₂ ran
  obtain ⟨_, rfl, rfl⟩ := Alone.ret_cases runs
  refine ⟨same₃, fun _ _ => ?_⟩
  rw [sees₃, Store.credit]
  congr 2
  refine (Table.update_update (InvoiceRow.id_credit _ _) (InvoiceRow.id_pay _ _ _ _)
    fun _ => rfl).trans (Table.update_congr _ _ fun other member same => ?_)
  rw [Store.row_of_payable found member same]
  exact ((if_neg opened).trans (if_neg enough)).symm

/-- A program that has failed has done nothing more. -/
theorem unwritten_fail {α : Type} {error : Err} {result : Except Err α} {w₁ : World Unit}
    (before : w.Unwritten w₁) (runs : Alone (At time) (Prog.fail error) w₁ log result w') {P : Prop} :
    w.Unwritten w' ∧ ∀ value, result = .ok value → P := by
  obtain ⟨_, rfl, rfl⟩ := Alone.ret_cases runs
  exact ⟨before, fun _ impossible => by cases impossible⟩

/-- **What `processPayment` does in its transaction is to receive the payment.** -/
theorem processPayment_alone {result : Except Err (List Invoice)}
    (runs : Alone (At time) (processPayment payment) w log result w') (sees : w.seen = some s) :
    w.Unwritten w' ∧ ∀ paid, result = .ok paid → w'.seen = some (s.receive time payment) := by
  have currencies : s.currencies = w.db.currencies := by
    obtain ⟨tx, opened, _⟩ := Option.map_eq_some_iff.mp sees
    rw [World.seen_eq opened sees]
  unfold processPayment at runs
  obtain ⟨found, w₁, _, _, first, continues, _⟩ := Alone.attempt_bind_cases runs
  obtain ⟨same₁, finds, misses⟩ := getCurrencyID_alone first
  split at continues
  · obtain ⟨missing, rfl⟩ := misses rfl
    obtain ⟨_, rfl, rfl⟩ := Alone.ret_cases continues
    refine ⟨same₁, fun _ _ => ?_⟩
    rw [sees, Store.receive, Store.payableBy, currencies, missing]
    rfl
  · exact unwritten_fail same₁ continues
  rename_i currency
  obtain ⟨tracked, rfl⟩ := finds currency rfl
  rw [← currencies] at tracked
  have payableBy : s.payableBy payment = payable s.invoices currency payment := by
    rw [Store.payableBy, tracked, Option.bind_some]
  rcases Alone.bind_cases continues with ⟨_, first, rfl⟩ | ⟨now, w₂, _, _, first, selects, _⟩
  · exact ⟨unwritten_query rfl first, fun _ impossible => by cases impossible⟩
  obtain ⟨_, rfl, ran⟩ := (Alone.query_cases first).1.run_of_ok
  cases ran
  obtain ⟨found, w₃, _, _, first, credits, _⟩ := Alone.attempt_bind_cases selects
  obtain ⟨same₃, finds, misses⟩ := selectForPayment_alone first sees
  split at credits
  · obtain ⟨missing, sees₃⟩ := misses rfl
    obtain ⟨_, rfl, rfl⟩ := Alone.ret_cases credits
    refine ⟨same₃, fun _ _ => ?_⟩
    rw [sees₃, Store.receive, payableBy, missing]
  · exact unwritten_fail same₃ credits
  · rename_i row
    obtain ⟨found, sees₃⟩ := finds row rfl
    rw [← payableBy] at found
    obtain ⟨same, sees'⟩ := creditPayment_alone credits sees₃ found
    refine ⟨same₃.trans same, fun paid ended => ?_⟩
    rw [Store.receive, found]
    exact sees' paid ended
/-! ## `SavePayments` -/

theorem processPayments_alone {payments : List Payment} {result : Except Err (List Invoice)}
    (runs : Alone (At time) (processPayments payments) w log result w') (sees : w.seen = some s) :
    w.Unwritten w' ∧ ∀ paid, result = .ok paid → w'.seen = some (s.receiveAll time payments) := by
  induction payments generalizing w w' s log result with
  | nil =>
      obtain ⟨_, rfl, rfl⟩ := Alone.ret_cases runs
      exact ⟨.refl _, fun _ _ => sees⟩
  | cons payment rest ih =>
      rw [processPayments] at runs
      rcases Alone.bind_cases runs with ⟨_, first, rfl⟩ | ⟨_, w₁, _, _, first, later, _⟩
      · exact ⟨(processPayment_alone first sees).1, fun _ impossible => by cases impossible⟩
      obtain ⟨same₁, sees₁⟩ := processPayment_alone first sees
      rcases Alone.bind_cases later with ⟨_, second, rfl⟩ | ⟨_, w₂, _, _, second, ended, _⟩
      · exact ⟨same₁.trans (ih second (sees₁ _ rfl)).1, fun _ impossible => by cases impossible⟩
      obtain ⟨same₂, sees₂⟩ := ih second (sees₁ _ rfl)
      obtain ⟨_, rfl, rfl⟩ := Alone.ret_cases ended
      exact ⟨same₁.trans same₂, fun _ _ => sees₂ _ rfl⟩

theorem writePayments_alone {call : PaymentCall} {result : Except Err (List Invoice)}
    (runs : Alone (At time) (writePayments call) w log result w') (sees : w.seen = some s) :
    w.Unwritten w' ∧
      ∀ paid, result = .ok paid → w'.seen = some (s.receiveAll time call.recorded) := by
  have records : ∀ {log : List (Called Stmt Stmt.Val Err)} {result : Except Err (List Invoice)}
      {w₁ : World Unit}, Alone (At time) (recordPayments call) w log result w₁ → w.Unwritten w₁ ∧
        ∀ paid, result = .ok paid → w₁.seen = some (s.receiveAll time call.recorded) := by
    intro log result w₁ records
    cases parsing : call.parsingError with
    | some error =>
        have recorded : call.recorded = [] := by simp only [PaymentCall.recorded, parsing]
        simp only [recordPayments, parsing] at records
        rw [recorded]
        rcases Alone.bind_cases records with ⟨_, first, rfl⟩ | ⟨_, _, _, _, first, ended, _⟩
        · exact ⟨unwritten_query rfl first, fun _ impossible => by cases impossible⟩
        obtain ⟨_, _, ran⟩ := (Alone.query_cases first).1.run_of_ok
        obtain ⟨_, rfl, rfl⟩ := Alone.ret_cases ended
        exact ⟨unwritten_query rfl first, fun _ _ => Stmt.seen_setProcessingError sees ran⟩
    | none =>
        have recorded : call.recorded = call.payments := by
          simp only [PaymentCall.recorded, parsing]
        simp only [recordPayments, parsing] at records
        rw [recorded]
        exact processPayments_alone records sees
  unfold writePayments at runs
  rcases Alone.bind_cases runs with ⟨_, first, rfl⟩ | ⟨paid, w₁, _, _, first, later, _⟩
  · exact ⟨(records first).1, fun _ impossible => by cases impossible⟩
  obtain ⟨same₁, sees₁⟩ := records first
  rcases Alone.bind_cases later with ⟨_, second, rfl⟩ | ⟨_, w₂, _, _, second, ended, _⟩
  · exact ⟨same₁.trans (unwritten_query rfl second), fun _ impossible => by cases impossible⟩
  obtain ⟨_, _, ran⟩ := (Alone.query_cases second).1.run_of_ok
  obtain ⟨_, rfl, rfl⟩ := Alone.ret_cases ended
  exact ⟨same₁.trans (unwritten_query rfl second),
    fun _ _ => Stmt.seen_setLastProcessed (sees₁ _ rfl) ran⟩

/-- The store is as before, and no call has committed. -/
structure World.Settled (w w' : World Unit) : Prop where
  store : w'.store = w.store
  calls : w'.history.calls = w.history.calls

theorem World.Settled.trans {w w₁ w' : World Unit} (first : w.Settled w₁) (later : w₁.Settled w') :
    w.Settled w' := ⟨later.store.trans first.store, later.calls.trans first.calls⟩

theorem World.Unwritten.settled (same : w.Unwritten w') : w.Settled w' :=
  ⟨same.store, by rw [same.history]⟩

/-- Outbox rows are not part of the store. -/
theorem notify_alone {invoice : Invoice} {result : Except Err Unit}
    (runs : Alone (At time) (saveInvoice invoice true) w log result w') : w.Settled w' := by
  unfold saveInvoice at runs
  rcases Alone.bind_cases runs with ⟨_, first, rfl⟩ | ⟨_, w₁, _, _, first, inserts, _⟩
  · exact (getCurrencyID_alone first).1.settled
  have same₁ := (getCurrencyID_alone first).1.settled
  rcases (Alone.query_cases inserts).1.tables_cases with same | ⟨_, found, w₂, _, ran, same⟩
  · exact same₁.trans same.settled
  · refine same₁.trans (World.Settled.trans ?_ same.settled)
    obtain ⟨_, _, _, rfl⟩ | ⟨_, _, rfl⟩ := Stmt.run_insertNotification ran
    · exact ⟨rfl, rfl⟩
    · exact ⟨rfl, rfl⟩

theorem notifyAll_alone {invoices : List Invoice} {result : Except Err PUnit}
    (runs : Alone (At time) (invoices.forM fun invoice => saveInvoice invoice true) w log result w') :
    w.Settled w' := by
  induction invoices generalizing w log with
  | nil =>
      obtain ⟨_, _, rfl⟩ := Alone.ret_cases runs
      exact ⟨rfl, rfl⟩
  | cons invoice rest ih =>
      rw [List.forM_eq_forM, List.forM_cons] at runs
      rcases Alone.bind_cases runs with ⟨_, first, rfl⟩ | ⟨_, w₁, _, _, first, later, _⟩
      · exact notify_alone first
      · exact (notify_alone first).trans (ih later)

/-- The call has committed: its payments have been received. -/
structure World.Receives (time : Time) (call : PaymentCall) (w w' : World Unit) : Prop where
  store : w'.store = w.store.receiveAll time call.recorded
  calls : ∃ committed, w'.history.calls = w.history.calls ++ [committed]

theorem World.Receives.trans {call : PaymentCall} {w₁ : World Unit} (first : w.Receives time call w₁)
    (later : w₁.Settled w') : w.Receives time call w' := by
  obtain ⟨committed, calls⟩ := first.calls
  exact ⟨later.store.trans first.store, committed, later.calls.trans calls⟩

theorem commitPayments_alone {call : PaymentCall} {result : Except Err Unit}
    (started : (w.threads ()).isSome)
    (runs : Alone (At time) (commitPayments call) w log result w') :
    (w.Settled w' ∧ ∃ error, result = .error error) ∨ w.Receives time call w' := by
  unfold commitPayments at runs
  rcases Alone.bind_cases runs with ⟨_, begins, rfl⟩ | ⟨_, w₁, _, _, begins, runs, _⟩
  · exact .inl ⟨(unwritten_query rfl begins).settled, _, rfl⟩
  have same₁ := unwritten_query rfl begins
  obtain ⟨_, _, ran⟩ := (Alone.query_cases begins).1.run_of_ok
  have sees₁ := Stmt.seen_begin started ran
  rcases Alone.bind_cases runs with ⟨_, writes, rfl⟩ | ⟨paid, w₂, _, _, writes, runs, _⟩
  · exact .inl ⟨(same₁.trans (writePayments_alone writes sees₁).1).settled, _, rfl⟩
  obtain ⟨same₂, sees₂⟩ := writePayments_alone writes sees₁
  have same := (same₁.trans same₂).settled
  have commits : ∀ {answer : Except Err Unit} {w₃ : World Unit}, At time .commit w₂ answer w₃ →
      w.Settled w₃ ∧ (∃ error, answer = .error error) ∨ w.Receives time call w₃ := by
    rintro answer w₃ ⟨fault, choice, _, runs⟩
    rcases Stmt.runUnder_cases runs with ⟨_, ran⟩ | ⟨_, _, failed, rfl⟩ | ⟨_, _, _, _, _, ran, rfl⟩
    · obtain ⟨store, committed, calls⟩ := Stmt.store_commit (sees₂ _ rfl) ran
      exact .inr ⟨store, committed, by rw [calls, same.calls]⟩
    · exact .inl ⟨same.trans ⟨rfl, rfl⟩, _, failed⟩
    · obtain ⟨store, committed, calls⟩ := Stmt.store_commit (sees₂ _ rfl) ran
      exact .inr ⟨store, committed, calls.trans (by rw [same.calls])⟩
  rcases Alone.bind_cases runs with ⟨_, ends, rfl⟩ | ⟨_, w₃, _, _, ends, runs, _⟩
  · rcases commits (Alone.query_cases ends).1 with ⟨same, _⟩ | receives
    · exact .inl ⟨same, _, rfl⟩
    · exact .inr receives
  · rcases commits (Alone.query_cases ends).1 with ⟨_, _, impossible⟩ | receives
    · cases impossible
    · exact .inr (receives.trans (notifyAll_alone runs))

/-- **A call of `SavePayments` receives its payments, or leaves the store and ends with
an error.** -/
theorem savePayments_alone {call : PaymentCall} {result : Except Err Unit}
    (started : (w.threads ()).isSome)
    (runs : Alone (At time) (savePayments call) w log result w') :
    (w.Settled w' ∧ ∃ error, result = .error error) ∨ w.Receives time call w' := by
  unfold savePayments at runs
  obtain ⟨found, w₁, _, _, commits, runs, _⟩ := Alone.attempt_bind_cases runs
  rcases Alone.bind_cases runs with ⟨error, rollback, rfl⟩ | ⟨_, w₂, _, _, rollback, ended, _⟩
  · have same := (unwritten_query rfl rollback).settled
    rcases commitPayments_alone started commits with ⟨before, _⟩ | receives
    · exact .inl ⟨before.trans same, error, rfl⟩
    · exact .inr (receives.trans same)
  · have same := (unwritten_query rfl rollback).settled
    obtain ⟨_, rfl, rfl⟩ := Alone.ret_cases ended
    rcases commitPayments_alone started commits with ⟨before, error⟩ | receives
    · exact .inl ⟨before.trans same, error⟩
    · exact .inr (receives.trans same)
/-! ## A payment can be received -/

/-- With a single thread no statement waits for a lock. -/
theorem not_blocked {ρ κ : Type} [DecidableEq κ] {key : ρ → κ} (w : World Unit)
    (written : Tx → List ρ) (seen : Table key) (condition : ρ → Bool) :
    w.blocked () written seen condition = false := by
  rw [World.blocked, List.any_eq_false]
  intro row _ locked
  rw [Bool.and_eq_true, World.lockedByOther, decide_eq_true_eq] at locked
  obtain ⟨_, _, other, _⟩ := locked
  exact other rfl

/-- The answers of a time when everything works. -/
def Choice.plain (time : Time) : Choice := ⟨time, [], [], [], true, .error .failed, .error .failed⟩

theorem At.plain {op : Stmt} {answer : Except Err op.Val}
    (ran : op.run (.plain time) () w = some (answer, w')) : At time op w answer w' :=
  ⟨.none, .plain time, rfl, ran⟩

/-- A program can end with a value. -/
def Can {α : Type} (time : Time) (program : Action α) (w : World Unit) (value : α)
    (w' : World Unit) : Prop := ∃ log, Alone (At time) program w log (.ok value) w'

section Can

variable {α β : Type} {program : Action α} {value : α} {result : β} {w₁ : World Unit}

theorem Can.pure (time : Time) (w : World Unit) (value : α) : Can time (return value) w value w :=
  ⟨_, .ret⟩

theorem Can.bind {rest : α → Action β} (first : Can time program w value w₁)
    (later : Can time (rest value) w₁ result w') : Can time (program >>= rest) w result w' := by
  obtain ⟨_, first⟩ := first
  obtain ⟨_, later⟩ := later
  exact ⟨_, first.bind later⟩

theorem Can.attempt_bind {rest : Except Err α → Action β} (first : Can time program w value w₁)
    (later : Can time (rest (.ok value)) w₁ result w') :
    Can time (program.attempt >>= rest) w result w' := by
  obtain ⟨_, first⟩ := first
  obtain ⟨_, later⟩ := later
  exact ⟨_, first.attempt_bind later⟩

theorem Can.perform {op : Stmt} {value : op.Val}
    (ran : op.run (.plain time) () w = some (.ok value, w')) :
    Can time (SpiceHarvester.perform op) w value w' := ⟨_, .query (At.plain ran)⟩

/-- A statement of an open transaction that succeeds. -/
theorem Can.inside {op : Stmt} {tx : Tx} {value : op.Val} {change : Tx → Tx}
    (opened : w.tx () = some tx)
    (ran : op.run (.plain time) () w = some (.ok value, w.setTx () (change tx))) :
    ∃ w' tx', Can time (SpiceHarvester.perform op) w value w' ∧ w'.tx () = some tx' ∧ w'.db = w.db :=
  ⟨_, change tx, .perform ran, World.tx_setTx opened, rfl⟩

end Can

section Receipt

variable {tx : Tx} (opened : w.tx () = some tx) (time : Time)

theorem can_getCurrencyID {currency : Currency} {id : UUID}
    (tracked : w.db.currencies.of currency = some id) :
    Can time (getCurrencyID currency) w id w := by
  have ran : (Stmt.selectCurrencyID currency.type currency.condition).run (.plain time) () w =
      some (.ok id, w) := by
    unfold Currencies.of at tracked
    rw [Stmt.run, tracked]
    rfl
  exact ⟨_, .call (At.plain ran) .ret⟩

include opened

theorem can_acceptKey (address : AccountID) :
    ∃ w' tx', Can time (perform (.acceptKey address)) w () w' ∧ w'.tx () = some tx' ∧
      w'.db = w.db := by
  apply Can.inside opened
  simp only [Stmt.run, opened, Option.bind_some, not_blocked, Bool.false_eq_true, if_false]
  rfl

theorem can_setOverpayment (overpayment : ℤ) (id : InvoiceID) :
    ∃ w' tx', Can time (perform (.setOverpayment overpayment time id)) w () w' ∧
      w'.tx () = some tx' ∧ w'.db = w.db := by
  apply Can.inside opened
  simp only [Stmt.run, opened, Option.bind_some, not_blocked, Bool.false_eq_true, if_false]
  rfl

theorem can_setPaid (paidBy : AccountID) (overpayment : ℤ) (txHash : Bits256) (id : InvoiceID) :
    ∃ w' tx', Can time (perform (.setPaid time paidBy overpayment txHash id)) w () w' ∧
      w'.tx () = some tx' ∧ w'.db = w.db := by
  apply Can.inside opened
  simp only [Stmt.run, opened, Option.bind_some, not_blocked, Bool.false_eq_true, if_false]
  rfl

theorem can_setLastProcessed (lt : ℕ) (account : AccountID) :
    ∃ w' tx', Can time (perform (.setLastProcessed lt account)) w () w' ∧ w'.tx () = some tx' ∧
      w'.db = w.db := by
  apply Can.inside opened
  simp only [Stmt.run, opened, Option.bind_some, not_blocked, Bool.false_eq_true, if_false]
  rfl

theorem can_creditPayment (payment : Payment) (row : InvoiceRow) :
    ∃ paid w' tx', Can time (creditPayment payment time row) w paid w' ∧ w'.tx () = some tx' ∧
      w'.db = w.db ∧ ∀ invoice ∈ paid, invoice.currency = payment.currency := by
  obtain ⟨w₁, tx₁, accepts, opened₁, db₁⟩ := can_acceptKey opened time payment.paidBy
  obtain ⟨w₂, tx₂, credits, opened₂, db₂⟩ :=
    can_setOverpayment opened₁ time (row.overpayment + payment.amount) payment.invoiceID
  have db := db₂.trans db₁
  by_cases closed : row.status ≠ .waiting ∨ row.expireAt < time
  · refine ⟨[], w₂, tx₂, accepts.bind (credits.bind ?_), opened₂, db, fun _ member => by cases member⟩
    rw [if_pos closed]
    exact .pure time w₂ _
  by_cases partially : row.overpayment + payment.amount < row.amount
  · refine ⟨[], w₂, tx₂, accepts.bind (credits.bind ?_), opened₂, db, fun _ member => by cases member⟩
    rw [if_neg closed, if_pos partially]
    exact .pure time w₂ _
  obtain ⟨w₃, tx₃, pays, opened₃, db₃⟩ := can_setPaid opened₂ time payment.paidBy
    (row.overpayment + payment.amount - row.amount) payment.txHash payment.invoiceID
  refine ⟨[paidInvoice row payment time], w₃, tx₃, accepts.bind (credits.bind ?_), opened₃,
    db₃.trans db, fun invoice member => ?_⟩
  · rw [if_neg closed, if_neg partially]
    exact pays.bind (.pure time w₃ _)
  · rw [List.mem_singleton.mp member]
    rfl

theorem can_processPayment {row : InvoiceRow} (sees : w.seen = some s)
    (found : s.payableBy payment = some row) :
    ∃ paid w' tx', Can time (processPayment payment) w paid w' ∧ w'.tx () = some tx' ∧
      w'.db = w.db ∧ ∀ invoice ∈ paid, invoice.currency = payment.currency := by
  obtain rfl := World.seen_eq opened sees
  obtain ⟨currency, tracked, payable⟩ := Option.bind_eq_some_iff.mp found
  have selects : (Stmt.selectForPayment currency payment time).run (.plain time) () w =
      some (.ok row, w.setTx () { tx with
        looked := tx.looked ++
          [(payment, ((w.db.invoices.view tx.invoices).find payment.invoiceID).isSome)]
        reading := some ⟨payment, row, time, false⟩ }) := by
    dsimp only at payable
    simp only [Stmt.run, opened, Option.map_some, payable]
    rfl
  obtain ⟨paid, w', tx', credits, opened', db, currencies⟩ :=
    can_creditPayment (World.tx_setTx opened) time payment row
  have looks : Can time (getCurrencyID payment.currency) w currency w :=
    can_getCurrencyID time tracked
  have clock : Can time (perform .now) w time w := .perform rfl
  exact ⟨paid, w', tx', looks.attempt_bind (clock.bind ((Can.perform selects).attempt_bind credits)),
    opened', db, currencies⟩

end Receipt

/-- The outbox rows of a currency that is stored can be written. -/
theorem can_notifyAll {invoices : List Invoice} (time : Time)
    (tracked : ∀ invoice ∈ invoices, (w.db.currencies.of invoice.currency).isSome) :
    ∃ w', Can time (invoices.forM fun invoice => saveInvoice invoice true) w PUnit.unit w' := by
  induction invoices generalizing w with
  | nil => exact ⟨w, .pure time w _⟩
  | cons invoice rest ih =>
      obtain ⟨id, found⟩ := Option.isSome_iff_exists.mp (tracked invoice List.mem_cons_self)
      obtain ⟨row, stored⟩ := Option.isSome_iff_exists.mp (Currencies.isSome_of found)
      have looks := can_getCurrencyID time found
      have inserts : (Stmt.insertNotification (invoice.row id)).run (.plain time) () w =
          some (.ok (), w.announce () (invoice.row id)) := by
        have currency : w.db.currencies.table.find (invoice.row id).currency = some row := stored
        rw [Stmt.run, World.insertNotification, currency]
      obtain ⟨w', rest⟩ := @ih (w.announce () (invoice.row id)) fun later member =>
        tracked later (List.mem_cons_of_mem _ member)
      exact ⟨w', (looks.bind (Can.perform inserts)).bind rest⟩

/-- **A payment for an invoice can be received.** -/
theorem can_savePayments {row : InvoiceRow} (time : Time) (account : AccountID) (lt : ℕ)
    (started : (w.threads ()).isSome) (found : w.store.payableBy payment = some row) :
    ∃ w', Can time (savePayments ⟨account, lt, [payment], none⟩) w () w' := by
  let call : PaymentCall := ⟨account, lt, [payment], none⟩
  obtain ⟨thread, held⟩ := Option.isSome_iff_exists.mp started
  let w₁ : World Unit := w.setThread () fun thread =>
    { thread with tx := some (.begun call), credited := false }
  have begins : (Stmt.begin call).run (.plain time) () w = some (.ok (), w₁) := rfl
  have opened₁ : w₁.tx () = some (.begun call) := by
    rw [World.tx, World.threads_setThread, held]
    rfl
  have sees₁ : w₁.seen = some w.store := Stmt.seen_begin started begins
  obtain ⟨paid, w₂, tx₂, processes, opened₂, db₂, currencies⟩ :=
    can_processPayment opened₁ time sees₁ found
  obtain ⟨w₃, tx₃, marks, opened₃, db₃⟩ := can_setLastProcessed opened₂ time lt account
  have ends : Stmt.commit.run (.plain time) () w₃ = some (.ok (), w₃.commit () tx₃) := by
    rw [Stmt.run, opened₃]
    rfl
  obtain ⟨id, tracked, _⟩ := Option.bind_eq_some_iff.mp found
  have same : (w₃.commit () tx₃).db.currencies = w.db.currencies := by
    change w₃.db.currencies = _
    rw [db₃, db₂]
    rfl
  obtain ⟨w₄, notifies⟩ := can_notifyAll (w := w₃.commit () tx₃) time fun invoice member => by
    rw [same, currencies invoice (by simpa using member)]
    exact Option.isSome_of_eq_some tracked
  have writes : Can time (writePayments call) w₁ paid w₃ := by
    have records : Can time (recordPayments call) w₁ paid w₂ := by
      have all : Can time (processPayments [payment]) w₁ (paid ++ []) w₂ :=
        processes.bind (.pure time w₂ (paid ++ []))
      rw [List.append_nil] at all
      exact all
    exact records.bind (marks.bind (.pure time w₃ paid))
  have commits : Can time (commitPayments call) w () w₄ :=
    (Can.perform begins).bind (writes.bind ((Can.perform ends).bind notifies))
  have rollback : Can time (perform .rollback) w₄ () _ := .perform rfl
  exact ⟨_, commits.attempt_bind (rollback.bind (.pure time _ ()))⟩

end Payments

end SpiceHarvester
