import SpiceHarvester.Api.Handlers
import SpiceHarvester.Ledger.Balance
import SpiceHarvester.Schedule

/-!
# Nothing is lost, in every run

The balances of the invoices in a run of the service, under any interleaving of its
statements, any faults and any stops of the process, where no two payment
transactions that are open at a time carry payments of one currency to one
recipient (`Exclusive`). Every invoice has then been credited with exactly what
the committed calls have received for it, and has the columns of a payment exactly
when it is paid (`invoices_conserved`), so that `getEncryptedData` always finds the
payer of a paid invoice.
-/

set_option autoImplicit false

namespace SpiceHarvester

open Interleaving Sql

section Runs

variable [Libraries] {τ : Type}

/-! ## Rules -/

/-- Invoices are created waiting and without an overpayment, payments have
non-negative amounts, and a payment transaction begins only when no other one
carries payments of the same currency to the same recipient. -/
structure Exclusive (rules : Rules τ) : Prop where
  creates : ∀ w invoice, rules.spawn w (.createInvoice invoice) →
    invoice.status = .waiting ∧ invoice.overpayment = 0
  amounts : ∀ w t call fault choice, rules.exec w t (.begin call) fault choice →
    fault ≠ .refused → ∀ payment ∈ call.payments, 0 ≤ payment.amount
  disjoint : ∀ w t call fault choice, rules.exec w t (.begin call) fault choice →
    fault ≠ .refused → ∀ u tx, u ≠ t → w.tx u = some tx → call.Disjoint tx.call

variable [DecidableEq τ] [Fintype τ] {printing : Printing} {rules : Rules τ}

theorem guarded_exclusive (exclusive : Exclusive rules) {db : Database} (sane : db.Sane)
    {c : Running τ} (run : Runs printing rules db c) :
    Guarded rules Books.exclusive c.state where
  creates := by
    intro t thread invoice currencyID held job
    have fresh : ∀ created, thread.job = .createInvoice created →
        created.status = .waiting ∧ created.overpayment = 0 :=
      job_of_run (fun job => ∀ created, job = .createInvoice created →
          created.status = .waiting ∧ created.overpayment = 0)
        sane (fun w job starts created same => exclusive.creates w created (same ▸ starts)) run held
    obtain ⟨status, overpayment⟩ := fresh invoice job
    exact ⟨status, overpayment, rfl, rfl, rfl⟩
  closes := fun _ _ _ => trivial
  begins := by
    intro t call fault choice allowed effective
    refine ⟨exclusive.amounts _ t call fault choice allowed effective, fun u book other found => ?_⟩
    obtain ⟨tx, opened, rfl⟩ := Option.map_eq_some_iff.mp found
    exact exclusive.disjoint _ t call fault choice allowed effective u tx other opened

/-- A database whose invoices have not been touched yet. -/
def Database.Fresh (db : Database) : Prop :=
  ∀ id row, db.invoices.find id = some row → row.Fresh

/-- **The books of an exclusive run balance.** -/
theorem balanced_run (exclusive : Exclusive rules) {db : Database} (sane : db.Sane)
    (fresh : db.Fresh) {c : Running τ} (run : Runs printing rules db c) :
    c.state.books.Balanced := by
  refine invariant_run (J := fun w => w.books.Balanced) sane ?_
    (fun {c c'} run sane' move balanced => ?_) run
  · exact {
      locked := .idle _
      keyed := Table.key_of_find
      versions := fun held => by cases held
      idle := fun _ _ => rfl
      disjoint := fun _ opened => by cases opened
      known := fun _ member => by cases member
      committed := by
        intro id row found
        have untouched := fresh id row found
        exact ⟨untouched.consistent, untouched.balance⟩
      running := fun opened => by cases opened }
  · obtain same | step := move.books sane' (guarded_exclusive exclusive sane run)
    · rw [same]
      exact balanced
    · exact balanced.step step

/-- Every committed call has looked up its tracked payments, one after the other. -/
theorem looked_run {db : Database} (sane : db.Sane) {c : Running τ}
    (run : Runs printing rules db c) :
    ∀ done ∈ c.state.history.calls,
      done.looked.map Prod.fst = done.call.tracked c.state.db.currencies := by
  refine invariant (J := fun w => ∀ done ∈ w.history.calls,
    done.looked.map Prod.fst = done.call.tracked w.db.currencies) sane
    (fun _ member => by cases member) (fun {w w'} sane move complete => ?_) run
  have free : Guarded rules ⟨fun _ => True, fun _ _ => True, fun _ _ _ => True⟩ w :=
    ⟨fun _ _ => trivial, fun _ _ _ => trivial, fun _ _ => trivial⟩
  obtain same | step := move.books sane free
  · have calls : w'.history.calls = w.history.calls := congrArg Books.calls same
    have currencies : w'.db.currencies = w.db.currencies := congrArg Books.currencies same
    rw [calls, currencies]
    exact complete
  · exact Books.Step.looked complete step

/-! ## The theorem -/

/-- An answer that a statement has in some state of a run. -/
def Answered (printing : Printing) (rules : Rules τ) (db : Database) (op : Stmt)
    (answer : Except Err op.Val) : Prop :=
  ∃ (c : Running τ) (t : τ) (fault : Fault) (choice : Choice) (w' : World τ),
    Runs printing rules db c ∧ op.runUnder fault choice t c.state = some (answer, w')

/-- The row that a `SELECT` of an invoice answers with is stored. -/
theorem stored_of_answered {db : Database} {id : InvoiceID} {row : InvoiceRow}
    (answered : Answered (τ := τ) printing rules db (.selectInvoice id) (.ok row)) :
    ∃ c : Running τ, Runs printing rules db c ∧ c.state.db.invoices.find id = some row := by
  obtain ⟨c, t, fault, choice, w', run, runs⟩ := answered
  obtain ⟨_, ran⟩ | ⟨_, _, same, _⟩ | ⟨_, _, same, _⟩ := Stmt.runUnder_cases runs
  · refine ⟨c, run, ?_⟩
    simp only [Stmt.run, Option.some.injEq, Prod.mk.injEq] at ran
    cases found : c.state.db.invoices.find id with
    | none =>
        rw [found] at ran
        cases ran.1
    | some stored =>
        rw [found] at ran
        cases ran.1
        rfl
  · cases same
  · cases same

/-- `GetInvoice` returns what a `SELECT` has answered. -/
theorem read_of_getInvoice {answers : (op : Stmt) → Except Err op.Val → Prop} {id : InvoiceID}
    {invoice : Invoice} (ends : (getInvoice id).Ends answers (.ok invoice)) :
    ∃ row currency, answers (.selectInvoice id) (.ok row) ∧ invoice = row.invoice currency := by
  obtain ⟨_, _, same⟩ | ⟨row, selected, ends⟩ := Prog.Ends.bind_cases ends
  · cases same
  obtain ⟨_, _, same⟩ | ⟨currency, _, ends⟩ := Prog.Ends.bind_cases ends
  · cases same
  cases ends
  refine ⟨row, currency, ?_, rfl⟩
  cases selected with
  | call answered ends =>
      rename_i answer
      cases answer with
      | error _ => cases ends
      | ok found =>
          cases ends
          exact answered

/-- **Nothing is lost.** In every state of an exclusive run, an invoice is paid
exactly when the columns of a payment are set, it has been paid in time, its
overpayment is not negative, and it has been credited with the sum of the payments
for it that the committed calls have looked up, which are all that they carried.
So `getEncryptedData` never dereferences a missing payer. -/
theorem invoices_conserved [Cryptography] (exclusive : Exclusive rules) {db : Database}
    (sane : db.Sane) (fresh : db.Fresh) :
    (∀ (c : Running τ), Runs printing rules db c →
      (∀ id row, c.state.db.invoices.find id = some row →
        (row.status = .paid ↔ row.paidBy.isSome ∧ row.paidAt.isSome ∧ row.txHash.isSome) ∧
        (∀ time, row.status = .paid → row.paidAt = some time → time ≤ row.expireAt) ∧
        0 ≤ row.overpayment ∧
        row.overpayment + (if row.status = .paid then row.amount else 0) =
          received c.state.db.currencies
            (c.state.history.calls.flatMap CommittedCall.looked) row) ∧
      (∀ done ∈ c.state.history.calls,
        done.looked.map Prod.fst = done.call.tracked c.state.db.currencies)) ∧
    (∀ handler pathID, ¬ (getEncryptedData handler pathID).Ends
      (Answered (τ := τ) printing rules db) (.ok (.panicked .nilDereference))) := by
  have consistent : ∀ {c : Running τ}, Runs printing rules db c → ∀ {id row},
      c.state.db.invoices.find id = some row → row.Consistent := by
    intro c run id row found
    exact ((balanced_run exclusive sane fresh run).committed found).1
  refine ⟨fun c run => ⟨fun id row found => ?_, looked_run sane run⟩, fun handler pathID ends => ?_⟩
  · obtain ⟨consistent, balance⟩ := (balanced_run exclusive sane fresh run).committed found
    refine ⟨⟨fun paid => ?_, fun ⟨paidBy, _⟩ => ?_⟩, fun time paid at' => ?_,
      consistent.overpayment, balance⟩
    · obtain ⟨paidBy, txHash, time, paidAt, _⟩ := consistent.paid paid
      exact ⟨paidBy, by rw [paidAt]; rfl, txHash⟩
    · by_contra unpaid
      rw [(consistent.unpaid unpaid).1] at paidBy
      cases paidBy
    · obtain ⟨_, _, time', paidAt, inTime⟩ := consistent.paid paid
      rw [paidAt, Option.some.injEq] at at'
      exact at' ▸ inTime
  · unfold getEncryptedData at ends
    split at ends
    · cases ends
    split at ends
    · cases ends
    obtain ⟨result, got, ends⟩ := Prog.Ends.attempt_bind_cases ends
    split at ends
    · cases ends
    · cases ends
    obtain ⟨row, currency, answered, rfl⟩ := read_of_getInvoice got
    obtain ⟨c, run, found⟩ := stored_of_answered answered
    unfold getEncryptedData.readMetadata at ends
    split at ends
    · cases ends
    rename_i paid
    split at ends
    · rename_i missing
      obtain ⟨paidBy, _⟩ := (consistent run found).paid (not_not.mp paid)
      change row.paidBy = none at missing
      rw [missing] at paidBy
      cases paidBy
    · obtain ⟨key, _, ends⟩ := Prog.Ends.attempt_bind_cases ends
      split at ends
      · cases ends
      · cases ends
      · split at ends <;> cases ends

end Runs

/-! ## Two payments for one invoice -/

section Shop

attribute [local instance] Texts.libraries Shop.cryptography

open Shop

/-- Payment transactions begin one at a time, with non-negative amounts. -/
def oneAtATime : Checks Bool where
  spawn _ job :=
    match job with
    | .createInvoice invoice => decide (invoice.status = .waiting ∧ invoice.overpayment = 0)
    | _ => true
  exec w t op _ _ :=
    match op with
    | .begin call => decide ((∀ payment ∈ call.payments, 0 ≤ payment.amount) ∧
        ∀ u, u ≠ t → w.tx u = none)
    | _ => true
  crash _ := true

theorem oneAtATime_exclusive : Exclusive oneAtATime.rules where
  creates := fun _ _ allowed => of_decide_eq_true allowed
  amounts := fun _ _ _ _ _ allowed _ => (of_decide_eq_true allowed).1
  disjoint := by
    intro w t call fault choice allowed _ u tx other opened
    rw [(of_decide_eq_true allowed).2 u other] at opened
    cases opened

theorem Shop.database_fresh : database.Fresh := by
  intro id row found
  obtain rfl := List.mem_singleton.mp (Table.find_eq_some.mp found).1
  exact ⟨rfl, rfl, rfl, rfl, rfl⟩

/-- What the payments for an invoice come to that the committed calls carry, whether the
invoice was stored when they were looked up or not. -/
def carried (currencies : Currencies) (calls : List CommittedCall) (row : InvoiceRow) : ℤ :=
  (((calls.flatMap fun done => done.call.payments).filter fun payment =>
    decide (payment.Pays currencies row)).map Payment.amount).sum

/-- The call is committed first, and then the invoice that it names is created. -/
def paidAhead : List (Act Bool) :=
  .spawn true (.savePayments (call 1 10)) :: List.replicate 6 (run true 0) ++
    .spawn false (.createInvoice (invoice.invoice .ton)) :: List.replicate 2 (run false 1)

/-- A payment that is committed before its invoice is created is not credited to it later:
invoices are not credited with all that the committed calls carry. -/
theorem payment_ahead_uncredited : ¬ ∀ (rules : Rules Bool) (db : Database), Exclusive rules →
    db.Sane → db.Fresh → ∀ c : Running Bool, Runs printing rules db c → ∀ id row,
      c.state.db.invoices.find id = some row →
      row.overpayment + (if row.status = .paid then row.amount else 0) =
        carried c.state.db.currencies c.state.history.calls row := by
  intro credited
  obtain ⟨c, _, reached, _, seen⟩ :=
    Checks.observed printing oneAtATime (.idle (.idle { database with invoices := .empty }))
      paidAhead []
      (fun c _ => (c.state.db.invoices.find 7).map (fun row =>
        (row.status, row.overpayment, carried c.state.db.currencies c.state.history.calls row)) =
          some (.waiting, 0, 10)) (by decide +kernel)
  obtain ⟨row, found, same⟩ := Option.map_eq_some_iff.mp seen
  obtain ⟨status, rest⟩ := Prod.mk.inj same
  obtain ⟨overpayment, carries⟩ := Prod.mk.inj rest
  have equal := credited oneAtATime.rules { database with invoices := .empty } oneAtATime_exclusive
    (fun _ _ impossible => by cases impossible) (fun _ _ impossible => by cases impossible) c
    reached 7 row found
  rw [status, overpayment, carries] at equal
  cases equal

/-- Payments of 4 and 9 for an invoice over 10 leave it paid, with 3 too much. -/
theorem two_payments_conserved :
    ∃ c : Running Bool, Runs printing oneAtATime.rules database c ∧
      ∃ row, c.state.db.invoices.find 7 = some row ∧ row.status = .paid ∧
        row.paidBy.isSome ∧ row.overpayment = 3 ∧ row.overpayment + row.amount =
          received c.state.db.currencies (c.state.history.calls.flatMap CommittedCall.looked) row := by
  obtain ⟨c, _, run, _, seen⟩ :=
    Checks.observed printing oneAtATime (.idle (.idle database))
      ([.spawn true (.savePayments (call 3 4)), .spawn false (.savePayments (call 4 9))] ++
        List.replicate 9 (run true 0) ++ List.replicate 9 (run false 0)) []
      (fun c _ => (c.state.db.invoices.find 7).map (fun row => (row.status, row.overpayment)) =
        some (.paid, 3)) (by decide +kernel)
  obtain ⟨row, found, same⟩ := Option.map_eq_some_iff.mp seen
  obtain ⟨status, overpayment⟩ := Prod.mk.inj same
  obtain ⟨paid, _, _, balance⟩ :=
    ((invoices_conserved oneAtATime_exclusive database_sane database_fresh).1 c run).1 7 row found
  rw [if_pos status] at balance
  exact ⟨c, run, row, found, status, (paid.mp status).1, overpayment, balance⟩

end Shop

end SpiceHarvester
