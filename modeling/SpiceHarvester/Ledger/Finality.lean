import SpiceHarvester.Ledger.Status
import SpiceHarvester.Schedule

/-!
# Final statuses, in every run

The statuses of the invoices in a run of the service, under any interleaving of
its statements, any faults and any stops of the process. They are final as long
as `CancelInvoice` and `MarkExpired` do not close an invoice between the `SELECT`
and the first `UPDATE` of a payment that makes it paid (`statuses_final`). In
that window they do close it, and the payment then overwrites the status
(`cancelled_invoice_paid`).
-/

set_option autoImplicit false

namespace SpiceHarvester

open Interleaving Sql

section Runs

variable [Libraries] {τ : Type}

namespace World

/-- The statement closes no invoice that an open payment transaction has read as
one that its payment makes paid, and has not written yet. -/
def Undisturbed (w : World τ) (op : Stmt) : Prop :=
  ∀ condition t tx reading row, op.closes = some condition → w.tx t = some tx →
    tx.reading = some reading → reading.pays = true → reading.credited = false →
    w.db.invoices.find reading.payment.invoiceID = some row → condition row = false

/-- The statuses of the invoices lead from one state to another. -/
def Leads (w w' : World τ) : Prop :=
  ∀ id row, w.db.invoices.find id = some row →
    ∃ row', w'.db.invoices.find id = some row' ∧ row.status.Leads row'.status

end World

theorem guarded_undisturbed {rules : Rules τ}
    (calm : ∀ w t op fault choice, rules.exec w t op fault choice → fault ≠ .refused →
      w.Undisturbed op) (w : World τ) : Guarded rules Books.undisturbed w where
  creates := fun _ _ => trivial
  closes := by
    intro t op fault choice condition allowed effective closes u book reading row found
    obtain ⟨tx, opened, rfl⟩ := Option.map_eq_some_iff.mp found
    exact calm w t op fault choice allowed effective condition u tx reading row closes opened
  begins := fun _ _ => trivial

variable [DecidableEq τ] [Fintype τ] {printing : Printing} {rules : Rules τ}

/-- The books stay legal in every run that closes invoices undisturbed. -/
theorem legal_run {db : Database} (sane : db.Sane)
    (calm : ∀ w t op fault choice, rules.exec w t op fault choice → fault ≠ .refused →
      w.Undisturbed op) {c : Running τ} (run : Runs printing rules db c) : c.state.books.Legal := by
  refine invariant (J := fun w => w.books.Legal) sane ?_ (fun {w w'} sane move legal => ?_) run
  · exact {
      locked := .idle _
      versions := fun held => by cases held
      window := fun opened => by cases opened
      paid := fun opened => by cases opened
      final := fun member => by cases member }
  · obtain same | step := move.books sane (guarded_undisturbed calm w)
    · rw [same]
      exact legal
    · exact legal.step step

/-- The statuses lead from every state of such a run to every later one. -/
theorem leads_run {db : Database} (sane : db.Sane)
    (calm : ∀ w t op fault choice, rules.exec w t op fault choice → fault ≠ .refused →
      w.Undisturbed op) {c c' : Running τ} (run : Runs printing rules db c)
    (later : (system printing rules).Reachable c c') : c.state.Leads c'.state := by
  induction later with
  | refl => exact Books.Leads.refl c.state.books
  | @tail c₁ c₂ before step ih =>
      have legal := legal_run sane calm (run.trans before)
      obtain ⟨sane₁, move⟩ := moves_of_step sane (run.trans before) step
      have leads : c₁.state.books.Leads c₂.state.books := by
        obtain same | step := move.books sane₁ (guarded_undisturbed calm c₁.state)
        · rw [same]
          exact .refl _
        · exact legal.leads step
      have first : c.state.books.Leads c₁.state.books := ih
      exact first.trans leads

/-- **Statuses are final.** In every run in which invoices are closed undisturbed,
the status of an invoice only moves along the edges of the state diagram, a status
other than `waiting` stays, and an invoice that `CancelInvoice` has reported as
cancelled stays cancelled. -/
theorem statuses_final {db : Database} (sane : db.Sane)
    (calm : ∀ w t op fault choice, rules.exec w t op fault choice → fault ≠ .refused →
      w.Undisturbed op) {c c' : Running τ} (run : Runs printing rules db c)
    (later : (system printing rules).Reachable c c') :
    (∀ id row, c.state.db.invoices.find id = some row →
      ∃ row', c'.state.db.invoices.find id = some row' ∧
        (row'.status = row.status ∨ row.status.Edge row'.status)) ∧
    (∀ id row, c.state.db.invoices.find id = some row → row.status ≠ .waiting →
      ∃ row', c'.state.db.invoices.find id = some row' ∧ row'.status = row.status) ∧
    (∀ t thread id returned, c.state.threads t = some thread → thread.job = .cancelInvoice id →
      c.pool t = some (.ret (.ok returned)) →
      ∃ row', c'.state.db.invoices.find id = some row' ∧ row'.status = .cancelled) := by
  have leads := leads_run sane calm run later
  refine ⟨leads, ?_, ?_⟩
  · intro id row found final
    obtain ⟨row', found', moves⟩ := leads id row found
    exact ⟨row', found', moves.final final⟩
  · intro t thread id returned held job ended
    obtain ⟨thread', held', done⟩ :=
      (disciplined sane run).post discipline_sound ended
    rw [held, Option.some.injEq] at held'
    subst held'
    obtain ⟨version, member⟩ := done.cancelled job rfl
    have legal := legal_run sane calm (run.trans later)
    refine legal.final ((grows_run sane run later).changes member) ?_
    exact InvoiceStatus.noConfusion

end Runs

/-! ## The window between the `SELECT` and the `UPDATE` -/

section Shop

attribute [local instance] Texts.libraries

open Shop

/-- Payments and cancellations, without faults and stops. -/
def faultless : Checks Bool where
  spawn _ job :=
    match job with
    | .cancelInvoice _ | .markExpired | .savePayments _ => true
    | _ => false
  exec _ _ _ fault _ := decide (fault = .none)
  crash _ := false

/-- The same, where no invoice is closed while a payment transaction is open. -/
def patient : Checks Bool where
  spawn := faultless.spawn
  exec w t op fault choice := faultless.exec w t op fault choice &&
    (op.closes.isNone || decide (∀ u, w.tx u = none))
  crash := faultless.crash

theorem patient_undisturbed (w : World Bool) (t : Bool) (op : Stmt) (fault : Fault)
    (choice : Choice) (allowed : patient.rules.exec w t op fault choice) : w.Undisturbed op := by
  intro condition u tx reading row closes opened
  simp only [Checks.rules, patient, closes, Option.isNone_some, Bool.false_or, Bool.and_eq_true,
    decide_eq_true_eq] at allowed
  rw [allowed.2 u] at opened
  cases opened

/-- A payment that comes after the cancellation has been reported is credited, and
leaves the invoice cancelled. -/
theorem cancelled_invoice_stays_cancelled :
    ∃ c c' : Running Bool, Runs printing patient.rules database c ∧
      (system printing patient.rules).Reachable c c' ∧
      Running.succeeded c false = true ∧
      (c'.state.db.invoices.find 7).map InvoiceRow.overpayment = some 10 ∧
      ∃ row', c'.state.db.invoices.find 7 = some row' ∧ row'.status = .cancelled := by
  obtain ⟨c, c', run, later, reported, job, credited⟩ :=
    Checks.observed printing patient (.idle (.idle database))
      (.spawn false (.cancelInvoice 7) :: List.replicate 6 (run false 0))
      (.spawn true (.savePayments (call 3 10)) :: List.replicate 8 (run true 0))
      (fun c c' => Running.succeeded c false = true ∧
        (c.state.threads false).map Thread.job = some (.cancelInvoice 7) ∧
        (c'.state.db.invoices.find 7).map InvoiceRow.overpayment = some 10) (by decide +kernel)
  obtain ⟨thread, held, same⟩ := Option.map_eq_some_iff.mp job
  obtain ⟨returned, ended⟩ := Running.succeeded_iff.mp reported
  exact ⟨c, c', run, later, reported, credited,
    (statuses_final database_sane
      (fun w t op fault choice allowed _ => patient_undisturbed w t op fault choice allowed)
      run later).2.2 false thread 7 returned held same ended⟩

/-- The payment reads the invoice, `CancelInvoice` cancels it and reports so, and
then the payment makes it paid. -/
theorem cancelled_invoice_paid :
    ∃ c c' : Running Bool, Runs printing faultless.rules database c ∧
      (system printing faultless.rules).Reachable c c' ∧
      (c.state.threads false).map Thread.job = some (.cancelInvoice 7) ∧
      Running.succeeded c false = true ∧
      (c.state.db.invoices.find 7).map InvoiceRow.status = some .cancelled ∧
      (c'.state.db.invoices.find 7).map InvoiceRow.status = some .paid :=
  Checks.observed printing faultless (.idle (.idle database))
    ([.spawn true (.savePayments (call 3 10)), .spawn false (.cancelInvoice 7)] ++
      List.replicate 4 (run true 0) ++ List.replicate 6 (run false 0))
    (List.replicate 5 (run true 0)) _ (by decide +kernel)

end Shop

end SpiceHarvester
