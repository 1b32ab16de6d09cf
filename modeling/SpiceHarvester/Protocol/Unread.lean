import SpiceHarvester.Indexer.Calls
import SpiceHarvester.Protocol.Soundness

/-!
# `SavePayments` reads no invoice back

The operations that change a status outside a transaction read the invoice back with
`GetInvoice` before they write its outbox row. `SavePayments` does not: it calls statements
of the indexer only (`unread`), so a thread that runs it has read no invoice back
(`unread_run`).
-/

set_option autoImplicit false

namespace SpiceHarvester

open Interleaving Sql

/-- The operations that run `SavePayments`. -/
def Job.indexes : Job → Bool
  | .savePayments _ | .indexerWorker .. => true
  | _ => false

/-- `SavePayments` reports no change of an invoice by its error. -/
theorem Job.reports_of_indexes {job : Job} (indexes : job.indexes = true) : job.reports = false := by
  cases job <;> first | rfl | cases indexes

variable [Libraries] {τ : Type} [DecidableEq τ] [Fintype τ]

/-- A thread that runs `SavePayments` calls statements of the indexer only. -/
def unread (printing : Printing) (rules : Rules τ) : Contract (system printing rules) where
  rely t w w' := w'.job t = w.job t
  inv w := ∀ t thread, w.threads t = some thread → thread.job.indexes = true →
    thread.lastRead = none
  pre t op w := ∀ job, w.job t = some job → job.indexes = true → op.indexes = true
  post _ _ _ := True

variable {printing : Printing} {rules : Rules τ}

theorem unread_closed : (unread printing rules).Closed where
  rely_refl _ _ := rfl
  rely_trans first later := later.trans first

theorem indexes_runJob {job : Job} (indexes : job.indexes = true) : Indexes (runJob printing job) := by
  cases job with
  | savePayments call => exact (savePayments_calls call).bind fun _ => .ret _
  | indexerWorker account rounds => exact (indexerWorker_calls account rounds).bind fun _ => .ret _
  | _ => cases indexes

/-- No statement of the indexer reads an invoice back. -/
theorem Stmt.lastRead_of_indexes {t : τ} {op : Stmt} {choice : Choice} {w w' : World τ}
    {answer : Except Err op.Val} (indexes : op.indexes = true)
    (runs : op.run choice t w = some (answer, w')) :
    (w'.threads t).bind Thread.lastRead = (w.threads t).bind Thread.lastRead := by
  have kept : ∀ f : Thread → Thread, (∀ thread, (f thread).lastRead = thread.lastRead) →
      ((w.setThread t f).threads t).bind Thread.lastRead = (w.threads t).bind Thread.lastRead := by
    intro f keeps
    rw [World.threads_setThread, Option.bind_map]
    exact congrArg _ (funext keeps)
  have same : ∀ {w' : World τ}, w = w' →
      (w'.threads t).bind Thread.lastRead = (w.threads t).bind Thread.lastRead := fun same => same ▸ rfl
  cases op with
  | now => exact same (congrArg Prod.snd (Option.some.inj runs))
  | selectCurrencyID type info => exact same (congrArg Prod.snd (Option.some.inj runs))
  | insertNotification row =>
      obtain ⟨_, _, _, rfl⟩ | ⟨_, _, rfl⟩ := run_insertNotification runs
      · exact kept (Thread.announce row.id) fun _ => rfl
      · rfl
  | begin call => cases runs; exact kept _ fun _ => rfl
  | selectForPayment currency payment time =>
      obtain ⟨tx, _, _, rfl⟩ := run_selectForPayment runs
      exact kept _ fun _ => rfl
  | acceptKey address =>
      obtain ⟨tx, _, _, _, rfl⟩ := run_acceptKey runs
      exact kept _ fun _ => rfl
  | setOverpayment overpayment time id =>
      obtain ⟨tx, _, _, _, rfl⟩ := run_setOverpayment runs
      exact kept _ fun _ => rfl
  | setPaid time paidBy overpayment txHash id =>
      obtain ⟨tx, _, _, _, rfl⟩ := run_setPaid runs
      exact kept _ fun _ => rfl
  | setProcessingError error account lt =>
      obtain ⟨tx, _, _, rfl⟩ := run_setProcessingError runs
      exact kept _ fun _ => rfl
  | setLastProcessed lt account =>
      obtain ⟨tx, _, _, _, rfl⟩ := run_setLastProcessed runs
      exact kept _ fun _ => rfl
  | commit =>
      obtain ⟨tx, _, _, rfl⟩ := run_commit runs
      exact kept (Thread.close (tx.changes (w.db.invoices.view tx.invoices)) tx.credits) fun _ => rfl
  | rollback => cases runs; exact kept _ fun _ => rfl
  | selectLastProcessed account => cases runs; exact kept _ fun _ => rfl
  | selectTransactionByParent account lt => cases runs; exact kept _ fun _ => rfl
  | _ => cases indexes

theorem unread_sound : (unread printing rules).Sound where
  toClosed := unread_closed
  exec := by
    rintro t op w answer w' kept pre ⟨fault, choice, _, runs⟩
    have jobs := Stmt.runUnder_job runs
    refine ⟨fun u thread held indexes => ?_, fun u _ => congrFun jobs u⟩
    have job : w.job u = some thread.job := by
      rw [← jobs, World.job, held, Option.map_some]
    obtain ⟨before, held₀, same⟩ := Option.map_eq_some_iff.mp job
    have unread : before.lastRead = none := kept u before held₀ (same ▸ indexes)
    by_cases own : u = t
    · subst own
      have calls : op.indexes = true := pre _ job indexes
      have last : (w'.threads u).bind Thread.lastRead = (w.threads u).bind Thread.lastRead := by
        obtain ⟨_, ran⟩ | ⟨_, _, _, rfl⟩ | ⟨_, _, _, _, w₀, ran, rfl⟩ := Stmt.runUnder_cases runs
        · exact Stmt.lastRead_of_indexes calls ran
        · rw [World.threads_setThread, Option.bind_map]
          rfl
        · rw [← Stmt.lastRead_of_indexes calls ran, World.threads_setThread, Option.bind_map]
          rfl
      rw [held, held₀, Option.bind_some, Option.bind_some] at last
      exact last.trans unread
    · rw [(Stmt.runUnder_kept runs).others own, held₀, Option.some.injEq] at held
      exact held ▸ unread
  spawn := by
    rintro t w program w' kept ⟨job, _, rfl, rfl⟩
    have others : ∀ {u}, u ≠ t → (w.start t job).job u = w.job u := fun other => by
      rw [World.job, World.job, World.threads_start_of_ne other]
    have kept' : (unread printing rules).inv (w.start t job) := by
      intro u thread held indexes
      by_cases own : u = t
      · subst own
        rw [World.threads_start, Option.some.injEq] at held
        subst held
        rfl
      · rw [World.threads_start_of_ne own] at held
        exact kept u thread held indexes
    refine ⟨kept', fun u other => others other, ?_⟩
    have started : (w.start t job).job t = some job := by
      rw [World.job, World.threads_start]
      rfl
    have stable : (unread printing rules).Stable t fun w => w.job t = some job :=
      fun _ _ same holds => same.trans holds
    have keeps : ∀ {op w answer w'}, (system printing rules).exec t op w answer w' →
        w.job t = some job → w'.job t = some job := by
      rintro op w answer w' ⟨_, _, _, runs⟩ holds
      exact (congrFun (Stmt.runUnder_job runs) t).trans holds
    by_cases indexes : job.indexes = true
    · exact (Contract.Triple.of_calls (indexes_runJob indexes) stable
        (fun calls _ _ _ _ _ => calls) (fun _ _ holds runs => keeps runs holds) _ kept' started).weaken
          fun _ _ _ _ => trivial
    · refine (Contract.Triple.of_calls (.any _) stable (fun _ _ holds other same indexes' => ?_)
        (fun _ _ holds runs => keeps runs holds) _ kept' started).weaken fun _ _ _ _ => trivial
      rw [holds, Option.some.injEq] at same
      exact absurd (same ▸ indexes') indexes
  retire := by
    rintro t result w w' kept _ rfl
    refine ⟨fun u thread held indexes => ?_, fun u other => ?_⟩
    · by_cases own : u = t
      · subst own
        rw [World.threads_leave] at held
        cases held
      · rw [World.threads_leave_of_ne own] at held
        exact kept u thread held indexes
    · change (w.leave t).job u = w.job u
      rw [World.job, World.job, World.threads_leave_of_ne other]
  crash := by
    rintro w w' _ ⟨_, rfl⟩ u thread held
    cases held

/-- **No thread that runs `SavePayments` has read an invoice back.** -/
theorem unread_run {db : Database} {c : Running τ} (run : Runs printing rules db c) {t : τ}
    {thread : Thread} (held : c.state.threads t = some thread) (indexes : thread.job.indexes = true) :
    thread.lastRead = none :=
  (unread_sound.reachable (.idle fun _ _ held => by cases held) run).inv t thread held indexes

end SpiceHarvester
