import SpiceHarvester.Indexer.Loader
import SpiceHarvester.Indexer.Worker
import SpiceHarvester.Interleaving.Contract
import SpiceHarvester.Notifier

/-!
# The service: its jobs and the runs of a process

Any number of threads run the jobs of the service over one database. A step
starts a job, runs one statement of one thread, takes away a thread that has
ended, or stops the process. What starts, which statements fail and when the
process stops is up to the environment, as far as the rules of the run allow.
-/

set_option autoImplicit false

namespace SpiceHarvester

open Interleaving

variable [Libraries]

/-- The program of a job. Only `CancelInvoice` returns an invoice. -/
def runJob (printing : Printing) : Job → Action (Option Invoice)
  | .createInvoice invoice => do
      createInvoice invoice
      return none
  | .cancelInvoice id => do
      let invoice ← cancelInvoice id
      return some invoice
  | .markExpired => do
      markExpired
      return none
  | .savePayments call => do
      savePayments call
      return none
  | .indexerWorker account rounds => do
      indexerWorker account rounds
      return none
  | .loaderWorker account rounds => do
      loaderWorker account rounds
      return none
  | .notifier rounds => do
      runNotifier printing rounds
      return none

/-- What the environment of a run may do: which jobs start, which statements run
under which fault and with which answer from outside, and when the process
stops. -/
structure Rules (τ : Type) where
  spawn : World τ → Job → Prop
  exec : World τ → τ → Stmt → Fault → Choice → Prop
  crash : World τ → Prop

/-- The process: its state and what its threads still have to run. -/
abbrev Running (τ : Type) : Type := Config τ Stmt Stmt.Val Err (Option Invoice) (World τ)

variable {τ : Type} [DecidableEq τ] [Fintype τ]

/-- The service under the rules of a run. -/
def system (printing : Printing) (rules : Rules τ) :
    System τ Stmt Stmt.Val Err (Option Invoice) (World τ) where
  spawn t w program w' :=
    ∃ job, rules.spawn w job ∧ program = runJob printing job ∧ w' = w.start t job
  exec t op w answer w' :=
    ∃ fault choice, rules.exec w t op fault choice ∧ op.runUnder fault choice t w = some (answer, w')
  retire t _ w w' := w' = w.leave t
  crash w w' := rules.crash w ∧ w' = w.restart

/-- A run of the service from the start of the process over a database. -/
abbrev Runs (printing : Printing) (rules : Rules τ) (db : Database) : Running τ → Prop :=
  (system printing rules).Reachable (.idle (.idle db))

end SpiceHarvester
