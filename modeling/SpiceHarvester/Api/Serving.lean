import SpiceHarvester.Api.Handlers
import SpiceHarvester.Service

/-!
# The process with its public endpoints

Beside the jobs of the service the process answers requests to its public endpoints, and
deletes the expired keys. All of them are interleaved statement by statement, over one
database. Nothing is assumed of the outside: any job starts and any request comes in at any
time, every statement that can fail may fail, lite servers answer what they like, and the
process may stop at any point.
-/

set_option autoImplicit false

namespace SpiceHarvester

open Interleaving

variable [Libraries] [Cryptography]

/-- What a goroutine of the process does. -/
inductive Task where
  | job (job : Job)
  | request (request : PublicRequest)
  | deleteExpiredKeys

/-- How it ends. -/
inductive Served where
  | done (invoice : Option Invoice)
  | responded (request : PublicRequest) (response : Response)
  | deleted

namespace Task

/-- The program of a task. A request is answered through `recoverMiddleware`. -/
def run (handler : Handler) : Task → Action Served
  | .job work => do
      let invoice ← runJob handler.printing work
      return .done invoice
  | .request asked => do
      let outcome ← asked.handle handler
      return .responded asked (recoverMiddleware outcome)
  | .deleteExpiredKeys => do
      SpiceHarvester.deleteExpiredKeys
      return .deleted

variable {τ : Type} [DecidableEq τ]

/-- The state when a task starts. Only jobs keep something of their own. -/
def start (w : World τ) (t : τ) : Task → World τ
  | .job work => w.start t work
  | _ => w.leave t

end Task

variable {τ : Type} [DecidableEq τ] [Fintype τ]

/-- The process. -/
def serving (handler : Handler) : System τ Stmt Stmt.Val Err Served (World τ) where
  spawn t w program w' := ∃ task : Task, program = task.run handler ∧ w' = task.start w t
  exec t op w answer w' := ∃ fault choice, op.runUnder fault choice t w = some (answer, w')
  retire t _ w w' := w' = w.leave t
  crash w w' := w' = w.restart

/-- The process and what its goroutines still have to do. -/
abbrev Process (τ : Type) : Type := Config τ Stmt Stmt.Val Err Served (World τ)

/-- A run of the process from its start over a database. -/
abbrev Serves (handler : Handler) (db : Database) : Process τ → Prop :=
  (serving handler).Reachable (.idle (.idle db))

end SpiceHarvester
