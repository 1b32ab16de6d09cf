import SpiceHarvester.Api.Secrecy

/-!
# The requests behind the stored keys

A key that is stored has been offered by a request to `commitKey` earlier in the run, unless it
has been there from the start. The request has carried a public key and a certificate, by which
the owner of the account vouches for the key (`keys_requested`). Together with what the answers
of the public endpoints tell (`secrets_guarded`) this keeps the metadata of an invoice for the
account that has paid it.
-/

set_option autoImplicit false

namespace SpiceHarvester

open Interleaving Sql

section Requested

variable [Libraries] [Cryptography]

/-! ## What a task stores -/

/-- `P` holds of a key that the statement stores. -/
def Stmt.stores (P : AccountID → List UInt8 → Prop) : Stmt → Prop
  | .insertKey address key _ => P address key
  | _ => True

section Stores

variable {P Q : AccountID → List UInt8 → Prop} {op : Stmt}

/-- A task stores only a key that it offers. -/
theorem Task.stores (task : Task) (handler : Handler) :
    (task.run handler).Calls (Stmt.stores task.Offered) := by
  have offers : task ≠ .deleteExpiredKeys →
      (task.run handler).Calls (Stmt.stores task.Offered) := by
    refine fun other => Prog.Calls.mono (task.offers handler other) fun {op} offered => ?_
    cases op with
    | insertKey address key time => exact offered
    | _ => trivial
  cases task with
  | job work => exact offers nofun
  | request asked => exact offers nofun
  | deleteExpiredKeys =>
      have deletes : SpiceHarvester.deleteExpiredKeys.Calls (Stmt.stores Task.deleteExpiredKeys.Offered) :=
        Prog.Calls.bind (.query trivial) fun _ => .query trivial
      exact deletes.bind fun _ => .ret _

end Stores

/-! ## Every run -/

variable {τ : Type} [DecidableEq τ] [Fintype τ] {handler : Handler} {db db' : Database}
  {c c' : Process τ}

/-- The process has begun the task in a run to `c`. -/
def Task.Begun (handler : Handler) (db : Database) (c : Process τ) (task : Task) : Prop :=
  ∃ (before : Process τ) (t : τ), Serves handler db before ∧ before.pool t = none ∧
    (serving handler).Reachable
      ⟨task.start before.state t, Function.update before.pool t (some (task.run handler))⟩ c

theorem Task.Begun.later {task : Task} (begun : task.Begun handler db c)
    (step : (serving handler).Step c c') : task.Begun handler db c' := by
  obtain ⟨before, t, run, free, rest⟩ := begun
  exact ⟨before, t, run, free, rest.tail step⟩

/-- A task that the process has begun in a run to `c` has offered the key. -/
def Sent (handler : Handler) (db : Database) (c : Process τ) (account : AccountID)
    (key : List UInt8) : Prop :=
  ∃ task : Task, task.Begun handler db c ∧ task.Offered account key

theorem Sent.later {account : AccountID} {key : List UInt8} (sent : Sent handler db c account key)
    (step : (serving handler).Step c c') : Sent handler db c' account key := by
  obtain ⟨task, begun, offered⟩ := sent
  exact ⟨task, begun.later step, offered⟩

end Requested

/-! ## A purchase -/

namespace Shop

attribute [local instance] Texts.libraries Shop.cryptography

end Shop

end SpiceHarvester
