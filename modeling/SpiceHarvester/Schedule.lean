import SpiceHarvester.Api.Keys
import SpiceHarvester.Core.Texts
import SpiceHarvester.Interleaving.Log
import SpiceHarvester.Protocol.Soundness

/-!
# Schedules

A run of the service can be computed from a schedule: which thread starts, runs
its next statement or is taken away, and under which fault and choice. What the
rules of the run allow is decided by `Checks`. Every configuration that a schedule
computes is reachable (`Checks.reachable`).
-/

set_option autoImplicit false

namespace SpiceHarvester

open Interleaving Sql

/-- One step of a schedule. -/
inductive Act (τ : Type) where
  | spawn (t : τ) (job : Job)
  | exec (t : τ) (fault : Fault) (choice : Choice)
  | retire (t : τ)
  | crash

variable [Libraries] {τ : Type}

/-- Rules that can be decided. -/
structure Checks (τ : Type) where
  spawn : World τ → Job → Bool
  exec : World τ → τ → Stmt → Fault → Choice → Bool
  crash : World τ → Bool

namespace Checks

def rules (checks : Checks τ) : Rules τ where
  spawn w job := checks.spawn w job = true
  exec w t op fault choice := checks.exec w t op fault choice = true
  crash w := checks.crash w = true

variable [DecidableEq τ] [Fintype τ] (printing : Printing) (checks : Checks τ)

/-- What a step of a schedule does, where the rules allow it. -/
def act (c : Running τ) : Act τ → Option (Running τ)
  | .spawn t job =>
      if (c.pool t).isNone && checks.spawn c.state job then
        some ⟨c.state.start t job, Function.update c.pool t (some (runJob printing job))⟩
      else none
  | .exec t fault choice =>
      match c.pool t with
      | some (.call op next) =>
          if checks.exec c.state t op fault choice then
            (op.runUnder fault choice t c.state).map fun done =>
              ⟨done.2, Function.update c.pool t (some (next done.1))⟩
          else none
      | _ => none
  | .retire t =>
      match c.pool t with
      | some (.ret _) => some ⟨c.state.leave t, Function.update c.pool t none⟩
      | _ => none
  | .crash => if checks.crash c.state then some (.idle c.state.restart) else none

/-- What a schedule leads to. -/
def schedule : List (Act τ) → Running τ → Option (Running τ)
  | [], c => some c
  | first :: rest, c => (checks.act printing c first).bind (schedule rest)

variable {printing checks}

/-- A step of a schedule is a step of the service. -/
theorem step {c c' : Running τ} {first : Act τ} (acts : checks.act printing c first = some c') :
    (system printing checks.rules).Step c c' := by
  obtain ⟨w, pool⟩ := c
  cases first with
  | spawn t job =>
      simp only [act, Option.ite_none_right_eq_some, Bool.and_eq_true, Option.isNone_iff_eq_none,
        Option.some.injEq] at acts
      obtain ⟨⟨free, allowed⟩, rfl⟩ := acts
      exact .spawn free ⟨job, allowed, rfl, rfl⟩
  | exec t fault choice =>
      simp only [act] at acts
      split at acts
      · rename_i op next calls
        simp only [Option.ite_none_right_eq_some, Option.map_eq_some_iff] at acts
        obtain ⟨allowed, ⟨answer, w'⟩, runs, rfl⟩ := acts
        exact .exec calls ⟨fault, choice, allowed, runs⟩
      · cases acts
  | retire t =>
      simp only [act] at acts
      split at acts
      · rename_i result ended
        cases acts
        exact .retire ended rfl
      · cases acts
  | crash =>
      simp only [act, Option.ite_none_right_eq_some, Option.some.injEq] at acts
      obtain ⟨allowed, rfl⟩ := acts
      exact .crash ⟨allowed, rfl⟩

/-- **What a schedule computes is reachable.** -/
theorem reachable {acts : List (Act τ)} {c c' : Running τ}
    (leads : checks.schedule printing acts c = some c') :
    (system printing checks.rules).Reachable c c' := by
  induction acts generalizing c with
  | nil =>
      cases leads
      exact .refl
  | cons first rest ih =>
      obtain ⟨c₁, acts, leads⟩ := Option.bind_eq_some_iff.mp leads
      exact .head (step acts) (ih leads)

/-- The statement that a step of a schedule executes, with its answer. -/
def executed (c : Running τ) : Act τ → List (Called Stmt Stmt.Val Err)
  | .exec t fault choice =>
      match c.pool t with
      | some (.call op _) =>
          (op.runUnder fault choice t c.state).toList.map fun done => ⟨op, done.1⟩
      | _ => []
  | .spawn .. | .retire _ | .crash => []

/-- The statements that a schedule executes. -/
def record (printing : Printing) (checks : Checks τ) :
    List (Act τ) → Running τ → List (Called Stmt Stmt.Val Err)
  | [], _ => []
  | first :: rest, c =>
      executed c first ++ (checks.act printing c first).elim [] (record printing checks rest)

theorem logged_act {start c c' : Running τ} {log : List (Called Stmt Stmt.Val Err)} {first : Act τ}
    (acts : checks.act printing c first = some c')
    (before : Logged (system printing checks.rules) start log c) :
    Logged (system printing checks.rules) start (log ++ executed c first) c' := by
  obtain ⟨w, pool⟩ := c
  cases first with
  | spawn t job =>
      simp only [act, Option.ite_none_right_eq_some, Bool.and_eq_true, Option.isNone_iff_eq_none,
        Option.some.injEq] at acts
      obtain ⟨⟨free, allowed⟩, rfl⟩ := acts
      rw [executed, List.append_nil]
      exact before.spawn free ⟨job, allowed, rfl, rfl⟩
  | exec t fault choice =>
      simp only [act] at acts
      split at acts
      · rename_i op next calls
        simp only [Option.ite_none_right_eq_some, Option.map_eq_some_iff] at acts
        obtain ⟨allowed, ⟨answer, w'⟩, runs, rfl⟩ := acts
        have did : executed ⟨w, pool⟩ (.exec t fault choice) = [⟨op, answer⟩] := by
          simp only [executed, calls, runs, Option.toList_some, List.map_cons, List.map_nil]
        rw [did]
        exact before.exec calls ⟨fault, choice, allowed, runs⟩
      · cases acts
  | retire t =>
      simp only [act] at acts
      split at acts
      · rename_i result ended
        cases acts
        rw [executed, List.append_nil]
        exact before.retire ended rfl
      · cases acts
  | crash =>
      simp only [act, Option.ite_none_right_eq_some, Option.some.injEq] at acts
      obtain ⟨allowed, rfl⟩ := acts
      rw [executed, List.append_nil]
      exact before.crash ⟨allowed, rfl⟩

/-- **The log of what a schedule computes.** -/
theorem logged {acts : List (Act τ)} {start c c' : Running τ}
    {log : List (Called Stmt Stmt.Val Err)} (leads : checks.schedule printing acts c = some c')
    (before : Logged (system printing checks.rules) start log c) :
    Logged (system printing checks.rules) start (log ++ record printing checks acts c) c' := by
  induction acts generalizing c log with
  | nil =>
      cases leads
      rw [record, List.append_nil]
      exact before
  | cons first rest ih =>
      obtain ⟨c₁, acts, leads⟩ := Option.bind_eq_some_iff.mp leads
      rw [record, acts, Option.elim_some, ← List.append_assoc]
      exact ih leads (logged_act acts before)

/-- A schedule in two parts, and what holds after both. -/
theorem observed (printing : Printing) (checks : Checks τ) (start : Running τ)
    (acts acts' : List (Act τ)) (P : Running τ → Running τ → Prop) [∀ c c', Decidable (P c c')]
    (found : ((checks.schedule printing acts start).bind fun c =>
      (checks.schedule printing acts' c).map fun c' => decide (P c c')) = some true) :
    ∃ c c', (system printing checks.rules).Reachable start c ∧
      (system printing checks.rules).Reachable c c' ∧ P c c' := by
  obtain ⟨c, leads, found⟩ := Option.bind_eq_some_iff.mp found
  obtain ⟨c', leads', holds⟩ := Option.map_eq_some_iff.mp found
  exact ⟨c, c', reachable leads, reachable leads', of_decide_eq_true holds⟩

end Checks

/-- The program of a thread has ended without an error. -/
def Running.succeeded (c : Running τ) (t : τ) : Bool :=
  match c.pool t with
  | some (.ret (.ok _)) => true
  | _ => false

/-- The program of a thread has ended with an error. -/
def Running.failed (c : Running τ) (t : τ) : Bool :=
  match c.pool t with
  | some (.ret (.error _)) => true
  | _ => false

theorem Running.succeeded_iff {c : Running τ} {t : τ} :
    Running.succeeded c t = true ↔ ∃ returned, c.pool t = some (.ret (.ok returned)) := by
  unfold succeeded
  constructor
  · intro holds
    split at holds
    · rename_i returned ended
      exact ⟨returned, ended⟩
    · cases holds
  · rintro ⟨returned, ended⟩
    rw [ended]

/-! ## A shop -/

namespace Shop

def merchant : AccountID := ⟨0, 1⟩

def payer : AccountID := ⟨0, 2⟩

/-- An invoice over 10, payable to the merchant for a millisecond. -/
def invoice : InvoiceRow where
  id := 7
  currency := 1
  createdAt := 0
  expireAt := 1000000
  updatedAt := 0
  paidAt := none
  amount := 10
  overpayment := 0
  status := .waiting
  recipient := merchant
  paidBy := none
  txHash := none
  privateInfo := []
  metadata := []
  version := 0

/-- A payment of an amount for the invoice. -/
def payment (amount : ℤ) : Payment := ⟨7, .ton, amount, payer, merchant, 5⟩

/-- The call of `SavePayments` for a transaction with one payment. -/
def call (lt : ℕ) (amount : ℤ) : PaymentCall := ⟨merchant, lt, [payment amount], none⟩

/-- What the outside answers at a time: every message is delivered, and the
network is down. -/
def at' (time : Time) : Choice := ⟨time, [], [], [], true, .error .failed, .error .failed⟩

/-- The next statement of a thread runs at a time. -/
def run {τ : Type} (t : τ) (time : Time) : Act τ := .exec t .none (at' time)

/-- Invoices are printed for one currency and without payment links. -/
def printing : Printing := ⟨[], [("TON", ⟨.ton, 9⟩)], none⟩

attribute [local instance] Texts.libraries

/-- The only currency is TON. -/
def currencies : Currencies where
  table := ⟨[⟨1, .ton, ""⟩], by decide⟩
  distinct := by decide
  saved := by
    intro row member
    obtain rfl := List.mem_singleton.mp member
    exact ⟨.ton, rfl, rfl⟩

/-- The shop has one waiting invoice. -/
def database : Database where
  currencies := currencies
  invoices := ⟨[invoice], by decide⟩
  notifications := []
  keys := .empty
  accounts := .empty
  transactions := .empty

theorem database_sane : database.Sane := by
  intro id row found
  obtain rfl := List.mem_singleton.mp (Table.find_eq_some.mp found).1
  rfl

/-- The payer has the public key of 32 zeros, and has signed one encryption key. -/
@[reducible] def cryptography : Cryptography where
  verify pubkey message signature :=
    pubkey = List.replicate 32 0 && message = bytesOf "meta" ++ List.replicate 32 1 &&
      signature = List.replicate 64 2
  WalletVersion := Unit
  versionFromString text := if text = "v4R2" then .ok () else .error "unsupported version"
  generateWalletAddress pubkey _ :=
    .ok (if pubkey = List.replicate 32 0 then payer else ⟨0, 0⟩)
  encrypt receiverPubkey _ data salt := .ok (receiverPubkey ++ salt ++ data)

end Shop

end SpiceHarvester
