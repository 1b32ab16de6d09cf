import SpiceHarvester.Interleaving.Pool
import SpiceHarvester.Schedule

/-!
# The connections of `SavePayments`

All functions of `pkg/db` share one pool of connections. `SavePayments` takes a
connection for its transaction and keeps it to the end, and `processPayment`, which it
calls in between, looks the currency up by `getCurrencyID` on a connection of its own.

So workers that have opened a transaction each, as many as the pool has connections, wait
for one another when they look up a currency. This can be exactly if there are as many
workers as connections (`neverStuck_iff`).
-/

set_option autoImplicit false

namespace SpiceHarvester

open Interleaving Sql

/-- What a statement does with the pool: the statements of an open transaction run on
its connection, and what is not sent to the database needs none. -/
def Stmt.use : Stmt → Use
  | .now | .send .. | .skip _ | .getTransactions .. | .getAccountState _ | .getLastLt
  | .setLastLt _ => .free
  | .begin _ => .opens
  | .selectForPayment .. | .acceptKey _ | .setOverpayment .. | .setPaid .. | .setProcessingError ..
  | .setLastProcessed .. => .inside
  | .commit | .rollback => .closes
  | .selectCurrencyID .. | .selectCurrency _ | .insertInvoice _ | .insertNotification _
  | .selectInvoice _ | .cancelInvoice .. | .markExpired _ | .selectNotifications _
  | .deleteNotification _ | .insertKey .. | .selectKey _ | .deleteExpiredKeys _ | .updateAccount ..
  | .selectLastProcessed _ | .selectTransactionByParent .. | .insertTransaction _ | .selectGaps _
  | .selectLtBelow .. | .selectLastLt _ => .borrows

section Pool

variable [Libraries] {τ : Type} [DecidableEq τ] [Fintype τ]

/-- Any calls of `SavePayments`, under any faults. -/
def payments : Rules τ where
  spawn _ job := ∃ call, job = .savePayments call
  exec _ _ _ _ _ := True
  crash _ := True

/-- What the workers can reach over a pool of a size. -/
abbrev PoolRuns (printing : Printing) (size : ℕ) (db : Database)
    (c : Pooled τ Stmt Stmt.Val Err (Option Invoice) (World τ)) : Prop :=
  Pooled.Reachable (system printing payments) Stmt.use size (.idle (.idle db)) c

/-- A call with one payment. -/
def onePayment : PaymentCall := ⟨⟨0, 0⟩, 0, [⟨0, .ton, 0, ⟨0, 0⟩, ⟨0, 0⟩, 0⟩], none⟩

/-- The program of a call with one payment, behind its `BEGIN`. -/
def afterBegin (printing : Printing) (answer : Except Err Unit) :
    Prog Stmt Stmt.Val Err (Option Invoice) :=
  match runJob printing (.savePayments onePayment) with
  | .call (.begin _) next => next answer
  | _ => .ret (.ok none)

theorem runJob_onePayment (printing : Printing) :
    runJob printing (.savePayments onePayment) = .call (.begin onePayment) (afterBegin printing) :=
  rfl

/-- Behind the `BEGIN` the currency of the payment is looked up. -/
theorem afterBegin_asks (printing : Printing) :
    ∃ next, afterBegin printing (.ok ()) = .call (.selectCurrencyID .ton none) next := ⟨_, rfl⟩

/-- The holders have each opened a transaction and wait for the currency, and nothing
else has happened. -/
structure Opened (printing : Printing) (holders : Finset τ)
    (c : Pooled τ Stmt Stmt.Val Err (Option Invoice) (World τ)) : Prop where
  pool : ∀ t, c.running.pool t = if t ∈ holders then some (afterBegin printing (.ok ())) else none
  kept : c.kept = fun t => decide (t ∈ holders)
  lent : c.lent = fun _ => false
  others : c.others = 0

theorem Opened.used {printing : Printing} {holders : Finset τ}
    {c : Pooled τ Stmt Stmt.Val Err (Option Invoice) (World τ)}
    (opened : Opened printing holders c) : c.used = holders.card := by
  unfold Pooled.used Pooled.having
  rw [opened.kept, opened.lent, opened.others]
  simp

omit [Libraries] [Fintype τ] in
/-- Who opens a transaction is a holder from then on. -/
theorem update_keeps (holders : Finset τ) (t : τ) :
    Function.update (fun u => decide (u ∈ holders)) t true = fun u => decide (u ∈ insert t holders) := by
  funext u
  by_cases same : u = t
  · subst same
    rw [Function.update_self]
    exact (decide_eq_true (Finset.mem_insert_self ..)).symm
  · rw [Function.update_of_ne same]
    simp only [Finset.mem_insert, same, false_or]

/-- One more call starts, gets a connection and opens its transaction. -/
theorem Opened.insert {printing : Printing} {size : ℕ} {db : Database} {holders : Finset τ} {t : τ}
    {c : Pooled τ Stmt Stmt.Val Err (Option Invoice) (World τ)}
    (opened : Opened printing holders c) (runs : PoolRuns printing size db c) (new : t ∉ holders)
    (room : holders.card < size) :
    ∃ c', PoolRuns printing size db c' ∧ Opened printing (insert t holders) c' := by
  have used := opened.used
  obtain ⟨⟨w, pool⟩, kept, lent, others⟩ := c
  obtain ⟨inPool, rfl, rfl, rfl⟩ := opened
  change ∀ t, pool t = _ at inPool
  let job : Job := .savePayments onePayment
  let pool₁ := Function.update pool t (some (runJob printing job))
  have calls : pool₁ t = some (.call (.begin onePayment) (afterBegin printing)) := by
    rw [← runJob_onePayment]
    exact Function.update_self ..
  have free : pool t = none := by rw [inPool, if_neg new]
  have spawned : PoolRuns printing size db
      ⟨⟨w.start t job, pool₁⟩, fun t => decide (t ∈ holders), fun _ => false, 0⟩ :=
    runs.tail (.spawn free ⟨job, ⟨onePayment, rfl⟩, rfl, rfl⟩)
  have took : PoolRuns printing size db
      ⟨⟨w.start t job, pool₁⟩, fun t => decide (t ∈ holders),
        Function.update (fun _ => false) t true, 0⟩ := by
    refine spawned.tail (.take ⟨_, _, calls, rfl, rfl⟩ ?_)
    exact Nat.lt_of_le_of_lt (Nat.le_of_eq used) room
  let choice : Choice := ⟨0, [], [], [], false, .error .failed, .error .failed⟩
  have ready : (Stmt.begin onePayment).use.asks = Function.update (fun _ => false) t true t := by
    rw [Function.update_self]
    rfl
  let opens : Except Err (Stmt.Val (.begin onePayment)) := .ok ()
  have answers : (system printing payments).exec t (.begin onePayment) (w.start t job) opens _ :=
    ⟨.none, choice, trivial, rfl⟩
  have began := took.tail (.exec calls ready answers)
  refine ⟨_, began, fun u => ?_, ?_, ?_, rfl⟩
  · change Function.update pool₁ t (some (afterBegin printing (.ok ()))) u = _
    by_cases same : u = t
    · subst same
      rw [Function.update_self, if_pos (Finset.mem_insert_self ..)]
    · have elsewhere : pool₁ u = pool u := Function.update_of_ne same ..
      rw [Function.update_of_ne same, elsewhere, inPool]
      simp only [Finset.mem_insert, same, false_or]
  · exact update_keeps holders t
  · change Function.update (Function.update (fun _ => false) t true) t false = fun _ => false
    rw [Function.update_idem]
    exact Function.update_eq_self t _

/-- As many workers as there are connections can open a transaction each. -/
theorem exists_opened (printing : Printing) (size : ℕ) (db : Database) (holders : Finset τ)
    (fits : holders.card ≤ size) :
    ∃ c, PoolRuns printing size db c ∧ Opened printing holders c := by
  induction holders using Finset.induction_on with
  | empty => exact ⟨_, .refl, ⟨fun _ => rfl, rfl, rfl, rfl⟩⟩
  | @insert t holders new ih =>
      rw [Finset.card_insert_of_notMem new] at fits
      obtain ⟨c, runs, opened⟩ := ih (by omega)
      exact opened.insert runs new (by omega)

omit [Fintype τ] in
/-- Where each holder of a connection waits for the currency, and the pool has no other
connection, the pool is stuck. -/
theorem Opened.stuck {printing : Printing} {holders : Finset τ}
    {c : Pooled τ Stmt Stmt.Val Err (Option Invoice) (World τ)}
    (opened : Opened printing holders c) : c.Stuck Stmt.use holders.card := by
  obtain ⟨next, asks⟩ := afterBegin_asks printing
  refine ⟨holders, rfl, fun t member => ⟨?_, ?_⟩⟩
  · rw [opened.kept]
    exact decide_eq_true member
  · refine ⟨.selectCurrencyID .ton none, next, ?_, rfl, ?_⟩
    · rw [opened.pool, if_pos member, asks]
    · rw [opened.lent]

/-- Where there are as many workers as connections, the pool can get stuck. -/
theorem exists_stuck (printing : Printing) {size : ℕ} (db : Database)
    (many : size ≤ Fintype.card τ) :
    ∃ c : Pooled τ Stmt Stmt.Val Err (Option Invoice) (World τ),
      PoolRuns printing size db c ∧ c.Stuck Stmt.use size := by
  rw [← Finset.card_univ] at many
  obtain ⟨holders, _, card⟩ := Finset.exists_subset_card_eq many
  obtain ⟨c, runs, opened⟩ := exists_opened printing size db holders (Nat.le_of_eq card)
  rw [← card] at runs ⊢
  exact ⟨c, runs, opened.stuck⟩

/-- **No reachable state has all connections of the pool held by transactions of
`SavePayments` that each wait for a further one, exactly if there are fewer workers than
connections.** -/
theorem neverStuck_iff (printing : Printing) (size : ℕ) (db : Database) :
    (∀ c : Pooled τ Stmt Stmt.Val Err (Option Invoice) (World τ),
      PoolRuns printing size db c → ¬ c.Stuck Stmt.use size) ↔ Fintype.card τ < size := by
  constructor
  · intro never
    by_contra many
    obtain ⟨c, runs, stuck⟩ := exists_stuck printing db (Nat.not_lt.mp many)
    exact never c runs stuck
  · rintro few c _ ⟨holders, card, _⟩
    have le := Finset.card_le_univ holders
    omega

end Pool

/-! ## One connection -/

namespace Shop

attribute [local instance] Texts.libraries

/-- **A single worker blocks itself on a pool of one connection**, and the pool has none
to hand out. -/
theorem one_connection :
    ∃ c : Pooled Unit Stmt Stmt.Val Err (Option Invoice) (World Unit),
      PoolRuns printing 1 database c ∧ c.Stuck Stmt.use 1 ∧ ¬ c.used < 1 := by
  have many : 1 ≤ Fintype.card Unit := Nat.le_refl 1
  obtain ⟨c, runs, stuck⟩ := exists_stuck printing database many
  exact ⟨c, runs, stuck, stuck.full⟩

end Shop

end SpiceHarvester
