import SpiceHarvester.Api.Calls
import SpiceHarvester.Api.KeyLife
import SpiceHarvester.Indexer.Calls
import SpiceHarvester.Ledger.Refinement
import SpiceHarvester.Sql.Promotion

/-!
# The keys of the accounts, in every run of the process

An encryption key is offered by `commitKey`, accepted by the transaction of a payment of its
account, and deleted an hour after its offer when no payment has accepted it. All of this may
happen at once, and in any order. Still each stored key is one that its account has
certified, and the row of an accepted key is never replaced or removed (`keys_kept`).
-/

set_option autoImplicit false

namespace SpiceHarvester

open Interleaving Sql

/-! ## The keys of a state -/

/-- A key is promoted when it is accepted. -/
def acceptance : Promotion KeyRow.address where
  pending row := !row.accepted
  promote := KeyRow.accept
  keeps _ := rfl
  ends _ := rfl

section Custody

variable [Libraries]

section Keyring

variable {τ : Type}

/-- The keys, and the versions of them that open transactions have written. -/
def World.keyring (w : World τ) : Drafts τ KeyRow.address where
  table := w.db.keys
  written t := (w.tx t).elim [] Tx.keys

variable {w w' : World τ} {t : τ} {tx : Tx}

theorem World.keyring_congr (keys : w'.db.keys = w.db.keys) (opened : w'.tx = w.tx) :
    w'.keyring = w.keyring := by
  unfold keyring
  rw [keys, opened]

variable [DecidableEq τ]

/-- The keyring after a change of one open transaction. -/
theorem World.keyring_update {opened : Option Tx} (own : w'.tx = Function.update w.tx t opened) :
    w'.keyring = ⟨w'.db.keys, Function.update w.keyring.written t (opened.elim [] Tx.keys)⟩ := by
  unfold keyring
  rw [own]
  congr 1
  funext u
  exact Function.apply_update (fun _ tx => Option.elim tx [] Tx.keys) w.tx t opened u

/-- A transaction has ended, or has just begun. -/
theorem World.keyring_dropped {opened : Option Tx} (own : w'.tx = Function.update w.tx t opened)
    (keys : w'.db.keys = w.db.keys) (none : opened.elim [] Tx.keys = []) :
    w'.keyring = { w.keyring with written := Function.update w.keyring.written t [] } := by
  rw [keyring_update own, keys, none]
  rfl

/-- A change of the transaction that writes no key. -/
theorem World.keyring_setTx {tx' : Tx} (opened : w.tx t = some tx) (same : tx'.keys = tx.keys) :
    (w.setTx t tx').keyring = w.keyring := by
  rw [keyring_update (tx_update (tx_setTx opened) threads_setThread_of_ne)]
  have written : w.keyring.written t = tx'.keys := by
    change (w.tx t).elim [] Tx.keys = _
    rw [opened, same]
    rfl
  change Drafts.mk w.db.keys (Function.update w.keyring.written t tx'.keys) = _
  rw [← written, Function.update_eq_self]
  rfl

/-- What a statement may do to the keyring, when `P` holds of the keys that are offered. -/
def World.KeyStep (P : AccountID → List UInt8 → Prop) (w w' : World τ) : Prop :=
  w'.keyring = w.keyring ∨
    w.keyring.Step acceptance (fun row => P row.address row.encryptionKey) w'.keyring

end Keyring

/-! ## One statement -/

/-- When a thread may call a statement: `P` holds of a key that it offers, and it deletes keys
outside a transaction. -/
def Stmt.keepsKeys {τ : Type} (P : AccountID → List UInt8 → Prop) (t : τ) (w : World τ) : Stmt → Prop
  | .insertKey address key _ => P address key
  | .deleteExpiredKeys _ => w.threads t = none
  | _ => True

section Statements

variable {τ : Type} [DecidableEq τ] {P : AccountID → List UInt8 → Prop} {w w' : World τ} {t : τ}

theorem World.KeyStep.of_quiet {f : Thread → Thread} (keeps : ∀ thread, (f thread).tx = thread.tx)
    (keys : w'.db.keys = w.db.keys) (threads : w'.threads = (w.setThread t f).threads) :
    w.KeyStep P w' := by
  refine .inl (keyring_congr keys ?_)
  have same : w'.tx = (w.setThread t f).tx := funext fun u => tx_congr (congrFun threads u)
  exact same.trans (tx_setThread_eq keeps)

/-- The open transaction of a thread is gone, or a new one has begun. -/
theorem World.KeyStep.of_dropped (keys : w'.db.keys = w.db.keys)
    (others : ∀ {u}, u ≠ t → w'.threads u = w.threads u)
    (none : (w'.tx t).elim [] Tx.keys = []) : w.KeyStep P w' := by
  right
  rw [keyring_dropped (tx_update rfl others) keys none]
  exact .drop

variable [Fintype τ]

/-- A row that an `UPDATE` or a `DELETE` of keys hits is not locked by the others. -/
theorem World.key_unlocked {seen : Table KeyRow.address} {condition : KeyRow → Bool} {row : KeyRow}
    (free : w.blocked t Tx.keys seen condition = false) (among : row ∈ seen.rows)
    (hit : condition row = true) {u : τ} (other : u ≠ t) :
    Table.owns KeyRow.address (w.keyring.written u) row.address = false := by
  change Table.owns KeyRow.address ((w.tx u).elim [] Tx.keys) row.address = false
  cases opened : w.tx u with
  | none => rfl
  | some tx => exact free_of_not_blocked free other opened among hit

namespace Stmt

/-- **What a statement does to the keys.** -/
theorem run_keyring {choice : Choice} {op : Stmt} {answer : Except Err op.Val}
    (may : op.keepsKeys P t w) (runs : op.run choice t w = some (answer, w')) : w.KeyStep P w' := by
  have same : ∀ {w' : World τ}, w = w' → w.KeyStep P w' := fun same => .inl (same ▸ rfl)
  have quiet : ∀ {f : Thread → Thread}, (∀ thread, (f thread).tx = thread.tx) →
      w.KeyStep P (w.setThread t f) := fun keeps => .of_quiet keeps rfl rfl
  have begun : ∀ {f : Thread → Thread}, (∀ thread, ((f thread).tx).elim [] Tx.keys = []) →
      w.KeyStep P (w.setThread t f) := by
    intro f empty
    refine .of_dropped rfl World.threads_setThread_of_ne ?_
    rw [World.tx, World.threads_setThread]
    cases w.threads t with
    | none => rfl
    | some thread => exact empty thread
  cases op with
  | acceptKey address =>
      obtain ⟨tx, opened, _, free, rfl⟩ := run_acceptKey runs
      right
      rw [World.keyring_update (World.tx_update (World.tx_setTx opened)
        World.threads_setThread_of_ne)]
      have written : w.keyring.written t = tx.keys := by
        change (w.tx t).elim [] Tx.keys = _
        rw [opened]
        rfl
      have step := @Drafts.Step.promote _ _ _ _ _ _ acceptance
        (fun row => P row.address row.encryptionKey) w.keyring t address
      rw [written] at step
      refine step fun row seen pending u other => ?_
      obtain ⟨among, rfl⟩ := Table.find_eq_some.mp seen
      have hit : (decide (row.address = row.address) && !row.accepted) = true := by
        rw [decide_eq_true rfl, Bool.true_and]
        exact pending
      exact World.key_unlocked free among hit other
  | commit =>
      obtain ⟨tx, opened, _, rfl⟩ := run_commit runs
      right
      have closed : (w.commit t tx).tx t = none := by
        obtain ⟨thread, held, _⟩ := World.tx_eq_some.mp opened
        exact World.tx_eq ((World.threads_setThread _ _ _).trans (by rw [held]; rfl))
      rw [World.keyring_update (World.tx_update closed World.threads_setThread_of_ne)]
      have written : w.keyring.written t = tx.keys := by
        change (w.tx t).elim [] Tx.keys = _
        rw [opened]
        rfl
      have step := @Drafts.Step.commit _ _ _ _ _ _ acceptance
        (fun row => P row.address row.encryptionKey) w.keyring t
      rw [written] at step
      exact step
  | insertKey address key time =>
      cases runs
      split
      · rename_i keys inserted
        exact .inr (.insert inserted may)
      · exact .inl rfl
  | deleteExpiredKeys before =>
      simp only [run, Option.ite_none_left_eq_some, Option.some.injEq, Prod.mk.injEq] at runs
      obtain ⟨free, _, rfl⟩ := runs
      rw [Bool.not_eq_true] at free
      refine .inr (.delete (fun row hit => ?_) fun row among hit u => ?_)
      · exact (Bool.and_eq_true_iff.mp hit).2
      · by_cases own : u = t
        · have idle : w.tx u = none := by
            have idle : w.threads t = none := may
            rw [own, World.tx, idle]
            rfl
          change Table.owns KeyRow.address ((w.tx u).elim [] Tx.keys) row.address = false
          rw [idle]
          rfl
        · exact World.key_unlocked free among hit own
  | begin call =>
      cases runs
      exact begun fun _ => rfl
  | rollback =>
      cases runs
      exact begun fun _ => rfl
  | insertInvoice row =>
      obtain ⟨_, invoices, _, _, _, rfl⟩ | ⟨_, rfl⟩ := run_insertInvoice runs
      · exact .of_quiet (t := t) (f := Thread.owe [row.snapshot]) (fun _ => rfl) rfl rfl
      · exact .inl rfl
  | insertNotification row =>
      obtain ⟨_, _, _, rfl⟩ | ⟨_, _, rfl⟩ := run_insertNotification runs
      · exact .of_quiet (t := t) (f := Thread.announce row.id) (fun _ => rfl) rfl rfl
      · exact .inl rfl
  | cancelInvoice time id =>
      obtain ⟨_, _, rfl⟩ := run_cancelInvoice runs
      exact .of_quiet (t := t) (f := Thread.owe _) (fun _ => rfl) rfl rfl
  | markExpired time =>
      obtain ⟨_, _, rfl⟩ := run_markExpired runs
      exact .of_quiet (t := t) (f := Thread.owe _) (fun _ => rfl) rfl rfl
  | deleteNotification id =>
      cases runs
      exact .of_quiet (t := t) (f := fun thread => { thread with held := thread.held.tail })
        (fun _ => rfl) rfl rfl
  | selectForPayment currency payment time =>
      obtain ⟨tx, opened, _, rfl⟩ := run_selectForPayment runs
      exact .inl (World.keyring_setTx opened rfl)
  | setOverpayment overpayment time id =>
      obtain ⟨tx, opened, _, _, rfl⟩ := run_setOverpayment runs
      exact .inl (World.keyring_setTx opened rfl)
  | setPaid time paidBy overpayment txHash id =>
      obtain ⟨tx, opened, _, _, rfl⟩ := run_setPaid runs
      exact .inl (World.keyring_setTx opened rfl)
  | setProcessingError error account lt =>
      obtain ⟨tx, opened, _, rfl⟩ := run_setProcessingError runs
      exact .inl (World.keyring_setTx opened rfl)
  | setLastProcessed lt account =>
      obtain ⟨tx, opened, _, _, rfl⟩ := run_setLastProcessed runs
      exact .inl (World.keyring_setTx opened rfl)
  | updateAccount last block time account =>
      obtain ⟨_, _, rfl⟩ := run_updateAccount runs
      exact .inl rfl
  | insertTransaction row =>
      cases runs
      split <;> exact .inl rfl
  | send invoice printable =>
      simp only [run] at runs
      split at runs <;> cases runs
      · exact .inl rfl
      · exact quiet fun _ => rfl
  | selectNotifications limit =>
      obtain ⟨_, _, _, _, rfl⟩ := run_selectNotifications runs
      exact quiet fun _ => rfl
  | selectGaps account => exact same (run_selectGaps runs).1.symm
  | selectInvoice id => cases runs; exact quiet fun _ => rfl
  | skip invoice => cases runs; exact quiet fun _ => rfl
  | selectLastProcessed account => cases runs; exact quiet fun _ => rfl
  | selectTransactionByParent account lt => cases runs; exact quiet fun _ => rfl
  | getTransactions account lt hash => cases runs; exact quiet fun _ => rfl
  | setLastLt lt => cases runs; exact quiet fun _ => rfl
  | now => exact same (congrArg Prod.snd (Option.some.inj runs))
  | selectCurrencyID type info => exact same (congrArg Prod.snd (Option.some.inj runs))
  | selectCurrency id => exact same (congrArg Prod.snd (Option.some.inj runs))
  | selectKey address => exact same (congrArg Prod.snd (Option.some.inj runs))
  | selectLtBelow account lt => exact same (congrArg Prod.snd (Option.some.inj runs))
  | selectLastLt account => exact same (congrArg Prod.snd (Option.some.inj runs))
  | getAccountState account => exact same (congrArg Prod.snd (Option.some.inj runs))
  | getLastLt => exact same (congrArg Prod.snd (Option.some.inj runs))

theorem runUnder_keyring {fault : Fault} {choice : Choice} {op : Stmt}
    {answer : Except Err op.Val} (may : op.keepsKeys P t w)
    (runs : op.runUnder fault choice t w = some (answer, w')) : w.KeyStep P w' := by
  have failed : ∀ w : World τ, (w.setThread t Thread.fail).keyring = w.keyring := fun w =>
    World.keyring_congr rfl (World.tx_setThread_eq fun _ => rfl)
  obtain ⟨_, ran⟩ | ⟨_, _, _, rfl⟩ | ⟨_, _, _, _, w₀, ran, rfl⟩ := runUnder_cases runs
  · exact run_keyring may ran
  · exact .inl (failed w)
  · unfold World.KeyStep
    rw [failed]
    exact run_keyring may ran

end Stmt

end Statements

/-! ## The programs -/

section Programs

/-- A statement that neither offers nor deletes a key, unless it offers one of which `P` holds. -/
def Stmt.offers (P : AccountID → List UInt8 → Prop) : Stmt → Prop
  | .insertKey address key _ => P address key
  | .deleteExpiredKeys _ => False
  | _ => True

/-- The program offers only keys of which `P` holds, and deletes none. -/
abbrev Offers {α : Type} (P : AccountID → List UInt8 → Prop) (program : Action α) : Prop :=
  program.Calls (Stmt.offers P)

variable {P Q : AccountID → List UInt8 → Prop}

omit [Libraries] in
theorem Offers.mono {α : Type} {program : Action α} (offers : Offers P program)
    (weaker : ∀ {account key}, P account key → Q account key) : Offers Q program := by
  refine Prog.Calls.mono offers fun {op} offered => ?_
  cases op with
  | insertKey address key time => exact weaker offered
  | deleteExpiredKeys before => exact offered
  | _ => trivial

theorem saveInvoice_offers (invoice : Invoice) (isNotify : Bool) :
    Offers P (saveInvoice invoice isNotify) := by
  have asks : Offers P (getCurrencyID invoice.currency) := queryRow_calls trivial
  refine asks.bind fun _ => ?_
  cases isNotify <;> exact .query trivial

/-- **Jobs neither offer nor delete keys.** -/
theorem runJob_offers (printing : Printing) (job : Job) : Offers P (runJob printing job) := by
  cases job with
  | createInvoice invoice =>
      exact ((saveInvoice_offers invoice false).bind fun _ => saveInvoice_offers invoice true).bind
        fun _ => .ret _
  | cancelInvoice id =>
      refine Prog.Calls.bind ?_ fun _ => .ret _
      refine Prog.Calls.bind (.query trivial) fun _ => Prog.Calls.bind (.query trivial) fun _ => ?_
      split
      · exact .ret _
      · have reads : Offers P (getInvoice id) := getInvoice_calls id trivial fun _ => trivial
        exact reads.bind fun invoice => (saveInvoice_offers invoice true).bind fun _ => .ret _
  | markExpired =>
      refine (markExpired_calls.mono fun {op} expires => ?_).bind fun _ => .ret _
      cases op <;> trivial
  | savePayments call =>
      refine ((savePayments_calls call).mono fun {op} indexes => ?_).bind fun _ => .ret _
      cases op <;> trivial
  | indexerWorker account rounds =>
      refine ((indexerWorker_calls account rounds).mono fun {op} indexes => ?_).bind fun _ => .ret _
      cases op <;> trivial
  | loaderWorker account rounds =>
      refine ((loaderWorker_calls account rounds).mono fun {op} loads => ?_).bind fun _ => .ret _
      cases op <;> trivial
  | notifier rounds =>
      refine ((runNotifier_calls printing rounds).mono fun {op} notifies => ?_).bind fun _ => .ret _
      cases op <;> trivial

variable [Cryptography]

/-- The key that a task offers for an account, if it does. -/
def Task.Offered (task : Task) (account : AccountID) (key : List UInt8) : Prop :=
  ∃ request, task = .request request ∧ request.Offers account key

/-- **Only requests offer keys**, and only the ones that they certify. -/
theorem Task.offers (task : Task) (handler : Handler) (deletes : task ≠ .deleteExpiredKeys) :
    Offers task.Offered (task.run handler) := by
  cases task with
  | job work => exact (runJob_offers handler.printing work).bind fun _ => .ret _
  | request asked =>
      have handles : Offers (Task.request asked).Offered (asked.handle handler) := by
        refine (handle_calls handler asked).mono fun {op} answers => ?_
        cases op with
        | insertKey address key time => exact ⟨asked, rfl, answers⟩
        | _ => trivial
      exact handles.bind fun _ => .ret _
  | deleteExpiredKeys => exact absurd rfl deletes

theorem Task.Offered.certified {task : Task} {account : AccountID} {key : List UInt8}
    (offered : task.Offered account key) : Certified account key := by
  obtain ⟨_, _, offers⟩ := offered
  exact offers.certified

end Programs

/-! ## Every run -/

section Runs

variable [Cryptography] {τ : Type} [DecidableEq τ]

namespace World

variable {P : AccountID → List UInt8 → Prop} {w w' : World τ} {t : τ}

omit [Cryptography] in
theorem KeyStep.sound (step : w.KeyStep P w') (sound : w.keyring.Sound acceptance) :
    w'.keyring.Sound acceptance := by
  obtain same | step := step
  · exact same ▸ sound
  · exact sound.step step

omit [Cryptography] in
/-- What holds of the stored keys and of those that are offered holds of the keys stored then. -/
theorem KeyStep.origin {Q : AccountID → List UInt8 → Prop} (step : w.KeyStep P w')
    (sound : w.keyring.Sound acceptance) (enters : ∀ {account key}, P account key → Q account key)
    (all : ∀ row ∈ w.db.keys.rows, Q row.address row.encryptionKey) :
    ∀ row ∈ w'.db.keys.rows, Q row.address row.encryptionKey := by
  obtain same | step := step
  · rw [show w'.db.keys = w.db.keys from congrArg Drafts.table same]
    exact all
  · exact step.origin sound (fun _ offered => enters offered) (fun _ holds => holds) all

omit [Cryptography] in
theorem leave_keys (w : World τ) (t : τ) : w.KeyStep P (w.leave t) :=
  .of_dropped rfl threads_leave_of_ne (by rw [World.tx, threads_leave]; rfl)

omit [Cryptography] in
theorem start_keys (w : World τ) (t : τ) (task : Task) : w.KeyStep P (task.start w t) := by
  cases task with
  | job work =>
      have own : (w.start t work).threads t = some (.start work) := w.threads_start t work
      change w.KeyStep P (w.start t work)
      exact .of_dropped rfl threads_start_of_ne (by rw [World.tx, own]; rfl)
  | request asked => exact w.leave_keys t
  | deleteExpiredKeys => exact w.leave_keys t

omit [Cryptography] in
theorem start_others (w : World τ) {t u : τ} (task : Task) (other : u ≠ t) :
    (task.start w t).threads u = w.threads u := by
  cases task with
  | job work => exact threads_start_of_ne other
  | request asked => exact threads_leave_of_ne other
  | deleteExpiredKeys => exact threads_leave_of_ne other

end World

variable [Fintype τ] {handler : Handler}

/-- Keys are offered when they are certified, and deleted by a thread that has no transaction. -/
def custody (handler : Handler) : Contract (serving handler : System τ _ _ _ _ (World τ)) where
  rely t w w' := w'.threads t = w.threads t
  inv w := w.keyring.Sound acceptance
  pre t op w := op.keepsKeys Certified t w
  post _ _ _ := True

theorem custody_closed : (custody (τ := τ) handler).Closed where
  rely_refl _ _ := rfl
  rely_trans first later := later.trans first

/-- A program that offers certified keys and deletes none is safe. -/
theorem Offers.safe {α : Type} {program : Action α} (offers : Offers Certified program) (t : τ) :
    (custody (τ := τ) handler).Triple t (fun _ => True) program fun _ _ => True := by
  refine .of_calls offers (fun _ _ _ holds => holds) (fun {op w} offered _ _ => ?_)
    fun _ _ _ _ => trivial
  cases op with
  | insertKey address key time => exact offered
  | deleteExpiredKeys before => exact offered.elim
  | _ => trivial

/-- The deletion of keys runs on a thread without a transaction. -/
theorem deleteExpiredKeys_safe (t : τ) : (custody (τ := τ) handler).Triple t
    (fun w => w.threads t = none) deleteExpiredKeys fun _ _ => True := by
  have calls : deleteExpiredKeys.Calls fun op => op = .now ∨ ∃ before, op =
    .deleteExpiredKeys before :=
    Prog.Calls.bind (.query (.inl rfl)) fun _ => .query (.inr ⟨_, rfl⟩)
  have stable : (custody (τ := τ) handler).Stable t fun w => w.threads t = none :=
    fun _ _ same idle => same.trans idle
  refine (Contract.Triple.of_calls calls stable ?_ ?_).weaken (fun _ idle => idle) fun _ _ =>
    trivial
  · rintro op w (rfl | ⟨before, rfl⟩) _ idle
    · exact trivial
    · exact idle
  · rintro op w answer w' _ _ idle ⟨fault, choice, runs⟩
    have jobs := congrFun (Stmt.runUnder_job runs) t
    rw [World.job, World.job, idle, Option.map_none, Option.map_eq_none_iff] at jobs
    exact jobs

theorem Task.safe (task : Task) {w : World τ} {t : τ}
    (sound : (task.start w t).keyring.Sound acceptance) :
    (custody (τ := τ) handler).Safe t (fun _ _ => True) (task.run handler) (task.start w t) := by
  have offers : task ≠ .deleteExpiredKeys → Offers Certified (task.run handler) := fun other =>
    (task.offers handler other).mono Task.Offered.certified
  cases task with
  | job work => exact (offers nofun).safe t _ sound trivial
  | request asked => exact (offers nofun).safe t _ sound trivial
  | deleteExpiredKeys =>
      have safe : (custody (τ := τ) handler).Triple t (fun w => w.threads t = none)
          (Task.run handler .deleteExpiredKeys) fun _ _ => True :=
        .bind custody_closed (deleteExpiredKeys_safe t)
          (fun _ => .ret (fun _ _ _ _ => trivial) fun _ _ => trivial) fun _ _ => trivial
      exact safe _ sound (World.threads_leave w t)

/-- **The process keeps the keys.** -/
theorem custody_sound : (custody (τ := τ) handler).Sound where
  toClosed := custody_closed
  exec := by
    rintro t op w answer w' sound may ⟨fault, choice, runs⟩
    exact ⟨(Stmt.runUnder_keyring may runs).sound sound,
      fun u other => (Stmt.runUnder_kept runs).others other⟩
  spawn := by
    rintro t w program w' sound ⟨task, rfl, rfl⟩
    have started : w.KeyStep Certified (task.start w t) := w.start_keys t task
    have sound' := started.sound sound
    exact ⟨sound', fun u other => w.start_others task other, task.safe sound'⟩
  retire := by
    rintro t result w w' sound _ rfl
    have left : w.KeyStep Certified (w.leave t) := w.leave_keys t
    exact ⟨left.sound sound, fun u other => World.threads_leave_of_ne other⟩
  crash := by
    rintro w w' _ rfl
    exact .idle w.db.keys

theorem Moves.keys {w w' : World τ} (move : (custody handler).Move w w') :
    w.keyring.Sound acceptance ∧ w.KeyStep Certified w' := by
  cases move with
  | spawn sound starts =>
      obtain ⟨task, _, rfl⟩ := starts
      exact ⟨sound, w.start_keys _ task⟩
  | exec sound may answers =>
      obtain ⟨_, _, runs⟩ := answers
      exact ⟨sound, Stmt.runUnder_keyring may runs⟩
  | retire sound _ leaves =>
      cases leaves
      exact ⟨sound, w.leave_keys _⟩
  | crash sound stops =>
      cases stops
      exact ⟨sound, .inr .stop⟩

theorem custody_kept (db : Database) : (custody (τ := τ) handler).Kept (.idle (.idle db)) :=
  .idle (.idle db.keys)

theorem keys_certified {db : Database}
    (certified : ∀ row ∈ db.keys.rows, Certified row.address row.encryptionKey) {c : Process τ}
    (run : Serves handler db c) :
    ∀ row ∈ c.state.db.keys.rows, Certified row.address row.encryptionKey := by
  refine custody_sound.invariant (J := fun w : World τ =>
    ∀ row ∈ w.db.keys.rows, Certified row.address row.encryptionKey)
    (fun {w w'} move all => ?_) (custody_kept db) certified run
  obtain ⟨sound, step⟩ := Moves.keys move
  exact step.origin sound id all

theorem accepted_lasts {db : Database} {c c' : Process τ} (run : Serves handler db c)
    (later : (serving handler).Reachable c c') {account : AccountID} {row : KeyRow}
    (stored : c.state.db.keys.find account = some row) (accepted : row.accepted = true) :
    c'.state.db.keys.find account = some row := by
  refine custody_sound.invariant (J := fun w : World τ => w.db.keys.find account = some row)
    (fun {w w'} move stored => ?_) (custody_sound.reachable (custody_kept db) run) stored later
  obtain ⟨sound, same | step⟩ := Moves.keys move
  · rw [show w'.db.keys = w.db.keys from congrArg Drafts.table same]
    exact stored
  · exact step.lasts sound stored (show (!row.accepted) = false by rw [accepted]; rfl)

/-- **The keys are certified, and accepted keys are kept.** In every state of every run each
key is one that its account has certified, and the row of an accepted key stays as it is, if
this holds of the keys at the start. -/
theorem keys_kept {db : Database}
    (certified : ∀ row ∈ db.keys.rows, Certified row.address row.encryptionKey) {c c' : Process τ}
    (run : Serves handler db c) (later : (serving handler).Reachable c c') :
    (∀ row ∈ c.state.db.keys.rows, Certified row.address row.encryptionKey) ∧
    ∀ account row, c.state.db.keys.find account = some row → row.accepted = true →
      c'.state.db.keys.find account = some row :=
  ⟨keys_certified certified run,
    fun _ _ stored accepted => accepted_lasts run later stored accepted⟩

end Runs

end Custody

/-! ## A purchase -/

namespace Shop

attribute [local instance] Texts.libraries Shop.cryptography

/-- The shop encrypts what it gives out. -/
def encrypting : Handler := ⟨printing, some [3], "shop", "token"⟩

/-- The tasks are run one after another, each at its time. -/
def errands : List (Time × Task) → World Unit → Option (World Unit)
  | [], w => some w
  | (time, task) :: rest, w =>
      ((task.run encrypting).eval (Stmt.run (at' time) ()) (task.start w ())).bind fun done =>
        errands rest (done.2.leave ())

theorem errands_reach {tasks : List (Time × Task)} {w w' : World Unit}
    (done : errands tasks w = some w') : (serving encrypting).Reachable (.idle w) (.idle w') := by
  induction tasks generalizing w with
  | nil =>
      cases done
      exact .refl
  | cons task rest ih =>
      obtain ⟨time, task⟩ := task
      obtain ⟨⟨result, w₁⟩, ended, done⟩ := Option.bind_eq_some_iff.mp done
      have answers : ∀ op (w : World Unit) answer w', Stmt.run (at' time) () op w =
        some (answer, w') →
          (serving encrypting).exec () op w answer w' := fun _ _ _ _ ran => ⟨.none, at' time, ran⟩
      obtain ⟨log, alone⟩ := Alone.of_eval answers ended
      have round : (serving encrypting).Reachable (.idle w) (.idle (w₁.leave ())) :=
        alone.round ⟨task, rfl, rfl⟩ rfl
      exact round.trans (ih done)

/-- The payer offers its key and pays. -/
def purchase : List (Time × Task) :=
  [(0, .request (.commitKey (Libraries.toRaw payer) (some (.ok newKey)))),
    (1, .job (.savePayments (call 10 10)))]

/-- The key of the payer, once it is accepted. -/
def keyOfPayer : KeyRow := ⟨payer, List.replicate 32 1, 0, true⟩

/-- **The key of a payment is still there when the expired keys are deleted.** -/
theorem accepted_key_kept : ∃ c c' : Process Unit,
    Serves encrypting database c ∧ (serving encrypting).Reachable c c' ∧
      c.state.db.keys.find payer = some keyOfPayer ∧
      Certified payer keyOfPayer.encryptionKey ∧
      c'.state.db.keys.find payer = some keyOfPayer := by
  have pays : (errands purchase (World.idle database)).map (fun w => w.db.keys.find payer) =
      some (some keyOfPayer) := by decide +kernel
  obtain ⟨w, done, stored⟩ := Option.map_eq_some_iff.mp pays
  have cleans : ((errands purchase (World.idle database)).bind
      (errands [(2 * hour, .deleteExpiredKeys)])).isSome := by decide +kernel
  rw [done, Option.bind_some] at cleans
  obtain ⟨w', cleaned⟩ := Option.isSome_iff_exists.mp cleans
  have none : ∀ row ∈ database.keys.rows, Certified row.address row.encryptionKey :=
    fun _ member => by cases member
  obtain ⟨certified, kept⟩ := keys_kept none (errands_reach done) (errands_reach cleaned)
  exact ⟨.idle w, .idle w', errands_reach done, errands_reach cleaned, stored,
    certified keyOfPayer (Table.find_eq_some.mp stored).1, kept _ _ stored rfl⟩

end Shop

end SpiceHarvester
