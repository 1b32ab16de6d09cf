import SpiceHarvester.Indexer.Loader
import SpiceHarvester.Interleaving.Alone
import SpiceHarvester.Schedule
import Mathlib.Logic.Relation

/-!
# Older states of an account

A lite server may answer with a state of the account that is older than what is stored
already. `refreshAccount` refuses it by comparing with `w.lastLt` alone, which is not
all that is known: it is 0 as long as nothing is stored, however late the account is
tracked from, and it is set back to the start of each gap that is filled when the
loader starts.

So a state of the loader refuses every older state exactly if `w.lastLt` is not below
the newest LT known (`refuses_iff`). Each refresh keeps it there (`Covers.refresh`), and
what is so at the first refresh is so for ever (`refusesAlways_iff`). Where it is not,
an older state is written over the account, and a loader that is sent below its depth
bound finds no transactions and panics (`Shop.created_set_back`).
-/

set_option autoImplicit false

namespace SpiceHarvester

open Interleaving Sql

/-! ## What a loader knows -/

section Knowledge

variable [Libraries] {τ : Type}

/-- The newest LT known of an account: that of the highest stored transaction, or
`start_tx_lt` when none is stored. -/
def newestLt (w : World τ) (account : AccountID) : ℕ :=
  (highestLt w.db.transactions account none).getD
    ((w.db.accounts.find account).elim 0 AccountRow.startTxLt)

/-- `w.lastLt` of the loader that runs on a thread. -/
def keptLt (w : World τ) (t : τ) : ℕ := (w.threads t).elim 0 Thread.lastLt

end Knowledge

/-- A lite server that is asked for the transactions from an LT on answers with
transactions up to it. -/
def Sane (op : Stmt) (choice : Choice) : Prop :=
  match op with
  | .getTransactions _ lt _ =>
      ∀ page, choice.page = .ok page → ∀ tx ∈ page, tx.lt ≤ lt ∧ tx.prevTxLt ≤ lt
  | _ => True

/-- The statements that store no transaction and leave `w.lastLt`. -/
def Stmt.looks : Stmt → Bool
  | .now | .getAccountState _ | .getLastLt | .updateAccount .. | .getTransactions .. => true
  | _ => false

/-- The error of `refreshAccount` for an older state. -/
def olderState : Err := .invalid "account has older state than previous"

/-- The start of `loaderWorker.Run`, before its endless loop. -/
def loaderStart (account : Account) (rounds : ℕ) : Action Unit := do
  let found ← match ← (getGaps account.accountID).attempt with
    | .ok found => pure found
    | .error _ => getGaps account.accountID
  perform (.setLastLt found.2)
  found.1.forM fun gap => syncHistoryGap account rounds gap.startHash gap.startLt gap.endLt

theorem loaderWorker_eq (account : Account) (rounds : ℕ) :
    loaderWorker account rounds = loaderStart account rounds >>= fun _ =>
      refreshLoop account rounds rounds := by
  unfold loaderWorker loaderStart
  rw [bind_assoc]
  congr 1
  funext found
  cases found <;> simp only [bind_assoc]

section Loads

variable [Libraries] {τ : Type} [DecidableEq τ] [Fintype τ]

/-- A statement of a loader runs, under any fault. -/
def Loads (t : τ) (op : Stmt) (w : World τ) (answer : Except Err op.Val) (w' : World τ) : Prop :=
  ∃ fault choice, Sane op choice ∧ op.runUnder fault choice t w = some (answer, w')

/-- In this state `refreshAccount` refuses every state of the account that is older
than what is known of it: it returns the error and has done nothing else than to look
at the state and at `w.lastLt`. -/
def Refuses (account : Account) (rounds : ℕ) (t : τ) (w : World τ) : Prop :=
  ∀ (last : TxID) (block : ℕ), last.lt < newestLt w account.accountID →
    ∀ log result w', Alone (Loads t) (refreshAccount account rounds) w
      (⟨.getAccountState account.accountID, .ok (last, block)⟩ :: log) result w' →
      result = .ok (.error olderState) ∧ w' = w ∧ ∀ called ∈ log, called.op = .getLastLt

/-- A loader goes on to its next refresh. A refresh that panics has none. Other threads
may do anything meanwhile but store transactions of the account. -/
inductive Refreshed (account : Account) (rounds : ℕ) (t : τ) : World τ → World τ → Prop where
  | refresh {w w' : World τ} {log : List (Called Stmt Stmt.Val Err)} {result : Except Err Unit}
      (runs : Alone (Loads t) (refreshAccount account rounds) w log (.ok result) w') :
      Refreshed account rounds t w w'
  | others {w w' : World τ} (newest : newestLt w' account.accountID = newestLt w account.accountID)
      (own : w'.threads t = w.threads t) : Refreshed account rounds t w w'

end Loads

/-! ## What the statements of a refresh change -/

theorem max?_concat_le (l : List ℕ) (n least : ℕ) :
    (l ++ [n]).max?.getD least ≤ max (l.max?.getD least) n := by
  cases highest : (l ++ [n]).max? with
  | none => exact absurd (List.max?_eq_none_iff.mp highest) (by simp)
  | some m =>
      obtain ⟨member, _⟩ := List.max?_eq_some_iff.mp highest
      rcases List.mem_append.mp member with old | new
      · cases before : l.max? with
        | none =>
            rw [List.max?_eq_none_iff.mp before] at old
            cases old
        | some m' =>
            have le := (List.max?_eq_some_iff.mp before).2 m old
            simp only [Option.getD_some]
            omega
      · rw [List.mem_singleton.mp new, Option.getD_some]
        exact Nat.le_max_right _ _

section Within

variable [Libraries] {τ : Type}

/-- The newest LT has grown at most to the bound, and `w.lastLt` is the same. -/
structure Within (account : AccountID) (t : τ) (bound : ℕ) (w w' : World τ) : Prop where
  newest : newestLt w' account ≤ max (newestLt w account) bound
  kept : keptLt w' t = keptLt w t
  running : (w'.threads t).isSome = (w.threads t).isSome

namespace Within

variable {account : AccountID} {t : τ} {bound : ℕ} {w w₁ w' : World τ}

theorem refl (w : World τ) : Within account t bound w w := ⟨Nat.le_max_left _ _, rfl, rfl⟩

theorem trans (first : Within account t bound w w₁) (later : Within account t bound w₁ w') :
    Within account t bound w w' := by
  refine ⟨?_, later.kept.trans first.kept, later.running.trans first.running⟩
  have newest := first.newest
  have newest' := later.newest
  omega

theorem mono {bound' : ℕ} (within : Within account t bound w w') (le : bound ≤ bound') :
    Within account t bound' w w' := by
  refine ⟨?_, within.kept, within.running⟩
  have newest := within.newest
  omega

variable [DecidableEq τ]

theorem setThread {f : Thread → Thread} (keeps : ∀ thread, (f thread).lastLt = thread.lastLt) :
    Within account t bound w (w.setThread t f) := by
  refine ⟨Nat.le_max_left _ _, ?_, ?_⟩
  · unfold keptLt
    rw [World.threads_setThread]
    cases w.threads t with
    | none => rfl
    | some thread => exact keeps thread
  · rw [World.threads_setThread]
    cases w.threads t <;> rfl

variable [Fintype τ] in
/-- A fault adds only an observation. -/
theorem of_runUnder {op : Stmt} {answer : Except Err op.Val} {fault : Fault} {choice : Choice}
    (ran : ∀ answer w₁, op.run choice t w = some (answer, w₁) → Within account t bound w w₁)
    (runs : op.runUnder fault choice t w = some (answer, w')) : Within account t bound w w' := by
  rcases Stmt.runUnder_cases runs with ⟨_, done⟩ | ⟨_, _, _, rfl⟩ | ⟨_, _, _, lost, w₀, done, rfl⟩
  · exact ran _ _ done
  · exact setThread fun _ => rfl
  · exact (ran _ _ done).trans (setThread fun _ => rfl)

end Within

theorem newestLt_updateAccount {w : World τ} {account : AccountID} {last : TxID}
    {block : ℕ} {time : Time} (condition : AccountRow → Bool) :
    newestLt { w with db := { w.db with
      accounts := w.db.accounts.update condition (.refresh last block time)
        (AccountRow.address_refresh _ _ _) } } account = newestLt w account := by
  unfold newestLt
  simp only [Table.find_update]
  congr 1
  cases w.db.accounts.find account with
  | none => rfl
  | some row =>
      change AccountRow.startTxLt (if condition row then _ else row) = _
      split <;> rfl

variable [DecidableEq τ] [Fintype τ]

theorem within_looks {account : AccountID} {t : τ} {bound : ℕ} {w w' : World τ} {op : Stmt}
    {answer : Except Err op.Val} (looks : op.looks = true) (loads : Loads t op w answer w') :
    Within account t bound w w' := by
  obtain ⟨fault, choice, _, runs⟩ := loads
  refine Within.of_runUnder (fun answer w₁ done => ?_) runs
  cases op with
  | now =>
      cases done
      exact .refl w
  | getAccountState _ =>
      cases done
      exact .refl w
  | getLastLt =>
      cases done
      exact .refl w
  | getTransactions _ _ _ =>
      cases done
      exact .setThread fun _ => rfl
  | updateAccount last block time account' =>
      simp only [Stmt.run, Option.ite_none_left_eq_some, Option.some.injEq, Prod.mk.injEq] at done
      obtain ⟨_, _, rfl⟩ := done
      exact ⟨by rw [newestLt_updateAccount]; exact Nat.le_max_left _ _, rfl, rfl⟩
  | _ => cases looks

/-- A transaction that is stored. -/
theorem within_insertTransaction {account : AccountID} {t : τ} {w w' : World τ}
    {row : TransactionRow} {answer : Except Err Unit}
    (loads : Loads t (.insertTransaction row) w answer w') : Within account t row.lt w w' := by
  obtain ⟨fault, choice, _, runs⟩ := loads
  refine Within.of_runUnder (fun answer w₁ done => ?_) runs
  simp only [Stmt.run, Option.some.injEq, Prod.mk.injEq] at done
  obtain ⟨_, rfl⟩ := done
  cases inserted : w.db.transactions.insert? row with
  | none => exact .refl w
  | some transactions =>
      refine ⟨?_, rfl, rfl⟩
      have rows : transactions.rows = w.db.transactions.rows ++ [row] := by
        unfold Table.insert? at inserted
        split at inserted
        · cases inserted
        · cases inserted
          rfl
      unfold newestLt highestLt
      simp only [rows, List.filter_append, List.map_append]
      by_cases own : row.accountID = account
      · rw [List.filter_cons_of_pos (by simp [own])]
        exact max?_concat_le _ _ _
      · rw [List.filter_cons_of_neg (by simp [own]), List.filter_nil, List.map_nil, List.append_nil]
        exact Nat.le_max_left _ _

/-! ## Downloading pages -/

/-- The transactions of an answer are not newer than the LT. -/
def Fits (lt : ℕ) (answer : Except Err (List Transaction)) : Prop :=
  ∀ txs, answer = .ok txs → ∀ tx ∈ txs, tx.lt ≤ lt ∧ tx.prevTxLt ≤ lt

omit [Libraries] in
theorem mem_of_checkPage {maxDepthLt : ℕ} {hash : Bits256} {page txs : List Transaction}
    (checked : checkPage maxDepthLt hash page = .ok txs) : ∀ tx ∈ txs, tx ∈ page := by
  induction page generalizing hash txs with
  | nil =>
      cases checked
      exact fun _ member => member
  | cons first rest ih =>
      unfold checkPage at checked
      split at checked
      · cases checked
      split at checked
      · cases checked
        exact fun _ member => by cases member
      · cases later : checkPage maxDepthLt first.prevTxHash rest with
        | error _ =>
            rw [later] at checked
            cases checked
        | ok others =>
            rw [later] at checked
            cases checked
            intro tx member
            rcases List.mem_cons.mp member with rfl | member
            · exact List.mem_cons_self
            · exact List.mem_cons_of_mem _ (ih later tx member)

theorem fits_getTransactions {account : AccountID} {t : τ} {lt maxDepthLt : ℕ}
    {hash : Bits256} {w w' : World τ} {log : List (Called Stmt Stmt.Val Err)}
    {result : Except Err (List Transaction)}
    (runs : Alone (Loads t) (getTransactions account lt maxDepthLt hash) w log result w') :
    (∀ bound, Within account t bound w w') ∧ Fits lt result := by
  unfold getTransactions at runs
  rcases Alone.bind_cases runs with ⟨error, first, rfl⟩ | ⟨page, w₁, first, later, begins, ends, _⟩
  · exact ⟨fun _ => within_looks rfl (Alone.query_cases first).1,
      fun _ impossible => by cases impossible⟩
  · have loads := (Alone.query_cases begins).1
    obtain ⟨_, same, rfl⟩ := Alone.ret_cases ends
    refine ⟨fun _ => within_looks rfl loads, fun txs checked tx member => ?_⟩
    obtain ⟨fault, choice, sane, ran⟩ := loads
    have answered : choice.page = .ok page := by
      rcases Stmt.runUnder_cases ran with ⟨_, done⟩ | ⟨_, _, impossible, _⟩ | ⟨_, _, impossible, _⟩
      · simp only [Stmt.run, Option.some.injEq, Prod.mk.injEq] at done
        exact done.1
      · cases impossible
      · cases impossible
    exact sane page answered tx (mem_of_checkPage (same.symm.trans checked) tx member)

theorem fits_retryTransactions {account : AccountID} {t : τ} {startLt endLt : ℕ}
    {hash : Bits256} {retries : ℕ} {last : Except Err (List Transaction)} {w w' : World τ}
    {log : List (Called Stmt Stmt.Val Err)} {result : Except Err (Except Err (List Transaction))}
    (runs : Alone (Loads t) (retryTransactions account startLt endLt hash retries last) w log
      result w') (fits : Fits startLt last) :
    (∀ bound, Within account t bound w w') ∧
      ∀ answer, result = .ok answer → Fits startLt answer := by
  induction retries generalizing last w log with
  | zero =>
      obtain ⟨_, rfl, rfl⟩ := Alone.ret_cases runs
      refine ⟨fun _ => .refl _, fun answer same => ?_⟩
      cases same
      exact fits
  | succ retries ih =>
      obtain ⟨found, w₁, first, later, begins, ends, _⟩ := Alone.attempt_bind_cases runs
      obtain ⟨within, fits⟩ := fits_getTransactions begins
      have again := fun (ends : Alone (Loads t)
          (retryTransactions account startLt endLt hash retries found) w₁ later result w') =>
        (ih ends fits).imp_left fun within' bound => (within bound).trans (within' bound)
      match found, fits, ends, again with
      | .ok (tx :: txs), fits, ends, _ =>
          obtain ⟨_, rfl, rfl⟩ := Alone.ret_cases ends
          refine ⟨within, fun answer same => ?_⟩
          cases same
          exact fits
      | .ok [], _, ends, again => exact again ends
      | .error _, _, ends, again => exact again ends

theorem within_saveTransactions {account : AccountID} {t : τ} {bound : ℕ} {w w' : World τ}
    {txs : List Transaction} {log : List (Called Stmt Stmt.Val Err)} {result : Except Err Unit}
    (runs : Alone (Loads t) (saveTransactions account txs) w log result w')
    (fits : ∀ tx ∈ txs, tx.lt ≤ bound) : Within account t bound w w' := by
  induction txs generalizing w log with
  | nil =>
      obtain ⟨_, _, rfl⟩ := Alone.ret_cases runs
      exact .refl _
  | cons tx rest ih =>
      have le := fits tx List.mem_cons_self
      change Alone (Loads t) (perform _ >>= fun _ => saveTransactions account rest) w log result w'
        at runs
      rcases Alone.bind_cases runs with ⟨error, first, _⟩ | ⟨_, w₁, first, later, begins, ends, _⟩
      · exact (within_insertTransaction (Alone.query_cases first).1).mono le
      · have within : Within account t bound w w₁ :=
          (within_insertTransaction (Alone.query_cases begins).1).mono le
        exact within.trans (ih ends fun tx member => fits tx (List.mem_cons_of_mem _ member))

theorem within_syncGapIteration {account : AccountID} {t : τ} {startLt endLt : ℕ}
    {hash : Bits256} {w w' : World τ} {log : List (Called Stmt Stmt.Val Err)}
    {result : Except Err (Bits256 × ℕ)}
    (runs : Alone (Loads t) (syncGapIteration account hash startLt endLt) w log result w') :
    Within account t startLt w w' ∧ ∀ next, result = .ok next → next.2 ≤ startLt := by
  unfold syncGapIteration at runs
  have empty : Fits startLt (.ok []) := fun txs same tx member => by
    cases same
    cases member
  rcases Alone.bind_cases runs with ⟨error, first, rfl⟩ | ⟨answer, w₁, first, later, begins, ends, _⟩
  · exact ⟨(fits_retryTransactions first empty).1 startLt, fun _ impossible => by cases impossible⟩
  · obtain ⟨grows, fits⟩ := fits_retryTransactions begins empty
    have within := grows startLt
    have fits := fits answer rfl
    match answer, fits, ends with
    | .error _, _, ends =>
        obtain ⟨_, rfl, rfl⟩ := Alone.ret_cases ends
        exact ⟨within, fun _ impossible => by cases impossible⟩
    | .ok [], _, ends =>
        obtain ⟨_, rfl, rfl⟩ := Alone.ret_cases ends
        exact ⟨within, fun _ impossible => by cases impossible⟩
    | .ok (tx :: txs), fits, ends =>
        have each := fits _ rfl
        rcases Alone.bind_cases ends with ⟨error, saves, rfl⟩ | ⟨_, w₂, _, _, saves, ends, _⟩
        · exact ⟨within.trans (within_saveTransactions saves fun tx member => (each tx member).1),
            fun _ impossible => by cases impossible⟩
        · obtain ⟨_, rfl, rfl⟩ := Alone.ret_cases ends
          refine ⟨within.trans (within_saveTransactions saves fun tx member => (each tx member).1),
            fun next same => ?_⟩
          cases same
          exact (each _ (List.getLast_mem _)).2

/-- The loop over pages ends without a `break` only where it has nothing to do. -/
theorem within_syncPages {account : AccountID} {t : τ} {startLt endLt rounds : ℕ}
    {hash : Bits256} {w w' : World τ} {log : List (Called Stmt Stmt.Val Err)}
    {result : Except Err Bool}
    (runs : Alone (Loads t) (syncPages account endLt rounds hash startLt) w log result w') :
    Within account t startLt w w' ∧ (result = .ok false → startLt = endLt ∧ w' = w) := by
  induction rounds generalizing hash startLt w log with
  | zero =>
      obtain ⟨_, rfl, rfl⟩ := Alone.ret_cases runs
      exact ⟨.refl _, fun impossible => by cases impossible⟩
  | succ rounds ih =>
      unfold syncPages at runs
      split at runs
      · rename_i same
        obtain ⟨_, rfl, rfl⟩ := Alone.ret_cases runs
        exact ⟨.refl _, fun _ => ⟨same, rfl⟩⟩
      rcases Alone.bind_cases runs with ⟨error, first, rfl⟩ | ⟨next, w₁, first, later, begins, ends, _⟩
      · exact ⟨(within_syncGapIteration first).1, fun impossible => by cases impossible⟩
      · obtain ⟨within, le⟩ := within_syncGapIteration begins
        have le := le next rfl
        split at ends
        · obtain ⟨_, rfl, rfl⟩ := Alone.ret_cases ends
          exact ⟨within, fun impossible => by cases impossible⟩
        · rename_i above
          obtain ⟨within', nothing⟩ := ih ends
          refine ⟨within.trans (within'.mono le), fun ended => ?_⟩
          exact absurd (nothing ended).1 (by omega)

/-! ## A refresh -/

theorem loads_setLastLt {t : τ} {w w' : World τ} {lt : ℕ} {answer : Except Err Unit}
    (loads : Loads t (.setLastLt lt) w answer w') :
    w' = w.setThread t fun thread => { thread with lastLt := lt } := by
  obtain ⟨fault, choice, _, runs⟩ := loads
  rcases Stmt.runUnder_cases runs with ⟨_, ran⟩ | ⟨_, impossible, _⟩ | ⟨_, impossible, _⟩
  · simp only [Stmt.run, Option.some.injEq, Prod.mk.injEq] at ran
    exact ran.2.symm
  · cases impossible
  · cases impossible

/-- What the loader has kept covers all that is known of the account. -/
structure Covers (account : AccountID) (t : τ) (w : World τ) : Prop where
  running : (w.threads t).isSome
  newest : newestLt w account ≤ keptLt w t

omit [DecidableEq τ] [Fintype τ] in
theorem Covers.of_within {account : AccountID} {t : τ} {w w' : World τ}
    (covers : Covers account t w) (within : Within account t 0 w w') : Covers account t w' := by
  refine ⟨within.running.trans covers.running, ?_⟩
  have newest := within.newest
  have before := covers.newest
  rw [within.kept]
  omega

/-- A gap above what is kept is closed. -/
theorem Covers.syncHistoryGap {account : Account} {t : τ} {rounds startLt endLt : ℕ}
    {hash : Bits256} {w w' : World τ} {log : List (Called Stmt Stmt.Val Err)}
    (covers : Covers account.accountID t w) (newer : keptLt w t ≤ startLt)
    (runs : Alone (Loads t) (syncHistoryGap account rounds hash startLt endLt) w log (.ok ()) w') :
    Covers account.accountID t w' := by
  rcases Alone.bind_cases runs with ⟨_, _, impossible⟩ | ⟨left, w₁, first, later, begins, ends, _⟩
  · cases impossible
  obtain ⟨within, nothing⟩ := within_syncPages begins
  cases left with
  | false =>
      obtain ⟨_, rfl⟩ := nothing rfl
      obtain ⟨_, _, rfl⟩ := Alone.ret_cases ends
      exact covers
  | true =>
      obtain rfl := loads_setLastLt (Alone.query_cases ends).1
      obtain ⟨thread, found⟩ := Option.isSome_iff_exists.mp (within.running.trans covers.running)
      have own : (w₁.setThread t fun thread => { thread with lastLt := startLt }).threads t =
          some { thread with lastLt := startLt } := by
        rw [World.threads_setThread, found]
        rfl
      have newest := within.newest
      have before := covers.newest
      refine ⟨by rw [own]; rfl, ?_⟩
      unfold keptLt
      rw [own]
      change newestLt w₁ account.accountID ≤ startLt
      omega

theorem within_updateAccount {account account' : AccountID} {t : τ} {bound : ℕ} {last : TxID}
    {block : ℕ} {w w' : World τ} {log : List (Called Stmt Stmt.Val Err)} {result : Except Err Unit}
    (runs : Alone (Loads t) (updateAccount account' last block) w log result w') :
    Within account t bound w w' := by
  rcases Alone.bind_cases runs with ⟨_, first, _⟩ | ⟨time, w₁, first, later, begins, ends, _⟩
  · exact within_looks rfl (Alone.query_cases first).1
  · exact (within_looks rfl (Alone.query_cases begins).1).trans
      (within_looks rfl (Alone.query_cases ends).1)

theorem loads_getLastLt {t : τ} {w w' : World τ} {answer : Except Err ℕ}
    (loads : Loads t .getLastLt w answer w') : answer = .ok (keptLt w t) ∧ w' = w := by
  obtain ⟨fault, choice, _, runs⟩ := loads
  rcases Stmt.runUnder_cases runs with ⟨_, ran⟩ | ⟨_, impossible, _⟩ | ⟨_, impossible, _⟩
  · simp only [Stmt.run, Option.some.injEq, Prod.mk.injEq] at ran
    exact ⟨ran.1.symm, ran.2.symm⟩
  · cases impossible
  · cases impossible

theorem loads_getAccountState {t : τ} {w w' : World τ} {account : AccountID} {state : TxID × ℕ}
    (loads : Loads t (.getAccountState account) w (.ok state) w') : w' = w := by
  obtain ⟨fault, choice, _, runs⟩ := loads
  rcases Stmt.runUnder_cases runs with ⟨_, ran⟩ | ⟨_, _, impossible, _⟩ | ⟨_, _, impossible, _⟩
  · simp only [Stmt.run, Option.some.injEq, Prod.mk.injEq] at ran
    exact ran.2.symm
  · cases impossible
  · cases impossible

/-- What `refreshAccount` does with a state that is not older than what is kept. -/
def takeState (account : Account) (rounds : ℕ) (last : TxID) (block : ℕ) :
    Action (Except Err Unit) := do
  match ← (updateAccount account.accountID last block).attempt with
  | .error error => return .error error
  | .ok _ => do
      let lastLt : ℕ ← perform .getLastLt
      syncHistoryGap account rounds last.hash last.lt lastLt
      return .ok ()

/-- A refresh gets no state, refuses the state it gets, or takes it. -/
theorem refreshAccount_cases {account : Account} {rounds : ℕ} {t : τ} {w w' : World τ}
    {log : List (Called Stmt Stmt.Val Err)} {result : Except Err (Except Err Unit)}
    (runs : Alone (Loads t) (refreshAccount account rounds) w log result w') :
    (∃ error, log = [⟨.getAccountState account.accountID, .error error⟩] ∧
      Within account.accountID t 0 w w') ∨
    ∃ last block, (last.lt < keptLt w t ∧ result = .ok (.error olderState) ∧ w' = w ∧
      log = [⟨.getAccountState account.accountID, .ok (last, block)⟩,
        ⟨.getLastLt, .ok (keptLt w t)⟩]) ∨
      (keptLt w t ≤ last.lt ∧ ∃ later,
        log = ⟨.getAccountState account.accountID, .ok (last, block)⟩ ::
          ⟨.getLastLt, .ok (keptLt w t)⟩ :: later ∧
        Alone (Loads t) (takeState account rounds last block) w later result w') := by
  unfold refreshAccount at runs
  obtain ⟨found, w₁, first, later, begins, ends, rfl⟩ := Alone.attempt_bind_cases runs
  obtain ⟨loads, rfl⟩ := Alone.query_cases begins
  match found, loads, ends with
  | .error error, loads, ends =>
      obtain ⟨rfl, rfl, rfl⟩ := Alone.ret_cases ends
      exact .inl ⟨error, rfl, within_looks rfl loads⟩
  | .ok (last, block), loads, ends =>
      obtain rfl := loads_getAccountState loads
      refine .inr ⟨last, block, ?_⟩
      rcases Alone.bind_cases ends with ⟨_, failed, _⟩ | ⟨kept, w₂, _, behind, asks, decides, rfl⟩
      · cases (loads_getLastLt (Alone.query_cases failed).1).1
      · obtain ⟨own, rfl⟩ := Alone.query_cases asks
        obtain ⟨same, rfl⟩ := loads_getLastLt own
        cases same
        split at decides
        · rename_i older
          obtain ⟨rfl, rfl, rfl⟩ := Alone.ret_cases decides
          exact .inl ⟨older, rfl, rfl, rfl⟩
        · rename_i newer
          exact .inr ⟨Nat.not_lt.mp newer, behind, rfl, decides⟩

/-- **A refresh leaves what is kept above what is known.** -/
theorem Covers.refresh {account : Account} {t : τ} {rounds : ℕ} {w w' : World τ}
    {log : List (Called Stmt Stmt.Val Err)} {result : Except Err Unit}
    (covers : Covers account.accountID t w)
    (runs : Alone (Loads t) (refreshAccount account rounds) w log (.ok result) w') :
    Covers account.accountID t w' := by
  rcases refreshAccount_cases runs with ⟨_, _, within⟩ | ⟨last, block, refused | taken⟩
  · exact covers.of_within within
  · obtain ⟨_, _, rfl, _⟩ := refused
    exact covers
  · obtain ⟨newer, later, _, takes⟩ := taken
    obtain ⟨updated, w₁, _, _, begins, ends, _⟩ := Alone.attempt_bind_cases takes
    have within : Within account.accountID t 0 w w₁ := within_updateAccount begins
    have covers := covers.of_within within
    cases updated with
    | error error =>
        obtain ⟨_, _, rfl⟩ := Alone.ret_cases ends
        exact covers
    | ok _ =>
        rcases Alone.bind_cases ends with ⟨_, _, impossible⟩ | ⟨kept, w₂, _, _, asks, ends, _⟩
        · cases impossible
        obtain ⟨same, rfl⟩ := loads_getLastLt (Alone.query_cases asks).1
        cases same
        rcases Alone.bind_cases ends with ⟨_, _, impossible⟩ | ⟨_, w₃, _, _, syncs, ends, _⟩
        · cases impossible
        obtain ⟨_, _, rfl⟩ := Alone.ret_cases ends
        exact covers.syncHistoryGap (by rw [within.kept]; exact newer) syncs

/-! ## Which states refuse -/

/-- A refresh may get any state, and takes it if it is not older than what is kept. -/
theorem refreshAccount_of_takes {account : Account} {rounds : ℕ} {t : τ} {w w' : World τ}
    {last : TxID} {block : ℕ} {later : List (Called Stmt Stmt.Val Err)}
    {result : Except Err (Except Err Unit)} (newer : keptLt w t ≤ last.lt)
    (takes : Alone (Loads t) (takeState account rounds last block) w later result w') :
    Alone (Loads t) (refreshAccount account rounds) w
      (⟨.getAccountState account.accountID, .ok (last, block)⟩ ::
        ⟨.getLastLt, .ok (keptLt w t)⟩ :: later) result w' := by
  let choice : Choice := ⟨0, [], [], [], false, .ok [], .ok (last, block)⟩
  have state : Loads t (.getAccountState account.accountID) w (.ok (last, block)) w :=
    ⟨.none, choice, trivial, rfl⟩
  have kept : Loads t .getLastLt w (.ok (keptLt w t)) w := ⟨.none, choice, trivial, rfl⟩
  have decides : Alone (Loads t) (if last.lt < keptLt w t then return .error olderState
      else takeState account rounds last block) w later result w' := by
    rw [if_neg (Nat.not_lt.mpr newer)]
    exact takes
  exact (Alone.query state).attempt_bind ((Alone.query kept).bind decides)

/-- The update of the account may fail. -/
theorem takeState_not_updated {account : Account} {t : τ} (rounds : ℕ) (w : World τ) (last : TxID)
    (block : ℕ) :
    ∃ log, Alone (Loads t) (takeState account rounds last block) w log (.ok (.error .failed))
      (w.setThread t Thread.fail) := by
  let choice : Choice := ⟨0, [], [], [], false, .ok [], .ok (last, block)⟩
  have clock : Loads t .now w (.ok 0) w := ⟨.none, choice, trivial, rfl⟩
  have refused : Loads t (.updateAccount last block 0 account.accountID) w (.error .failed)
      (w.setThread t Thread.fail) := ⟨.refused, choice, trivial, rfl⟩
  have update : Alone (Loads t) (updateAccount account.accountID last block) w _ (.error .failed)
      (w.setThread t Thread.fail) := (Alone.query clock).bind (Alone.query refused)
  exact ⟨_, update.attempt_bind .ret⟩

/-- A state refuses older states exactly if what is kept covers all that is known. -/
theorem refuses_iff {account : Account} {rounds : ℕ} {t : τ} {w : World τ} :
    Refuses account rounds t w ↔ newestLt w account.accountID ≤ keptLt w t := by
  constructor
  · intro refuses
    by_contra above
    obtain ⟨log, takes⟩ := takeState_not_updated rounds w ⟨keptLt w t, 0⟩ 0
    have runs := refreshAccount_of_takes (Nat.le_refl (keptLt w t)) takes
    obtain ⟨impossible, _, _⟩ := refuses _ _ (Nat.not_le.mp above) _ _ _ runs
    cases impossible
  · intro covers last block older log result w' runs
    rcases refreshAccount_cases runs with ⟨_, same, _⟩ | ⟨last', block', refused | taken⟩
    · cases same
    · obtain ⟨_, rfl, rfl, same⟩ := refused
      cases same
      refine ⟨rfl, rfl, fun called member => ?_⟩
      rw [List.mem_singleton.mp member]
    · obtain ⟨newer, later, same, _⟩ := taken
      cases same
      omega

/-- **From its first refresh on a loader refuses every older state, exactly if at that
refresh `w.lastLt` is not below the newest LT known.** -/
theorem refusesAlways_iff {account : Account} {rounds : ℕ} {t : τ} {w : World τ}
    (running : (w.threads t).isSome) :
    (∀ w', Relation.ReflTransGen (Refreshed account rounds t) w w' → Refuses account rounds t w') ↔
      newestLt w account.accountID ≤ keptLt w t := by
  constructor
  · intro refuses
    exact refuses_iff.mp (refuses w .refl)
  · intro newest w' refreshed
    have covers : Covers account.accountID t w' := by
      induction refreshed with
      | refl => exact ⟨running, newest⟩
      | tail _ step ih =>
          cases step with
          | refresh runs => exact ih.refresh runs
          | others same own =>
              refine ⟨by rw [own]; exact ih.running, ?_⟩
              have newest := ih.newest
              unfold keptLt at newest ⊢
              rw [same, own]
              exact newest
    exact refuses_iff.mpr covers.newest

/-- The endless loop of a loader goes from refresh to refresh. -/
theorem refreshed_of_refreshLoop {account : Account} {rounds remaining : ℕ} {t : τ}
    {w w' : World τ} {log : List (Called Stmt Stmt.Val Err)}
    (runs : Alone (Loads t) (refreshLoop account rounds remaining) w log (.ok ()) w') :
    Relation.ReflTransGen (Refreshed account rounds t) w w' := by
  induction remaining generalizing w log with
  | zero =>
      obtain ⟨_, _, rfl⟩ := Alone.ret_cases runs
      exact .refl
  | succ remaining ih =>
      rcases Alone.bind_cases runs with ⟨_, _, impossible⟩ | ⟨_, w₁, _, _, begins, ends, _⟩
      · cases impossible
      · exact .head (.refresh begins) (ih ends)

omit [DecidableEq τ] [Fintype τ] in
/-- With the LT that `GetGaps` returns, the condition is that a transaction is stored, or
that the account is tracked from LT 0 on. -/
theorem newest_le_kept_iff {account : AccountID} {t : τ} {w : World τ}
    (kept : keptLt w t = (highestLt w.db.transactions account none).getD 0) :
    newestLt w account ≤ keptLt w t ↔ (highestLt w.db.transactions account none).isSome ∨
      (w.db.accounts.find account).elim 0 AccountRow.startTxLt = 0 := by
  rw [kept, newestLt]
  cases highestLt w.db.transactions account none with
  | none => simp
  | some lt => simp

omit [DecidableEq τ] [Fintype τ] in
/-- A gap that was filled has set `w.lastLt` below the transaction behind the gap. -/
theorem not_newest_le_kept {account : AccountID} {t : τ} {w : World τ} {row : TransactionRow}
    (member : row ∈ w.db.transactions.rows) (own : row.accountID = account)
    (below : keptLt w t < row.lt) : ¬ newestLt w account ≤ keptLt w t := by
  have listed : row.lt ∈ (w.db.transactions.rows.filter fun row =>
      decide (row.accountID = account) && (none : Option ℕ).all fun lt => decide (row.lt < lt)).map
        TransactionRow.lt :=
    List.mem_map_of_mem (List.mem_filter.mpr ⟨member, by simp [own]⟩)
  unfold newestLt
  cases highest : highestLt w.db.transactions account none with
  | none =>
      rw [List.max?_eq_none_iff.mp highest] at listed
      cases listed
  | some lt =>
      have le := (List.max?_eq_some_iff.mp highest).2 row.lt listed
      rw [Option.getD_some]
      omega

/-! ## A lite server without transactions -/

/-- The client may find nothing in every retry. -/
theorem retryTransactions_nothing (account : AccountID) (t : τ) (startLt endLt : ℕ)
    (hash : Bits256) (retries : ℕ) (w : World τ) :
    ∃ log w', Alone (Loads t) (retryTransactions account startLt endLt hash retries (.ok [])) w log
      (.ok (.ok [])) w' ∧ w'.db = w.db ∧
      (0 < retries → ⟨.getTransactions account startLt hash, .ok []⟩ ∈ log) := by
  induction retries generalizing w with
  | zero => exact ⟨[], w, .ret, rfl, fun impossible => absurd impossible (Nat.lt_irrefl 0)⟩
  | succ retries ih =>
      let choice : Choice := ⟨0, [], [], [], false, .ok [], .error .failed⟩
      have nothing : Loads t (.getTransactions account startLt hash) w (.ok [])
          (w.setThread t fun thread => { thread with page := [] }) := by
        refine ⟨.none, choice, ?_, rfl⟩
        intro page same tx member
        cases same
        cases member
      have asks : Alone (Loads t) (getTransactions account startLt endLt hash) w _ (.ok []) _ :=
        (Alone.query nothing).bind .ret
      obtain ⟨log, w', again, db, _⟩ := ih (w.setThread t fun thread => { thread with page := [] })
      exact ⟨_, w', asks.attempt_bind again, db, fun _ => List.mem_cons_self⟩

/-- A loader that takes a state below its depth bound overwrites the account and
panics, if the lite server has nothing to say. -/
theorem takeState_panics {account : Account} {t : τ} {w : World τ} {last : TxID} (rounds block : ℕ)
    (free : w.blocked t Tx.accounts w.db.accounts
      (fun row => decide (row.address = account.accountID)) = false)
    (apart : last.lt ≠ max (keptLt w t) account.info.maxDepthLt) :
    ∃ log w', Alone (Loads t) (takeState account (rounds + 1) last block) w log
        (.error (.invalid "no transactions")) w' ∧
      w'.db.accounts.find account.accountID =
        (w.db.accounts.find account.accountID).map (.refresh last block 0) ∧
      ⟨.getTransactions account.accountID last.lt last.hash, .ok []⟩ ∈ log := by
  let choice : Choice := ⟨0, [], [], [], false, .ok [], .error .failed⟩
  let w₁ : World τ := { w with db := { w.db with
    accounts := w.db.accounts.update (fun row => decide (row.address = account.accountID))
      (.refresh last block 0) (AccountRow.address_refresh _ _ _) } }
  have clock : Loads t .now w (.ok 0) w := ⟨.none, choice, trivial, rfl⟩
  have updates : Loads t (.updateAccount last block 0 account.accountID) w (.ok ()) w₁ := by
    refine ⟨.none, choice, trivial, ?_⟩
    simp only [Stmt.runUnder, Stmt.run, free]
    rfl
  have update : Alone (Loads t) (updateAccount account.accountID last block) w _ (.ok ()) w₁ :=
    (Alone.query clock).bind (Alone.query updates)
  have kept : Loads t .getLastLt w₁ (.ok (keptLt w t)) w₁ := ⟨.none, choice, trivial, rfl⟩
  obtain ⟨log, w', asks, db, asked⟩ := retryTransactions_nothing account.accountID t last.lt
    (max (keptLt w t) account.info.maxDepthLt) last.hash 200 w₁
  have iteration : Alone (Loads t) (syncGapIteration account.accountID last.hash last.lt
      (max (keptLt w t) account.info.maxDepthLt)) w₁ (log ++ [])
      (.error (.invalid "no transactions")) w' := asks.bind .ret
  have pages : Alone (Loads t) (syncPages account.accountID
      (max (keptLt w t) account.info.maxDepthLt) (rounds + 1) last.hash last.lt) w₁ (log ++ [])
      (.error (.invalid "no transactions")) w' := by
    rw [syncPages, if_neg apart]
    exact iteration.bind_error
  have sync : Alone (Loads t) (syncHistoryGap account (rounds + 1) last.hash last.lt (keptLt w t))
      w₁ (log ++ []) (.error (.invalid "no transactions")) w' := pages.bind_error
  refine ⟨_, w', update.attempt_bind ((Alone.query kept).bind sync.bind_error), ?_, ?_⟩
  · rw [db]
    change (w.db.accounts.update (fun row => decide (row.address = account.accountID))
      (.refresh last block 0) (AccountRow.address_refresh _ _ _)).find account.accountID = _
    rw [Table.find_update]
    cases found : w.db.accounts.find account.accountID with
    | none => rfl
    | some row =>
        have own := Table.key_of_find found
        simp [own]
  · simp only [List.append_nil, List.mem_append]
    exact .inr (.inr (asked (by decide)))

end Within

/-! ## An account that was just created -/

namespace Shop

attribute [local instance] Texts.libraries

/-- The merchant is tracked from LT 100 on, and nothing is stored of it. -/
def tracked : Account := ⟨merchant, ⟨100, merchant, none⟩⟩

def created : Database :=
  { database with accounts := ⟨[⟨merchant, 100, 100, 0, 100, 0, 0⟩], by decide⟩ }

/-- The loader of the merchant, when it has looked for gaps and found none. -/
def loading : World Unit :=
  ((World.idle created).start () (.loaderWorker tracked 1)).setThread () fun thread =>
    { thread with lastLt := 0 }

/-- The same with a transaction stored. -/
def resumed : World Unit :=
  (World.idle { created with transactions :=
    ⟨[⟨1, 120, merchant, 0, 100, 0, none, [], true, none⟩], by decide⟩ }).start ()
      (.loaderWorker tracked 1) |>.setThread () fun thread => { thread with lastLt := 120 }

/-- With a transaction stored older states are refused, whatever happens. -/
theorem resumed_refuses :
    newestLt resumed merchant = 120 ∧
      ∀ w, Relation.ReflTransGen (Refreshed tracked 1 ()) resumed w → Refuses tracked 1 () w :=
  ⟨rfl, (refusesAlways_iff rfl).mpr (by decide)⟩

/-- **Just after its creation an account is set back to an older state, and the loader
panics.** Nothing is stored, so `w.lastLt` is 0. -/
theorem created_set_back :
    (∃ log, Alone (Loads ()) (loaderStart tracked 1)
      ((World.idle created).start () (.loaderWorker tracked 1)) log (.ok ()) loading) ∧
    newestLt loading merchant = 100 ∧
    (∃ log w', Alone (Loads ()) (refreshAccount tracked 1) loading
        (⟨.getAccountState merchant, .ok (⟨90, 0⟩, 7)⟩ :: log)
        (.error (.invalid "no transactions")) w' ∧
      (w'.db.accounts.find merchant).map AccountRow.lastTxLt = some 90 ∧
      ⟨.getTransactions merchant 90 0, .ok []⟩ ∈ log) ∧
    ¬ Refuses tracked 1 () loading := by
  have newest : newestLt loading merchant = 100 := rfl
  refine ⟨?_, newest, ?_, ?_⟩
  · let start := (World.idle created).start () (.loaderWorker tracked 1)
    let choice : Choice := ⟨0, [], [], [], false, .error .failed, .error .failed⟩
    have gaps : Loads () (.selectGaps merchant) start (.ok []) start :=
      ⟨.none, choice, trivial, rfl⟩
    have last : Loads () (.selectLastLt merchant) start (.error .noRows) start :=
      ⟨.none, choice, trivial, rfl⟩
    have kept : Loads () (.setLastLt 0) start (.ok ()) loading := ⟨.none, choice, trivial, rfl⟩
    have lastLt : Alone (Loads ()) (queryLt (.selectLastLt merchant) id) start _ (.ok 0) start :=
      (Alone.query last).attempt_bind .ret
    have none : Alone (Loads ()) (.ret (.ok [])) start [] (.ok ([] : List TxGap)) start := .ret
    have found : Alone (Loads ()) (getGaps merchant) start _ (.ok ([], 0)) start :=
      (Alone.query gaps).bind (none.bind (lastLt.bind .ret))
    exact ⟨_, found.attempt_bind (Alone.bind .ret ((Alone.query kept).bind .ret))⟩
  · have free : loading.blocked () Tx.accounts loading.db.accounts
        (fun row => decide (row.address = merchant)) = false := by decide
    have apart : (⟨90, 0⟩ : TxID).lt ≠ max (keptLt loading ()) tracked.info.maxDepthLt := by decide
    obtain ⟨log, w', takes, accounts, asked⟩ := takeState_panics 0 7 free apart
    refine ⟨_, w', refreshAccount_of_takes (Nat.zero_le 90) takes, ?_, ?_⟩
    · change w'.db.accounts.find merchant = _ at accounts
      rw [accounts]
      rfl
    · exact List.mem_cons_of_mem _ asked
  · rw [refuses_iff, show tracked.accountID = merchant from rfl, newest]
    decide

end Shop

end SpiceHarvester
