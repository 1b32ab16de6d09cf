import SpiceHarvester.Protocol.Invoices

/-!
# The workers keep the discipline

The indexer, the loader and the notifier are loops, and what each needs from one
round to the next is an invariant of its own thread: which transaction the
indexer may ask for (`Asking`), that nothing else is known of a loader
(`Working`), which invoices a notifier holds (`Holding`).
-/

set_option autoImplicit false

namespace SpiceHarvester

open Interleaving Sql

/-- The thread runs the job and owes no outbox row. -/
structure Working (job : Job) (thread : Thread) : Prop where
  job : thread.job = job
  clear : thread.Clear

theorem Working.fail {job : Job} {thread : Thread} (working : Working job thread) :
    Working job thread.fail :=
  ⟨working.job, thread.clear_fail⟩

theorem Working.start (job : Job) : Working job (.start job) := ⟨rfl, .inl rfl⟩

section Rules

variable [Libraries] {τ : Type} [DecidableEq τ] [Fintype τ]
  {printing : Printing} {rules : Rules τ} {t : τ}

/-- A statement that keeps what is known of the own thread. -/
theorem quiet_keeps {P : Thread → Prop} {op : Stmt} (fails : ∀ {thread}, P thread → P thread.fail)
    (may : ∀ {thread currencies delivered}, P thread → thread.may currencies delivered op)
    (ran : ∀ {w w' : World τ} {choice answer thread}, w.threads t = some thread → P thread →
      op.run choice t w = some (answer, w') → ∃ thread', w'.threads t = some thread' ∧ P thread') :
    Keeps printing rules t (fun thread _ => P thread) (perform op) fun _ thread _ => P thread :=
  .perform (lasting_const _) (fun _ => lasting_const _) (fun _ holds => may holds)
    (fun _ held holds runs => ran held holds runs) (fun _ {_ _} holds => fails holds)
    fun _ {_ _ _} holds => fails holds

end Rules

/-! ## The indexer -/

section Indexer

/-- The indexer is about to ask for the successor of `lt`. -/
structure Asking (account : Account) (rounds lt : ℕ) (thread : Thread) : Prop
    extends Working (.indexerWorker account rounds) thread where
  tx : thread.tx = none
  unread : thread.lastRead = none
  mayAsk : thread.MayAsk lt

/-- The indexer has fetched a transaction. -/
structure Fetched (account : Account) (rounds lt : ℕ) (row : TransactionRow) (thread : Thread) :
    Prop extends Working (.indexerWorker account rounds) thread where
  tx : thread.tx = none
  unread : thread.lastRead = none
  cursor : thread.cursor = some lt
  fetched : thread.fetched = some row
  saved : thread.saved = false

variable {account : Account} {rounds lt : ℕ} {row : TransactionRow} {thread base : Thread}

theorem Asking.fail (asking : Asking account rounds lt thread) :
    Asking account rounds lt thread.fail where
  toWorking := asking.toWorking.fail
  tx := asking.tx
  unread := asking.unread
  mayAsk := by
    refine asking.mayAsk.imp (fun ⟨cursor, known⟩ => ⟨cursor, ?_⟩) fun saved => saved
    refine known.imp (fun saved => saved) fun known => known.imp (fun credited => credited) ?_
    intro unsure
    rw [Thread.fail, unsure, Bool.true_or]

theorem Fetched.asking (fetched : Fetched account rounds lt row thread) :
    Asking account rounds lt thread where
  toWorking := fetched.toWorking
  tx := fetched.tx
  unread := fetched.unread
  mayAsk := .inl ⟨fetched.cursor, .inl fetched.saved⟩

/-- A call that did not succeed is tried again for the same transaction. -/
theorem Fetched.again (fetched : Fetched account rounds lt row base) {α : Type} {error : Err}
    (ended : Saved base (.error error : Except Err α) thread) (closed : thread.tx = none) :
    Asking account rounds lt thread where
  job := (Thread.job_of_worker ended.worker).trans fetched.job
  clear := ended.clear
  tx := closed
  unread := (Thread.lastRead_of_worker ended.worker).trans fetched.unread
  mayAsk := .inl ⟨(Thread.cursor_of_worker ended.worker).trans fetched.cursor, ended.saved⟩

/-- After a call that succeeded the indexer goes on with the next transaction. -/
theorem Fetched.next (fetched : Fetched account rounds lt row base) {α : Type} {value : α}
    (ended : Saved base (.ok value : Except Err α) thread) (closed : thread.tx = none) :
    Asking account rounds row.lt thread where
  job := (Thread.job_of_worker ended.worker).trans fetched.job
  clear := ended.clear
  tx := closed
  unread := (Thread.lastRead_of_worker ended.worker).trans fetched.unread
  mayAsk := .inr ⟨ended.saved, row,
    (Thread.fetched_of_worker ended.worker).trans fetched.fetched, rfl⟩

theorem TransactionRow.lt_of_transaction {tx : Transaction} (decoded : row.transaction = .ok tx) :
    tx.lt = row.lt := by
  unfold TransactionRow.transaction at decoded
  split at decoded <;> cases decoded
  rfl

variable [Libraries] {τ : Type} [DecidableEq τ] [Fintype τ]
  {printing : Printing} {rules : Rules τ} {t : τ}

theorem selectTransactionByParent_keeps :
    Keeps printing rules t (fun thread (_ : World τ) => Asking account rounds lt thread)
      (perform (.selectTransactionByParent account.accountID lt))
      (Ends (fun row thread _ => Fetched account rounds lt row thread)
        fun thread _ => Asking account rounds lt thread) := by
  refine .perform (lasting_const _)
    (fun _ => lasting_ends (fun _ => lasting_const _) (lasting_const _) _) ?_ ?_
    (fun _ {_ _} asking => asking.fail) ?_
  · exact fun _ asking => ⟨asking.tx, asking.mayAsk, account, rounds, asking.job, rfl⟩
  · rintro thread w choice answer w' _ held asking runs
    cases runs
    refine own_setThread held ?_
    cases childOf w.db.transactions account.accountID lt with
    | none => exact ⟨⟨asking.job, asking.clear⟩, asking.tx, asking.unread, .inl ⟨rfl, .inl rfl⟩⟩
    | some row => exact ⟨⟨asking.job, asking.clear⟩, asking.tx, asking.unread, rfl, rfl, rfl⟩
  · rintro _ (error | row) thread w holds
    · exact holds.fail
    · exact holds.asking.fail

theorem getTransactionByParentLt_keeps :
    Keeps printing rules t (fun thread (_ : World τ) => Asking account rounds lt thread)
      (getTransactionByParentLt account.accountID lt)
      (Ends (fun tx thread _ =>
          ∃ row, row.transaction = .ok tx ∧ Fetched account rounds lt row thread)
        fun thread _ => Asking account rounds lt thread) := by
  refine .bind (.queryRow_ends selectTransactionByParent_keeps) (fun row => ?_) fun holds => holds
  cases decoded : row.transaction with
  | error error => exact Keeps.ret (lasting_const _) fun _ fetched => fetched.asking
  | ok tx => exact Keeps.ret (lasting_const _) fun _ fetched => ⟨row, decoded, fetched⟩

theorem indexerRound_keeps :
    Keeps printing rules t (fun thread (_ : World τ) => Asking account rounds lt thread)
      (indexerRound account lt)
      (Ends (fun lt thread _ => Asking account rounds lt thread)
        fun thread _ => Working (.indexerWorker account rounds) thread) := by
  refine .attempt_bind getTransactionByParentLt_keeps fun found => ?_
  cases found with
  | error error => exact Keeps.ret (lasting_const _) fun _ asking => asking
  | ok tx =>
      refine .of_known fun base ⟨row, decoded, fetched⟩ => ?_
      dsimp only
      cases extracts : extractPayments tx account with
      | none => exact Keeps.ret (lasting_const _) fun _ same => same ▸ fetched.toWorking
      | some extracted =>
          have mayBegin : base.MayBegin (paymentCall account tx extracted) :=
            .inr ⟨account, rounds, row, tx, extracted, fetched.job, fetched.fetched, decoded,
              extracts, rfl⟩
          have saves : Keeps printing rules t _ (savePayments _) _ :=
            savePayments_keeps mayBegin fetched.unread
          refine .attempt_bind (saves.strengthen fun {thread w} _ same => ?_) fun result => ?_
          · rw [show thread = base from same]
            exact ⟨⟨rfl, fetched.clear, fetched.saved⟩, fetched.tx⟩
          · cases result with
            | error error =>
                exact Keeps.ret (lasting_const _) fun _ holds => fetched.again holds.1 holds.2
            | ok value =>
                refine Keeps.ret (lasting_const _) fun _ holds => ?_
                rw [TransactionRow.lt_of_transaction decoded]
                exact fetched.next holds.1 holds.2

theorem indexerRun_keeps (remaining : ℕ) :
    Keeps printing rules t (fun thread (_ : World τ) => Asking account rounds lt thread)
      (indexerRun account remaining lt)
      (fun _ thread _ => Working (.indexerWorker account rounds) thread) := by
  induction remaining generalizing lt with
  | zero => exact Keeps.ret (lasting_const _) fun _ asking => asking.toWorking
  | succ remaining ih => exact .bind indexerRound_keeps (fun _ => ih) fun working => working

theorem indexerWorker_keeps :
    Keeps printing rules t
      (fun thread (_ : World τ) => thread = .start (.indexerWorker account rounds))
      (indexerWorker account rounds)
      (fun _ thread _ => Working (.indexerWorker account rounds) thread) := by
  refine .bind (R := Ends (fun lt thread _ => Asking account rounds lt thread)
    fun thread _ => Working (.indexerWorker account rounds) thread) ?_
    (fun _ => indexerRun_keeps rounds) fun working => working
  refine .perform (lasting_const _)
    (fun _ => lasting_ends (fun _ => lasting_const _) (lasting_const _) _) ?_ ?_ ?_ ?_
  · rintro thread w _ rfl
    exact ⟨rfl, rfl, rfl, account, rounds, rfl, rfl⟩
  · rintro thread w choice answer w' _ held rfl runs
    cases runs
    refine own_setThread held ?_
    cases (w.db.accounts.find account.accountID).map AccountRow.lastProcessedLt with
    | none => exact .start _
    | some lt => exact ⟨⟨rfl, .inl rfl⟩, rfl, rfl, .inl ⟨rfl, .inl rfl⟩⟩
  · rintro _ thread w rfl
    exact Working.fail (.start _)
  · rintro _ (error | lt) thread w holds
    · exact Working.fail holds
    · exact holds.toWorking.fail

end Indexer

/-! ## The loader -/

section Loader

variable {account : Account} {rounds : ℕ}

/-- The loader has received the transactions that it is about to insert. -/
structure Paged (account : Account) (rounds : ℕ) (txs : List Transaction) (thread : Thread) : Prop
    extends Working (.loaderWorker account rounds) thread where
  received : ∀ tx ∈ txs, tx ∈ thread.page ∧ account.info.maxDepthLt < tx.lt

theorem Paged.fail {txs : List Transaction} {thread : Thread}
    (paged : Paged account rounds txs thread) : Paged account rounds txs thread.fail :=
  ⟨paged.toWorking.fail, paged.received⟩

/-- What the client keeps of a page comes from the page, above the depth bound. -/
theorem checkPage_sound {maxDepthLt : ℕ} {hash : Bits256} {page txs : List Transaction}
    (checked : checkPage maxDepthLt hash page = .ok txs) :
    ∀ tx ∈ txs, tx ∈ page ∧ maxDepthLt < tx.lt := by
  induction page generalizing hash txs with
  | nil =>
      cases checked
      exact fun _ member => absurd member List.not_mem_nil
  | cons first rest ih =>
      rw [checkPage] at checked
      split at checked
      · cases checked
      split at checked
      · cases checked
        exact fun _ member => absurd member List.not_mem_nil
      · rename_i _ deep
        cases further : checkPage maxDepthLt first.prevTxHash rest with
        | error error => rw [further] at checked; cases checked
        | ok others =>
            rw [further] at checked
            cases checked
            intro tx member
            obtain rfl | member := List.mem_cons.mp member
            · exact ⟨List.mem_cons_self, Nat.lt_of_not_le deep⟩
            · obtain ⟨found, deep⟩ := ih further tx member
              exact ⟨List.mem_cons_of_mem _ found, deep⟩

variable [Libraries] {τ : Type} [DecidableEq τ] [Fintype τ]
  {printing : Printing} {rules : Rules τ} {t : τ}

/-- A program of a loader that keeps what is known of its thread. -/
abbrev Works (printing : Printing) (rules : Rules τ) (t : τ) (account : Account) (rounds : ℕ)
    {α : Type} (program : Action α) : Prop :=
  Keeps printing rules t (fun thread _ => Working (.loaderWorker account rounds) thread) program
    fun _ thread _ => Working (.loaderWorker account rounds) thread

theorem works_ret {α : Type} (result : Except Err α) :
    Works printing rules t account rounds (.ret result) :=
  Keeps.ret (lasting_const _) fun _ working => working

/-- A statement that leaves the thread alone. -/
theorem works_perform {op : Stmt}
    (may : ∀ {thread currencies delivered}, Working (.loaderWorker account rounds) thread →
      thread.may currencies delivered op)
    (same : ∀ {w w' : World τ} {choice answer}, op.run choice t w = some (answer, w') →
      w'.threads = w.threads) : Works printing rules t account rounds (perform op) :=
  quiet_keeps Working.fail may fun held working runs =>
    ⟨_, (congrFun (same runs) t).trans held, working⟩

theorem works_queryLt {op : Stmt} {value : op.Val → ℕ}
    (query : Works printing rules t account rounds (perform op)) :
    Works printing rules t account rounds (queryLt op value) := by
  refine .attempt_bind query fun answer => ?_
  split <;> exact works_ret _

theorem works_forM {β : Type} {body : β → Action PUnit} (items : List β)
    (step : ∀ item, Works printing rules t account rounds (body item)) :
    Works printing rules t account rounds (items.forM body) := by
  refine (Keeps.forM (P := fun _ thread _ => Working (.loaderWorker account rounds) thread)
    (E := fun thread _ => Working (.loaderWorker account rounds) thread) (lasting_const _)
    (fun item _ => (step item).weaken (fun _ working => working) ?_) items).weaken
    (fun _ working => working) ?_
  · rintro (_ | _) thread w _ working <;> exact working
  · rintro (_ | _) thread w _ working <;> exact working

theorem works_mapM {α β : Type} {body : β → Action α} (items : List β)
    (step : ∀ item, Works printing rules t account rounds (body item)) :
    Works printing rules t account rounds (items.mapM body) := by
  refine (Keeps.mapM (P := fun _ _ thread _ => Working (.loaderWorker account rounds) thread)
    (E := fun thread _ => Working (.loaderWorker account rounds) thread) (fun _ => lasting_const _)
    (fun _ item _ => (step item).weaken (fun _ working => working) ?_) items []).weaken
    (fun _ working => working) ?_
  · rintro (_ | _) thread w _ working <;> exact working
  · rintro (_ | _) thread w _ working <;> exact working

theorem getGaps_works : Works printing rules t account rounds (getGaps account.accountID) := by
  refine .bind (works_perform (fun _ => trivial) fun runs => ?_) (fun starts => ?_) fun w => w
  · rw [(Stmt.run_selectGaps runs).1]
  refine .bind (works_mapM starts fun start => ?_) (fun gaps => ?_) fun working => working
  · refine .bind (works_queryLt (works_perform (fun _ => trivial) fun runs => ?_))
      (fun endLt => works_ret _) fun working => working
    cases runs
    rfl
  · refine .bind (works_queryLt (works_perform (fun _ => trivial) fun runs => ?_))
      (fun lastLt => works_ret _) fun working => working
    cases runs
    rfl

theorem getTransactions_keeps {lt maxDepthLt : ℕ} {hash : Bits256}
    (deep : account.info.maxDepthLt ≤ maxDepthLt) :
    Keeps printing rules t
      (fun thread (_ : World τ) => Working (.loaderWorker account rounds) thread)
      (getTransactions account.accountID lt maxDepthLt hash)
      (Ends (fun txs thread _ => Paged account rounds txs thread)
        fun thread _ => Working (.loaderWorker account rounds) thread) := by
  refine .bind (R := Ends (fun page thread _ =>
      Working (.loaderWorker account rounds) thread ∧ thread.page = page)
    fun thread _ => Working (.loaderWorker account rounds) thread) ?_ (fun page => ?_)
    fun working => working
  · refine .perform (lasting_const _)
      (fun _ => lasting_ends (fun _ => lasting_const _) (lasting_const _) _) ?_ ?_
      (fun _ {_ _} working => working.fail) ?_
    · exact fun _ working => ⟨account, rounds, working.job, rfl⟩
    · rintro thread w choice answer w' _ held working runs
      cases runs
      refine own_setThread held ?_
      cases choice.page with
      | error error => exact ⟨working.job, working.clear⟩
      | ok page => exact ⟨⟨working.job, working.clear⟩, rfl⟩
    · rintro _ (error | page) thread w holds
      · exact Working.fail holds
      · exact holds.1.fail
  · cases checked : checkPage maxDepthLt hash page with
    | error error => exact Keeps.ret (lasting_const _) fun _ holds => holds.1
    | ok txs =>
        refine Keeps.ret (lasting_const _) fun _ ⟨working, same⟩ => ⟨working, ?_⟩
        intro tx member
        obtain ⟨found, above⟩ := checkPage_sound checked tx member
        exact ⟨same ▸ found, Nat.lt_of_le_of_lt deep above⟩

theorem retryTransactions_keeps {lt maxDepthLt : ℕ} {hash : Bits256}
    (deep : account.info.maxDepthLt ≤ maxDepthLt) (retries : ℕ)
    (last : Except Err (List Transaction)) (empty : ∀ txs, last = .ok txs → txs = []) :
    Keeps printing rules t
      (fun thread (_ : World τ) => Working (.loaderWorker account rounds) thread)
      (retryTransactions account.accountID lt maxDepthLt hash retries last)
      (Ends (fun answer thread _ => Paged account rounds (answer.toOption.getD []) thread)
        fun thread _ => Working (.loaderWorker account rounds) thread) := by
  induction retries generalizing last with
  | zero =>
      refine Keeps.ret (lasting_const _) fun _ working => ⟨working, ?_⟩
      cases last with
      | error error => exact fun _ member => absurd member List.not_mem_nil
      | ok txs =>
          rw [empty txs rfl]
          exact fun _ member => absurd member List.not_mem_nil
  | succ retries ih =>
      refine .attempt_bind (getTransactions_keeps deep) fun answer => ?_
      rcases answer with error | _ | ⟨tx, txs⟩
      · exact ih _ fun _ same => by cases same
      · exact (ih _ fun _ same => by cases same; rfl).strengthen fun _ holds => holds.toWorking
      · exact Keeps.ret (lasting_const _) fun _ paged => paged

theorem saveTransactions_keeps (txs : List Transaction) :
    Keeps printing rules t (fun thread (_ : World τ) => Paged account rounds txs thread)
      (saveTransactions account.accountID txs)
      fun _ thread _ => Working (.loaderWorker account rounds) thread := by
  refine (Keeps.forM (P := fun rest thread _ => Paged account rounds rest thread)
    (E := fun thread _ => Working (.loaderWorker account rounds) thread) (lasting_const _)
    (fun tx rest => ?_) txs).weaken (fun _ paged => paged) ?_
  · refine (quiet_keeps (P := Paged account rounds (tx :: rest)) Paged.fail ?_ ?_).weaken
      (fun _ paged => paged) ?_
    · rintro thread currencies delivered paged
      obtain ⟨found, deep⟩ := paged.received tx List.mem_cons_self
      exact ⟨account, rounds, paged.job, tx, found, deep, rfl⟩
    · rintro w w' choice answer thread held paged runs
      cases runs
      exact ⟨thread, by split <;> exact held, paged⟩
    · rintro (error | _) thread w _ paged
      · exact paged.toWorking
      · exact ⟨paged.toWorking, fun other member => paged.received other (List.mem_cons_of_mem _ member)⟩
  · rintro (error | _) thread w _ holds
    · exact holds
    · exact holds.toWorking

theorem syncGapIteration_works {startHash : Bits256} {startLt endLt : ℕ}
    (deep : account.info.maxDepthLt ≤ endLt) :
    Works printing rules t account rounds
      (syncGapIteration account.accountID startHash startLt endLt) := by
  refine .bind (retryTransactions_keeps deep 200 _ fun _ same => by cases same; rfl)
    (fun answer => ?_) fun working => working
  rcases answer with error | _ | ⟨tx, txs⟩
  · exact Keeps.ret (lasting_const _) fun _ paged => paged.toWorking
  · exact Keeps.ret (lasting_const _) fun _ paged => paged.toWorking
  · exact .bind (saveTransactions_keeps (tx :: txs)) (fun _ => works_ret _) fun working => working

theorem syncPages_works {endLt : ℕ} (deep : account.info.maxDepthLt ≤ endLt) (pages : ℕ)
    (startHash : Bits256) (startLt : ℕ) :
    Works printing rules t account rounds
      (syncPages account.accountID endLt pages startHash startLt) := by
  induction pages generalizing startHash startLt with
  | zero => exact works_ret _
  | succ pages ih =>
      rw [syncPages]
      split
      · exact works_ret _
      · refine .bind (syncGapIteration_works deep) (fun next => ?_) fun working => working
        split
        · exact works_ret _
        · exact ih _ _

theorem setLastLt_works (lt : ℕ) : Works printing rules t account rounds (perform (.setLastLt lt)) :=
  quiet_keeps Working.fail (fun _ => trivial) fun {w _ _ _ thread} held working runs => by
    cases runs
    exact ⟨{ thread with lastLt := lt }, by rw [World.threads_setThread, held]; rfl,
      working.job, working.clear⟩

theorem syncHistoryGap_works (startHash : Bits256) (startLt endLt : ℕ) :
    Works printing rules t account rounds (syncHistoryGap account rounds startHash startLt endLt) := by
  refine .bind (syncPages_works (Nat.le_max_right _ _) rounds startHash startLt) (fun left => ?_)
    fun working => working
  split
  · exact setLastLt_works startLt
  · exact works_ret _

theorem updateAccount_works (last : TxID) (block : ℕ) :
    Works printing rules t account rounds (updateAccount account.accountID last block) := by
  refine .bind (works_perform (fun _ => trivial) fun runs => ?_) (fun now => ?_)
    fun working => working
  · cases runs
    rfl
  · exact works_perform (fun _ => trivial) fun runs => by
      obtain ⟨_, _, rfl⟩ := Stmt.run_updateAccount runs
      rfl

theorem refreshAccount_works : Works printing rules t account rounds (refreshAccount account rounds) := by
  have getLastLt : Works printing rules t account rounds (perform .getLastLt) :=
    works_perform (fun _ => trivial) fun runs => by cases runs; rfl
  refine .attempt_bind (works_perform (fun _ => trivial) fun runs => by cases runs; rfl)
    fun answer => ?_
  rcases answer with error | ⟨last, blockSeqno⟩
  · exact works_ret _
  refine .bind getLastLt (fun lastLt => ?_) fun working => working
  split
  · exact works_ret _
  refine .attempt_bind (updateAccount_works last blockSeqno) fun answer => ?_
  rcases answer with error | _
  · exact works_ret _
  refine .bind getLastLt (fun lastLt => ?_) fun working => working
  exact .bind (syncHistoryGap_works _ _ _) (fun _ => works_ret _) fun working => working

theorem refreshLoop_works (remaining : ℕ) :
    Works printing rules t account rounds (refreshLoop account rounds remaining) := by
  induction remaining with
  | zero => exact works_ret _
  | succ remaining ih => exact .bind refreshAccount_works (fun _ => ih) fun working => working

theorem loaderWorker_works : Works printing rules t account rounds (loaderWorker account rounds) := by
  have afterGaps : ∀ found : List TxGap × ℕ, Works printing rules t account rounds (do
      perform (.setLastLt found.2)
      found.1.forM fun gap => syncHistoryGap account rounds gap.startHash gap.startLt gap.endLt
      refreshLoop account rounds rounds) := fun found =>
    .bind (setLastLt_works _) (fun _ =>
      .bind (works_forM _ fun gap => syncHistoryGap_works _ _ _) (fun _ => refreshLoop_works rounds)
        fun working => working) fun working => working
  refine .attempt_bind getGaps_works fun answer => ?_
  cases answer with
  | error error => exact .bind getGaps_works (fun found => afterGaps found) fun working => working
  | ok found => exact afterGaps found

end Loader

/-! ## The notifier -/

section Notifier

/-- The version of an invoice that was read. -/
def Invoice.snapshot (invoice : Invoice) : Snapshot := ⟨invoice.id, invoice.status, invoice.version⟩

/-- The notifier has read these invoices and not yet dealt with them. -/
structure Holding (rounds : ℕ) (invoices : List Invoice) (thread : Thread) : Prop
    extends Working (.notifier rounds) thread where
  held : thread.held = invoices.map Invoice.snapshot

variable {rounds : ℕ}

variable [Libraries] {τ : Type} [DecidableEq τ] [Fintype τ]
  {printing : Printing} {rules : Rules τ} {t : τ}

theorem getInvoice_holding_keeps (invoices : List Invoice) (id : InvoiceID) :
    Keeps printing rules t (fun thread (_ : World τ) => Holding rounds invoices thread)
      (getInvoice id)
      (Ends (fun invoice thread _ => Holding rounds (invoices ++ [invoice]) thread)
        fun thread _ => Working (.notifier rounds) thread) := by
  refine (getInvoice_keeps (A := fun thread _ => Holding rounds invoices thread)
    (E := fun thread _ => Working (.notifier rounds) thread) (lasting_const _) (lasting_const _)
    (fun holding => holding.toWorking.fail) (fun row holding => Working.fail ⟨holding.job, holding.clear⟩)
    Working.fail (fun holding _ => ⟨holding.job, holding.clear⟩)
    (fun row holding _ => ⟨holding.job, holding.clear⟩)).weaken (fun _ holding => holding) ?_
  rintro (error | invoice) thread w _ holds
  · exact holds
  · obtain ⟨row, currency, rfl, _, _, _, before, holding, rfl⟩ := holds
    refine ⟨⟨holding.job, holding.clear⟩, ?_⟩
    change before.held ++ (if before.job.isNotifier then _ else _) = _
    rw [holding.job, holding.held, List.map_append]
    rfl

theorem getInvoiceNotifications_keeps (limit : ℕ) :
    Keeps printing rules t (fun thread (_ : World τ) => Working (.notifier rounds) thread)
      (getInvoiceNotifications limit)
      (Ends (fun invoices thread _ => Holding rounds invoices thread)
        fun thread _ => Working (.notifier rounds) thread) := by
  refine .bind (R := Ends (fun _ thread _ => Holding rounds [] thread)
    fun thread _ => Working (.notifier rounds) thread) ?_ (fun ids => ?_) fun working => working
  · refine .perform (lasting_const _)
      (fun _ => lasting_ends (fun _ => lasting_const _) (lasting_const _) _) ?_ ?_
      (fun _ {_ _} working => working.fail) ?_
    · exact fun _ working => ⟨rounds, working.job⟩
    · rintro thread w choice answer w' _ held working runs
      obtain ⟨_, _, _, rfl, rfl⟩ := Stmt.run_selectNotifications runs
      exact own_setThread held ⟨⟨working.job, working.clear⟩, rfl⟩
    · rintro _ (error | ids) thread w holds
      · exact Working.fail holds
      · exact holds.toWorking.fail
  · exact (Keeps.mapM (P := fun found _ thread _ => Holding rounds found thread)
      (fun _ => lasting_const _) (fun found id _ => getInvoice_holding_keeps found id) ids [])

theorem send_keeps {invoice : Invoice} {rest : List Invoice} {printable : PrivateInvoicePrintable} :
    Keeps printing rules t (fun thread (_ : World τ) => Holding rounds (invoice :: rest) thread)
      (perform (.send invoice printable))
      (Ends (fun _ thread w =>
          invoice.snapshot ∈ w.history.delivered ∧ Holding rounds (invoice :: rest) thread)
        fun thread _ => Working (.notifier rounds) thread) := by
  have lasting : Lasting fun thread (w : World τ) =>
      invoice.snapshot ∈ w.history.delivered ∧ Holding rounds (invoice :: rest) thread :=
    fun _ _ _ grows holds => ⟨grows.delivered holds.1, holds.2⟩
  refine .perform (lasting_const _) (fun _ => lasting_ends (fun _ => lasting) (lasting_const _) _)
    ?_ ?_ (fun _ {_ _} holding => holding.toWorking.fail) ?_
  · exact fun _ holding => ⟨rest.map Invoice.snapshot, holding.held⟩
  · rintro thread w choice answer w' _ held holding runs
    simp only [Stmt.run] at runs
    split at runs <;> cases runs
    · exact ⟨thread, held, List.mem_append_right _ (List.mem_singleton_self _), holding⟩
    · exact own_setThread held ⟨holding.job, holding.clear⟩
  · rintro _ (error | _) thread w holds
    · exact Working.fail holds
    · exact holds.2.toWorking.fail

theorem deleteInvoiceNotification_keeps {invoice : Invoice} {rest : List Invoice} :
    Keeps printing rules t
      (fun thread (w : World τ) =>
        invoice.snapshot ∈ w.history.delivered ∧ Holding rounds (invoice :: rest) thread)
      (deleteInvoiceNotification invoice.id)
      (Ends (fun _ thread _ => Holding rounds rest thread)
        fun thread _ => Working (.notifier rounds) thread) := by
  refine .perform (fun _ _ _ grows holds => ⟨grows.delivered holds.1, holds.2⟩)
    (fun _ => lasting_ends (fun _ => lasting_const _) (lasting_const _) _) ?_ ?_
    (fun _ {_ _} holds => holds.2.toWorking.fail) ?_
  · exact fun _ ⟨sent, holding⟩ =>
      ⟨invoice.snapshot, rest.map Invoice.snapshot, holding.held, rfl, sent⟩
  · rintro thread w choice answer w' _ held ⟨_, holding⟩ runs
    cases runs
    refine ⟨{ thread with held := thread.held.tail },
      (World.threads_setThread _ _ _).trans (by rw [held]; rfl), ⟨holding.job, holding.clear⟩, ?_⟩
    rw [holding.held]
    rfl
  · rintro _ (error | _) thread w holds
    · exact Working.fail holds
    · exact holds.toWorking.fail

theorem notifyInvoice_keeps (invoice : Invoice) (rest : List Invoice) :
    Keeps printing rules t (fun thread (_ : World τ) => Holding rounds (invoice :: rest) thread)
      (notifyInvoice printing invoice)
      (Ends (fun _ thread _ => Holding rounds rest thread)
        fun thread _ => Working (.notifier rounds) thread) := by
  unfold notifyInvoice
  cases convertInvoiceToPrintablePrivate printing invoice with
  | ok printable => exact .bind send_keeps (fun _ => deleteInvoiceNotification_keeps) fun holds => holds
  | error error =>
      refine .perform (lasting_const _)
        (fun _ => lasting_ends (fun _ => lasting_const _) (lasting_const _) _) (fun _ _ => trivial) ?_
        (fun may => by cases may) fun may => by cases may
      rintro thread w choice answer w' _ held holding runs
      cases runs
      refine own_setThread held ⟨⟨holding.job, holding.clear⟩, ?_⟩
      rw [holding.held]
      rfl

theorem notifierRound_keeps :
    Keeps printing rules t (fun thread (_ : World τ) => Working (.notifier rounds) thread)
      (notifierRound printing) fun _ thread _ => Working (.notifier rounds) thread := by
  refine .attempt_bind (getInvoiceNotifications_keeps 10) fun answer => ?_
  cases answer with
  | error error => exact Keeps.ret (lasting_const _) fun _ working => working
  | ok invoices =>
      refine .attempt_bind (Keeps.forM (P := fun rest thread _ => Holding rounds rest thread)
        (lasting_const _) notifyInvoice_keeps invoices) fun result => ?_
      cases result with
      | error error => exact Keeps.ret (lasting_const _) fun _ working => working
      | ok _ => exact Keeps.ret (lasting_const _) fun _ holding => holding.toWorking

theorem runNotifier_keeps (remaining : ℕ) :
    Keeps printing rules t (fun thread (_ : World τ) => Working (.notifier rounds) thread)
      (runNotifier printing remaining) fun _ thread _ => Working (.notifier rounds) thread := by
  induction remaining with
  | zero => exact Keeps.ret (lasting_const _) fun _ working => working
  | succ remaining ih => exact .bind notifierRound_keeps (fun _ => ih) fun working => working

end Notifier

end SpiceHarvester
