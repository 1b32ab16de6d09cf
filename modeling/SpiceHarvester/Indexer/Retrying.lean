import SpiceHarvester.Indexer.Following
import SpiceHarvester.Interleaving.Beside
import SpiceHarvester.Interleaving.Keeping

/-!
# What the indexer tries again

An error of `SavePayments` makes the indexer fetch the same transaction again. That is right
as long as the call has not committed, or has credited nothing. Where it has committed and
credited a payment (`Thread.Booked`), only a failure after that makes it return an error.

Under rules that let no statement of the indexer fail there, but for its query for the next
transaction (`Settles`), an indexer that has booked a call asks for what comes after it. This
is a contract beside the discipline of the programs (`retrying_sound`).
-/

set_option autoImplicit false

namespace SpiceHarvester

open Interleaving Sql

/-- The thread has committed a call that credited a payment, and has not asked for the next
transaction yet. -/
def Thread.Booked (thread : Thread) : Prop := thread.saved = true ∧ thread.credited = true

theorem Thread.not_booked {thread : Thread} (unsaved : thread.saved = false) : ¬ thread.Booked :=
  fun booked => Bool.false_ne_true (unsaved.symm.trans booked.1)

section Contract

variable [Libraries] {τ : Type} [DecidableEq τ] [Fintype τ]

/-- Once it has booked a call, no statement of an indexer of the account fails, apart from its
query for the next transaction. -/
structure Settles (rules : Rules τ) (account : AccountID) : Prop where
  refused : ∀ {w t op choice thread}, rules.exec w t op .refused choice →
    w.threads t = some thread → thread.job.processes account = true → thread.Booked →
    ∃ lt, op = .selectTransactionByParent account lt
  lost : ∀ {w t op choice answer w' thread}, rules.exec w t op .lost choice →
    op.run choice t w = some (answer, w') → w'.threads t = some thread →
    thread.job.processes account = true → ¬ thread.Booked

/-- An indexer that has booked a call asks for the transaction after it. -/
def retrying (printing : Printing) (rules : Rules τ) (account : AccountID) :
    Contract (system printing rules) where
  rely t w w' := w'.threads t = w.threads t ∧ w'.db.currencies = w.db.currencies
  inv w := w.Sane
  pre t op w := ∀ thread lt, op = .selectTransactionByParent account lt →
    w.threads t = some thread → thread.job.processes account = true → thread.Booked →
    ∃ row, thread.fetched = some row ∧ row.lt = lt
  post _ _ _ := True

variable {printing : Printing} {rules : Rules τ} {account : AccountID}

theorem retrying_closed : (retrying printing rules account).Closed where
  rely_refl _ _ := ⟨rfl, rfl⟩
  rely_trans first later := ⟨later.1.trans first.1, later.2.trans first.2⟩

end Contract

/-! ## Statements -/

section Statements

variable [Libraries] {τ : Type} [DecidableEq τ] [Fintype τ] {printing : Printing} {rules : Rules τ}
  {worker : Account} {rounds : ℕ} {t : τ} {currencies : Currencies}

/-- The indexer runs on the thread, of which `P` holds. -/
structure Indexing (worker : Account) (rounds : ℕ) (t : τ) (currencies : Currencies)
    (P : Thread → Prop) (w : World τ) : Prop where
  currencies : w.db.currencies = currencies
  thread : ∃ thread, w.threads t = some thread ∧ thread.job = .indexerWorker worker rounds ∧ P thread

theorem indexing_stable (P : Thread → Prop) :
    (retrying printing rules worker.accountID).Stable t (Indexing worker rounds t currencies P) := by
  rintro w w' ⟨threads, kept⟩ ⟨same, thread, held, job, holds⟩
  exact ⟨kept.trans same, thread, threads.trans held, job, holds⟩

omit [DecidableEq τ] [Fintype τ] in
theorem Indexing.imp {P Q : Thread → Prop} {w : World τ}
    (indexing : Indexing worker rounds t currencies P w) (weaker : ∀ {thread}, P thread → Q thread) :
    Indexing worker rounds t currencies Q w := by
  obtain ⟨same, thread, held, job, holds⟩ := indexing
  exact ⟨same, thread, held, job, weaker holds⟩

/-- What the triples of the indexer are about. -/
abbrev Tries (printing : Printing) (rules : Rules τ) (worker : Account) (rounds : ℕ) (t : τ)
    (currencies : Currencies) {α : Type} (P : Thread → Prop) (program : Action α)
    (Q : Except Err α → Thread → Prop) : Prop :=
  (retrying printing rules worker.accountID).Triple t (Indexing worker rounds t currencies P) program
    fun result => Indexing worker rounds t currencies (Q result)

/-- One statement. Where it fails, the thread has not booked a call. -/
theorem tries_perform (settles : Settles rules worker.accountID) {op : Stmt} {P : Thread → Prop}
    {Q : Except Err op.Val → Thread → Prop}
    (other : ∀ lt, op ≠ .selectTransactionByParent worker.accountID lt)
    (ran : ∀ {w : World τ} {thread choice answer w'}, w.db.currencies = currencies →
      w.threads t = some thread → P thread → op.run choice t w = some (answer, w') →
      ∃ thread', w'.threads t = some thread' ∧ Q answer thread')
    (refused : op.canFail = true → ∀ {thread}, P thread → ¬ thread.Booked →
      Q (.error .failed) thread.fail)
    (lost : op.canFail = true → ∀ {answer thread}, Q answer thread → ¬ thread.Booked →
      Q (.error .failed) thread.fail) :
    Tries printing rules worker rounds t currencies P (perform op) Q := by
  have works : (Job.indexerWorker worker rounds).processes worker.accountID = true :=
    decide_eq_true rfl
  refine .query (indexing_stable _) (fun _ => indexing_stable _)
    (fun _ _ _ lt same => absurd same (other lt)) ?_
  rintro w answer w' sane ⟨same, thread, held, job, holds⟩ ⟨fault, choice, allowed, runs⟩
  obtain ⟨_, ran'⟩ | ⟨rfl, mayFail, rfl, rfl⟩ | ⟨rfl, mayFail, rfl, found, w₀, ran', rfl⟩ :=
    Stmt.runUnder_cases runs
  · obtain ⟨thread', held', after⟩ := ran same held holds ran'
    have jobs := congrFun (Stmt.run_job ran') t
    rw [World.job, World.job, held, held', Option.map_some, Option.map_some, Option.some.injEq] at jobs
    exact ⟨((Stmt.run_kept ran').grows sane).currencies.trans same, thread', held', jobs.trans job, after⟩
  · refine ⟨same, thread.fail, by rw [World.threads_setThread, held, Option.map_some], job, ?_⟩
    refine refused mayFail holds fun booked => ?_
    obtain ⟨lt, search⟩ := settles.refused allowed held (by rw [job]; exact works) booked
    exact other lt search
  · obtain ⟨thread', held', after⟩ := ran same held holds ran'
    have jobs := congrFun (Stmt.run_job ran') t
    rw [World.job, World.job, held, held', Option.map_some, Option.map_some, Option.some.injEq] at jobs
    refine ⟨((Stmt.run_kept ran').grows sane).currencies.trans same, thread'.fail,
      by rw [World.threads_setThread, held', Option.map_some], jobs.trans job, ?_⟩
    exact lost mayFail after (settles.lost allowed ran' held' (by rw [jobs, job]; exact works))

/-- A query of one row. -/
theorem tries_queryRow {op : Stmt} {P : Thread → Prop} {Q : Except Err op.Val → Thread → Prop}
    (tries : Tries printing rules worker rounds t currencies P (perform op)
      fun answer => Q (orNotFound answer)) :
    Tries printing rules worker rounds t currencies P (queryRow op) Q :=
  fun w sane holds w' others sane' => tries w sane holds w' others sane'

/-! ## Before the commit -/

/-- The statements from `BEGIN` to the last one before `COMMIT`. -/
def Stmt.drafts : Stmt → Bool
  | .now | .selectCurrencyID .. | .begin _ | .selectForPayment .. | .acceptKey _ => true
  | .setOverpayment .. | .setPaid .. | .setProcessingError .. | .setLastProcessed .. => true
  | _ => false

/-- The call has not been committed. -/
structure Drafting (row : TransactionRow) (thread : Thread) : Prop where
  fetched : thread.fetched = some row
  unsaved : thread.saved = false

omit [Libraries] in
theorem Drafting.fail {row : TransactionRow} {thread : Thread} (drafting : Drafting row thread) :
    Drafting row thread.fail := ⟨drafting.fetched, drafting.unsaved⟩

variable {row : TransactionRow}

theorem Drafting.run {w w' : World τ} {thread : Thread} {op : Stmt} {choice : Choice}
    {answer : Except Err op.Val} (drafts : op.drafts = true) (held : w.threads t = some thread)
    (drafting : Drafting row thread) (runs : op.run choice t w = some (answer, w')) :
    ∃ thread', w'.threads t = some thread' ∧ Drafting row thread' := by
  have kept : ∀ {w' : World τ}, w = w' → ∃ thread', w'.threads t = some thread' ∧ Drafting row thread' :=
    fun same => same ▸ ⟨thread, held, drafting⟩
  have changed : ∀ f : Thread → Thread, (f thread).fetched = thread.fetched →
      (f thread).saved = thread.saved →
      ∃ thread', (w.setThread t f).threads t = some thread' ∧ Drafting row thread' :=
    fun f fetched saved => ⟨f thread, by rw [World.threads_setThread, held, Option.map_some],
      fetched.trans drafting.fetched, saved.trans drafting.unsaved⟩
  cases op with
  | now => exact kept (congrArg Prod.snd (Option.some.inj runs))
  | selectCurrencyID type info => exact kept (congrArg Prod.snd (Option.some.inj runs))
  | begin call =>
      cases runs
      exact changed _ rfl rfl
  | selectForPayment currency payment time =>
      obtain ⟨tx, _, _, rfl⟩ := Stmt.run_selectForPayment runs
      exact changed _ rfl rfl
  | acceptKey address =>
      obtain ⟨tx, _, _, _, rfl⟩ := Stmt.run_acceptKey runs
      exact changed _ rfl rfl
  | setOverpayment overpayment time id =>
      obtain ⟨tx, _, _, _, rfl⟩ := Stmt.run_setOverpayment runs
      exact changed _ rfl rfl
  | setPaid time paidBy overpayment txHash id =>
      obtain ⟨tx, _, _, _, rfl⟩ := Stmt.run_setPaid runs
      exact changed _ rfl rfl
  | setProcessingError error account lt =>
      obtain ⟨tx, _, _, rfl⟩ := Stmt.run_setProcessingError runs
      exact changed _ rfl rfl
  | setLastProcessed lt account =>
      obtain ⟨tx, _, _, _, rfl⟩ := Stmt.run_setLastProcessed runs
      exact changed _ rfl rfl
  | _ => cases drafts

/-- The program does not commit, and what it returns is so. -/
abbrev Prepares (printing : Printing) (rules : Rules τ) (worker : Account) (rounds : ℕ) (t : τ)
    (currencies : Currencies) (row : TransactionRow) {α : Type} (program : Action α)
    (fact : α → Prop) : Prop :=
  (retrying printing rules worker.accountID).Keeping t
    (Indexing worker rounds t currencies (Drafting row)) program fact

section Prepares

variable (settles : Settles rules worker.accountID)
include settles

theorem drafts_perform {op : Stmt} {fact : op.Val → Prop} (drafts : op.drafts = true)
    (known : ∀ {w : World τ} {choice value w'}, w.db.currencies = currencies →
      op.run choice t w = some (.ok value, w') → fact value) :
    Prepares printing rules worker rounds t currencies row (perform op) fact := by
  have tries : Tries printing rules worker rounds t currencies (Drafting row) (perform op)
      fun answer thread => (∀ value, answer = .ok value → fact value) ∧ Drafting row thread := by
    refine tries_perform settles (fun lt same => ?_) ?_ ?_ ?_
    · rw [same] at drafts
      cases drafts
    · rintro w thread choice answer w' same held drafting runs
      obtain ⟨thread', held', drafting'⟩ := drafting.run drafts held runs
      exact ⟨thread', held', fun value ok => known same (ok ▸ runs), drafting'⟩
    · exact fun _ _ drafting _ => ⟨fun _ impossible => (by cases impossible), drafting.fail⟩
    · exact fun _ _ _ drafting _ => ⟨fun _ impossible => (by cases impossible), drafting.2.fail⟩
  refine tries.weaken (fun _ holds => holds) ?_
  rintro answer w _ ⟨same, thread, held, job, known, drafting⟩
  exact ⟨known, same, thread, held, job, drafting⟩

theorem drafts_quiet {op : Stmt} (drafts : op.drafts = true) :
    Prepares printing rules worker rounds t currencies row (perform op) fun _ => True :=
  drafts_perform settles drafts fun _ _ => trivial

/-- `getCurrencyID` finds tracked currencies only. -/
theorem getCurrencyID_drafts (currency : Currency) :
    Prepares printing rules worker rounds t currencies row (getCurrencyID currency)
      fun id => currencies.of currency = some id := by
  have found : Prepares printing rules worker rounds t currencies row
      (perform (.selectCurrencyID currency.type currency.condition))
      fun id => currencies.of currency = some id := by
    refine drafts_perform settles rfl fun {w choice id w'} same runs => ?_
    have answers : orNoRows (w.db.currencies.of currency) = .ok id :=
      congrArg Prod.fst (Option.some.inj runs)
    rw [same] at answers
    cases is : currencies.of currency with
    | none =>
        rw [is] at answers
        cases answers
    | some id' =>
        rw [is] at answers
        exact congrArg some (Except.ok.inj answers)
  intro w sane holds w' others sane'
  refine ⟨(found w sane holds w' others sane').1, fun answer w'' answers => ?_⟩
  have after := (found w sane holds w' others sane').2 answer w'' answers
  intro w₁ others₁ sane₁
  obtain ⟨known, kept⟩ := after w₁ others₁ sane₁
  refine ⟨fun value same => known value ?_, kept⟩
  cases answer with
  | ok id => exact same
  | error error => cases error <;> cases same

/-- The invoices of `processPayment` are of tracked currencies. -/
theorem creditPayment_drafts {payment : Payment} (known : (currencies.of payment.currency).isSome)
    (now : Time) (invoice : InvoiceRow) :
    Prepares printing rules worker rounds t currencies row (creditPayment payment now invoice)
      fun invoices => ∀ paid ∈ invoices, (currencies.of paid.currency).isSome := by
  have stable : (retrying printing rules worker.accountID).Stable t
      (Indexing worker rounds t currencies (Drafting row)) := indexing_stable _
  refine .bind retrying_closed (drafts_quiet settles rfl) fun _ _ => ?_
  refine .bind retrying_closed (drafts_quiet settles rfl) fun _ _ => ?_
  split
  · exact .pure stable fun _ member => (by cases member)
  · split
    · exact .pure stable fun _ member => (by cases member)
    · refine .bind retrying_closed (drafts_quiet settles rfl) fun _ _ => .pure stable ?_
      intro paid member
      rw [List.mem_singleton.mp member]
      exact known

theorem processPayment_drafts (payment : Payment) :
    Prepares printing rules worker rounds t currencies row (processPayment payment)
      fun invoices => ∀ paid ∈ invoices, (currencies.of paid.currency).isSome := by
  have stable : (retrying printing rules worker.accountID).Stable t
      (Indexing worker rounds t currencies (Drafting row)) := indexing_stable _
  refine .bind retrying_closed (.attempt (getCurrencyID_drafts settles payment.currency))
    fun found known => ?_
  rcases found with (_ | _ | _ | message) | id
  · exact .pure stable fun _ member => (by cases member)
  · exact .ret stable fun _ impossible => (by cases impossible)
  · exact .ret stable fun _ impossible => (by cases impossible)
  · exact .ret stable fun _ impossible => (by cases impossible)
  · refine .bind retrying_closed (drafts_quiet settles rfl) fun now _ => ?_
    refine .bind retrying_closed (.attempt (drafts_quiet settles rfl)) fun read _ => ?_
    rcases read with (_ | _ | _ | message) | invoice
    · exact .ret stable fun _ impossible => (by cases impossible)
    · exact .pure stable fun _ member => (by cases member)
    · exact .ret stable fun _ impossible => (by cases impossible)
    · exact .ret stable fun _ impossible => (by cases impossible)
    · exact creditPayment_drafts settles (by rw [known id rfl]; rfl) now invoice

theorem processPayments_drafts (payments : List Payment) :
    Prepares printing rules worker rounds t currencies row (processPayments payments)
      fun invoices => ∀ paid ∈ invoices, (currencies.of paid.currency).isSome := by
  induction payments with
  | nil => exact .pure (indexing_stable _) fun _ member => (by cases member)
  | cons payment rest ih =>
      refine .bind retrying_closed (processPayment_drafts settles payment) fun paid known => ?_
      refine .bind retrying_closed ih fun others known' => .pure (indexing_stable _) ?_
      exact fun invoice member => (List.mem_append.mp member).elim (known invoice) (known' invoice)

/-- **The transaction of a call, up to its commit.** -/
theorem writePayments_drafts (call : PaymentCall) :
    Prepares printing rules worker rounds t currencies row (writePayments call)
      fun invoices => ∀ paid ∈ invoices, (currencies.of paid.currency).isSome := by
  have records : Prepares printing rules worker rounds t currencies row (recordPayments call)
      fun invoices => ∀ paid ∈ invoices, (currencies.of paid.currency).isSome := by
    unfold recordPayments
    split
    · exact .bind retrying_closed (drafts_quiet settles rfl) fun _ _ =>
        .pure (indexing_stable _) fun _ member => (by cases member)
    · exact processPayments_drafts settles call.payments
  refine .bind retrying_closed records fun invoices known => ?_
  exact .bind retrying_closed (drafts_quiet settles rfl) fun _ _ => .pure (indexing_stable _) known

end Prepares

/-! ## From the commit on -/

/-- The call has been committed. -/
structure Done (row : TransactionRow) (thread : Thread) : Prop where
  fetched : thread.fetched = some row
  saved : thread.saved = true

/-- What `SavePayments` comes to: where it returns an error, no call has been booked. -/
def Tried {α : Type} (row : TransactionRow) : Except Err α → Thread → Prop
  | .ok _, thread => Done row thread
  | .error _, thread => ¬ thread.Booked

/-- The currency of an invoice has been found. -/
def Found (row : TransactionRow) (id : UUID) : Except Err UUID → Thread → Prop
  | .ok found, thread => found = id ∧ Done row thread
  | .error _, thread => ¬ thread.Booked

section Commits

variable (settles : Settles rules worker.accountID)
include settles

theorem commit_tries :
    Tries printing rules worker rounds t currencies (Drafting row) (perform .commit) (Tried row) := by
  refine tries_perform settles (fun _ => Stmt.noConfusion) ?_ ?_ ?_
  · rintro w thread choice answer w' _ held drafting runs
    obtain ⟨tx, _, rfl, rfl⟩ := Stmt.run_commit runs
    refine ⟨thread.close _ _, (World.threads_setThread _ _ _).trans (by rw [held]; rfl), ?_⟩
    exact ⟨drafting.fetched, rfl⟩
  · exact fun _ _ _ unbooked => unbooked
  · exact fun _ _ _ _ unbooked => unbooked

/-- The outbox row of an invoice whose currency is tracked. -/
theorem announce_tries {invoice : Invoice} (known : (currencies.of invoice.currency).isSome) :
    Tries printing rules worker rounds t currencies (Done row) (saveInvoice invoice true)
      (Tried row) := by
  obtain ⟨id, is⟩ := Option.isSome_iff_exists.mp known
  have found : Tries printing rules worker rounds t currencies (Done row)
      (getCurrencyID invoice.currency) (Found row id) := by
    have asks : Tries printing rules worker rounds t currencies (Done row)
        (perform (.selectCurrencyID invoice.currency.type invoice.currency.condition))
        (Found row id) := by
      refine tries_perform settles (fun _ => Stmt.noConfusion) ?_ ?_ ?_
      · rintro w thread choice answer w' rfl held done runs
        obtain ⟨rfl, rfl⟩ := Prod.mk.inj (Option.some.inj runs)
        have only : w.db.currencies.idOf invoice.currency.type invoice.currency.condition = some id := is
        rw [only]
        exact ⟨thread, held, rfl, done⟩
      · exact fun _ _ _ unbooked => unbooked
      · exact fun _ _ _ _ unbooked => unbooked
    exact tries_queryRow (asks.weaken (fun _ holds => holds)
      fun {answer _} _ holds => by
        obtain ⟨same, thread, held, job, found⟩ := holds
        refine ⟨same, thread, held, job, ?_⟩
        cases answer with
        | ok id => exact found
        | error error => cases error <;> exact found)
  refine .bind retrying_closed found (fun found => ?_) fun _ holds => holds
  refine tries_perform (P := fun thread => found = id ∧ Done row thread) settles
    (fun _ => Stmt.noConfusion) ?_ ?_ ?_
  · rintro w thread choice answer w' same held ⟨rfl, done⟩ runs
    obtain ⟨stored, isStored⟩ := Option.isSome_iff_exists.mp (Currencies.isSome_of is)
    obtain ⟨_, _, rfl, rfl⟩ | ⟨none, _, _⟩ := Stmt.run_insertNotification runs
    · exact ⟨thread.announce invoice.id,
        (World.threads_setThread _ _ _).trans (by rw [held]; rfl), done.fetched, done.saved⟩
    · rw [same] at none
      cases isStored.symm.trans none
  · exact fun _ _ _ unbooked => unbooked
  · exact fun _ _ _ _ unbooked => unbooked

theorem announcing_tries {invoices : List Invoice}
    (known : ∀ invoice ∈ invoices, (currencies.of invoice.currency).isSome) :
    Tries printing rules worker rounds t currencies (Done row)
      (invoices.forM fun invoice => saveInvoice invoice true) (Tried row) := by
  induction invoices with
  | nil => exact .ret (indexing_stable _) fun _ holds => holds
  | cons invoice rest ih =>
      exact .bind retrying_closed (announce_tries settles (known invoice List.mem_cons_self))
        (fun _ => ih fun other member => known other (List.mem_cons_of_mem invoice member))
        fun _ holds => holds

/-- **Where `SavePayments` returns an error, it has booked nothing.** -/
theorem savePayments_tries (call : PaymentCall) :
    Tries printing rules worker rounds t currencies (Drafting row) (savePayments call)
      (Tried row) := by
  have commits : Tries printing rules worker rounds t currencies (Drafting row)
      (commitPayments call) (Tried row) := by
    refine .bind retrying_closed (drafts_quiet settles rfl) (fun _ => ?_) ?_
    · refine .weaken (Q := fun result => Indexing worker rounds t currencies (Tried row result)) ?_
        (fun _ holds => holds.2) fun _ holds => holds
      refine .bind retrying_closed (writePayments_drafts settles call) (fun paid => ?_) ?_
      · refine .of_fact (fun _ holds => show ∀ invoice ∈ paid,
          (currencies.of invoice.currency).isSome from holds.1 paid rfl) fun known => ?_
        refine .weaken (Q := fun result => Indexing worker rounds t currencies (Tried row result)) ?_
          (fun _ holds => holds.2) fun _ holds => holds
        refine .bind retrying_closed (commit_tries settles) (fun _ => ?_) fun _ holds => holds
        exact announcing_tries settles known
      · exact fun _ holds => holds.2.imp fun drafting => Thread.not_booked drafting.unsaved
    · exact fun _ holds => holds.2.imp fun drafting => Thread.not_booked drafting.unsaved
  refine .attempt_bind retrying_closed commits fun result => ?_
  -- The deferred rollback changes nothing that counts here.
  refine .bind retrying_closed (R := fun answer => Indexing worker rounds t currencies fun thread =>
    (∃ value, answer = .ok value) ∧ Tried row result thread) ?_ (fun _ => ?_) ?_
  · refine tries_perform settles (fun _ => Stmt.noConfusion) ?_ (fun may => by cases may)
      fun may => by cases may
    rintro w thread choice answer w' _ held tried runs
    cases runs
    refine ⟨_, by rw [World.threads_setThread, held, Option.map_some], ⟨(), rfl⟩, ?_⟩
    cases result with
    | ok value => exact ⟨tried.fetched, tried.saved⟩
    | error error => exact tried
  · exact .ret (indexing_stable _) fun _ holds => holds.imp And.right
  · rintro error w _ ⟨_, _, _, _, ⟨_, impossible⟩, _⟩
    cases impossible

end Commits

/-! ## The worker -/

/-- The indexer may ask for the successor of an LT. -/
def AsksAfter (lt : ℕ) (thread : Thread) : Prop :=
  thread.Booked → ∃ row, thread.fetched = some row ∧ row.lt = lt

omit [Libraries] in
theorem AsksAfter.of_unbooked {lt : ℕ} {thread : Thread} (unbooked : ¬ thread.Booked) :
    AsksAfter lt thread := fun booked => absurd booked unbooked

omit [Libraries] in
theorem Done.asks {thread : Thread} (done : Done row thread) : AsksAfter row.lt thread :=
  fun _ => ⟨row, done.fetched, rfl⟩

/-- What the query for the next transaction comes to. -/
def Searched (lt : ℕ) : Except Err TransactionRow → Thread → Prop
  | .ok row, thread => Drafting row thread
  | .error _, thread => AsksAfter lt thread

variable (settles : Settles rules worker.accountID) {lt : ℕ}

/-- The one statement that may fail after a booked call: it is tried again. -/
theorem selectTransactionByParent_tries :
    Tries printing rules worker rounds t currencies (AsksAfter lt)
      (perform (.selectTransactionByParent worker.accountID lt)) (Searched lt) := by
  refine .query (indexing_stable _) (fun _ => indexing_stable _) ?_ ?_
  · rintro w _ ⟨_, thread, held, _, asks⟩ thread' lt' same held' _ booked
    cases same
    obtain rfl := Option.some.inj (held.symm.trans held')
    exact asks booked
  · rintro w answer w' sane ⟨same, thread, held, job, asks⟩ ⟨fault, choice, _, runs⟩
    -- Once the query has run, the thread has not committed since.
    have ran : ∀ {answer w₁},
        (Stmt.selectTransactionByParent worker.accountID lt).run choice t w = some (answer, w₁) →
        w₁.db.currencies = currencies ∧ ∃ thread₁, w₁.threads t = some thread₁ ∧
          thread₁.job = .indexerWorker worker rounds ∧ thread₁.saved = false ∧
          Searched lt answer thread₁ := by
      rintro answer w₁ ⟨⟩
      refine ⟨same, { thread with
        cursor := some lt
        fetched := childOf w.db.transactions worker.accountID lt
        saved := false }, by rw [World.threads_setThread, held, Option.map_some], job, rfl, ?_⟩
      cases childOf w.db.transactions worker.accountID lt with
      | none => exact .of_unbooked (Thread.not_booked rfl)
      | some row => exact ⟨rfl, rfl⟩
    obtain ⟨_, ran'⟩ | ⟨_, _, rfl, rfl⟩ | ⟨_, _, rfl, lost, w₀, ran', rfl⟩ := Stmt.runUnder_cases runs
    · obtain ⟨same', thread', held', job', _, searched⟩ := ran ran'
      exact ⟨same', thread', held', job', searched⟩
    · exact ⟨same, thread.fail, by rw [World.threads_setThread, held, Option.map_some], job, asks⟩
    · obtain ⟨same', thread', held', job', unsaved, _⟩ := ran ran'
      exact ⟨same', thread'.fail, by rw [World.threads_setThread, held', Option.map_some], job',
        .of_unbooked (Thread.not_booked unsaved)⟩

/-- What `GetTransactionByParentLt` comes to. -/
def Fetching (lt : ℕ) : Except Err Transaction → Thread → Prop
  | .ok tx, thread => ∃ row, row.lt = tx.lt ∧ Drafting row thread
  | .error _, thread => AsksAfter lt thread

theorem getTransactionByParentLt_tries :
    Tries printing rules worker rounds t currencies (AsksAfter lt)
      (getTransactionByParentLt worker.accountID lt) (Fetching lt) := by
  have row : Tries printing rules worker rounds t currencies (AsksAfter lt)
      (queryRow (.selectTransactionByParent worker.accountID lt)) (Searched lt) :=
    tries_queryRow (selectTransactionByParent_tries.weaken (fun _ holds => holds)
      fun {answer _} _ holds => by cases answer <;> exact holds)
  refine .bind retrying_closed row (fun row => ?_) fun _ holds => holds
  refine .ret (indexing_stable _) fun _ ⟨same, thread, held, job, drafting⟩ => ?_
  refine ⟨same, thread, held, job, ?_⟩
  cases decoded : row.transaction with
  | ok tx => exact ⟨row, (TransactionRow.lt_of_transaction decoded).symm, drafting⟩
  | error error => exact .of_unbooked (Thread.not_booked drafting.unsaved)

/-- What a round of the indexer comes to. -/
def Rounded : Except Err ℕ → Thread → Prop
  | .ok lt, thread => AsksAfter lt thread
  | .error _, _ => True

include settles in
theorem indexerRound_tries :
    Tries printing rules worker rounds t currencies (AsksAfter lt) (indexerRound worker lt)
      Rounded := by
  refine .attempt_bind retrying_closed getTransactionByParentLt_tries fun found => ?_
  cases found with
  | error error => exact .ret (indexing_stable _) fun _ holds => holds
  | ok tx =>
      dsimp only
      cases extractPayments tx worker with
      | none =>
          exact .ret (indexing_stable _) fun _ holds => holds.imp fun _ => trivial
      | some extracted =>
          rintro w sane ⟨same, thread, held, job, row, lt', drafting⟩
          have saves : Tries printing rules worker rounds t currencies (Drafting row)
              (savePayments _) (Tried row) :=
            savePayments_tries settles (paymentCall worker tx extracted)
          refine Contract.Triple.attempt_bind retrying_closed saves (fun result => ?_) w sane
            ⟨same, thread, held, job, drafting⟩
          cases result with
          | error error =>
              exact .ret (indexing_stable _) fun _ holds => holds.imp .of_unbooked
          | ok value =>
              exact .ret (indexing_stable _) fun _ holds => holds.imp fun done => lt' ▸ done.asks

include settles in
theorem indexerRun_tries (remaining : ℕ) :
    Tries printing rules worker rounds t currencies (AsksAfter lt) (indexerRun worker remaining lt)
      fun _ _ => True := by
  induction remaining generalizing lt with
  | zero =>
      exact .ret (indexing_stable _) fun _ holds => holds.imp fun _ => trivial
  | succ remaining ih =>
      exact .bind retrying_closed (indexerRound_tries settles) (fun _ => ih)
        fun _ holds => holds.imp fun _ => trivial

include settles in
/-- **The indexer asks for what comes after a call that it has booked.** -/
theorem indexerWorker_tries :
    Tries printing rules worker rounds t currencies (fun thread => thread.saved = false)
      (indexerWorker worker rounds) fun _ _ => True := by
  have resumes : Tries printing rules worker rounds t currencies (fun thread => thread.saved = false)
      (perform (.selectLastProcessed worker.accountID)) fun _ thread => thread.saved = false := by
    refine tries_perform settles (fun _ => Stmt.noConfusion) ?_ ?_ ?_
    · rintro w thread choice answer w' _ held _ runs
      cases runs
      exact ⟨_, by rw [World.threads_setThread, held, Option.map_some], rfl⟩
    · exact fun _ _ unsaved _ => unsaved
    · exact fun _ _ _ unsaved _ => unsaved
  refine .bind retrying_closed resumes (fun lt => ?_) fun _ holds => holds.imp fun _ => trivial
  exact (indexerRun_tries settles rounds).weaken
    (fun _ holds => holds.imp fun unsaved => .of_unbooked (Thread.not_booked unsaved))
    fun _ holds => holds

/-! ## The contract is sound -/

variable {account : AccountID}

/-- **The indexers keep their contract beside the discipline of all programs.** -/
theorem retrying_sound (settles : Settles rules account)
    (calls : ∀ {w call}, rules.spawn w (.savePayments call) → call.account ≠ account) :
    (retrying printing rules account).SoundBeside (discipline printing rules) where
  toClosed := retrying_closed
  exec := by
    rintro t op w answer w' _ _ sane _ ⟨fault, choice, _, runs⟩
    have kept := Stmt.runUnder_kept runs
    exact ⟨kept.sane sane, fun u other => ⟨kept.others other, (kept.grows sane).currencies⟩⟩
  spawn := by
    rintro t w program w' _ sane ⟨job, allowed, rfl, rfl⟩
    have kept := w.start_kept t job
    refine ⟨kept.sane sane, fun u other => ⟨kept.others other, (kept.grows sane).currencies⟩, ?_⟩
    have started : (w.start t job).threads t = some (.start job) := w.threads_start t job
    by_cases works : job.processes account = true
    · cases job with
      | indexerWorker worker rounds =>
          obtain rfl := of_decide_eq_true works
          have tries : Tries printing rules worker rounds t w.db.currencies
              (fun thread => thread.saved = false) (indexerWorker worker rounds) fun _ _ => True :=
            indexerWorker_tries settles
          have worked : (retrying printing rules worker.accountID).Triple t _
              (runJob printing (.indexerWorker worker rounds)) fun _ _ => True :=
            .bind retrying_closed tries
              (fun _ => .ret (indexing_stable _) fun _ _ => trivial) fun _ _ => trivial
          exact worked _ (kept.sane sane) ⟨rfl, _, started, rfl, rfl⟩
      | savePayments call => exact absurd (of_decide_eq_true works) (calls allowed)
      | _ => cases works
    · have stable : (retrying printing rules account).Stable t fun w => w.job t = some job := by
        rintro w₁ w₂ ⟨threads, _⟩ holds
        exact (congrArg (Option.map Thread.job) threads).trans holds
      refine (Contract.Triple.of_may stable ?_ ?_ _ _ (kept.sane sane) ?_).weaken
        fun _ _ _ _ => trivial
      · rintro op w₁ _ holds thread lt _ held works' _
        rw [World.job, held, Option.map_some, Option.some.injEq] at holds
        exact absurd (holds ▸ works') works
      · rintro op w₁ answer w₂ _ holds ⟨_, _, _, runs⟩
        exact (congrFun (Stmt.runUnder_job runs) t).trans holds
      · rw [World.job, started]
        rfl
  retire := by
    rintro t result w w' _ sane _ rfl
    have kept := w.leave_kept t
    exact ⟨kept.sane sane, fun u other => ⟨kept.others other, (kept.grows sane).currencies⟩⟩
  crash := by
    rintro w w' _ sane ⟨_, rfl⟩
    exact sane.restart

end Statements

end SpiceHarvester
