import SpiceHarvester.Db.Frame
import SpiceHarvester.Interleaving.Triple
import SpiceHarvester.Service

/-!
# The discipline of the programs

A statement alone could do anything to the tables. The programs call it in
certain situations only: `processPayment` sets `overpayment` to what it has read
plus the payment, `COMMIT` comes after all payments have been looked up, a
notifier deletes rows of an invoice it has just sent. `Thread.may` says when a
thread may call a statement, in terms of what belongs to the thread itself, and
`Thread.Ended` what holds when its program ends.

`discipline` makes a contract of the two. That the programs keep it is proved in
`Protocol.Queries`; what follows for the tables is proved over one statement at
a time, without the programs.
-/

set_option autoImplicit false

namespace SpiceHarvester

open Interleaving Sql

variable [Libraries]

/-! ## Situations of a thread -/

namespace Tx

/-- No payment is in progress. -/
def Settled (tx : Tx) : Prop := Reading.Settled tx.reading

/-- Every tracked payment of the call has been looked up and dealt with. -/
def Complete (currencies : Currencies) (tx : Tx) : Prop :=
  tx.looked.map Prod.fst = tx.call.tracked currencies ∧ tx.Settled

/-- The parsing error of the call has been written. -/
def Marked (tx : Tx) : Prop :=
  ∀ error, tx.call.parsingError = some error → tx.marked = true

end Tx

namespace Thread

/-- The thread has not written or read anything yet. -/
structure Fresh (thread : Thread) : Prop where
  tx : thread.tx = none
  owed : thread.owed = []
  changed : thread.changed = false
  lastRead : thread.lastRead = none

/-- The thread owes no outbox row, unless a statement has failed meanwhile. -/
def Clear (thread : Thread) : Prop := thread.owed = [] ∨ thread.failed = true

/-- An outbox row of an invoice carries the status of the change it is owed to,
or the one that the thread has read since. -/
def MayAnnounce (thread : Thread) (row : InvoiceRow) : Prop :=
  ∀ change ∈ thread.owed, change.id = row.id →
    thread.failed = true ∨ row.status = change.status ∨
      ∃ seen, thread.lastRead = some seen ∧ seen.id = row.id ∧ row.status = seen.status

/-- The call of `SavePayments` that the thread may open a transaction for: that
of its job, or that of the transaction its worker has fetched. -/
def MayBegin (thread : Thread) (call : PaymentCall) : Prop :=
  thread.job = .savePayments call ∨
    ∃ account rounds row tx extracted, thread.job = .indexerWorker account rounds ∧
      thread.fetched = some row ∧ row.transaction = .ok tx ∧
      extractPayments tx account = some extracted ∧ call = paymentCall account tx extracted

/-- The LT that a worker may ask for the successor of: the one it has asked for
before, when its last call did not succeed, or that of the call saved since. -/
def MayAsk (thread : Thread) (lt : ℕ) : Prop :=
  (thread.cursor = some lt ∧
    (thread.saved = false ∨ thread.credited = false ∨ thread.unsure = true)) ∨
  (thread.saved = true ∧ ∃ row, thread.fetched = some row ∧ row.lt = lt)

/-- When a thread may call a statement. -/
def may (thread : Thread) (currencies : Currencies) (delivered : List Snapshot) : Stmt → Prop
  | .insertInvoice row =>
      thread.Fresh ∧ ∃ invoice currencyID, thread.job = .createInvoice invoice ∧
        row = invoice.row currencyID
  | .insertNotification row => thread.tx = none ∧ thread.MayAnnounce row
  | .cancelInvoice _ id => thread.Fresh ∧ thread.job = .cancelInvoice id
  | .markExpired _ => thread.Fresh ∧ thread.job = .markExpired
  | .selectNotifications _ => ∃ rounds, thread.job = .notifier rounds
  | .send invoice _ =>
      ∃ rest, thread.held = ⟨invoice.id, invoice.status, invoice.version⟩ :: rest
  | .deleteNotification id =>
      ∃ snapshot rest, thread.held = snapshot :: rest ∧ snapshot.id = id ∧ snapshot ∈ delivered
  | .begin call =>
      thread.tx = none ∧ thread.lastRead = none ∧ thread.Clear ∧ thread.saved = false ∧
        thread.MayBegin call
  | .selectForPayment currency payment _ =>
      ∃ tx, thread.tx = some tx ∧ tx.Settled ∧ tx.processed = false ∧
        (∃ rest, tx.call.tracked currencies = tx.looked.map Prod.fst ++ payment :: rest) ∧
        currencies.of payment.currency = some currency
  | .acceptKey address =>
      ∃ tx reading, thread.tx = some tx ∧ tx.call.parsingError = none ∧
        tx.reading = some reading ∧ reading.credited = false ∧ address = reading.payment.paidBy
  | .setOverpayment overpayment now id =>
      ∃ tx reading, thread.tx = some tx ∧ tx.call.parsingError = none ∧
        tx.reading = some reading ∧ reading.credited = false ∧
        id = reading.payment.invoiceID ∧ now = reading.now ∧
        overpayment = reading.row.overpayment + reading.payment.amount
  | .setPaid now paidBy overpayment txHash id =>
      ∃ tx reading, thread.tx = some tx ∧ tx.call.parsingError = none ∧
        tx.reading = some reading ∧ reading.credited = true ∧ reading.pays = true ∧ id = reading.payment.invoiceID ∧
        now = reading.now ∧ paidBy = reading.payment.paidBy ∧ txHash = reading.payment.txHash ∧
        overpayment =
          reading.row.overpayment + reading.payment.amount - reading.row.amount
  | .setProcessingError error account lt =>
      ∃ tx, thread.tx = some tx ∧ tx.call.parsingError = some error ∧
        account = tx.call.account ∧ lt = tx.call.txLt
  | .setLastProcessed lt account =>
      ∃ tx, thread.tx = some tx ∧ tx.Complete currencies ∧ lt = tx.call.txLt ∧
        account = tx.call.account
  | .commit =>
      ∃ tx, thread.tx = some tx ∧ tx.Complete currencies ∧ tx.processed = true ∧ tx.Marked
  | .selectLastProcessed account =>
      thread.tx = none ∧ thread.saved = false ∧ thread.fetched = none ∧
        ∃ worker rounds, thread.job = .indexerWorker worker rounds ∧ account = worker.accountID
  | .selectTransactionByParent account lt =>
      thread.tx = none ∧ thread.MayAsk lt ∧
        ∃ worker rounds, thread.job = .indexerWorker worker rounds ∧ account = worker.accountID
  | .insertTransaction row =>
      ∃ worker rounds, thread.job = .loaderWorker worker rounds ∧
        ∃ tx ∈ thread.page, worker.info.maxDepthLt < tx.lt ∧ row = tx.row worker.accountID
  | .getTransactions account _ _ =>
      ∃ worker rounds, thread.job = .loaderWorker worker rounds ∧ account = worker.accountID
  | _ => True

end Thread

/-- The currency of the invoice that the thread has read last can be read back. -/
def Thread.Legible (currencies : Currencies) (thread : Thread) : Prop :=
  ∀ row, thread.lastRead = some row → currencies.Legible row.currency

/-- What holds when the program of a thread ends. The changes of the thread have
their outbox rows, and an operation that failed has changed no invoice, unless a
statement failed between the change and its outbox row or the currency of an
invoice could not be read back. -/
structure Thread.Ended {τ : Type} (thread : Thread) (w : World τ)
    (result : Except Err (Option Invoice)) : Prop where
  clear : thread.Legible w.db.currencies → thread.Clear
  unchanged : thread.Legible w.db.currencies → ∀ error, result = .error error →
    (∃ invoice, thread.job = .createInvoice invoice) ∨ (∃ id, thread.job = .cancelInvoice id) →
    thread.changed = false ∨ thread.failed = true
  cancelled : ∀ {id returned}, thread.job = .cancelInvoice id → result = .ok returned →
    ∃ version, ⟨id, .cancelled, version⟩ ∈ w.history.changes

/-! ## Assertions about the own thread -/

section Assertions

variable {τ : Type}

/-- An assertion about what belongs to a thread. -/
def own (t : τ) (A : Thread → World τ → Prop) (w : World τ) : Prop :=
  ∃ thread, w.threads t = some thread ∧ A thread w

/-- The assertion depends on the state only through what grows. -/
def Lasting (A : Thread → World τ → Prop) : Prop :=
  ∀ thread w w', w.Grows w' → A thread w → A thread w'

theorem lasting_const (A : Thread → Prop) : Lasting (fun thread (_ : World τ) => A thread) :=
  fun _ _ _ _ holds => holds

/-- What holds of the currencies lasts. -/
theorem lasting_currencies (C : Currencies → Prop) :
    Lasting fun (_ : Thread) (w : World τ) => C w.db.currencies :=
  fun _ _ _ grows holds => (congrArg C grows.currencies).mpr holds

theorem Lasting.and {A B : Thread → World τ → Prop} (first : Lasting A) (second : Lasting B) :
    Lasting fun thread w => A thread w ∧ B thread w :=
  fun _ _ _ grows holds => ⟨first _ _ _ grows holds.1, second _ _ _ grows holds.2⟩

/-- `B` after a value, `E` after an error. -/
def Ends {α : Type} (B : α → Thread → World τ → Prop) (E : Thread → World τ → Prop) :
    Except Err α → Thread → World τ → Prop
  | .ok value => B value
  | .error _ => E

theorem lasting_ends {α : Type} {B : α → Thread → World τ → Prop} {E : Thread → World τ → Prop}
    (lasting : ∀ value, Lasting (B value)) (lastingE : Lasting E) (result : Except Err α) :
    Lasting (Ends B E result) := by
  cases result with
  | ok value => exact lasting value
  | error _ => exact lastingE

theorem own_setThread [DecidableEq τ] {t : τ} {w : World τ} {thread : Thread} {f : Thread → Thread}
    {A : Thread → World τ → Prop} (held : w.threads t = some thread)
    (holds : A (f thread) (w.setThread t f)) : own t A (w.setThread t f) :=
  ⟨f thread, by rw [World.threads_setThread, held, Option.map_some], holds⟩

end Assertions

/-! ## The contract -/

variable {τ : Type} [DecidableEq τ] [Fintype τ]

/-- The discipline as a contract. The other threads leave alone what belongs to a
thread, and keep what only grows. -/
def discipline (printing : Printing) (rules : Rules τ) : Contract (system printing rules) where
  rely t w w' := w'.threads t = w.threads t ∧ w.Grows w'
  inv w := w.Sane
  pre t op w :=
    ∃ thread, w.threads t = some thread ∧ thread.may w.db.currencies w.history.delivered op
  post t result w := ∃ thread, w.threads t = some thread ∧ thread.Ended w result

variable {printing : Printing} {rules : Rules τ}

theorem discipline_closed : (discipline printing rules).Closed where
  rely_refl _ w := ⟨rfl, .refl w⟩
  rely_trans first second := ⟨second.1.trans first.1, first.2.trans second.2⟩

theorem stable_own {t : τ} {A : Thread → World τ → Prop} (lasting : Lasting A) :
    (discipline printing rules).Stable t (own t A) := by
  rintro w w' ⟨same, grows⟩ ⟨thread, held, holds⟩
  exact ⟨thread, same.trans held, lasting thread w w' grows holds⟩

/-- The rule of one statement: what a run of it leads to, and what a failure
makes of what was before or of what the statement led to. -/
theorem perform_triple {t : τ} {op : Stmt} {A : Thread → World τ → Prop}
    {B : Except Err op.Val → Thread → World τ → Prop} (lasting : Lasting A)
    (lastingAfter : ∀ answer, Lasting (B answer))
    (may : ∀ {thread w}, w.Sane → A thread w →
      thread.may w.db.currencies w.history.delivered op)
    (ran : ∀ {thread w choice answer w'}, w.Sane → w.threads t = some thread → A thread w →
      op.run choice t w = some (answer, w') → own t (B answer) w')
    (refused : op.canFail = true → ∀ {thread w}, A thread w → B (.error .failed) thread.fail w)
    (lost : op.canFail = true → ∀ {answer thread w}, B answer thread w →
      B (.error .failed) thread.fail w) :
    (discipline printing rules).Triple t (own t A) (perform op) fun answer => own t (B answer) := by
  refine .query (stable_own lasting) (fun answer => stable_own (lastingAfter answer)) ?_ ?_
  · rintro w sane ⟨thread, held, holds⟩
    exact ⟨thread, held, may sane holds⟩
  · rintro w answer w' sane ⟨thread, held, holds⟩ ⟨fault, choice, _, runs⟩
    obtain ⟨_, ran'⟩ | ⟨_, mayFail, rfl, rfl⟩ | ⟨_, mayFail, rfl, found, w₀, ran', rfl⟩ :=
      Stmt.runUnder_cases runs
    · exact ran sane held holds ran'
    · exact own_setThread held (lastingAfter _ _ _ _ (w.grows_setThread t _) (refused mayFail holds))
    · obtain ⟨thread₀, held₀, holds₀⟩ := ran sane held holds ran'
      exact own_setThread held₀ (lastingAfter _ _ _ _
        (w₀.grows_setThread t _) (lost mayFail holds₀))

/-! ## Triples about the own thread -/

/-- A program on a thread keeps the discipline, and ends with `B` about its own
thread when it starts with `A`. -/
def Keeps (printing : Printing) (rules : Rules τ) (t : τ) {α : Type}
    (A : Thread → World τ → Prop) (program : Action α)
    (B : Except Err α → Thread → World τ → Prop) : Prop :=
  (discipline printing rules).Triple t (own t A) program fun result => own t (B result)

namespace Keeps

variable {t : τ} {α β : Type} {A A' : Thread → World τ → Prop}

theorem perform {op : Stmt} {B : Except Err op.Val → Thread → World τ → Prop}
    (lasting : Lasting A) (lastingAfter : ∀ answer, Lasting (B answer))
    (may : ∀ {thread w}, w.Sane → A thread w →
      thread.may w.db.currencies w.history.delivered op)
    (ran : ∀ {thread w choice answer w'}, w.Sane → w.threads t = some thread → A thread w →
      op.run choice t w = some (answer, w') → own t (B answer) w')
    (refused : op.canFail = true → ∀ {thread w}, A thread w → B (.error .failed) thread.fail w)
    (lost : op.canFail = true → ∀ {answer thread w}, B answer thread w →
      B (.error .failed) thread.fail w) :
    Keeps printing rules t A (perform op) B :=
  perform_triple lasting lastingAfter may ran refused lost

/-- The rule of a query of one row. -/
theorem queryRow {op : Stmt} {B : Except Err op.Val → Thread → World τ → Prop}
    (triple : Keeps printing rules t A (SpiceHarvester.perform op) 
      fun answer => B (orNotFound answer)) :
    Keeps printing rules t A (SpiceHarvester.queryRow op) B := by
  intro w sane holds w' others sane'
  exact triple w sane holds w' others sane'

theorem weaken {program : Action α} {B B' : Except Err α → Thread → World τ → Prop}
    (first : Keeps printing rules t A program B)
    (stronger : ∀ {thread w}, w.Sane → A' thread w → A thread w)
    (weaker : ∀ {result thread w}, w.Sane → B result thread w → B' result thread w) :
    Keeps printing rules t A' program B' :=
  Contract.Triple.weaken first
    (fun sane ⟨thread, held, holds⟩ => ⟨thread, held, stronger sane holds⟩)
    fun sane ⟨thread, held, holds⟩ => ⟨thread, held, weaker sane holds⟩

theorem queryRow_ends {op : Stmt} {B : op.Val → Thread → World τ → Prop}
    {E : Thread → World τ → Prop}
    (triple : Keeps printing rules t A (SpiceHarvester.perform op) (Ends B E)) :
    Keeps printing rules t A (SpiceHarvester.queryRow op) (Ends B E) :=
  queryRow (triple.weaken (fun _ holds => holds)
    fun {result _ _} _ holds => by cases result <;> exact holds)

theorem ret {result : Except Err α} {B : Except Err α → Thread → World τ → Prop}
    (lasting : Lasting A) (ends : ∀ {thread w}, w.Sane → A thread w → B result thread w) :
    Keeps printing rules t A (.ret result) B :=
  Contract.Triple.ret (stable_own lasting) fun sane ⟨thread, held, holds⟩ => ⟨thread, held, ends sane holds⟩

theorem bind {program : Action α} {rest : α → Action β}
    {R : Except Err α → Thread → World τ → Prop} {B : Except Err β → Thread → World τ → Prop}
    (first : Keeps printing rules t A program R)
    (value : ∀ a, Keeps printing rules t (R (.ok a)) (rest a) B)
    (error : ∀ {e thread w}, R (.error e) thread w → B (.error e) thread w) :
    Keeps printing rules t A (program >>= rest) B :=
  Contract.Triple.bind discipline_closed first value
    fun _ ⟨thread, held, holds⟩ => ⟨thread, held, error holds⟩

theorem attempt_bind {program : Action α} {rest : Except Err α → Action β}
    {R : Except Err α → Thread → World τ → Prop} {B : Except Err β → Thread → World τ → Prop}
    (first : Keeps printing rules t A program R)
    (value : ∀ result, Keeps printing rules t (R result) (rest result) B) :
    Keeps printing rules t A (program.attempt >>= rest) B :=
  Contract.Triple.attempt_bind discipline_closed first value

theorem strengthen {program : Action α} {B : Except Err α → Thread → World τ → Prop}
    (first : Keeps printing rules t A program B)
    (stronger : ∀ {thread w}, w.Sane → A' thread w → A thread w) :
    Keeps printing rules t A' program B :=
  first.weaken stronger fun _ holds => holds

theorem forM {P : List β → Thread → World τ → Prop} {E : Thread → World τ → Prop}
    {body : β → Action PUnit} (lasting : Lasting (P []))
    (step : ∀ item rest,
      Keeps printing rules t (P (item :: rest)) (body item) (Ends (fun _ => P rest) E))
    (items : List β) :
    Keeps printing rules t (P items) (items.forM body) (Ends (fun _ => P []) E) := by
  induction items with
  | nil => exact ret lasting fun _ holds => holds
  | cons item rest ih => exact bind (step item rest) (fun _ => ih) fun holds => holds

/-- A `mapM` over a list, with an assertion about the values found and the items
that remain. -/
theorem mapM {P : List α → List β → Thread → World τ → Prop} {E : Thread → World τ → Prop}
    {body : β → Action α} (lasting : ∀ found, Lasting (P found []))
    (step : ∀ found item rest, Keeps printing rules t (P found (item :: rest)) (body item)
      (Ends (fun value => P (found ++ [value]) rest) E))
    (items : List β) (found : List α) :
    Keeps printing rules t (P found items) (items.mapM body)
      (Ends (fun values => P (found ++ values) []) E) := by
  induction items generalizing found with
  | nil =>
      rw [List.mapM_nil]
      refine ret (lasting found) fun {thread w} _ holds => ?_
      change P (found ++ []) [] thread w
      rw [List.append_nil]
      exact holds
  | cons item rest ih =>
      rw [List.mapM_cons]
      refine bind (step found item rest) (fun value => ?_) fun holds => holds
      refine bind (ih (found ++ [value])) (fun values => ?_) fun holds => holds
      refine ret (lasting _) fun {thread w} _ holds => ?_
      change P (found ++ [value] ++ values) [] thread w at holds
      rw [List.append_assoc] at holds
      exact holds

/-- What is known of the own thread alone may be used as a fact. -/
theorem of_known {program : Action α} {B : Except Err α → Thread → World τ → Prop}
    {P : Thread → Prop}
    (first : ∀ base, P base → Keeps printing rules t (fun thread _ => thread = base) program B) :
    Keeps printing rules t (fun thread _ => P thread) program B :=
  fun w sane ⟨thread, held, holds⟩ => first thread holds w sane ⟨thread, held, rfl⟩

/-- What only grows holds throughout. -/
theorem frame {program : Action α} {B : Except Err α → Thread → World τ → Prop}
    {F : World τ → Prop} (first : Keeps printing rules t A program B)
    (lasting : Lasting fun (_ : Thread) => F) :
    Keeps printing rules t (fun thread w => F w ∧ A thread w) program
      fun result thread w => F w ∧ B result thread w := by
  have framed := Contract.Triple.frame (F := F) first
    (fun w w' others holds => lasting (.start .markExpired) w w' others.2 holds)
    fun sane ⟨_, _, _, runs⟩ holds =>
      lasting (.start .markExpired) _ _ ((Stmt.runUnder_kept runs).grows sane) holds
  exact Contract.Triple.weaken framed
    (fun _ ⟨thread, held, fact, holds⟩ => ⟨fact, thread, held, holds⟩)
    fun _ ⟨fact, thread, held, holds⟩ => ⟨thread, held, fact, holds⟩

end Keeps

end SpiceHarvester
