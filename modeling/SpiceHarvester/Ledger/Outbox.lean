import SpiceHarvester.Ledger.Dues
import SpiceHarvester.Schedule

/-!
# Changes and their outbox rows, in every run

`CreateInvoice`, `CancelInvoice`, `MarkExpired` and `SavePayments` commit a change of the
invoices first and write its outbox row afterwards, outside any transaction. So a change
keeps its row only in runs in which nothing happens in between: no statement fails while
its operation owes a row, the process does not stop while one does, and an invoice still
has the status of the change when the operation reads it back (`Careful`). In such runs
every committed change has its outbox row or an operation that still runs and owes it, and
`CreateInvoice` and `CancelInvoice` leave the invoices alone when they return an error
(`changes_announced`), provided that the currency of such an invoice can be read back
(`Rules.Readable`). In others they do not (`creation_unannounced`).
-/

set_option autoImplicit false

namespace SpiceHarvester

open Interleaving Sql

section Service

variable [Libraries] {τ : Type}

/-! ## Announced changes -/

/-- Every committed creation or status change has an outbox row that carries the status, or
belongs to an operation that still runs and owes the row. -/
def World.Announced (w : World τ) : Prop :=
  ∀ change ∈ w.history.changes, (change.id, change.status) ∈ w.history.outbox ∨
    ∃ t thread, w.threads t = some thread ∧ change ∈ thread.owed

/-- The operation owes no outbox row, and has changed no invoice if its error says so. -/
def Thread.Even (thread : Thread) : Prop :=
  thread.owed = [] ∧ (thread.job.reports = true → thread.changed = false)

variable [DecidableEq τ] [Fintype τ]

/-- A run may lose no outbox row: a statement fails only where its operation is even
afterwards, `GetInvoice` finds an invoice with the status that its operation owes a row for,
and the process stops only when no operation owes a row. -/
structure Careful (rules : Rules τ) : Prop where
  fails : ∀ {w t op fault choice answer w' thread}, rules.exec w t op fault choice →
    fault ≠ .none → op.runUnder fault choice t w = some (answer, w') →
    w'.threads t = some thread → thread.Even
  reads : ∀ {w t id fault choice thread}, rules.exec w t (.selectInvoice id) fault choice →
    w.threads t = some thread → ∀ change ∈ thread.owed, change.id = id →
    ∀ row, w.db.invoices.find id = some row → row.status = change.status
  stops : ∀ {w t thread}, rules.crash w → w.threads t = some thread → thread.owed = []

/-- Where an operation that has changed an invoice reads one back, `getCurrencyByID` can read
the currency of the invoice. -/
def Rules.Readable (rules : Rules τ) (currencies : Currencies) : Prop :=
  ∀ {w t id fault choice thread}, w.db.currencies = currencies →
    rules.exec w t (.selectInvoice id) fault choice → w.threads t = some thread →
    thread.changed = true → ∀ row, w.db.invoices.find id = some row →
    currencies.Legible row.currency

/-- The thread goes on running the same program. -/
def Goes (printing : Printing) (rules : Rules τ) (t : τ) (c c' : Running τ) : Prop :=
  (system printing rules).Step c c' ∧ (c'.pool t).isSome = true

/-- The same, and the step leaves the invoices as they are if it is one of the thread. -/
def GoesQuietly (printing : Printing) (rules : Rules τ) (t : τ) (c c' : Running τ) : Prop :=
  Goes printing rules t c c' ∧ (c'.pool t ≠ c.pool t → c'.state.db.invoices = c.state.db.invoices)

variable {printing : Printing} {rules : Rules τ}

/-! ## Careful runs lose no row -/

section Careful

variable {w w' : World τ} {t : τ}

/-- The currency of the invoice can be read back. -/
abbrev Currencies.Reads (currencies : Currencies) (row : InvoiceRow) : Prop :=
  currencies.Legible row.currency

omit [Fintype τ] in
/-- A statement fails. -/
theorem fail_dues {C : InvoiceRow → Prop} {thread : Thread} (held : w.threads t = some thread)
    (even : thread.Even) :
    Dues.Step (Dues.careful C) t w.dues (w.setThread t Thread.fail).dues := by
  rw [World.dues_setThread held]
  exact .fail (World.due_of_thread held) even

/-- A statement of a careful run makes a step of the dues, and fails in another. -/
theorem Careful.exec {op : Stmt} {fault : Fault} {choice : Choice} {answer : Except Err op.Val}
    {thread : Thread} {currencies : Currencies} (careful : Careful rules)
    (readable : rules.Readable currencies) (stored : w.db.currencies = currencies)
    (allowed : rules.exec w t op fault choice) (held : w.threads t = some thread)
    (may : thread.may w.db.currencies w.history.delivered op)
    (unread : thread.tx.isSome = true → thread.lastRead = none)
    (runs : op.runUnder fault choice t w = some (answer, w')) :
    ∃ d due, Dues.Step (Dues.careful currencies.Reads) t w.dues d ∧ d.due t = some due ∧
      Dues.Step (Dues.careful currencies.Reads) t d w'.dues := by
  have ran : ∀ {found : Except Err op.Val} {w₀ : World τ}, op.run choice t w = some (found, w₀) →
      Dues.Step (Dues.careful currencies.Reads) t w.dues w₀.dues := by
    intro found w₀ ran
    refine Stmt.run_dues held may unread (fun id same => ?_)
      (fun _ _ _ => trivial) (fun _ _ _ _ _ _ => trivial) ran
    subst same
    exact ⟨careful.reads allowed held, readable stored allowed held⟩
  rcases Stmt.runUnder_cases runs with ⟨_, effect⟩ | ⟨failed, _, _, rfl⟩ | ⟨failed, _, _, _, w₀, effect, rfl⟩
  · exact ⟨w.dues, thread.due, .quiet, World.due_of_thread held, ran effect⟩
  · have fails := careful.fails allowed (by rw [failed]; exact Fault.noConfusion) runs
      ((World.threads_setThread _ _ _).trans (by rw [held]; rfl))
    exact ⟨w.dues, thread.due, .quiet, World.due_of_thread held, fail_dues held fails⟩
  · have job := (congrFun (Stmt.run_job effect) t).trans (by rw [World.job, held, Option.map_some])
    obtain ⟨thread₀, held₀, _⟩ := Option.map_eq_some_iff.mp job
    have fails := careful.fails allowed (by rw [failed]; exact Fault.noConfusion) runs
      ((World.threads_setThread _ _ _).trans (by rw [held₀]; rfl))
    exact ⟨w₀.dues, thread₀.due, ran effect, World.due_of_thread held₀, fail_dues held₀ fails⟩

/-- In a transaction a thread has read no invoice back. -/
theorem Dues.Settled.unread {db : Database} {c : Running τ} (settled : c.state.dues.Settled)
    (run : Runs printing rules db c) {thread : Thread} (held : c.state.threads t = some thread)
    (opened : thread.tx.isSome = true) : thread.lastRead = none :=
  unread_run run held (settled.busy (World.due_of_thread held) opened)

omit [DecidableEq τ] [Fintype τ] in
/-- A thread that has changed an invoice has read none back since whose currency it cannot
read. -/
theorem Dues.Readable.legible {currencies : Currencies}
    (readable : w.dues.Readable currencies.Reads) {thread : Thread}
    (held : w.threads t = some thread) (changed : thread.changed = true) :
    thread.Legible currencies :=
  fun _ read => readable.readable (World.due_of_thread held) changed read

/-- **The dues stay settled and readable in every careful run.** -/
theorem settled_run {db : Database} (sane : db.Sane) (legible : rules.Readable db.currencies)
    (careful : Careful rules) {c : Running τ} (run : Runs printing rules db c) :
    c.state.dues.Settled ∧ c.state.dues.Readable db.currencies.Reads := by
  induction run with
  | refl =>
      constructor
      · exact {
          announced := fun _ member => by cases member
          unfailed := fun found => by cases found
          read := fun found => by cases found
          busy := fun found => by cases found }
      · exact {
          marked := fun found => by cases found
          readable := fun found => by cases found }
  | @tail c₁ c₂ before step both =>
      obtain ⟨settled, readable⟩ := both
      have kept := disciplined sane before
      have same : c₁.state.db.currencies = db.currencies := (grows_run sane .refl before).currencies
      cases step with
      | @spawn w w' pool t program free starts =>
          obtain ⟨job, _, _, rfl⟩ := starts
          have idle : w.threads t = none := no_thread before free
          have equal : (w.start t job).dues = _ := World.dues_update w t (some (Thread.start job))
          have free : w.dues.due t = none := by
            change (w.threads t).map Thread.due = none
            rw [idle, Option.map_none]
          change (w.start t job).dues.Settled ∧ (w.start t job).dues.Readable _
          rw [equal]
          exact ⟨settled.start job free, readable.step (.start job free)⟩
      | @exec w w' pool t op next answer calls answers =>
          obtain ⟨thread, held, may⟩ := kept.pre discipline_sound calls
          obtain ⟨fault, choice, allowed, runs⟩ := answers
          obtain ⟨d, _, first, _, second⟩ :=
            careful.exec legible same allowed held may (settled.unread before held) runs
          exact ⟨(settled.step first).step second, (readable.step first).step second⟩
      | @retire w w' pool t result ended leaves =>
          cases leaves
          obtain ⟨thread, held, done⟩ := kept.post discipline_sound ended
          have equal : (w.leave t).dues = _ := World.dues_update w t none
          have clear : ∀ due, w.dues.due t = some due → due.owed = [] ∨ due.failed = true := by
            intro due found
            rw [World.due_of_thread held, Option.some.injEq] at found
            subst found
            cases changed : thread.changed with
            | false => exact .inl (readable.marked (World.due_of_thread held) changed)
            | true => exact done.clear (same.symm ▸ readable.legible held changed)
          change (w.leave t).dues.Settled ∧ (w.leave t).dues.Readable _
          rw [equal]
          exact ⟨settled.step (C := db.currencies.Reads) (.leave clear), readable.step (.leave clear)⟩
      | @crash w w' pool stops =>
          obtain ⟨stops, rfl⟩ := stops
          refine ⟨settled.stop fun u due found => ?_, {
            marked := fun found => by cases found
            readable := fun found => by cases found }⟩
          obtain ⟨thread, held, rfl⟩ := Option.map_eq_some_iff.mp found
          exact careful.stops stops held

/-! ## An operation that reports an error -/

/-- A step by which an operation goes on marks the operation if it changes the invoices. -/
theorem unmarked_step {db : Database} (sane : db.Sane) (legible : rules.Readable db.currencies)
    (careful : Careful rules) {c c' : Running τ} (run : Runs printing rules db c)
    (running : (c.pool t).isSome = true) (goes : Goes printing rules t c c') {thread' : Thread}
    (held' : c'.state.threads t = some thread') (reports : thread'.job.reports = true)
    (unmarked : thread'.changed = false) :
    GoesQuietly printing rules t c c' ∧ ∃ thread, c.state.threads t = some thread ∧
      thread.job.reports = true ∧ thread.changed = false := by
  obtain ⟨step, goesOn⟩ := goes
  obtain ⟨settled, _⟩ := settled_run sane legible careful run
  have kept := disciplined sane run
  have same : c.state.db.currencies = db.currencies := (grows_run sane .refl run).currencies
  have step' := step
  cases step with
  | @spawn w w' pool u program free starts =>
      obtain ⟨job, _, _, rfl⟩ := starts
      have other : t ≠ u := by
        rintro rfl
        change (pool t).isSome = true at running
        rw [free] at running
        cases running
      change (w.start u job).threads t = some thread' at held'
      rw [World.threads_start_of_ne other] at held'
      exact ⟨⟨⟨step', goesOn⟩, fun _ => rfl⟩, thread', held', reports, unmarked⟩
  | @exec w w' pool u op next answer calls answers =>
      obtain ⟨thread, held, may⟩ := kept.pre discipline_sound calls
      obtain ⟨fault, choice, allowed, runs⟩ := answers
      by_cases own : t = u
      · subst own
        obtain ⟨d, due, first, found, second⟩ :=
          careful.exec legible same allowed held may (settled.unread run held) runs
        have last := World.due_of_thread held'
        obtain ⟨same₂, job₂, unmarked₂⟩ :=
          Dues.Step.unchanged (settled.step first) second found last reports unmarked
        obtain ⟨same₁, job₁, unmarked₁⟩ := Dues.Step.unchanged settled first
          (World.due_of_thread held) found (job₂ ▸ reports) unmarked₂
        refine ⟨⟨⟨step', goesOn⟩, fun _ => same₂.trans same₁⟩, thread, held, ?_, unmarked₁⟩
        have job : thread.job = thread'.job := job₁.trans job₂
        rw [job]
        exact reports
      · change w'.threads t = some thread' at held'
        rw [(Stmt.runUnder_kept runs).others own] at held'
        refine ⟨⟨⟨step', goesOn⟩, fun moved => ?_⟩, thread', held', reports, unmarked⟩
        exact absurd (Function.update_of_ne own ..) moved
  | @retire w w' pool u result ended leaves =>
      cases leaves
      have other : t ≠ u := by
        rintro rfl
        change (Function.update pool t none t).isSome = true at goesOn
        rw [Function.update_self] at goesOn
        cases goesOn
      change (w.leave u).threads t = some thread' at held'
      rw [World.threads_leave_of_ne other] at held'
      exact ⟨⟨⟨step', goesOn⟩, fun _ => rfl⟩, thread', held', reports, unmarked⟩
  | crash _ => cases goesOn

/-- An operation that has marked no change has left the invoices alone. -/
theorem untouched {db : Database} (sane : db.Sane) (legible : rules.Readable db.currencies)
    (careful : Careful rules) {c₀ c : Running τ} (run : Runs printing rules db c₀)
    (running : (c₀.pool t).isSome = true)
    (goes : Relation.ReflTransGen (Goes printing rules t) c₀ c) {thread : Thread}
    (held : c.state.threads t = some thread) (reports : thread.job.reports = true)
    (unmarked : thread.changed = false) :
    Relation.ReflTransGen (GoesQuietly printing rules t) c₀ c := by
  induction goes generalizing thread with
  | refl => exact .refl
  | @tail c₁ c₂ before step ih =>
      have reached : Runs printing rules db c₁ :=
        run.trans (before.lift id fun _ _ goes => goes.1)
      have running₁ : (c₁.pool t).isSome = true := by
        cases before with
        | refl => exact running
        | tail _ last => exact last.2
      obtain ⟨quiet, thread₁, held₁, reports₁, unmarked₁⟩ :=
        unmarked_step sane legible careful reached running₁ step held reports unmarked
      exact (ih held₁ reports₁ unmarked₁).tail quiet

/-- **Changes keep their outbox rows.** In every careful run each committed creation or
status change has an outbox row that carries its status, or belongs to an operation that
still runs, and when `CreateInvoice` or `CancelInvoice` returns an error none of its
statements has changed the invoices. -/
theorem changes_announced {db : Database} (sane : db.Sane) (legible : rules.Readable db.currencies)
    (careful : Careful rules) {c : Running τ} (run : Runs printing rules db c) :
    c.state.Announced ∧
    ∀ t thread error c₀, c.state.threads t = some thread →
      (∃ invoice, thread.job = .createInvoice invoice) ∨ (∃ id, thread.job = .cancelInvoice id) →
      c.pool t = some (.ret (.error error)) →
      Runs printing rules db c₀ → (c₀.pool t).isSome = true →
      Relation.ReflTransGen (Goes printing rules t) c₀ c →
      Relation.ReflTransGen (GoesQuietly printing rules t) c₀ c := by
  obtain ⟨settled, readable⟩ := settled_run sane legible careful run
  constructor
  · intro change member
    obtain written | ⟨t, due, found, owes⟩ := settled.announced change member
    · exact .inl written
    · obtain ⟨thread, held, rfl⟩ := Option.map_eq_some_iff.mp found
      exact .inr ⟨t, thread, held, owes⟩
  · intro t thread error c₀ held job ended run₀ running goes
    obtain ⟨thread', held', done⟩ := (disciplined sane run).post discipline_sound ended
    rw [held, Option.some.injEq] at held'
    subst held'
    have same : c.state.db.currencies = db.currencies := (grows_run sane .refl run).currencies
    have reports : thread.job.reports = true := by
      rcases job with ⟨_, same⟩ | ⟨_, same⟩ <;> rw [same] <;> rfl
    refine untouched sane legible careful run₀ running goes held reports ?_
    cases changed : thread.changed with
    | false => rfl
    | true =>
        obtain unmarked | failed :=
          done.unchanged (same.symm ▸ readable.legible held changed) error rfl job
        · exact changed.symm.trans unmarked
        · have unfailed : thread.failed = false := settled.unfailed (World.due_of_thread held)
          rw [unfailed] at failed
          cases failed

end Careful

end Service

/-! ## Rows that are lost -/

section Shop

attribute [local instance] Texts.libraries

open Shop

/-- Invoices are created and cancelled, without faults and stops, and an invoice is read back
with the status that its operation owes a row for. -/
def prudent : Checks Bool where
  spawn _ job :=
    match job with
    | .createInvoice _ | .cancelInvoice _ => true
    | _ => false
  exec w t op fault _ :=
    decide (fault = .none) &&
      match op with
      | .selectInvoice id => ((w.threads t).elim [] Thread.owed).all fun change =>
          !decide (change.id = id) ||
            (w.db.invoices.find id).all fun row => decide (row.status = change.status)
      | _ => true
  crash _ := false

theorem prudent_careful : Careful prudent.rules where
  fails allowed failed := by
    simp only [Checks.rules, prudent, Bool.and_eq_true, decide_eq_true_eq] at allowed
    exact absurd allowed.1 failed
  reads allowed held change owes here row stored := by
    simp only [Checks.rules, prudent, Bool.and_eq_true, decide_eq_true_eq, held, Option.elim_some,
      List.all_eq_true] at allowed
    have current := allowed.2 change owes
    rw [decide_eq_true here, Bool.not_true, Bool.false_or, stored, Option.all_some,
      decide_eq_true_eq] at current
    exact current
  stops stopped := by cases stopped

theorem prudent_readable : prudent.rules.Readable currencies := by
  intro w t id fault choice thread _ _ _ _ invoice _ row found
  obtain rfl := List.mem_singleton.mp (Table.find_eq_some.mp found).1
  exact ⟨.ton, rfl⟩

/-- An invoice is cancelled, and the change has its row. -/
theorem cancellation_announced :
    ∃ c : Running Bool, Runs printing prudent.rules database c ∧
      c.state.history.changes = [⟨7, .cancelled, 1⟩] ∧ c.state.Announced := by
  obtain ⟨c, _, run, _, changes⟩ :=
    Checks.observed printing prudent (.idle (.idle database))
      (.spawn false (.cancelInvoice 7) :: List.replicate 6 (run false 0)) []
      (fun c _ => c.state.history.changes = [⟨7, .cancelled, 1⟩]) (by decide +kernel)
  exact ⟨c, run, changes,
    (changes_announced database_sane prudent_readable prudent_careful run).1⟩

/-- Invoices are created, statements fail, and the process stops. -/
def careless : Checks Bool where
  spawn _ job :=
    match job with
    | .createInvoice _ => true
    | _ => false
  exec _ _ _ _ _ := true
  crash _ := true

/-- The invoice that the shop creates. -/
def newInvoice : Invoice where
  id := 8
  recipient := merchant
  status := .waiting
  amount := 10
  overpayment := 0
  currency := .ton
  createdAt := 0
  expireAt := 1000000
  updatedAt := 0
  privateInfo := []
  metadata := []
  paidBy := none
  paidAt := none
  txHash := none
  version := 0

/-- The process stops between the two statements of `CreateInvoice`, or the second one
fails: the invoice is stored, and never gets its outbox row. In the second case
`CreateInvoice` returns an error. -/
theorem creation_unannounced :
    (∃ c : Running Bool, Runs printing careless.rules database c ∧ (∀ t, c.pool t = none) ∧
      (c.state.db.invoices.find 8).isSome = true ∧ ¬ c.state.Announced) ∧
    ∃ c : Running Bool, Runs printing careless.rules database c ∧
      (c.state.threads false).map Thread.job = some (.createInvoice newInvoice) ∧
      Running.failed c false = true ∧ database.invoices.find 8 = none ∧
      (c.state.db.invoices.find 8).isSome = true := by
  constructor
  · obtain ⟨c, _, run, _, idle, stored, changes, outbox, threads⟩ :=
      Checks.observed printing careless (.idle (.idle database))
        ([.spawn false (.createInvoice newInvoice), run false 0, run false 0, .crash]) []
        (fun c _ => (∀ t, (c.pool t).isNone = true) ∧ (c.state.db.invoices.find 8).isSome = true ∧
          c.state.history.changes = [⟨8, .waiting, 0⟩] ∧ c.state.history.outbox = [] ∧
          ∀ t, (c.state.threads t).isNone = true) (by decide +kernel)
    refine ⟨c, run, fun t => Option.isNone_iff_eq_none.mp (idle t), stored, fun announced => ?_⟩
    obtain written | ⟨t, thread, held, _⟩ := announced ⟨8, .waiting, 0⟩ (by rw [changes]; decide)
    · rw [outbox] at written
      cases written
    · have none := threads t
      rw [held] at none
      cases none
  · obtain ⟨c, _, run, _, found⟩ :=
      Checks.observed printing careless (.idle (.idle database))
        ([.spawn false (.createInvoice newInvoice), run false 0, run false 0, run false 0,
          .exec false .refused (at' 0)]) []
        (fun c _ => (c.state.threads false).map Thread.job = some (.createInvoice newInvoice) ∧
          Running.failed c false = true ∧ database.invoices.find 8 = none ∧
          (c.state.db.invoices.find 8).isSome = true) (by decide +kernel)
    exact ⟨c, run, found⟩

end Shop

end SpiceHarvester
