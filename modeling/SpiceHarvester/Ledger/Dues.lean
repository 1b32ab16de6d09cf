import SpiceHarvester.Protocol.Unread

/-!
# What the operations owe the outbox

An operation that has created an invoice or changed a status owes the outbox a row with
the new status. It commits the change in one statement and writes the row in a later one.
A notifier removes the rows of an invoice after a delivery. `Dues` keeps the committed
changes, the rows written, what has been delivered and removed, and what each running
operation still owes. `Dues.Step` says how they may change, and a `Dues.Guard` when an
invoice may be read back, a statement fail, rows be removed and the process stop.

Where nothing fails or stops while it owes a row, and no status changes before its row is
read, every committed change has its row or an operation that owes it
(`Dues.Settled.step`). The state of the service has such dues (`World.dues`), and a
statement in its situation is a step of them (`Stmt.run_dues`).
-/

set_option autoImplicit false

namespace SpiceHarvester

open Interleaving Sql

/-! ## Dues -/

/-- What a running operation owes, and what decides whether it will pay. -/
structure Due where
  job : Job
  busy : Bool
  owed : List Snapshot
  failed : Bool
  changed : Bool
  lastRead : Option InvoiceRow

def Thread.due (thread : Thread) : Due :=
  ⟨thread.job, thread.tx.isSome, thread.owed, thread.failed, thread.changed, thread.lastRead⟩

namespace Due

/-- The operation has committed changes. -/
def owe (changes : List Snapshot) (due : Due) : Due :=
  { due with
    owed := due.owed ++ changes
    changed := due.changed || !changes.isEmpty }

/-- The version that an outbox row of an invoice is written for. -/
def owedVersion (due : Due) (id : InvoiceID) : ℕ :=
  ((due.owed.find? fun change => decide (change.id = id)).map Snapshot.version).getD 0

/-- The operation has written the outbox row of an invoice. -/
def announce (id : InvoiceID) (due : Due) : Due :=
  { due with owed := due.owed.filter fun change => !decide (change.id = id) }

/-- A statement of the operation has failed. -/
def fail (due : Due) : Due :=
  { due with failed := due.failed || !due.owed.isEmpty || due.changed && due.job.reports }

/-- The operation owes no row, and has changed no invoice if it reports an error. -/
def Even (due : Due) : Prop := due.owed = [] ∧ (due.job.reports = true → due.changed = false)

theorem Even.fail {due : Due} (even : due.Even) (unfailed : due.failed = false) :
    due.fail.failed = false := by
  obtain ⟨owed, unchanged⟩ := even
  change (due.failed || !due.owed.isEmpty || due.changed && due.job.reports) = false
  rw [unfailed, owed]
  cases reports : due.job.reports with
  | false => exact Bool.and_false _
  | true =>
      rw [unchanged reports]
      rfl

end Due

/-- The stored invoices, the committed changes, the outbox rows ever written for them and
those that are stored, what has been delivered and removed, and what the running operations
owe. -/
structure Dues (τ : Type) where
  invoices : Table InvoiceRow.id
  changes : List Snapshot
  outbox : List (InvoiceID × InvoiceStatus)
  rows : List Notification
  delivered : List Snapshot
  removed : List Notification
  due : τ → Option Due

/-- What the outside may do to the dues. -/
structure Dues.Guard (τ : Type) where
  reads : Dues τ → Due → InvoiceID → Prop
  delivers : Snapshot → Prop
  deletes : Dues τ → Snapshot → Prop
  fails : Due → Prop

namespace Dues

variable {τ : Type} [DecidableEq τ]

/-- Replace what one operation owes. -/
def put (d : Dues τ) (t : τ) (due : Option Due) : Dues τ :=
  { d with due := Function.update d.due t due }

theorem due_put {d : Dues τ} {t u : τ} {new : Option Due} {due : Due}
    (found : (d.put t new).due u = some due) :
    (u = t ∧ new = some due) ∨ (u ≠ t ∧ d.due u = some due) := by
  change Function.update d.due t new u = some due at found
  by_cases same : u = t
  · subst same
    rw [Function.update_self] at found
    exact .inl ⟨rfl, found⟩
  · rw [Function.update_of_ne same] at found
    exact .inr ⟨same, found⟩

/-! ## Steps -/

/-- A step of an operation. -/
inductive Step (G : Guard τ) (t : τ) (d : Dues τ) : Dues τ → Prop where
  | quiet : Step G t d d
  /-- A statement outside a transaction creates or closes invoices. -/
  | owe {due : Due} (invoices : Table InvoiceRow.id) (changes : List Snapshot)
      (held : d.due t = some due) (clear : due.owed = []) (idle : due.busy = false)
      (unread : due.lastRead = none)
      (single : ∀ change ∈ changes, ∀ other ∈ changes, change.id = other.id → change = other)
      (same : changes = [] → invoices = d.invoices) :
      Step G t d { d.put t (due.owe changes) with
        invoices := invoices
        changes := d.changes ++ changes }
  | begin {due : Due} (held : d.due t = some due) (indexes : due.job.indexes = true)
      (clear : due.owed = [] ∨ due.failed = true) :
      Step G t d (d.put t (some { due with busy := true }))
  | commit {due : Due} (invoices : Table InvoiceRow.id) (changes : List Snapshot)
      (held : d.due t = some due) (busy : due.busy = true) (unread : due.lastRead = none)
      (single : ∀ change ∈ changes, ∀ other ∈ changes, change.id = other.id → change = other) :
      Step G t d { d.put t (some { due.owe changes with busy := false }) with
        invoices := invoices
        changes := d.changes ++ changes }
  | rollback {due : Due} (held : d.due t = some due) :
      Step G t d (d.put t (some { due with busy := false }))
  | read {due : Due} (id : InvoiceID) (held : d.due t = some due) (allowed : G.reads d due id) :
      Step G t d (d.put t (some { due with lastRead := d.invoices.find id }))
  | announce {due : Due} (row : InvoiceRow) (held : d.due t = some due)
      (carries : ∀ change ∈ due.owed, change.id = row.id →
        due.failed = true ∨ row.status = change.status ∨
          ∃ seen, due.lastRead = some seen ∧ seen.id = row.id ∧ row.status = seen.status) :
      Step G t d { d.put t (some (due.announce row.id)) with
        outbox := d.outbox ++ [(row.id, row.status)]
        rows := d.rows ++ [⟨row, due.owedVersion row.id⟩] }
  | deliver (snapshot : Snapshot) (allowed : G.delivers snapshot) :
      Step G t d { d with delivered := d.delivered ++ [snapshot] }
  /-- The rows of an invoice that has been delivered are removed. -/
  | delete (snapshot : Snapshot) (sent : snapshot ∈ d.delivered) (allowed : G.deletes d snapshot) :
      Step G t d { d with
        rows := d.rows.filter fun entry => !decide (entry.row.id = snapshot.id)
        removed := d.removed ++ d.rows.filter fun entry => decide (entry.row.id = snapshot.id) }
  | fail {due : Due} (held : d.due t = some due) (allowed : G.fails due) :
      Step G t d (d.put t (some due.fail))
  | start (job : Job) (free : d.due t = none) :
      Step G t d (d.put t (some (Thread.start job).due))
  | leave (clear : ∀ due, d.due t = some due → due.owed = [] ∨ due.failed = true) :
      Step G t d (d.put t none)

/-! ## Every change has its row -/

/-- Every committed change has its outbox row, or an operation that owes it. -/
def Announced (d : Dues τ) : Prop :=
  ∀ change ∈ d.changes, (change.id, change.status) ∈ d.outbox ∨
    ∃ t due, d.due t = some due ∧ change ∈ due.owed

/-- An operation reads back what it owes a row for, `C` holds of an invoice that is read back
after a change, and no operation fails while it owes a row. -/
def careful (C : InvoiceRow → Prop) : Guard τ where
  reads d due id :=
    (∀ change ∈ due.owed, change.id = id → ∀ row, d.invoices.find id = some row →
      row.status = change.status) ∧
    (due.changed = true → ∀ row, d.invoices.find id = some row → C row)
  delivers _ := True
  deletes _ _ := True
  fails := Due.Even

/-- What holds of the dues throughout. -/
structure Settled (d : Dues τ) : Prop where
  announced : d.Announced
  unfailed : ∀ {t due}, d.due t = some due → due.failed = false
  /-- What an operation has read of an invoice is what it owes a row for. -/
  read : ∀ {t due seen change}, d.due t = some due → due.lastRead = some seen →
    change ∈ due.owed → change.id = seen.id → seen.status = change.status
  /-- Only `SavePayments` opens a transaction. -/
  busy : ∀ {t due}, d.due t = some due → due.busy = true → due.job.indexes = true

variable {d d' : Dues τ} {t : τ} {C : InvoiceRow → Prop}

namespace Settled

/-- One operation changes what it owes, and keeps what it owes rows for. -/
theorem put (settled : d.Settled) {due new : Due} (held : d.due t = some due)
    (keeps : ∀ change ∈ due.owed, change ∈ new.owed) (unfailed : new.failed = false)
    (read : ∀ {seen change}, new.lastRead = some seen → change ∈ new.owed → change.id = seen.id →
      seen.status = change.status)
    (busy : new.busy = true → new.job.indexes = true) : (d.put t (some new)).Settled where
  announced change member := by
    obtain written | ⟨u, other, found, owes⟩ := settled.announced change member
    · exact .inl written
    · right
      by_cases same : u = t
      · subst same
        rw [held, Option.some.injEq] at found
        subst found
        exact ⟨u, new, Function.update_self .., keeps change owes⟩
      · exact ⟨u, other, (Function.update_of_ne same ..).trans found, owes⟩
  unfailed found := by
    obtain ⟨_, same⟩ | ⟨_, found⟩ := due_put found
    · cases same
      exact unfailed
    · exact settled.unfailed found
  read found := by
    obtain ⟨_, same⟩ | ⟨_, found⟩ := due_put found
    · cases same
      exact read
    · exact settled.read found
  busy found := by
    obtain ⟨_, same⟩ | ⟨_, found⟩ := due_put found
    · cases same
      exact busy
    · exact settled.busy found

omit [DecidableEq τ] in
/-- Changes are committed, by an operation that owes their rows. -/
theorem commit (settled : d.Settled) {due : Due} (held : d.due t = some due)
    {invoices : Table InvoiceRow.id} {changes : List Snapshot}
    (owes : ∀ change ∈ changes, change ∈ due.owed) :
    Settled { d with
      invoices := invoices
      changes := d.changes ++ changes } where
  announced change member := by
    obtain before | new := List.mem_append.mp member
    · exact settled.announced change before
    · exact .inr ⟨t, due, held, owes change new⟩
  unfailed := settled.unfailed
  read := settled.read
  busy := settled.busy

/-- An operation that has read no invoice commits changes. -/
theorem owe (settled : d.Settled) {due : Due} {invoices : Table InvoiceRow.id}
    {changes : List Snapshot} (busy : Bool) (held : d.due t = some due)
    (unread : due.lastRead = none) (indexes : busy = true → due.job.indexes = true) :
    Settled { d.put t (some { due.owe changes with busy := busy }) with
      invoices := invoices
      changes := d.changes ++ changes } := by
  have unfailed := settled.unfailed held
  have kept : (d.put t (some { due.owe changes with busy := busy })).Settled := by
    refine settled.put held (fun change owes => List.mem_append_left _ owes) unfailed
      (fun {seen _} found => ?_) indexes
    change due.lastRead = some seen at found
    rw [unread] at found
    cases found
  exact kept.commit (Function.update_self ..) fun change member => List.mem_append_right _ member

/-- The outbox row of an invoice is written. It carries the status of each change that the
operation owes it for. -/
theorem announce (settled : d.Settled) {due : Due} {row : InvoiceRow} {rows : List Notification}
    (held : d.due t = some due)
    (carries : ∀ change ∈ due.owed, change.id = row.id → row.status = change.status) :
    Settled { d.put t (some (due.announce row.id)) with
      outbox := d.outbox ++ [(row.id, row.status)]
      rows := rows } where
  announced change member := by
    obtain written | ⟨u, other, found, owes⟩ := settled.announced change member
    · exact .inl (List.mem_append_left _ written)
    · by_cases same : u = t
      · subst same
        rw [held, Option.some.injEq] at found
        subst found
        by_cases here : change.id = row.id
        · left
          rw [here, ← carries change owes here]
          exact List.mem_append_right _ List.mem_cons_self
        · right
          refine ⟨u, due.announce row.id, Function.update_self .., List.mem_filter.mpr ⟨owes, ?_⟩⟩
          rw [decide_eq_false here]
          rfl
      · exact .inr ⟨u, other, (Function.update_of_ne same ..).trans found, owes⟩
  unfailed found := by
    have unfailed := settled.unfailed held
    obtain ⟨_, same⟩ | ⟨_, found⟩ := due_put found
    · cases same
      exact unfailed
    · exact settled.unfailed found
  read found seen owes := by
    obtain ⟨_, same⟩ | ⟨_, found⟩ := due_put found
    · cases same
      exact settled.read held seen (List.mem_filter.mp owes).1
    · exact settled.read found seen owes
  busy found := by
    have busy := settled.busy held
    obtain ⟨_, same⟩ | ⟨_, found⟩ := due_put found
    · cases same
      exact busy
    · exact settled.busy found

/-- An operation that owes nothing is taken away. -/
theorem leave (settled : d.Settled) (clear : ∀ due, d.due t = some due → due.owed = []) :
    (d.put t none).Settled where
  announced change member := by
    obtain written | ⟨u, due, found, owes⟩ := settled.announced change member
    · exact .inl written
    · by_cases same : u = t
      · subst same
        rw [clear due found] at owes
        cases owes
      · exact .inr ⟨u, due, (Function.update_of_ne same ..).trans found, owes⟩
  unfailed found := by
    obtain ⟨_, none⟩ | ⟨_, found⟩ := due_put found
    · cases none
    · exact settled.unfailed found
  read found := by
    obtain ⟨_, none⟩ | ⟨_, found⟩ := due_put found
    · cases none
    · exact settled.read found
  busy found := by
    obtain ⟨_, none⟩ | ⟨_, found⟩ := due_put found
    · cases none
    · exact settled.busy found

/-- An operation starts. -/
theorem start (settled : d.Settled) (job : Job) (free : d.due t = none) :
    (d.put t (some (Thread.start job).due)).Settled where
  announced change member := by
    obtain written | ⟨u, due, found, owes⟩ := settled.announced change member
    · exact .inl written
    · refine .inr ⟨u, due, (Function.update_of_ne ?_ ..).trans found, owes⟩
      rintro rfl
      rw [free] at found
      cases found
  unfailed found := by
    obtain ⟨_, same⟩ | ⟨_, found⟩ := due_put found
    · cases same
      rfl
    · exact settled.unfailed found
  read found seen := by
    obtain ⟨_, same⟩ | ⟨_, found⟩ := due_put found
    · cases same
      cases seen
    · exact settled.read found seen
  busy found busy := by
    obtain ⟨_, same⟩ | ⟨_, found⟩ := due_put found
    · cases same
      cases busy
    · exact settled.busy found busy

omit [DecidableEq τ] in
/-- All operations stop, and none owes a row. -/
theorem stop (settled : d.Settled) (clear : ∀ u due, d.due u = some due → due.owed = []) :
    Settled { d with due := fun _ : τ => none } where
  announced change member := by
    obtain written | ⟨u, due, found, owes⟩ := settled.announced change member
    · exact .inl written
    · rw [clear u due found] at owes
      cases owes
  unfailed found := by cases found
  read found := by cases found
  busy found := by cases found

/-- **No step loses a row.** -/
theorem step (settled : d.Settled) (step : Step (careful C) t d d') : d'.Settled := by
  have quiet : ∀ {due new : Due}, d.due t = some due → new.owed = due.owed →
      new.lastRead = due.lastRead → new.failed = false →
      (new.busy = true → new.job.indexes = true) → (d.put t (some new)).Settled := by
    intro due new held owed read unfailed busy
    refine settled.put held (fun change owes => owed ▸ owes) unfailed (fun seen owes same => ?_) busy
    exact settled.read held (read ▸ seen) (owed ▸ owes) same
  cases step with
  | quiet => exact settled
  | @owe due invoices changes held _ _ unread _ _ =>
      exact settled.owe due.busy held unread (settled.busy held)
  | begin held indexes _ =>
      have unfailed := settled.unfailed held
      exact quiet held rfl rfl unfailed fun _ => indexes
  | commit invoices changes held _ unread _ =>
      exact settled.owe false held unread fun busy => by cases busy
  | rollback held =>
      have unfailed := settled.unfailed held
      exact quiet held rfl rfl unfailed fun busy => by cases busy
  | @read due id held current =>
      have busy := settled.busy held
      have unfailed := settled.unfailed held
      refine settled.put held (fun _ owes => owes) unfailed (fun {seen change} found owes same => ?_) busy
      have own := Table.key_of_find found
      exact current.1 change owes (same.trans own) seen found
  | @announce due row held carries =>
      refine settled.announce held fun change owes here => ?_
      obtain failed | same | ⟨seen, read, own, same⟩ := carries change owes here
      · rw [settled.unfailed held] at failed
        cases failed
      · exact same
      · exact same.trans (settled.read held read owes (here.trans own.symm))
  | deliver snapshot _ => exact { settled with }
  | delete snapshot _ _ => exact { settled with }
  | @fail due held even =>
      have busy := settled.busy held
      exact quiet held rfl rfl (even.fail (settled.unfailed held)) busy
  | start job free => exact settled.start job free
  | leave clear =>
      refine settled.leave fun due found => ?_
      obtain owed | failed := clear due found
      · exact owed
      · rw [settled.unfailed found] at failed
        cases failed

end Settled

/-- An operation owes rows only after a change, and `C` holds of what it has read back since. -/
structure Readable (C : InvoiceRow → Prop) (d : Dues τ) : Prop where
  marked : ∀ {t due}, d.due t = some due → due.changed = false → due.owed = []
  readable : ∀ {t due row}, d.due t = some due → due.changed = true → due.lastRead = some row → C row

namespace Readable

/-- One operation goes on. -/
theorem put (readable : d.Readable C) {new : Option Due}
    (marked : ∀ due, new = some due → due.changed = false → due.owed = [])
    (reads : ∀ due row, new = some due → due.changed = true → due.lastRead = some row → C row) :
    (d.put t new).Readable C where
  marked found unmarked := by
    obtain ⟨_, same⟩ | ⟨_, found⟩ := due_put found
    · exact marked _ same unmarked
    · exact readable.marked found unmarked
  readable found changed read := by
    obtain ⟨_, same⟩ | ⟨_, found⟩ := due_put found
    · exact reads _ _ same changed read
    · exact readable.readable found changed read

/-- An operation that has read no invoice back changes some. -/
theorem owe (readable : d.Readable C) {due : Due} {changes : List Snapshot} {busy : Bool}
    (held : d.due t = some due) (unread : due.lastRead = none) :
    (d.put t (some { due.owe changes with busy := busy })).Readable C := by
  refine readable.put (fun new same unmarked => ?_) fun new row same _ read => ?_
  · cases same
    change (due.changed || !changes.isEmpty) = false at unmarked
    rw [Bool.or_eq_false_iff] at unmarked
    obtain rfl : changes = [] := by simpa using unmarked.2
    change due.owed ++ [] = []
    rw [readable.marked held unmarked.1]
    rfl
  · cases same
    change due.lastRead = some row at read
    rw [unread] at read
    cases read

/-- **What is read back after a change stays readable.** -/
theorem step (readable : d.Readable C) (step : Step (careful C) t d d') : d'.Readable C := by
  have quiet : ∀ {due new : Due}, d.due t = some due → new.owed ⊆ due.owed →
      new.changed = due.changed → new.lastRead = due.lastRead → (d.put t (some new)).Readable C := by
    intro due new held owed changed lastRead
    refine readable.put (fun other same unmarked => ?_) fun other row same marked read => ?_
    · cases same
      have before := readable.marked held (changed.symm.trans unmarked)
      exact List.subset_nil.mp (before ▸ owed)
    · cases same
      exact readable.readable held (changed.symm.trans marked) (lastRead.symm.trans read)
  cases step with
  | quiet => exact readable
  | owe invoices changes held _ _ unread _ _ => exact { readable.owe held unread with }
  | begin held _ _ => exact quiet held (List.Subset.refl _) rfl rfl
  | commit invoices changes held _ unread _ => exact { readable.owe held unread with }
  | rollback held => exact quiet held (List.Subset.refl _) rfl rfl
  | @read due id held current =>
      have before : due.changed = false → due.owed = [] := readable.marked held
      refine readable.put (fun other same unmarked => ?_) fun other row same marked read => ?_
      · cases same
        exact before unmarked
      · cases same
        exact current.2 marked row read
  | @announce due row held _ =>
      have fewer : (due.announce row.id).owed ⊆ due.owed := List.filter_sublist.subset
      exact { quiet held fewer rfl rfl with }
  | deliver snapshot _ => exact { readable with }
  | delete snapshot _ _ => exact { readable with }
  | fail held _ => exact quiet held (List.Subset.refl _) rfl rfl
  | start job _ =>
      refine readable.put (fun other same _ => ?_) fun other row same _ read => ?_
      · cases same
        rfl
      · cases same
        cases read
  | leave _ => exact readable.put (fun _ same => by cases same) fun _ _ same => by cases same

end Readable

/-- **An operation that reports its errors marks every change of the invoices.** -/
theorem Step.unchanged (settled : d.Settled) (step : Step (careful C) t d d') {due due' : Due}
    (held : d.due t = some due) (held' : d'.due t = some due') (reports : due'.job.reports = true)
    (unmarked : due'.changed = false) :
    d'.invoices = d.invoices ∧ due.job = due'.job ∧ due.changed = false := by
  have own : ∀ {new}, (d.put t (some new)).due t = some due' → new = due' := by
    intro new found
    obtain ⟨_, same⟩ | ⟨unlike, _⟩ := due_put found
    · exact Option.some.inj same
    · exact absurd rfl unlike
  have keeps : ∀ {before new : Due}, d.due t = some before →
      (d.put t (some new)).due t = some due' → new.job = before.job → new.changed = before.changed →
      due.job = due'.job ∧ due.changed = false := by
    intro before new found found' job changed
    obtain rfl := own found'
    obtain rfl := Option.some.inj (held.symm.trans found)
    exact ⟨job.symm, changed ▸ unmarked⟩
  cases step with
  | quiet =>
      obtain rfl := Option.some.inj (held.symm.trans held')
      exact ⟨rfl, rfl, unmarked⟩
  | @owe before invoices changes found _ _ _ _ same =>
      obtain rfl := own held'
      obtain rfl := Option.some.inj (held.symm.trans found)
      change (due.changed || !changes.isEmpty) = false at unmarked
      rw [Bool.or_eq_false_iff] at unmarked
      exact ⟨same (by simpa using unmarked.2), rfl, unmarked.1⟩
  | begin found _ _ => exact ⟨rfl, keeps found held' rfl rfl⟩
  | @commit before invoices changes found busy _ _ =>
      obtain rfl := own held'
      change before.job.reports = true at reports
      rw [Job.reports_of_indexes (settled.busy found busy)] at reports
      cases reports
  | rollback found => exact ⟨rfl, keeps found held' rfl rfl⟩
  | read id found _ => exact ⟨rfl, keeps found held' rfl rfl⟩
  | announce row found _ => exact ⟨rfl, keeps found held' rfl rfl⟩
  | fail found _ => exact ⟨rfl, keeps found held' rfl rfl⟩
  | deliver snapshot _ =>
      obtain rfl := Option.some.inj (held.symm.trans held')
      exact ⟨rfl, rfl, unmarked⟩
  | delete snapshot _ _ =>
      obtain rfl := Option.some.inj (held.symm.trans held')
      exact ⟨rfl, rfl, unmarked⟩
  | start job free =>
      rw [free] at held
      cases held
  | leave _ =>
      obtain ⟨_, none⟩ | ⟨unlike, _⟩ := due_put held'
      · cases none
      · exact absurd rfl unlike

end Dues

/-! ## The dues of the service -/

variable [Libraries] {τ : Type}

/-- What the operations of the service owe. -/
def World.dues (w : World τ) : Dues τ where
  invoices := w.db.invoices
  changes := w.history.changes
  outbox := w.history.outbox
  rows := w.db.notifications
  delivered := w.history.delivered
  removed := w.history.removed
  due t := (w.threads t).map Thread.due

variable {w w' : World τ} {t : τ} {thread : Thread} {G : Dues.Guard τ}

omit [Libraries] in
theorem Thread.Fresh.idle (fresh : thread.Fresh) : thread.due.busy = false := by
  change thread.tx.isSome = false
  rw [fresh.tx]
  rfl

theorem World.due_of_thread (held : w.threads t = some thread) : w.dues.due t = some thread.due := by
  change (w.threads t).map Thread.due = _
  rw [held, Option.map_some]

/-- An `UPDATE` of the status hits each invoice at most once. -/
theorem World.closed_single {status : InvoiceStatus} {condition : InvoiceRow → Bool}
    {change other : Snapshot} (member : change ∈ w.closed status condition)
    (member' : other ∈ w.closed status condition) (same : change.id = other.id) : change = other := by
  obtain ⟨row, hit, rfl⟩ := List.mem_map.mp member
  obtain ⟨row', hit', rfl⟩ := List.mem_map.mp member'
  have found := Table.find_of_mem (List.mem_filter.mp hit).1
  have found' := Table.find_of_mem (List.mem_filter.mp hit').1
  change row.id = row'.id at same
  rw [same, found', Option.some.injEq] at found
  rw [found]

omit [Libraries] in
/-- A transaction makes each invoice paid at most once. -/
theorem Tx.changes_single {tx : Tx} {invoices : Table InvoiceRow.id} {change other : Snapshot}
    (member : change ∈ tx.changes invoices) (member' : other ∈ tx.changes invoices)
    (same : change.id = other.id) : change = other := by
  obtain ⟨id, _, rfl⟩ := List.mem_map.mp member
  obtain ⟨id', _, rfl⟩ := List.mem_map.mp member'
  change id = id' at same
  rw [same]

variable [DecidableEq τ]

namespace World

/-- The dues after a change of one thread. -/
theorem dues_of_threads {f : Thread → Thread} (held : w.threads t = some thread)
    (threads : w'.threads = (w.setThread t f).threads) :
    w'.dues = { w'.dues with due := Function.update w.dues.due t (some (f thread).due) } := by
  have due : w'.dues.due = Function.update w.dues.due t (some (f thread).due) := by
    funext u
    change (w'.threads u).map Thread.due = _
    rw [threads]
    by_cases same : u = t
    · subst same
      rw [threads_setThread, held, Option.map_some, Option.map_some, Function.update_self]
    · rw [threads_setThread_of_ne same, Function.update_of_ne same]
      rfl
  rw [← due]

theorem dues_setThread {f : Thread → Thread} (held : w.threads t = some thread) :
    (w.setThread t f).dues = w.dues.put t (some (f thread).due) :=
  dues_of_threads held rfl

/-- The dues when a thread starts or ends. -/
theorem dues_update (w : World τ) (t : τ) (opened : Option Thread) :
    World.dues { w with threads := Function.update w.threads t opened } =
      w.dues.put t (opened.map Thread.due) := by
  have due : (fun u => (Function.update w.threads t opened u).map Thread.due) =
      Function.update w.dues.due t (opened.map Thread.due) := by
    funext u
    by_cases same : u = t
    · subst same
      rw [Function.update_self, Function.update_self]
    · rw [Function.update_of_ne same, Function.update_of_ne same]
      rfl
  change Dues.mk _ _ _ _ _ _ (fun u => (Function.update w.threads t opened u).map Thread.due) = _
  rw [due]
  rfl

/-- An `UPDATE` of the status that hits no row leaves the table as it is. -/
theorem closeInvoices_of_none (t : τ) {status : InvoiceStatus} {time : Time} {condition : InvoiceRow → Bool}
    (none : w.closed status condition = []) :
    (w.closeInvoices t status time condition).db.invoices = w.db.invoices := by
  apply Table.ext_rows
  change w.db.invoices.rows.map (fun row => if condition row then row.close status time else row) = _
  conv_rhs => rw [← List.map_id w.db.invoices.rows]
  apply List.map_congr_left
  intro row member
  have misses : row ∉ w.db.invoices.rows.filter condition := by
    rw [List.map_eq_nil_iff.mp none]
    exact List.not_mem_nil
  rw [if_neg fun hits => misses (List.mem_filter.mpr ⟨member, hits⟩)]
  rfl

/-- Invoices are closed. -/
theorem closeInvoices_dues {status : InvoiceStatus} {time : Time} {condition : InvoiceRow → Bool}
    (held : w.threads t = some thread) (fresh : thread.Fresh) :
    Dues.Step G t w.dues (w.closeInvoices t status time condition).dues := by
  have threads : (w.closeInvoices t status time condition).threads =
      (w.setThread t (Thread.owe (w.closed status condition))).threads := rfl
  have same : w.closed status condition = [] →
      (w.closeInvoices t status time condition).db.invoices = w.db.invoices := closeInvoices_of_none t
  have step : Dues.Step G t w.dues _ := .owe _ (w.closed status condition) (due_of_thread held)
    fresh.owed fresh.idle fresh.lastRead (fun _ member _ member' => closed_single member member') same
  rw [dues_of_threads held threads]
  exact step

end World

variable [Fintype τ]

/-- **A statement called in its situation is a step of the dues**, when no transaction is
open on a thread that has read an invoice and the guard allows what is read, delivered and
removed. -/
theorem Stmt.run_dues {op : Stmt} {choice : Choice} {answer : Except Err op.Val}
    (held : w.threads t = some thread)
    (may : thread.may w.db.currencies w.history.delivered op)
    (unread : thread.tx.isSome = true → thread.lastRead = none)
    (reads : ∀ id, op = .selectInvoice id → G.reads w.dues thread.due id)
    (delivers : ∀ snapshot rest, thread.held = snapshot :: rest → G.delivers snapshot)
    (deletes : ∀ id snapshot rest, op = .deleteNotification id → thread.held = snapshot :: rest →
      snapshot.id = id → G.deletes w.dues snapshot)
    (runs : op.run choice t w = some (answer, w')) : Dues.Step G t w.dues w'.dues := by
  have due := World.due_of_thread held
  have same : ∀ {w' : World τ}, w = w' → Dues.Step G t w.dues w'.dues := fun same => same ▸ .quiet
  have quiet : ∀ {f : Thread → Thread}, (f thread).due = thread.due →
      Dues.Step G t w.dues (w.setThread t f).dues := by
    intro f keeps
    rw [World.dues_setThread held, keeps, ← due, Dues.put, Function.update_eq_self]
    exact .quiet
  have inside : ∀ {tx tx' : Tx}, w.tx t = some tx → Dues.Step G t w.dues (w.setTx t tx').dues := by
    intro tx tx' opened
    refine quiet (f := fun thread => { thread with tx := some tx' }) ?_
    rw [World.tx_eq held] at opened
    unfold Thread.due
    rw [opened]
    rfl
  cases op with
  | insertInvoice row =>
      obtain ⟨_, invoices, _, _, _, rfl⟩ | ⟨_, rfl⟩ := run_insertInvoice runs
      · have threads : (w.create t row invoices).threads =
            (w.setThread t (Thread.owe [row.snapshot])).threads := rfl
        rw [World.dues_of_threads held threads]
        refine .owe invoices [row.snapshot] due may.1.owed may.1.idle may.1.lastRead ?_
          fun none => by cases none
        intro change member other member' _
        rw [List.mem_singleton.mp member, List.mem_singleton.mp member']
      · exact .quiet
  | insertNotification row =>
      obtain ⟨_, _, _, rfl⟩ | ⟨_, _, rfl⟩ := run_insertNotification runs
      · have threads : (w.announce t row).threads = (w.setThread t (Thread.announce row.id)).threads :=
          rfl
        have version : (w.threads t).elim 0 (fun thread => thread.owedVersion row.id) =
            thread.due.owedVersion row.id := by
          rw [held]
          rfl
        have step : Dues.Step G t w.dues _ := .announce row due may.2
        rw [World.dues_of_threads held threads]
        rw [← version] at step
        exact step
      · exact .quiet
  | cancelInvoice time id =>
      obtain ⟨_, _, rfl⟩ := run_cancelInvoice runs
      exact World.closeInvoices_dues held may.1
  | markExpired time =>
      obtain ⟨_, _, rfl⟩ := run_markExpired runs
      exact World.closeInvoices_dues held may.1
  | begin call =>
      cases runs
      rw [World.dues_setThread held]
      refine .begin due ?_ may.2.2.1
      change thread.job.indexes = true
      obtain job | ⟨_, _, _, _, _, job, _⟩ := may.2.2.2.2 <;> rw [job] <;> rfl
  | commit =>
      obtain ⟨tx, opened, _, rfl⟩ := run_commit runs
      have busy : thread.tx.isSome = true := by
        rw [← World.tx_eq held, opened]
        rfl
      have threads : (w.commit t tx).threads = (w.setThread t (Thread.close
          (tx.changes (w.db.invoices.view tx.invoices)) tx.credits)).threads := rfl
      rw [World.dues_of_threads held threads]
      exact .commit _ (tx.changes (w.db.invoices.view tx.invoices)) due busy (unread busy)
        fun _ member _ member' => Tx.changes_single member member'
  | rollback =>
      cases runs
      rw [World.dues_setThread held]
      exact .rollback due
  | selectInvoice id =>
      cases runs
      rw [World.dues_setThread held]
      exact .read id due (reads id rfl)
  | deleteNotification id =>
      cases runs
      obtain ⟨snapshot, rest, holds, rfl, sent⟩ := may
      have threads : (w.deleteNotification t snapshot.id).threads =
          (w.setThread t fun thread => { thread with held := thread.held.tail }).threads := rfl
      have kept : Function.update w.dues.due t (some thread.due) = w.dues.due := by
        rw [← due, Function.update_eq_self]
      have step : Dues.Step G t w.dues _ :=
        .delete snapshot sent (deletes _ snapshot rest rfl holds rfl)
      rw [World.dues_of_threads held threads]
      change Dues.Step G t w.dues { (w.deleteNotification t snapshot.id).dues with
        due := Function.update w.dues.due t (some thread.due) }
      rw [kept]
      exact step
  | selectForPayment currency payment time =>
      obtain ⟨tx, opened, _, rfl⟩ := run_selectForPayment runs
      exact inside opened
  | acceptKey address =>
      obtain ⟨tx, opened, _, _, rfl⟩ := run_acceptKey runs
      exact inside opened
  | setOverpayment overpayment time id =>
      obtain ⟨tx, opened, _, _, rfl⟩ := run_setOverpayment runs
      exact inside opened
  | setPaid time paidBy overpayment txHash id =>
      obtain ⟨tx, opened, _, _, rfl⟩ := run_setPaid runs
      exact inside opened
  | setProcessingError error account lt =>
      obtain ⟨tx, opened, _, rfl⟩ := run_setProcessingError runs
      exact inside opened
  | setLastProcessed lt account =>
      obtain ⟨tx, opened, _, _, rfl⟩ := run_setLastProcessed runs
      exact inside opened
  | selectNotifications limit =>
      obtain ⟨_, _, _, _, rfl⟩ := run_selectNotifications runs
      exact quiet rfl
  | send invoice printable =>
      simp only [run] at runs
      split at runs <;> cases runs
      · obtain ⟨rest, first⟩ := may
        exact .deliver _ (delivers _ rest first)
      · exact quiet rfl
  | deleteExpiredKeys before =>
      obtain ⟨_, rfl⟩ := run_deleteExpiredKeys runs
      exact .quiet
  | updateAccount last block time account =>
      obtain ⟨_, _, rfl⟩ := run_updateAccount runs
      exact .quiet
  | insertKey address key time =>
      cases runs
      split <;> exact .quiet
  | insertTransaction row =>
      cases runs
      split <;> exact .quiet
  | selectGaps account => exact same (run_selectGaps runs).1.symm
  | skip invoice => cases runs; exact quiet rfl
  | selectLastProcessed account => cases runs; exact quiet rfl
  | selectTransactionByParent account lt => cases runs; exact quiet rfl
  | getTransactions account lt hash => cases runs; exact quiet rfl
  | setLastLt lt => cases runs; exact quiet rfl
  | now => exact same (congrArg Prod.snd (Option.some.inj runs))
  | selectCurrencyID type info => exact same (congrArg Prod.snd (Option.some.inj runs))
  | selectCurrency id => exact same (congrArg Prod.snd (Option.some.inj runs))
  | selectKey address => exact same (congrArg Prod.snd (Option.some.inj runs))
  | selectLtBelow account lt => exact same (congrArg Prod.snd (Option.some.inj runs))
  | selectLastLt account => exact same (congrArg Prod.snd (Option.some.inj runs))
  | getAccountState account => exact same (congrArg Prod.snd (Option.some.inj runs))
  | getLastLt => exact same (congrArg Prod.snd (Option.some.inj runs))

end SpiceHarvester
