import SpiceHarvester.Protocol.Payments

/-!
# The operations on invoices keep the discipline

`CreateInvoice`, `CancelInvoice` and `MarkExpired` change the table of invoices in
one statement and write the outbox rows of the change in later ones. Between
them the thread owes the rows that remain (`Owing`). Where it stops with an
error, only what the end of a job needs is left (`Broken`).
-/

set_option autoImplicit false

namespace SpiceHarvester

open Interleaving Sql

/-! ## Situations -/

/-- The thread runs a job and has not called a statement yet. -/
structure Starting (job : Job) (thread : Thread) : Prop where
  job : thread.job = job
  fresh : thread.Fresh

section Situations

variable [Libraries] {τ : Type}

/-- The operation has stopped with an error. -/
structure Broken (job : Job) (thread : Thread) (w : World τ) : Prop where
  job : thread.job = job
  clear : thread.Legible w.db.currencies → thread.Clear
  unchanged : thread.Legible w.db.currencies → thread.job.reports = true →
    thread.changed = false ∨ thread.failed = true

/-- The thread owes outbox rows of the invoices `rest`, which are stored. -/
structure Owing (job : Job) (rest : List InvoiceID) (thread : Thread) (w : World τ) : Prop where
  job : thread.job = job
  tx : thread.tx = none
  owed : thread.failed = true ∨ ∀ change ∈ thread.owed, change.id ∈ rest
  stored : ∀ id ∈ rest, (w.db.invoices.find id).isSome

/-- `CreateInvoice` has stored its invoice and owes the outbox row. -/
structure Created (invoice : Invoice) (thread : Thread) (w : World τ) : Prop where
  job : thread.job = .createInvoice invoice
  tx : thread.tx = none
  owed : ∀ change ∈ thread.owed, change.id = invoice.id ∧ change.status = invoice.status
  tracked : (w.db.currencies.of invoice.currency).isSome

/-- The cancellation of an invoice has been committed. -/
def HasCancelled (id : InvoiceID) (w : World τ) : Prop :=
  ∃ version, ⟨id, .cancelled, version⟩ ∈ w.history.changes

/-- What the `UPDATE` of `CancelInvoice` answers: how many rows it has hit. -/
def Cancelling (id : InvoiceID) : Except Err ℕ → Thread → World τ → Prop
  | .ok 0, thread, w => Broken (.cancelInvoice id) thread w
  | .ok (_ + 1), thread, w => HasCancelled id w ∧ Owing (.cancelInvoice id) [id] thread w
  | .error _, thread, w => Broken (.cancelInvoice id) thread w

theorem lasting_broken (job : Job) : Lasting (Broken job : Thread → World τ → Prop) :=
  fun _ _ _ grows holds => {
    job := holds.job
    clear := grows.currencies ▸ holds.clear
    unchanged := grows.currencies ▸ holds.unchanged }

theorem lasting_owing (job : Job) (rest : List InvoiceID) :
    Lasting (Owing job rest : Thread → World τ → Prop) :=
  fun _ _ _ grows holds => { holds with
    stored := by
      intro id member
      obtain ⟨row, found⟩ := Option.isSome_iff_exists.mp (holds.stored id member)
      obtain ⟨row', found', _⟩ := grows.invoices found
      rw [found']
      rfl }

theorem lasting_created (invoice : Invoice) :
    Lasting (Created invoice : Thread → World τ → Prop) :=
  fun _ _ _ grows holds => { holds with tracked := grows.currencies ▸ holds.tracked }

theorem lasting_hasCancelled (id : InvoiceID) :
    Lasting fun (_ : Thread) (w : World τ) => HasCancelled id w :=
  fun _ _ _ grows ⟨version, member⟩ => ⟨version, grows.changes member⟩

theorem lasting_cancelling (id : InvoiceID) (answer : Except Err ℕ) :
    Lasting (Cancelling (τ := τ) id answer) := by
  rcases answer with error | _ | count
  · exact lasting_broken _
  · exact lasting_broken _
  · exact (lasting_hasCancelled id).and (lasting_owing _ _)

section

variable {job : Job} {rest : List InvoiceID} {thread : Thread} {w : World τ}

/-- A failed statement breaks any operation off. -/
theorem Broken.of_fail (same : thread.job = job) : Broken job thread.fail w where
  job := same
  clear := fun _ => thread.clear_fail
  unchanged := by
    intro _ reports
    change thread.job.reports = true at reports
    change thread.changed = false ∨
      (thread.failed || !thread.owed.isEmpty || thread.changed && thread.job.reports) = true
    rw [reports, Bool.and_true]
    cases thread.changed with
    | false => exact .inl rfl
    | true => exact .inr (Bool.or_true _)

/-- An operation that has changed nothing may stop. -/
theorem Starting.broken (starting : Starting job thread) : Broken job thread w where
  job := starting.job
  clear := fun _ => .inl starting.fresh.owed
  unchanged := fun _ _ => .inl starting.fresh.changed

/-- Where the currency of an invoice cannot be read back, nothing is promised. -/
theorem Broken.of_illegible {row : InvoiceRow} (same : thread.job = job)
    (illegible : ¬ w.db.currencies.Legible row.currency) :
    Broken job (thread.read (some row)) w where
  job := same
  clear := fun legible => absurd (legible row rfl) illegible
  unchanged := fun legible => absurd (legible row rfl) illegible

theorem Owing.clear (owing : Owing job [] thread w) : thread.Clear := by
  obtain failed | owed := owing.owed
  · exact .inr failed
  · exact .inl (List.eq_nil_iff_forall_not_mem.mpr fun change member =>
      absurd (owed change member) List.not_mem_nil)

theorem Owing.announce {id : InvoiceID} (owing : Owing job (id :: rest) thread w) :
    Owing job rest (thread.announce id) w where
  job := owing.job
  tx := owing.tx
  owed := by
    refine owing.owed.imp (fun failed => failed) fun owed change member => ?_
    rw [Thread.announce, List.mem_filter, Bool.not_eq_true', decide_eq_false_iff_not] at member
    exact (List.mem_cons.mp (owed change member.1)).resolve_left member.2
  stored := fun other member => owing.stored other (List.mem_cons_of_mem _ member)

end

variable [DecidableEq τ]

/-- What an `UPDATE` of the status leaves a thread that has just started. -/
theorem Starting.owing {t : τ} {job : Job} {thread : Thread} {w : World τ} {status : InvoiceStatus}
    {time : Time} {condition : InvoiceRow → Bool} (starting : Starting job thread) {ids : List InvoiceID}
    (same : ∀ id, id ∈ ids ↔ id ∈ (w.closed status condition).map Snapshot.id) :
    Owing job ids (thread.owe (w.closed status condition))
      (w.closeInvoices t status time condition) where
  job := starting.job
  tx := starting.fresh.tx
  owed := by
    refine .inr fun change member => ?_
    change change ∈ thread.owed ++ _ at member
    rw [starting.fresh.owed, List.nil_append] at member
    exact (same change.id).mpr (List.mem_map_of_mem member)
  stored := by
    intro id member
    obtain ⟨change, among, rfl⟩ := List.mem_map.mp ((same id).mp member)
    obtain ⟨row, hit, rfl⟩ := List.mem_map.mp among
    have found := Table.find_of_mem (List.mem_filter.mp hit).1
    rw [World.find_closeInvoices, found]
    rfl

end Situations

variable [Libraries] {τ : Type} [DecidableEq τ] [Fintype τ]
  {printing : Printing} {rules : Rules τ} {t : τ}

/-! ## The outbox row of a changed invoice -/

theorem getInvoice_owing_keeps {job : Job} {id : InvoiceID} {rest : List InvoiceID} :
    Keeps printing rules t (Owing (τ := τ) job (id :: rest)) (getInvoice id)
      (Ends (HasGot (Owing job (id :: rest)) id) (Broken job)) := by
  refine getInvoice_keeps (lasting_owing _ _) (lasting_broken _) (fun holds => .of_fail holds.job)
    (fun row holds => .of_fail holds.job) (fun holds => .of_fail holds.job) ?_ ?_
  · intro thread w owing none
    have stored := owing.stored id List.mem_cons_self
    rw [none] at stored
    cases stored
  · exact fun row owing illegible => .of_illegible owing.job illegible

theorem saveInvoice_owing_keeps {job : Job} {id : InvoiceID} {rest : List InvoiceID}
    {invoice : Invoice} :
    Keeps printing rules t (HasGot (Owing (τ := τ) job (id :: rest)) id invoice)
      (saveInvoice invoice true) (Ends (fun _ => Owing job rest) (Broken job)) := by
  refine saveInvoice_keeps (lasting_hasGot (lasting_owing _ _) _ _) (lasting_owing _ _)
    (lasting_broken _) ?_ (fun holds => .of_fail holds.job) (fun holds => .of_fail holds.job) ?_ ?_ ?_
  · rintro thread w ⟨row, currency, _, _, _, _, before, owing, rfl⟩
    exact .of_fail owing.job
  · rintro thread w ⟨row, currency, rfl, tracked, _⟩
    exact tracked
  · rintro thread w ⟨row, currency, rfl, _, _, same, before, owing, rfl⟩
    exact ⟨owing.tx, fun currencyID change _ _ => .inr (.inr ⟨row, rfl, rfl, rfl⟩)⟩
  · rintro thread w ⟨row, currency, rfl, _, _, rfl, before, owing, rfl⟩
    have owing' : Owing job (row.id :: rest) (before.read (some row)) w := { owing with }
    exact owing'.announce

/-! ## `CreateInvoice` -/

theorem insertInvoice_keeps {invoice : Invoice} :
    Keeps printing rules t (fun thread (_ : World τ) => Starting (.createInvoice invoice) thread)
      (saveInvoice invoice false)
      (Ends (fun _ => Created invoice) (Broken (.createInvoice invoice))) := by
  refine .bind (getCurrencyID_keeps (E := Broken (.createInvoice invoice)) (lasting_const _)
    (lasting_broken _) (fun holds => .of_fail holds.job) (fun holds => .of_fail holds.job)
    invoice.currency) (fun currencyID => ?_) ?_
  · refine .perform (lasting_answers (lasting_const _) (lasting_broken _) _ _)
      (fun _ => lasting_ends (fun _ => lasting_created invoice) (lasting_broken _) _) ?_ ?_
      (fun _ {_ _} holds => .of_fail holds.2.job) ?_
    · rintro thread w _ ⟨_, starting⟩
      exact ⟨starting.fresh, invoice, currencyID, starting.job, rfl⟩
    · rintro thread w choice answer w' sane held ⟨found, starting⟩ runs
      obtain ⟨_, _, _, _, rfl, rfl⟩ | ⟨rfl, rfl⟩ := Stmt.run_insertInvoice runs
      · refine ⟨thread.owe [(invoice.row currencyID).snapshot],
          (World.threads_setThread _ _ _).trans (by rw [held]; rfl), ?_⟩
        exact {
          job := starting.job
          tx := starting.fresh.tx
          owed := by
            intro change member
            change change ∈ thread.owed ++ _ at member
            rw [starting.fresh.owed, List.nil_append, List.mem_singleton] at member
            subst member
            exact ⟨rfl, rfl⟩
          tracked := Option.isSome_iff_exists.mpr ⟨currencyID, found⟩ }
      · exact ⟨thread, held, starting.broken⟩
    · rintro _ (error | _) thread w holds
      · exact .of_fail holds.job
      · exact .of_fail holds.job
  · rintro (_ | _ | _ | _) thread w holds
    · exact holds.2.broken
    · cases holds
    · exact holds
    · cases holds

theorem createInvoice_keeps {invoice : Invoice} :
    Keeps printing rules t (fun thread (_ : World τ) => Starting (.createInvoice invoice) thread)
      (createInvoice invoice)
      (Ends (fun _ => Owing (.createInvoice invoice) []) (Broken (.createInvoice invoice))) := by
  refine .bind insertInvoice_keeps (fun _ => ?_) fun holds => holds
  refine saveInvoice_keeps (lasting_created _) (lasting_owing _ _) (lasting_broken _)
    (fun holds => .of_fail holds.job) (fun holds => .of_fail holds.job)
    (fun holds => .of_fail holds.job) (fun holds => holds.tracked) ?_ ?_
  · intro thread w created
    exact ⟨created.tx, fun currencyID change member _ =>
      .inr (.inl (created.owed change member).2.symm)⟩
  · intro thread w created
    exact {
      job := created.job
      tx := created.tx
      owed := by
        refine .inr fun change member => ?_
        rw [Thread.announce, List.mem_filter, Bool.not_eq_true', decide_eq_false_iff_not] at member
        exact absurd (created.owed change member.1).1 member.2
      stored := fun id member => absurd member List.not_mem_nil }

/-! ## `CancelInvoice` -/

theorem updateCancelled_keeps {id : InvoiceID} {time : Time} :
    Keeps printing rules t (fun thread (_ : World τ) => Starting (.cancelInvoice id) thread)
      (perform (.cancelInvoice time id)) (Cancelling id) := by
  refine .perform (lasting_const _) (lasting_cancelling id) ?_ ?_
    (fun _ {_ _} holds => Broken.of_fail holds.job) ?_
  · exact fun _ starting => ⟨starting.fresh, starting.job⟩
  · rintro thread w choice answer w' sane held starting runs
    obtain ⟨_, rfl, rfl⟩ := Stmt.run_cancelInvoice runs
    refine ⟨thread.owe (w.closed .cancelled (cancellable time id)),
      (World.threads_setThread _ _ _).trans (by rw [held]; rfl), ?_⟩
    have hit : ∀ change ∈ w.closed .cancelled (cancellable time id),
        change.id = id ∧ change.status = .cancelled := by
      intro change member
      obtain ⟨row, among, rfl⟩ := List.mem_map.mp member
      have holds := (List.mem_filter.mp among).2
      simp only [cancellable, Bool.and_eq_true, decide_eq_true_eq] at holds
      exact ⟨holds.1.1, rfl⟩
    cases changes : w.closed .cancelled (cancellable time id) with
    | nil =>
        have unchanged : thread.owe [] = thread := by
          simp only [Thread.owe, List.append_nil, List.isEmpty_nil, Bool.not_true, Bool.or_false]
        rw [unchanged]
        exact starting.broken
    | cons change others =>
        obtain ⟨same, cancelled⟩ := hit change (changes ▸ List.mem_cons_self)
        refine ⟨⟨change.version, ?_⟩, ?_⟩
        · refine List.mem_append_right _ ?_
          rw [changes, ← same, ← cancelled]
          exact List.mem_cons_self
        · rw [← changes]
          refine starting.owing fun other => ?_
          rw [List.mem_singleton, List.mem_map]
          constructor
          · rintro rfl
            exact ⟨change, changes ▸ List.mem_cons_self, same⟩
          · rintro ⟨found, among, rfl⟩
            exact (hit found among).1
  · rintro _ (error | _ | count) thread w holds
    · exact Broken.of_fail holds.job
    · exact Broken.of_fail holds.job
    · exact Broken.of_fail holds.2.job

theorem cancelInvoice_keeps {id : InvoiceID} :
    Keeps printing rules t (fun thread (_ : World τ) => Starting (.cancelInvoice id) thread)
      (cancelInvoice id)
      (Ends (fun _ thread w => HasCancelled id w ∧ Owing (.cancelInvoice id) [] thread w)
        (Broken (.cancelInvoice id))) := by
  refine .bind (now_keeps (lasting_const _)) (fun now => ?_) fun ⟨⟨_, failed⟩, _⟩ => by cases failed
  refine .bind (.strengthen updateCancelled_keeps fun _ holds => holds.2) (fun affected => ?_)
    fun holds => holds
  cases affected with
  | zero => exact Keeps.ret (lasting_broken _) fun _ holds => holds
  | succ count =>
      rw [if_neg (Nat.succ_ne_zero count)]
      refine .bind (.frame getInvoice_owing_keeps (lasting_hasCancelled id)) (fun invoice => ?_)
        fun holds => holds.2
      refine .bind (.frame saveInvoice_owing_keeps (lasting_hasCancelled id)) (fun _ => ?_)
        fun holds => holds.2
      exact Keeps.ret ((lasting_hasCancelled id).and (lasting_owing _ _)) fun _ holds => holds

/-! ## `MarkExpired` -/

theorem updateExpired_keeps {time : Time} :
    Keeps printing rules t (fun thread (_ : World τ) => Starting .markExpired thread)
      (perform (.markExpired time)) (Ends (Owing .markExpired) (Broken .markExpired)) := by
  refine .perform (lasting_const _)
    (fun _ => lasting_ends (fun ids => lasting_owing _ ids) (lasting_broken _) _) ?_ ?_
    (fun _ {_ _} holds => Broken.of_fail holds.job) ?_
  · exact fun _ starting => ⟨starting.fresh, starting.job⟩
  · rintro thread w choice answer w' sane held starting runs
    obtain ⟨_, ⟨ids, rfl, perm⟩, rfl⟩ := Stmt.run_markExpired runs
    exact ⟨thread.owe (w.closed .expired (expirable time)),
      (World.threads_setThread _ _ _).trans (by rw [held]; rfl),
      starting.owing fun id => perm.mem_iff⟩
  · rintro _ (error | ids) thread w holds
    · exact Broken.of_fail holds.job
    · exact Broken.of_fail holds.job

theorem notifyExpired_keeps {id : InvoiceID} {rest : List InvoiceID} :
    Keeps printing rules t (Owing (τ := τ) .markExpired (id :: rest)) (notifyExpired id)
      (Ends (fun _ => Owing .markExpired rest) (Broken .markExpired)) :=
  .bind getInvoice_owing_keeps (fun _ => saveInvoice_owing_keeps) fun holds => holds

theorem markExpired_keeps :
    Keeps printing rules t (fun thread (_ : World τ) => Starting .markExpired thread) markExpired
      (Ends (fun _ => Owing .markExpired []) (Broken .markExpired)) := by
  refine .bind (now_keeps (lasting_const _)) (fun now => ?_) fun ⟨⟨_, failed⟩, _⟩ => by cases failed
  refine .bind (.strengthen updateExpired_keeps fun _ holds => holds.2) (fun ids => ?_)
    fun holds => holds
  exact .forM (P := Owing .markExpired) (lasting_owing _ []) (fun _ _ => notifyExpired_keeps) ids

end SpiceHarvester
