import SpiceHarvester.Indexer.Calls
import SpiceHarvester.Interleaving.Observed
import SpiceHarvester.Interleaving.Triple
import SpiceHarvester.Notifier.Progress
import SpiceHarvester.Notifier.SendOrder

/-!
# Which state of an invoice is sent

A row of the outbox holds the invoice as it was when its status had changed. The notifier
selects only the IDs of the rows, reads the invoices of these IDs again, and sends what it
has read. An observer keeps, for each notifier, which rows of its batch it has read the
invoice of and what it has read, so that each `Send` is on behalf of a row
(`watches`).

Every `Send` is on behalf of a row of its invoice, and it presents the state in which the
invoice was read. So it presents the state of the row exactly if the invoice had it when
it was read (`sends_recorded`).
-/

set_option autoImplicit false

namespace SpiceHarvester

open Interleaving Sql

/-! ## Watching the notifier -/

/-- The rows of a batch: those whose invoice is still to be read, and those whose invoice
has been read and is still to be sent. -/
structure Desk where
  unread : List Notification
  ready : List (Notification × InvoiceRow)

/-- A call of `Send`, with the row it is made for and the invoice as it was read for it. -/
structure SendCall where
  behalf : Option (Notification × InvoiceRow)
  invoice : Invoice
  printable : PrivateInvoicePrintable

/-- What is known of the notifiers, and the calls of `Send`. -/
structure Watch (τ : Type) where
  desk : τ → Desk
  sends : List SendCall

namespace Desk

def empty : Desk := ⟨[], []⟩

/-- The invoice of the next row has been read. -/
def read (row : InvoiceRow) (desk : Desk) : Desk :=
  match desk.unread with
  | [] => desk
  | entry :: rest => ⟨rest, desk.ready ++ [(entry, row)]⟩

/-- The next invoice has been sent or skipped. -/
def done (desk : Desk) : Desk := { desk with ready := desk.ready.tail }

end Desk

namespace Watch

variable {τ : Type}

def start : Watch τ := ⟨fun _ => .empty, []⟩

variable [DecidableEq τ]

def put (watch : Watch τ) (t : τ) (desk : Desk) : Watch τ :=
  { watch with desk := Function.update watch.desk t desk }

@[simp] theorem desk_put (watch : Watch τ) (t : τ) (desk : Desk) : (watch.put t desk).desk t = desk :=
  Function.update_self ..

theorem desk_put_of_ne {watch : Watch τ} {t u : τ} {desk : Desk} (other : u ≠ t) :
    (watch.put t desk).desk u = watch.desk u := Function.update_of_ne other ..

@[simp] theorem sends_put (watch : Watch τ) (t : τ) (desk : Desk) :
    (watch.put t desk).sends = watch.sends := rfl

/-- The next invoice of the thread has been handed to `Send`. -/
def sent (watch : Watch τ) (t : τ) (invoice : Invoice) (printable : PrivateInvoicePrintable) :
    Watch τ :=
  { watch.put t (watch.desk t).done with
    sends := watch.sends ++ [⟨(watch.desk t).ready.head?, invoice, printable⟩] }

end Watch

/-- The body says the status that is stored in the row. -/
def SendCall.Recorded (call : SendCall) : Prop :=
  ∃ entry row, call.behalf = some (entry, row) ∧
    call.printable.public'.status = entry.row.status.text

section Runs

variable [Libraries] {τ : Type} [DecidableEq τ]

/-- What is seen of a statement. -/
def watches (t : τ) : (op : Stmt) → World τ → Except Err op.Val → Watch τ → Watch τ → Prop
  | .selectNotifications limit, w, .ok ids, m, m' => ∃ batch, w.db.Batch batch ∧
      ids = (batch.take limit).map (fun entry => entry.row.id) ∧ m' = m.put t ⟨batch.take limit, []⟩
  | .selectInvoice _, _, .ok row, m, m' => m' = m.put t ((m.desk t).read row)
  | .send invoice printable, _, _, m, m' => m' = m.sent t invoice printable
  | .skip _, _, _, m, m' => m' = m.put t (m.desk t).done
  | _, _, _, m, m' => m' = m

/-- The observer of the notifiers. -/
def watcher : Observer τ Stmt Stmt.Val Err (World τ) (Watch τ) where
  begins t m := m.put t .empty
  sees := watches

/-- When the invoice of a row is read, it has the status that is stored in the row. -/
def Unchanged (t : τ) (op : Stmt) (s : World τ × Watch τ) : Prop :=
  ∀ id, op = .selectInvoice id → ∀ entry rest, (s.2.desk t).unread = entry :: rest →
    ∀ row, s.1.db.invoices.find id = some row → row.status = entry.row.status

variable [Fintype τ]

/-- The service with the observer of its notifiers. -/
abbrev watched (printing : Printing) (rules : Rules τ) :
    System τ Stmt Stmt.Val Err (Option Invoice) (World τ × Watch τ) :=
  (system printing rules).observed watcher

variable {printing : Printing} {rules : Rules τ} {t u : τ} {op : Stmt} {w w' : World τ}
  {answer : Except Err op.Val} {m m' : Watch τ}

/-! ## What is seen of a statement -/

omit [Fintype τ] in
/-- A thread is seen only by its own statements. -/
theorem watches_others (sees : watches t op w answer m m') (other : u ≠ t) :
    m'.desk u = m.desk u := by
  unfold watches at sees
  split at sees
  · obtain ⟨_, _, _, rfl⟩ := sees
    exact Watch.desk_put_of_ne other
  · subst sees
    exact Watch.desk_put_of_ne other
  · subst sees
    exact Watch.desk_put_of_ne other
  · subst sees
    exact Watch.desk_put_of_ne other
  · subst sees
    rfl

omit [Fintype τ] in
/-- Only a `Send` adds to the calls of `Send`. -/
theorem watches_sends (sees : watches t op w answer m m') :
    m'.sends = m.sends ∨ ∃ invoice printable, op = .send invoice printable ∧
      m'.sends = m.sends ++ [⟨(m.desk t).ready.head?, invoice, printable⟩] := by
  unfold watches at sees
  split at sees
  · obtain ⟨_, _, _, rfl⟩ := sees
    exact .inl rfl
  · subst sees
    exact .inl rfl
  · subst sees
    exact .inr ⟨_, _, rfl, rfl⟩
  · subst sees
    exact .inl rfl
  · subst sees
    exact .inl rfl

/-- The observer can follow every statement. -/
theorem watches_total (m : Watch τ) (runs : (system printing rules).exec t op w answer w') :
    ∃ m', watches t op w answer m m' := by
  cases op with
  | selectNotifications limit =>
      cases answer with
      | error error => exact ⟨m, rfl⟩
      | ok ids =>
          obtain ⟨fault, choice, _, ran⟩ := runs
          rcases Stmt.runUnder_cases ran with ⟨_, done⟩ | ⟨_, _, impossible, _⟩ | ⟨_, _, impossible, _⟩
          · obtain ⟨batch, perm, sorted, same, _⟩ := Stmt.run_selectNotifications done
            cases same
            exact ⟨_, batch, ⟨perm, sorted⟩, rfl, rfl⟩
          · cases impossible
          · cases impossible
  | selectInvoice id => cases answer <;> exact ⟨_, rfl⟩
  | _ => exact ⟨_, rfl⟩

/-- **Every run of the service is watched.** -/
theorem run_watched {db : Database} {c : Running τ} (run : Runs printing rules db c) :
    ∃ watch, (watched printing rules).Reachable (.idle (.idle db, .start)) ⟨(c.state, watch), c.pool⟩ :=
  System.observed_of_reachable (fun m runs => watches_total m runs) .start run

/-- The row that is read is the one that is stored. -/
theorem stored_of_selectInvoice {id : InvoiceID} {row : InvoiceRow}
    (runs : (system printing rules).exec t (.selectInvoice id) w (.ok row) w') :
    w.db.invoices.find id = some row := by
  obtain ⟨fault, choice, _, ran⟩ := runs
  rcases Stmt.runUnder_cases ran with ⟨_, done⟩ | ⟨_, _, impossible, _⟩ | ⟨_, _, impossible, _⟩
  · simp only [Stmt.run, Option.some.injEq, Prod.mk.injEq] at done
    cases found : w.db.invoices.find id with
    | none =>
        rw [found] at done
        cases done.1
    | some stored =>
        rw [found] at done
        cases done.1
        rfl
  · cases impossible
  · cases impossible

/-! ## Every `Send` is on behalf of a row -/

/-- The invoice is the one of the row, as it was read for it. -/
structure ReadFor (pair : Notification × InvoiceRow) (invoice : Invoice) : Prop where
  own : pair.2.id = pair.1.row.id
  id : invoice.id = pair.2.id
  status : invoice.status = pair.2.status

/-- The `Send` is on behalf of a row of its invoice, and says the status that was read. -/
def SendCall.OnBehalf (call : SendCall) : Prop :=
  ∃ pair, call.behalf = some pair ∧ ReadFor pair call.invoice ∧
    call.printable.public'.status = pair.2.status.text

/-- No other thread touches the rows of a notifier, and each `Send` that is called is on
behalf of the first of them whose invoice has been read. -/
def snapshots (printing : Printing) (rules : Rules τ) : Contract (watched printing rules) where
  rely t s s' := s'.2.desk t = s.2.desk t
  inv s := ∀ call ∈ s.2.sends, call.OnBehalf
  pre t op s := ∀ invoice printable, op = .send invoice printable →
    SendCall.OnBehalf ⟨(s.2.desk t).ready.head?, invoice, printable⟩
  post _ _ _ := True

theorem snapshots_closed : (snapshots printing rules).Closed where
  rely_refl _ _ := rfl
  rely_trans first later := later.trans first

/-- What is said of the rows of a thread is stable. -/
theorem snapshots_stable (P : Desk → Prop) :
    (snapshots printing rules).Stable t fun s => P (s.2.desk t) := by
  intro s s' others holds
  rw [others]
  exact holds

omit [Libraries] in
/-- The statement is not a `Send`. -/
def Stmt.sends : Stmt → Bool
  | .send .. => true
  | _ => false

theorem pre_of_not_sends {s : World τ × Watch τ} (quiet : op.sends = false) :
    (snapshots printing rules).pre t op s := by
  rintro invoice printable rfl
  cases quiet

/-- A program without a `Send` keeps the contract. -/
theorem silent_triple {α : Type} {program : Action α} (calls : program.Calls fun op => op.sends = false) :
    (snapshots printing rules).Triple t (fun _ => True) program fun _ _ => True :=
  .of_calls calls (fun _ _ _ _ => trivial) (fun quiet _ _ => pre_of_not_sends quiet)
    fun _ _ _ _ => trivial

/-! ## Reading the batch -/

theorem getInvoice_triple (entry : Notification) (unread : List Notification)
    (ready : List (Notification × InvoiceRow)) :
    (snapshots printing rules).Triple t (fun s => s.2.desk t = ⟨entry :: unread, ready⟩)
      (getInvoice entry.row.id) fun result s => ∀ invoice, result = .ok invoice →
        ∃ row, s.2.desk t = ⟨unread, ready ++ [(entry, row)]⟩ ∧ ReadFor (entry, row) invoice := by
  have row : (snapshots printing rules).Triple t (fun s => s.2.desk t = ⟨entry :: unread, ready⟩)
      (queryRow (.selectInvoice entry.row.id)) fun result s => ∀ row, result = .ok row →
        s.2.desk t = ⟨unread, ready ++ [(entry, row)]⟩ ∧ row.id = entry.row.id := by
    rintro s _ holds s' others _
    refine ⟨pre_of_not_sends rfl, fun answer s'' answers => ?_⟩
    obtain ⟨runs, sees⟩ := answers
    have before : s'.2.desk t = ⟨entry :: unread, ready⟩ := others.trans holds
    cases answer with
    | error error =>
        rintro s₃ _ _ row same
        cases error <;> cases same
    | ok row =>
        have own := Table.key_of_find (stored_of_selectInvoice runs)
        rintro s₃ later _ _ same
        cases same
        refine ⟨?_, own⟩
        rw [show s₃.2.desk t = s''.2.desk t from later, show s''.2 = _ from sees, Watch.desk_put,
          before]
        rfl
  refine .bind snapshots_closed row (fun row => ?_) fun _ _ invoice same => by cases same
  have currency : (snapshots printing rules).Triple t
      (fun s => s.2.desk t = ⟨unread, ready ++ [(entry, row)]⟩) (getCurrencyByID row.currency)
      fun _ s => s.2.desk t = ⟨unread, ready ++ [(entry, row)]⟩ := by
    have calls : (getCurrencyByID row.currency).Calls fun op => ∃ id, op = .selectCurrency id :=
      (Prog.Calls.call ⟨_, rfl⟩ fun _ => .ret _).bind fun _ => .ret _
    refine .of_calls calls (snapshots_stable fun desk => desk = ⟨unread, ready ++ [(entry, row)]⟩) ?_ ?_
    · rintro op s ⟨id, rfl⟩ _ _
      exact pre_of_not_sends rfl
    · rintro op s answer s' ⟨id, rfl⟩ _ holds ⟨_, sees⟩
      rw [show s'.2 = s.2 from sees]
      exact holds
  rintro s kept holds
  obtain ⟨holds, own⟩ := holds row rfl
  refine (currency s kept holds).bind snapshots_closed (fun currency s' _ holds => ?_)
    fun _ _ _ _ invoice same => by cases same
  rintro s₃ later _ invoice same
  cases same
  exact ⟨row, later.trans holds, own, rfl, rfl⟩

/-- **The rows of the batch are read one after the other.** -/
theorem getInvoicesByIDs_triple (entries : List Notification)
    (ready : List (Notification × InvoiceRow)) :
    (snapshots printing rules).Triple t (fun s => s.2.desk t = ⟨entries, ready⟩)
      (getInvoicesByIDs (entries.map fun entry => entry.row.id)) fun result s =>
        ∀ invoices, result = .ok invoices →
          ∃ read, s.2.desk t = ⟨[], ready ++ read⟩ ∧ List.Forall₂ ReadFor read invoices := by
  induction entries generalizing ready with
  | nil =>
      refine .ret (snapshots_stable fun desk => desk = ⟨[], ready⟩) ?_
      intro s _ holds invoices same
      cases same
      exact ⟨[], by rw [List.append_nil]; exact holds, .nil⟩
  | cons entry rest ih =>
      rw [List.map_cons, getInvoicesByIDs, List.mapM_cons]
      refine .bind snapshots_closed (getInvoice_triple entry rest ready) (fun invoice => ?_)
        fun _ _ invoices same => by cases same
      rintro s kept holds
      obtain ⟨row, desk, readFor⟩ := holds invoice rfl
      refine (ih (ready ++ [(entry, row)]) s kept desk).bind snapshots_closed
        (fun invoices s' _ holds => ?_) fun _ _ _ _ invoices same => by cases same
      obtain ⟨read, desk', all⟩ := holds invoices rfl
      rintro s₃ later _ _ same
      cases same
      refine ⟨(entry, row) :: read, ?_, .cons readFor all⟩
      rw [show s₃.2.desk t = s'.2.desk t from later, desk', List.append_assoc]
      rfl

theorem getInvoiceNotifications_triple (limit : ℕ) :
    (snapshots printing rules).Triple t (fun _ => True) (getInvoiceNotifications limit)
      fun result s => ∀ invoices, result = .ok invoices →
        List.Forall₂ ReadFor (s.2.desk t).ready invoices := by
  have selects : (snapshots printing rules).Triple t (fun _ => True)
      (perform (.selectNotifications limit)) fun result s => ∀ ids, result = .ok ids →
        ∃ entries, s.2.desk t = ⟨entries, []⟩ ∧ ids = entries.map fun entry => entry.row.id := by
    refine .query (fun _ _ _ _ => trivial) (fun answer => ?_) (fun _ _ => pre_of_not_sends rfl) ?_
    · exact snapshots_stable fun desk => ∀ ids, answer = .ok ids →
        ∃ entries, desk = ⟨entries, []⟩ ∧ ids = entries.map fun entry => entry.row.id
    · rintro s answer s' _ _ ⟨_, sees⟩ ids rfl
      obtain ⟨batch, _, same, after⟩ := sees
      exact ⟨batch.take limit, by rw [show s'.2 = _ from after, Watch.desk_put], same⟩
  refine .bind snapshots_closed selects (fun ids => ?_) fun _ _ invoices same => by cases same
  rintro s kept holds
  obtain ⟨entries, desk, rfl⟩ := holds ids rfl
  refine (getInvoicesByIDs_triple entries [] s kept desk).weaken ?_
  rintro result s' _ holds invoices same
  obtain ⟨read, desk', all⟩ := holds invoices same
  rw [desk']
  exact all

/-! ## Sending the batch -/

omit [Libraries] in
/-- The next row is done with. -/
theorem done_of_ready {desk : Desk} {invoice : Invoice} {rest : List Invoice}
    (ready : List.Forall₂ ReadFor desk.ready (invoice :: rest)) :
    ∃ pair, desk.ready.head? = some pair ∧ ReadFor pair invoice ∧
      List.Forall₂ ReadFor desk.done.ready rest := by
  obtain ⟨pair, others, first, later, same⟩ := List.forall₂_cons_right_iff.mp ready
  refine ⟨pair, by rw [same]; rfl, first, ?_⟩
  rw [Desk.done, same]
  exact later

/-- The first of the rows whose invoices have been read is sent or skipped. -/
theorem notifyInvoice_triple (invoice : Invoice) (rest : List Invoice) :
    (snapshots printing rules).Triple t
      (fun s => List.Forall₂ ReadFor (s.2.desk t).ready (invoice :: rest))
      (notifyInvoice printing invoice) fun _ s => List.Forall₂ ReadFor (s.2.desk t).ready rest := by
  have others : ∀ invoices, (snapshots printing rules).Stable t fun s =>
      List.Forall₂ ReadFor (s.2.desk t).ready invoices :=
    fun invoices => snapshots_stable fun desk => List.Forall₂ ReadFor desk.ready invoices
  unfold notifyInvoice
  cases printed : convertInvoiceToPrintablePrivate printing invoice with
  | error error =>
      have skips : (snapshots printing rules).Triple t
          (fun s => List.Forall₂ ReadFor (s.2.desk t).ready (invoice :: rest))
          (perform (.skip invoice)) fun _ s => List.Forall₂ ReadFor (s.2.desk t).ready rest := by
        refine .query (others _) (fun _ => others _) (fun _ _ => pre_of_not_sends rfl) ?_
        rintro s answer s' _ holds ⟨_, sees⟩
        obtain ⟨_, _, _, later⟩ := done_of_ready holds
        rw [show s'.2 = _ from sees, Watch.desk_put]
        exact later
      exact skips
  | ok printable =>
      have sends : (snapshots printing rules).Triple t
          (fun s => List.Forall₂ ReadFor (s.2.desk t).ready (invoice :: rest))
          (perform (.send invoice printable))
          fun _ s => List.Forall₂ ReadFor (s.2.desk t).ready rest := by
        refine .query (others _) (fun _ => others _) ?_ ?_
        · rintro s _ holds invoice' printable' same
          cases same
          obtain ⟨pair, first, readFor, _⟩ := done_of_ready holds
          refine ⟨pair, first, readFor, ?_⟩
          rw [(of_printed printed).2, readFor.status]
        · rintro s answer s' _ holds ⟨_, sees⟩
          obtain ⟨_, _, _, later⟩ := done_of_ready holds
          have desk : s'.2.desk t = (s.2.desk t).done := by
            rw [show s'.2 = _ from sees]
            exact Watch.desk_put ..
          rw [desk]
          exact later
      have deletes : (snapshots printing rules).Triple t
          (fun s => List.Forall₂ ReadFor (s.2.desk t).ready rest)
          (deleteInvoiceNotification invoice.id)
          fun _ s => List.Forall₂ ReadFor (s.2.desk t).ready rest := by
        refine .query (others _) (fun _ => others _) (fun _ _ => pre_of_not_sends rfl) ?_
        rintro s answer s' _ holds ⟨_, sees⟩
        rw [show s'.2 = s.2 from sees]
        exact holds
      have both : (snapshots printing rules).Triple t
          (fun s => List.Forall₂ ReadFor (s.2.desk t).ready (invoice :: rest))
          (perform (.send invoice printable) >>= fun _ => deleteInvoiceNotification invoice.id)
          fun _ s => List.Forall₂ ReadFor (s.2.desk t).ready rest :=
        .bind snapshots_closed sends (fun _ => deletes) fun _ holds => holds
      exact both

theorem notify_triple (invoices : List Invoice) :
    (snapshots printing rules).Triple t
      (fun s => List.Forall₂ ReadFor (s.2.desk t).ready invoices) (notify printing invoices)
      fun _ _ => True := by
  refine (Contract.Triple.forM
    (P := fun invoices s => List.Forall₂ ReadFor (s.2.desk t).ready invoices) (E := fun _ => True)
    snapshots_closed (snapshots_stable fun desk => List.Forall₂ ReadFor desk.ready [])
    (fun invoice rest => (notifyInvoice_triple invoice rest).weaken (fun _ holds => holds) ?_)
    invoices).weaken (fun _ holds => holds) fun _ _ => trivial
  rintro (error | _) s _ holds
  · trivial
  · exact holds

theorem notifierRound_triple :
    (snapshots printing rules).Triple t (fun _ => True) (notifierRound printing) fun _ _ => True := by
  refine .attempt_bind snapshots_closed (getInvoiceNotifications_triple 10) fun result => ?_
  cases result with
  | error error =>
      have ends : (snapshots printing rules).Triple t (fun _ => True) (return () : Action Unit)
          fun _ _ => True := .ret (fun _ _ _ _ => trivial) fun _ _ => trivial
      exact fun s kept _ => ends s kept trivial
  | ok invoices =>
      intro s kept holds
      have sends : (snapshots printing rules).Triple t
          (fun s => List.Forall₂ ReadFor (s.2.desk t).ready invoices)
          ((notify printing invoices).attempt >>= fun _ => (return () : Action Unit))
          fun _ _ => True :=
        .attempt_bind snapshots_closed (notify_triple invoices) fun _ =>
          .ret (fun _ _ _ _ => trivial) fun _ _ => trivial
      exact sends s kept (holds invoices rfl)

theorem runNotifier_triple (rounds : ℕ) :
    (snapshots printing rules).Triple t (fun _ => True) (runNotifier printing rounds)
      fun _ _ => True := by
  induction rounds with
  | zero => exact .ret (fun _ _ _ _ => trivial) fun _ _ => trivial
  | succ rounds ih =>
      exact .bind snapshots_closed notifierRound_triple (fun _ => ih) fun _ _ => trivial

/-! ## Only the notifier sends -/

/-- A program that calls no `Send`. -/
abbrev Silent {α : Type} (program : Action α) : Prop := program.Calls fun op => op.sends = false

section Silent

omit [Libraries] in
theorem queryRow_silent {op : Stmt} (quiet : op.sends = false) : Silent (queryRow op) :=
  .call quiet fun _ => .ret _

theorem getInvoice_silent (id : InvoiceID) : Silent (getInvoice id) :=
  (queryRow_silent rfl).bind fun _ => ((queryRow_silent rfl).bind fun _ => .ret _).bind fun _ => .ret _

theorem saveInvoice_silent (invoice : Invoice) (isNotify : Bool) :
    Silent (saveInvoice invoice isNotify) := by
  refine (queryRow_silent rfl).bind fun _ => ?_
  cases isNotify <;> exact .query rfl

theorem cancelInvoice_silent (id : InvoiceID) : Silent (cancelInvoice id) := by
  refine Prog.Calls.bind (.query rfl) fun _ => Prog.Calls.bind (.query rfl) fun affected => ?_
  split
  · exact .ret _
  · exact (getInvoice_silent id).bind fun _ => (saveInvoice_silent _ _).bind fun _ => .ret _

theorem markExpired_silent : Silent markExpired := by
  refine Prog.Calls.bind (.query rfl) fun _ => Prog.Calls.bind (.query rfl) fun ids => ?_
  exact .forM (fun id => (getInvoice_silent id).bind fun _ => saveInvoice_silent _ _) ids

omit [Libraries] in
theorem Stmt.sends_of_indexes (indexes : op.indexes = true) : op.sends = false := by
  cases op <;> first | rfl | cases indexes

theorem savePayments_silent (call : PaymentCall) : Silent (savePayments call) :=
  (savePayments_calls call).mono Stmt.sends_of_indexes

theorem indexerWorker_silent (account : Account) (rounds : ℕ) :
    Silent (indexerWorker account rounds) :=
  (indexerWorker_calls account rounds).mono Stmt.sends_of_indexes

omit [Libraries] in
theorem syncHistoryGap_silent (account : Account) (rounds : ℕ) (startHash : Bits256)
    (startLt endLt : ℕ) : Silent (syncHistoryGap account rounds startHash startLt endLt) := by
  have gets : ∀ startLt endLt startHash,
      Silent (getTransactions account.accountID startLt endLt startHash) :=
    fun _ _ _ => Prog.Calls.bind (.query rfl) fun _ => .ret _
  have retries : ∀ startLt endLt startHash retries last,
      Silent (retryTransactions account.accountID startLt endLt startHash retries last) := by
    intro startLt endLt startHash retries
    induction retries with
    | zero => exact fun _ => .ret _
    | succ retries ih =>
        refine fun _ => (gets startLt endLt startHash).attempt.bind fun answer => ?_
        split
        · exact .ret _
        · exact ih _
  have iterates : ∀ startHash startLt endLt,
      Silent (syncGapIteration account.accountID startHash startLt endLt) := by
    intro startHash startLt endLt
    refine (retries startLt endLt startHash 200 (.ok [])).bind fun answer => ?_
    split
    · exact .ret _
    · exact .ret _
    · have inserts : ∀ tx : Transaction,
          Silent (perform (.insertTransaction (tx.row account.accountID))) := fun _ => .query rfl
      exact Prog.Calls.bind (.forM inserts _) fun _ => .ret _
  have pages : ∀ endLt rounds startHash startLt,
      Silent (syncPages account.accountID endLt rounds startHash startLt) := by
    intro endLt rounds
    induction rounds with
    | zero => exact fun _ _ => .ret _
    | succ rounds ih =>
        intro startHash startLt
        unfold syncPages
        split
        · exact .ret _
        · refine (iterates startHash startLt endLt).bind fun next => ?_
          split
          · exact .ret _
          · exact ih _ _
  refine (pages _ rounds startHash startLt).bind fun left => ?_
  split
  · exact .query rfl
  · exact .ret _

omit [Libraries] in
theorem loaderWorker_silent (account : Account) (rounds : ℕ) :
    Silent (loaderWorker account rounds) := by
  have lt : ∀ {op : Stmt} {value : op.Val → ℕ}, op.sends = false → Silent (queryLt op value) := by
    intro op value quiet
    refine Prog.Calls.bind (Prog.Calls.attempt (.query quiet)) fun answer => ?_
    split <;> exact .ret _
  have gaps : Silent (getGaps account.accountID) := by
    refine Prog.Calls.bind (.query rfl) fun starts => ?_
    refine Prog.Calls.bind (.mapM (fun start => (lt rfl).bind fun _ => .ret _) starts) fun _ => ?_
    exact (lt rfl).bind fun _ => .ret _
  have updates : ∀ last block, Silent (updateAccount account.accountID last block) :=
    fun _ _ => Prog.Calls.bind (.query rfl) fun _ => .query rfl
  have refreshes : Silent (refreshAccount account rounds) := by
    refine Prog.Calls.bind (Prog.Calls.attempt (.query rfl)) fun state => ?_
    split
    · exact .ret _
    · refine Prog.Calls.bind (.query rfl) fun lastLt => ?_
      split
      · exact .ret _
      · refine (updates _ _).attempt.bind fun updated => ?_
        split
        · exact .ret _
        · exact Prog.Calls.bind (.query rfl) fun _ =>
            (syncHistoryGap_silent account rounds _ _ _).bind fun _ => .ret _
  have loop : ∀ remaining, Silent (refreshLoop account rounds remaining) := by
    intro remaining
    induction remaining with
    | zero => exact .ret _
    | succ remaining ih => exact refreshes.bind fun _ => ih
  have rest : ∀ found : List TxGap × ℕ, Silent (do
      perform (.setLastLt found.2)
      found.1.forM fun gap => syncHistoryGap account rounds gap.startHash gap.startLt gap.endLt
      refreshLoop account rounds rounds) := by
    intro found
    refine Prog.Calls.bind (.query rfl) fun _ => Prog.Calls.bind (.forM (fun gap => ?_) _) fun _ => ?_
    · exact syncHistoryGap_silent account rounds _ _ _
    · exact loop rounds
  refine gaps.attempt.bind fun found => ?_
  cases found with
  | error error => exact gaps.bind rest
  | ok found => exact rest found

end Silent

theorem runJob_triple (job : Job) :
    (snapshots printing rules).Triple t (fun _ => True) (runJob printing job) fun _ _ => True := by
  have returns : ∀ {α : Type} {program : Action α} {rest : α → Option Invoice}, Silent program →
      (snapshots printing rules).Triple t (fun _ => True)
        (program >>= fun value => (return rest value : Action (Option Invoice))) fun _ _ => True :=
    fun silent => silent_triple (silent.bind fun _ => .ret _)
  cases job with
  | createInvoice invoice =>
      exact returns ((saveInvoice_silent invoice false).bind fun _ => saveInvoice_silent invoice true)
  | cancelInvoice id => exact returns (cancelInvoice_silent id)
  | markExpired => exact returns markExpired_silent
  | savePayments call => exact returns (savePayments_silent call)
  | indexerWorker account rounds => exact returns (indexerWorker_silent account rounds)
  | loaderWorker account rounds => exact returns (loaderWorker_silent account rounds)
  | notifier rounds =>
      exact .bind snapshots_closed (runNotifier_triple rounds)
        (fun _ => .ret (fun _ _ _ _ => trivial) fun _ _ => trivial) fun _ _ => trivial

/-- **The contract is sound.** -/
theorem snapshots_sound : (snapshots printing rules).Sound where
  toClosed := snapshots_closed
  exec := by
    rintro t op s answer s' kept pre ⟨_, sees⟩
    refine ⟨fun call member => ?_, fun u other => watches_others sees other⟩
    rcases watches_sends sees with same | ⟨invoice, printable, rfl, grown⟩
    · exact kept call (same ▸ member)
    · rw [grown] at member
      rcases List.mem_append.mp member with old | new
      · exact kept call old
      · rw [List.mem_singleton.mp new]
        exact pre invoice printable rfl
  spawn := by
    rintro t s program s' kept ⟨⟨job, _, rfl, _⟩, begins⟩
    have sends : s'.2.sends = s.2.sends := by rw [begins]; rfl
    have kept' : (snapshots printing rules).inv s' := fun call member => kept call (sends ▸ member)
    refine ⟨kept', fun u other => ?_, runJob_triple job s' kept' trivial⟩
    change s'.2.desk u = s.2.desk u
    rw [begins]
    exact Watch.desk_put_of_ne other
  retire := by
    rintro t result s s' kept _ ⟨_, same⟩
    refine ⟨fun call member => kept call (same ▸ member), fun u _ => ?_⟩
    change s'.2.desk u = s.2.desk u
    rw [same]
  crash := by
    rintro s s' kept ⟨_, same⟩ call member
    exact kept call (same ▸ member)

/-! ## Which state is sent -/

/-- What has been read for a row has the status that is stored in the row. -/
structure AsRecorded (watch : Watch τ) : Prop where
  ready : ∀ t, ∀ pair ∈ (watch.desk t).ready, pair.2.status = pair.1.row.status
  sends : ∀ call ∈ watch.sends, ∀ pair, call.behalf = some pair → pair.2.status = pair.1.row.status

namespace AsRecorded

omit [Libraries] [DecidableEq τ] [Fintype τ] in
theorem start : AsRecorded (Watch.start : Watch τ) where
  ready _ _ member := by cases member
  sends _ member := by cases member

omit [Libraries] [Fintype τ] in
theorem put (recorded : AsRecorded m) {desk : Desk}
    (ready : ∀ pair ∈ desk.ready, pair.2.status = pair.1.row.status) : AsRecorded (m.put t desk) where
  ready u pair member := by
    by_cases same : u = t
    · subst same
      rw [Watch.desk_put] at member
      exact ready pair member
    · rw [Watch.desk_put_of_ne same] at member
      exact recorded.ready u pair member
  sends := recorded.sends

omit [Libraries] [Fintype τ] in
theorem done (recorded : AsRecorded m) (t : τ) : AsRecorded (m.put t (m.desk t).done) :=
  recorded.put fun pair member => recorded.ready t pair (List.mem_of_mem_tail member)

/-- **One statement**: only the reading of an invoice could break it. -/
theorem step (recorded : AsRecorded m) (unchanged : Unchanged t op (w, m))
    (runs : (system printing rules).exec t op w answer w') (sees : watches t op w answer m m') :
    AsRecorded m' := by
  unfold watches at sees
  split at sees
  · obtain ⟨_, _, _, rfl⟩ := sees
    exact recorded.put fun pair member => by cases member
  · subst sees
    refine recorded.put fun pair member => ?_
    have stored := stored_of_selectInvoice runs
    unfold Desk.read at member
    split at member
    · exact recorded.ready t pair member
    · rename_i entry rest unread
      rcases List.mem_append.mp member with old | new
      · exact recorded.ready t pair old
      · rw [List.mem_singleton.mp new]
        exact unchanged _ rfl entry rest unread _ stored
  · subst sees
    refine ⟨(recorded.done t).ready, fun call member pair behalf => ?_⟩
    rcases List.mem_append.mp member with old | new
    · exact recorded.sends call old pair behalf
    · rw [List.mem_singleton.mp new] at behalf
      exact recorded.ready t pair (List.mem_of_mem_head? behalf)
  · subst sees
    exact recorded.done t
  · subst sees
    exact recorded

/-- Every run in which no invoice has changed before it is read. -/
theorem reachable {db : Database}
    {c : Config τ Stmt Stmt.Val Err (Option Invoice) (World τ × Watch τ)}
    (run : ((watched printing rules).under Unchanged).Reachable (.idle (.idle db, .start)) c) :
    AsRecorded c.state.2 := by
  induction run with
  | refl => exact .start
  | tail _ step ih =>
      cases step with
      | @spawn s s' pool t program _ starts =>
          change AsRecorded s'.2
          rw [starts.2]
          exact ih.put fun pair member => by cases member
      | exec _ answers =>
          obtain ⟨unchanged, runs, sees⟩ := answers
          exact ih.step unchanged runs sees
      | @retire s s' pool t result _ leaves =>
          change AsRecorded s'.2
          rw [leaves.2]
          exact ih
      | @crash s s' pool stops =>
          change AsRecorded s'.2
          rw [stops.2]
          exact ih

end AsRecorded

/-- **Which state is sent.** Every run of the service is watched. If each invoice has the
status of its row when it is read, every `Send` says the status of the row. In any run
each `Send` is on behalf of a row of its invoice, and it says the status of the row
exactly if the invoice had it when it was read. -/
theorem sends_recorded (printing : Printing) (rules : Rules τ) (db : Database) :
    (∀ c : Running τ, Runs printing rules db c → ∃ watch : Watch τ,
      (watched printing rules).Reachable (.idle (.idle db, .start)) ⟨(c.state, watch), c.pool⟩) ∧
    (∀ c, ((watched printing rules).under Unchanged).Reachable (.idle (.idle db, .start)) c →
      ∀ call ∈ c.state.2.sends, call.Recorded) ∧
    ∀ c, (watched printing rules).Reachable (.idle (.idle db, .start)) c →
      ∀ call ∈ c.state.2.sends, ∃ entry row, call.behalf = some (entry, row) ∧
        row.id = entry.row.id ∧ call.invoice.id = entry.row.id ∧
        (call.Recorded ↔ row.status = entry.row.status) := by
  have behalf : ∀ c, (watched printing rules).Reachable (.idle (.idle db, .start)) c →
      ∀ call ∈ c.state.2.sends, call.OnBehalf := by
    intro c run
    have init : (snapshots printing rules).Kept (.idle (.idle db, .start)) :=
      .idle fun call member => by cases member
    exact (snapshots_sound.reachable init run).inv
  refine ⟨fun c run => run_watched run, fun c run call member => ?_, fun c run call member => ?_⟩
  · obtain ⟨⟨entry, row⟩, same, _, body⟩ := behalf c (System.reachable_of_under run) call member
    refine ⟨entry, row, same, ?_⟩
    rw [body, (AsRecorded.reachable run).sends call member _ same]
  · obtain ⟨⟨entry, row⟩, same, readFor, body⟩ := behalf c run call member
    refine ⟨entry, row, same, readFor.own, readFor.id.trans readFor.own, ?_⟩
    constructor
    · rintro ⟨entry', row', same', recorded⟩
      rw [same, Option.some.injEq, Prod.mk.injEq] at same'
      obtain ⟨rfl, rfl⟩ := same'
      exact InvoiceStatus.text_injective (body.symm.trans recorded)
    · intro equal
      exact ⟨entry, row, same, body.trans (congrArg InvoiceStatus.text equal)⟩

/-! ## Watched schedules -/

/-- What is seen of a statement that a schedule executes. -/
def Watch.after (m : Watch τ) (t : τ) (choice : Choice) : (op : Stmt) → Except Err op.Val → Watch τ
  | .selectNotifications limit, .ok _ => m.put t ⟨choice.batch.take limit, []⟩
  | .selectInvoice _, .ok row => m.put t ((m.desk t).read row)
  | .send invoice printable, _ => m.sent t invoice printable
  | .skip _, _ => m.put t (m.desk t).done
  | _, _ => m

theorem watches_after {fault : Fault} {choice : Choice} (m : Watch τ)
    (runs : op.runUnder fault choice t w = some (answer, w')) :
    watches t op w answer m (m.after t choice op answer) := by
  cases op with
  | selectNotifications limit =>
      cases answer with
      | error error => exact rfl
      | ok ids =>
          rcases Stmt.runUnder_cases runs with ⟨_, done⟩ | ⟨_, _, impossible, _⟩ | ⟨_, _, impossible, _⟩
          · simp only [Stmt.run, Option.ite_none_right_eq_some, Option.some.injEq,
              Prod.mk.injEq] at done
            obtain ⟨returned, same, _⟩ := done
            cases same
            exact ⟨choice.batch, returned, rfl, rfl⟩
          · cases impossible
          · cases impossible
  | selectInvoice id => cases answer <;> exact rfl
  | _ => exact rfl

namespace Checks

variable (printing) (checks : Checks τ) (meets : τ → Stmt → World τ × Watch τ → Bool)

/-- What a step of a schedule does where its statement meets a condition, and what is
seen of it. -/
def watchedAct (c : Running τ) (m : Watch τ) : Act τ → Option (Running τ × Watch τ)
  | .spawn t job => (checks.act printing c (.spawn t job)).map fun c' => (c', m.put t .empty)
  | .exec t fault choice =>
      match c.pool t with
      | some (.call op next) =>
          if checks.exec c.state t op fault choice && meets t op (c.state, m) then
            (op.runUnder fault choice t c.state).map fun done =>
              (⟨done.2, Function.update c.pool t (some (next done.1))⟩, m.after t choice op done.1)
          else none
      | _ => none
  | .retire t => (checks.act printing c (.retire t)).map fun c' => (c', m)
  | .crash => (checks.act printing c .crash).map fun c' => (c', m)

def watchedSchedule : List (Act τ) → Running τ → Watch τ → Option (Running τ × Watch τ)
  | [], c, m => some (c, m)
  | first :: rest, c, m =>
      (watchedAct printing checks meets c m first).bind fun after => watchedSchedule rest after.1 after.2

variable {printing checks meets} {condition : τ → Stmt → World τ × Watch τ → Prop}

theorem watched_step (sound : ∀ {t op s}, meets t op s = true → condition t op s)
    {c c' : Running τ} {first : Act τ}
    (acts : watchedAct printing checks meets c m first = some (c', m')) :
    ((watched printing checks.rules).under condition).Step ⟨(c.state, m), c.pool⟩
      ⟨(c'.state, m'), c'.pool⟩ := by
  obtain ⟨w, pool⟩ := c
  cases first with
  | spawn t job =>
      simp only [watchedAct, Option.map_eq_some_iff, Prod.mk.injEq] at acts
      obtain ⟨c₁, acts, rfl, rfl⟩ := acts
      simp only [act, Option.ite_none_right_eq_some, Bool.and_eq_true, Option.isNone_iff_eq_none,
        Option.some.injEq] at acts
      obtain ⟨⟨free, allowed⟩, rfl⟩ := acts
      exact .spawn free ⟨⟨job, allowed, rfl, rfl⟩, rfl⟩
  | exec t fault choice =>
      simp only [watchedAct] at acts
      split at acts
      · rename_i op next calls
        simp only [Option.ite_none_right_eq_some, Bool.and_eq_true, Option.map_eq_some_iff,
          Prod.mk.injEq] at acts
        obtain ⟨⟨allowed, holds⟩, ⟨answer, w'⟩, runs, rfl, rfl⟩ := acts
        exact .exec calls ⟨sound holds, ⟨fault, choice, allowed, runs⟩, watches_after m runs⟩
      · cases acts
  | retire t =>
      simp only [watchedAct, Option.map_eq_some_iff, Prod.mk.injEq] at acts
      obtain ⟨c₁, acts, rfl, rfl⟩ := acts
      simp only [act] at acts
      split at acts
      · rename_i result ended
        cases acts
        exact .retire ended ⟨rfl, rfl⟩
      · cases acts
  | crash =>
      simp only [watchedAct, Option.map_eq_some_iff, Prod.mk.injEq] at acts
      obtain ⟨c₁, acts, rfl, rfl⟩ := acts
      simp only [act, Option.ite_none_right_eq_some, Option.some.injEq] at acts
      obtain ⟨allowed, rfl⟩ := acts
      exact .crash ⟨⟨allowed, rfl⟩, rfl⟩

/-- **What a watched schedule computes is reachable.** -/
theorem watched_reachable (sound : ∀ {t op s}, meets t op s = true → condition t op s)
    {acts : List (Act τ)} {c c' : Running τ}
    (leads : watchedSchedule printing checks meets acts c m = some (c', m')) :
    ((watched printing checks.rules).under condition).Reachable ⟨(c.state, m), c.pool⟩
      ⟨(c'.state, m'), c'.pool⟩ := by
  induction acts generalizing c m with
  | nil =>
      cases leads
      exact .refl
  | cons first rest ih =>
      obtain ⟨after, acts, leads⟩ := Option.bind_eq_some_iff.mp leads
      exact .head (watched_step sound acts) (ih leads)

end Checks

/-- The condition `Unchanged`, decided. -/
def unchanged (t : τ) (op : Stmt) (s : World τ × Watch τ) : Bool :=
  match op with
  | .selectInvoice id =>
      (s.2.desk t).unread.head?.all fun entry =>
        (s.1.db.invoices.find id).all fun row => decide (row.status = entry.row.status)
  | _ => true

omit [DecidableEq τ] [Fintype τ] in
theorem unchanged_sound {s : World τ × Watch τ} (holds : unchanged t op s = true) :
    Unchanged t op s := by
  rintro id rfl entry rest unread row stored
  simp only [unchanged, unread, stored, List.head?_cons, Option.all_some, decide_eq_true_eq] at holds
  exact holds

end Runs

/-! ## An invoice that is cancelled before it is announced -/

namespace Shop

attribute [local instance] Texts.libraries

/-- The shop before its first invoice. -/
def vacant : Database := { database with invoices := ⟨[], List.nodup_nil⟩ }

/-- The invoice is created. -/
def creation : List (Act Bool) :=
  .spawn false (.createInvoice (invoice.invoice .ton)) :: List.replicate 4 (run false 0)

/-- The invoice is created and cancelled, and then the notifier reads both rows and
sends the first. -/
def overtaken : List (Act Bool) :=
  creation ++ [.retire false, .spawn false (.cancelInvoice 7)] ++ List.replicate 6 (run false 0) ++
    [.spawn true (.notifier 1),
      batch [⟨invoice, 0⟩, ⟨{ invoice with status := .cancelled, version := 1 }, 1⟩]] ++
    List.replicate 5 (run true 0)

/-- The invoice is created, and the notifier sends its row. -/
def announcement : List (Act Bool) :=
  creation ++ [.spawn true (.notifier 1), batch [⟨invoice, 0⟩]] ++ List.replicate 3 (run true 0)

/-- The call says the status of its row. -/
def saysRecorded (call : SendCall) : Bool :=
  match call.behalf with
  | some (entry, _) => decide (call.printable.public'.status = entry.row.status.text)
  | none => false

theorem saysRecorded_iff {call : SendCall} : saysRecorded call = true ↔ call.Recorded := by
  unfold saysRecorded SendCall.Recorded
  split
  · rename_i entry row behalf
    rw [decide_eq_true_eq]
    constructor
    · exact fun same => ⟨entry, row, behalf, same⟩
    · rintro ⟨entry', row', behalf', same⟩
      rw [behalf, Option.some.injEq, Prod.mk.injEq] at behalf'
      rw [behalf'.1]
      exact same
  · rename_i none
    refine ⟨fun impossible => (by cases impossible), ?_⟩
    rintro ⟨entry, row, behalf, _⟩
    rw [none] at behalf
    cases behalf

/-- The row of the new invoice is sent with the status that it holds. -/
theorem announcement_recorded :
    ∃ (c : Config Bool Stmt Stmt.Val Err (Option Invoice) (World Bool × Watch Bool))
      (call : SendCall),
      ((watched printing notified.rules).under Unchanged).Reachable
        (.idle (.idle vacant, .start)) c ∧ call ∈ c.state.2.sends ∧ call.Recorded := by
  have found : ((notified.watchedSchedule printing unchanged announcement (.idle (.idle vacant))
      .start).map fun after => after.2.sends.isEmpty) = some false := by
    decide +kernel
  obtain ⟨⟨c, m⟩, leads, sent⟩ := Option.map_eq_some_iff.mp found
  have run : ((watched printing notified.rules).under Unchanged).Reachable
      (.idle (.idle vacant, .start)) ⟨(c.state, m), c.pool⟩ :=
    Checks.watched_reachable unchanged_sound leads
  obtain ⟨call, member⟩ := List.exists_mem_of_ne_nil _ (List.isEmpty_eq_false_iff.mp sent)
  exact ⟨_, call, run, member, (sends_recorded printing notified.rules vacant).2.1 _ run call member⟩

/-- **The row of the new invoice is sent with the status `cancelled`.** -/
theorem overtaken_not_recorded :
    ¬ ∀ c, (watched printing notified.rules).Reachable (.idle (.idle vacant, .start)) c →
      ∀ call ∈ c.state.2.sends, call.Recorded := by
  intro always
  have found : ((notified.watchedSchedule printing (fun _ _ _ => true) overtaken
      (.idle (.idle vacant)) .start).map fun after => after.2.sends.all saysRecorded) =
        some false := by
    decide +kernel
  obtain ⟨⟨c, m⟩, leads, wrong⟩ := Option.map_eq_some_iff.mp found
  have run : ((watched printing notified.rules).under fun _ _ _ => True).Reachable
      (.idle (.idle vacant, .start)) ⟨(c.state, m), c.pool⟩ :=
    Checks.watched_reachable (fun _ => trivial) leads
  have all : m.sends.all saysRecorded = true := List.all_eq_true.mpr fun call member =>
    saysRecorded_iff.mpr (always _ (System.reachable_of_under run) call member)
  rw [all] at wrong
  cases wrong

end Shop

end SpiceHarvester
