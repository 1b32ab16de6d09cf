import SpiceHarvester.Api.NewInvoice
import SpiceHarvester.Schedule
import SpiceHarvester.Serial.Effects
import SpiceHarvester.Serial.Reference

/-!
# Runs of the operations on invoices

Invoices are created and cancelled, payments are saved, and expired invoices are marked.
Each operation is one step, at a time of its own, and the clock may stand still between
two steps or even go back. What happens to the invoices in a run is a list of events.

Every row is that of the reference ledger of these events (`rows_referenced`). The ledger
counts the payments since the invoice was created: a payment that names the ID of an
invoice before there is one is for nobody, and is forgotten
(`Shop.early_payment_forgotten`).
-/

set_option autoImplicit false

namespace SpiceHarvester

open Interleaving Sql

section Operations

variable [Libraries]

/-! ## What the operations do to the store -/

/-- A statement runs at a time, and does what it should. -/
def RunsAt (time : Time) (op : Stmt) (w : World Unit) (answer : Except Err op.Val)
    (w' : World Unit) : Prop :=
  ∃ choice : Choice, choice.clock = time ∧ op.run choice () w = some (answer, w')

section Effects

variable {time : Time} {w w' : World Unit} {log : List (Called Stmt Stmt.Val Err)}
  {invoice : Invoice} {id : InvoiceID}

theorem RunsAt.at {op : Stmt} {answer : Except Err op.Val} (plain : RunsAt time op w answer w') :
    At time op w answer w' := by
  obtain ⟨choice, clock, runs⟩ := plain
  exact ⟨.none, choice, clock, runs⟩

theorem at_of_runsAt {α : Type} {program : Action α} {result : Except Err α}
    (runs : Alone (RunsAt time) program w log result w') : Alone (At time) program w log result w' :=
  runs.mono fun plain => plain.at

/-- `getCurrencyID` finds the currency, or says that there is none. -/
theorem getCurrencyID_runsAt {currency : Currency} {result : Except Err UUID}
    (runs : Alone (RunsAt time) (getCurrencyID currency) w log result w') :
    result = orNotFound (orNoRows (w.db.currencies.of currency)) ∧ w' = w := by
  obtain ⟨answer, w₁, later, ⟨choice, _, ran⟩, rfl, ended⟩ := Alone.call_cases runs
  obtain ⟨_, rfl, rfl⟩ := Alone.ret_cases ended
  simp only [Stmt.run, Option.some.injEq, Prod.mk.injEq] at ran
  obtain ⟨rfl, rfl⟩ := ran
  exact ⟨rfl, rfl⟩

theorem store_insertInvoice (w : World Unit) (row : InvoiceRow) :
    (w.insertInvoice () row).2.store = w.store.create row := by
  simp only [World.insertInvoice, Store.create, World.store]
  cases w.db.currencies.table.find row.currency with
  | none => rfl
  | some _ => cases w.db.invoices.insert? row <;> rfl

/-- An invoice is stored in the row of its currency, if there is one. -/
theorem insertInvoice_runsAt {result : Except Err Unit}
    (runs : Alone (RunsAt time) (saveInvoice invoice false) w log result w') :
    w'.store = w.store.happen (.created invoice) := by
  unfold saveInvoice at runs
  rcases Alone.bind_cases runs with ⟨error, first, rfl⟩ | ⟨currency, w₁, _, _, first, inserts, _⟩
  · obtain ⟨found, rfl⟩ := getCurrencyID_runsAt first
    cases tracked : w'.db.currencies.of invoice.currency with
    | none => exact (Store.happen_created_of_none tracked).symm
    | some currency =>
        rw [tracked] at found
        cases found
  · obtain ⟨found, rfl⟩ := getCurrencyID_runsAt first
    cases tracked : w₁.db.currencies.of invoice.currency with
    | none =>
        rw [tracked] at found
        cases found
    | some other =>
        rw [tracked] at found
        obtain rfl := Except.ok.inj found
        obtain ⟨choice, _, ran⟩ := (Alone.query_cases inserts).1
        have inserted : w₁.insertInvoice () (invoice.row currency) = (result, w') :=
          Option.some.inj ran
        have stored := store_insertInvoice w₁ (invoice.row currency)
        rw [inserted] at stored
        exact stored.trans (Store.happen_created_of_some tracked).symm

/-- `CreateInvoice` stores the invoice. -/
theorem createInvoice_runsAt {result : Except Err Unit}
    (runs : Alone (RunsAt time) (createInvoice invoice) w log result w') :
    w'.store = w.store.happen (.created invoice) := by
  unfold createInvoice at runs
  rcases Alone.bind_cases runs with ⟨_, first, _⟩ | ⟨_, w₁, _, _, first, later, _⟩
  · exact insertInvoice_runsAt first
  · exact (notify_alone (at_of_runsAt later)).store.trans (insertInvoice_runsAt first)

theorem getCurrencyByID_alone {currency : UUID} {result : Except Err Currency}
    (runs : Alone (At time) (getCurrencyByID currency) w log result w') : w.Unwritten w' := by
  unfold getCurrencyByID at runs
  rcases Alone.bind_cases runs with ⟨_, first, _⟩ | ⟨_, w₁, _, _, first, ended, _⟩
  · obtain ⟨_, _, _, asks, _, ended⟩ := Alone.call_cases first
    obtain ⟨_, _, rfl⟩ := Alone.ret_cases ended
    exact asks.unwritten rfl
  · obtain ⟨_, _, _, asks, _, answered⟩ := Alone.call_cases first
    obtain ⟨_, _, rfl⟩ := Alone.ret_cases answered
    obtain ⟨_, _, rfl⟩ := Alone.ret_cases ended
    exact asks.unwritten rfl

/-- `GetInvoice` reads only. -/
theorem getInvoice_alone {result : Except Err Invoice}
    (runs : Alone (At time) (getInvoice id) w log result w') : w.Unwritten w' := by
  unfold getInvoice at runs
  have reads : ∀ {log : List (Called Stmt Stmt.Val Err)} {found : Except Err InvoiceRow}
      {w₁ : World Unit}, Alone (At time) (queryRow (.selectInvoice id)) w log found w₁ →
        w.Unwritten w₁ := by
    intro log found w₁ first
    obtain ⟨_, _, _, asks, _, ended⟩ := Alone.call_cases first
    obtain ⟨_, _, rfl⟩ := Alone.ret_cases ended
    exact asks.unwritten rfl
  rcases Alone.bind_cases runs with ⟨_, first, _⟩ | ⟨_, w₁, _, _, first, later, _⟩
  · exact reads first
  have same := reads first
  rcases Alone.bind_cases later with ⟨_, second, _⟩ | ⟨_, w₂, _, _, second, ended, _⟩
  · exact same.trans (getCurrencyByID_alone second)
  · obtain ⟨_, _, rfl⟩ := Alone.ret_cases ended
    exact same.trans (getCurrencyByID_alone second)

theorem notifyExpired_alone {result : Except Err Unit}
    (runs : Alone (At time) (notifyExpired id) w log result w') : w.Settled w' := by
  unfold notifyExpired at runs
  rcases Alone.bind_cases runs with ⟨_, first, _⟩ | ⟨_, w₁, _, _, first, later, _⟩
  · exact (getInvoice_alone first).settled
  · exact (getInvoice_alone first).settled.trans (notify_alone later)

/-- `CancelInvoice` closes the invoice, if it is waiting and not over. -/
theorem cancelInvoice_runsAt {result : Except Err Invoice}
    (runs : Alone (RunsAt time) (cancelInvoice id) w log result w') :
    w'.store = w.store.happen (.cancelled time id) := by
  unfold cancelInvoice at runs
  rcases Alone.bind_cases runs with ⟨_, clock, _⟩ | ⟨now, w₁, _, _, clock, runs, _⟩
  · obtain ⟨_, _, ran⟩ := (Alone.query_cases clock).1
    cases ran
  obtain ⟨_, rfl, ran⟩ := (Alone.query_cases clock).1
  cases ran
  rcases Alone.bind_cases runs with ⟨_, closes, _⟩ | ⟨affected, w₂, _, _, closes, runs, _⟩
  · obtain ⟨_, _, ran⟩ := (Alone.query_cases closes).1
    obtain ⟨_, impossible, _⟩ := Stmt.run_cancelInvoice ran
    cases impossible
  obtain ⟨_, _, ran⟩ := (Alone.query_cases closes).1
  obtain ⟨_, _, rfl⟩ := Stmt.run_cancelInvoice ran
  split at runs
  · obtain ⟨_, _, rfl⟩ := Alone.ret_cases runs
    rfl
  rcases Alone.bind_cases runs with ⟨_, reads, _⟩ | ⟨invoice, w₃, _, _, reads, runs, _⟩
  · exact (getInvoice_alone (at_of_runsAt reads)).store
  have same := (getInvoice_alone (at_of_runsAt reads)).store
  rcases Alone.bind_cases runs with ⟨_, announces, _⟩ | ⟨_, w₄, _, _, announces, ended, _⟩
  · exact (notify_alone (at_of_runsAt announces)).store.trans same
  · obtain ⟨_, _, rfl⟩ := Alone.ret_cases ended
    exact (notify_alone (at_of_runsAt announces)).store.trans same

/-- `MarkExpired` closes the waiting invoices that are over. -/
theorem markExpired_runsAt {result : Except Err PUnit}
    (runs : Alone (RunsAt time) markExpired w log result w') :
    w'.store = w.store.happen (.expired time) := by
  have announces : ∀ {ids : List InvoiceID} {log : List (Called Stmt Stmt.Val Err)}
      {result : Except Err PUnit} {w₁ : World Unit},
      Alone (At time) (ids.forM notifyExpired) w₁ log result w' → w₁.Settled w' := by
    intro ids
    induction ids with
    | nil =>
        intro _ _ _ ended
        obtain ⟨_, _, rfl⟩ := Alone.ret_cases ended
        exact ⟨rfl, rfl⟩
    | cons id rest ih =>
        intro _ _ _ runs
        rw [List.forM_eq_forM, List.forM_cons] at runs
        rcases Alone.bind_cases runs with ⟨_, first, _⟩ | ⟨_, w₂, _, _, first, later, _⟩
        · exact notifyExpired_alone first
        · exact (notifyExpired_alone first).trans (ih later)
  unfold markExpired at runs
  rcases Alone.bind_cases runs with ⟨_, clock, _⟩ | ⟨now, w₁, _, _, clock, runs, _⟩
  · obtain ⟨_, _, ran⟩ := (Alone.query_cases clock).1
    cases ran
  obtain ⟨_, rfl, ran⟩ := (Alone.query_cases clock).1
  cases ran
  rcases Alone.bind_cases runs with ⟨_, closes, _⟩ | ⟨ids, w₂, _, _, closes, runs, _⟩
  · obtain ⟨_, _, ran⟩ := (Alone.query_cases closes).1
    obtain ⟨_, ⟨_, impossible, _⟩, _⟩ := Stmt.run_markExpired ran
    cases impossible
  obtain ⟨_, _, ran⟩ := (Alone.query_cases closes).1
  obtain ⟨_, _, rfl⟩ := Stmt.run_markExpired ran
  exact (announces (at_of_runsAt runs)).store

omit [Libraries] in
/-- Every invoice that the service makes of a request is new. -/
theorem new_of_convertNewInvoice {handler : Handler} {newInvoice : NewInvoice}
    {recipient : AccountID} (converted : convertNewInvoice handler newInvoice recipient id time =
      .ok invoice) : invoice.New :=
  have accepted := accepted_of_convertNewInvoice converted
  ⟨accepted.status, accepted.overpayment⟩

end Effects

/-! ## Runs -/

/-- A call of `SavePayments` commits. Its later statements may fail. -/
def Commits (time : Time) (call : PaymentCall) (w w' : World Unit) : Prop :=
  (∃ log result, Alone (At time) (savePayments call) (w.start () (.savePayments call)) log result w') ∧
    w.history.calls.length < w'.history.calls.length

/-- An operation on invoices. -/
inductive Operation where
  | createInvoice (invoice : Invoice)
  | savePayments (call : PaymentCall)
  | cancelInvoice (id : InvoiceID)
  | markExpired

/-- What an operation means for the invoices. -/
def Operation.events (time : Time) : Operation → List Event
  | .createInvoice invoice => [.created invoice]
  | .savePayments call => call.recorded.map (.received time)
  | .cancelInvoice id => [.cancelled time id]
  | .markExpired => [.expired time]

/-- An operation is one step. -/
inductive Happens (time : Time) (w : World Unit) : Operation → World Unit → Prop where
  | createInvoice {invoice : Invoice} {log : List (Called Stmt Stmt.Val Err)}
      {result : Except Err Unit} {w' : World Unit} (new : invoice.New)
      (runs : Alone (RunsAt time) (createInvoice invoice) (w.start () (.createInvoice invoice)) log
        result w') : Happens time w (.createInvoice invoice) w'
  | savePayments {call : PaymentCall} {w' : World Unit} (commits : Commits time call w w') :
      Happens time w (.savePayments call) w'
  | cancelInvoice {id : InvoiceID} {log : List (Called Stmt Stmt.Val Err)}
      {result : Except Err Invoice} {w' : World Unit}
      (runs : Alone (RunsAt time) (cancelInvoice id) (w.start () (.cancelInvoice id)) log result w') :
      Happens time w (.cancelInvoice id) w'
  | markExpired {log : List (Called Stmt Stmt.Val Err)} {result : Except Err PUnit} {w' : World Unit}
      (runs : Alone (RunsAt time) markExpired (w.start () .markExpired) log result w') :
      Happens time w .markExpired w'

/-- A run of operations, with what has happened. The process may restart in between. -/
inductive InvoiceRun (w : World Unit) : List Event → World Unit → Prop where
  | nil : InvoiceRun w [] w
  | step {events : List Event} {time : Time} {operation : Operation} {w₁ w₂ : World Unit}
      (before : InvoiceRun w events w₁) (happens : Happens time w₁ operation w₂) :
      InvoiceRun w (events ++ operation.events time) w₂
  | restart {events : List Event} {w₁ : World Unit} (before : InvoiceRun w events w₁) :
      InvoiceRun w events w₁.restart

section Runs

variable {time : Time} {w w' : World Unit} {events : List Event}

theorem Commits.store {call : PaymentCall} (commits : Commits time call w w') :
    w'.store = w.store.receiveAll time call.recorded := by
  obtain ⟨⟨log, result, runs⟩, grows⟩ := commits
  rcases savePayments_alone (by simp) runs with ⟨settled, _⟩ | receives
  · rw [settled.calls] at grows
    exact absurd grows (lt_irrefl _)
  · exact receives.store

theorem Happens.store {operation : Operation} (happens : Happens time w operation w') :
    w'.store = (operation.events time).foldl Store.happen w.store := by
  cases happens with
  | createInvoice new runs =>
      have stored := createInvoice_runsAt runs
      exact stored
  | savePayments commits =>
      rw [commits.store, Store.receiveAll, Operation.events, List.foldl_map]
      rfl
  | cancelInvoice runs =>
      have closed := cancelInvoice_runsAt runs
      exact closed
  | markExpired runs =>
      have closed := markExpired_runsAt runs
      exact closed

/-- Only new invoices are created. -/
theorem Happens.new {operation : Operation} (happens : Happens time w operation w')
    {invoice : Invoice} (member : .created invoice ∈ operation.events time) : invoice.New := by
  cases happens with
  | createInvoice new runs =>
      obtain rfl := Event.created.inj (List.mem_singleton.mp member)
      exact new
  | savePayments commits =>
      obtain ⟨_, _, same⟩ := List.mem_map.mp member
      cases same
  | cancelInvoice runs => cases List.mem_singleton.mp member
  | markExpired runs => cases List.mem_singleton.mp member

theorem InvoiceRun.store (run : InvoiceRun w events w') :
    w'.store = events.foldl Store.happen w.store := by
  induction run with
  | nil => rfl
  | step _ happens ih => rw [happens.store, ih, List.foldl_append]
  | restart _ ih => exact ih

theorem InvoiceRun.new (run : InvoiceRun w events w') :
    ∀ invoice, Event.created invoice ∈ events → invoice.New := by
  induction run with
  | nil => exact fun _ impossible => by cases impossible
  | step _ happens ih =>
      intro invoice member
      rcases List.mem_append.mp member with earlier | now
      · exact ih invoice earlier
      · exact happens.new now
  | restart _ ih => exact ih

theorem InvoiceRun.currencies (run : InvoiceRun w events w') :
    w'.db.currencies = w.db.currencies := by
  change w'.store.currencies = w.store.currencies
  rw [run.store, Store.currencies_foldl]

/-- What is stored after a run. -/
theorem InvoiceRun.shows (empty : w.db.invoices = .empty) (run : InvoiceRun w events w')
    (id : InvoiceID) : Shows w.db.currencies events id (w'.db.invoices.find id) := by
  have shown := Store.shows_foldl (s := w.store) empty run.new id
  rw [← run.store] at shown
  exact shown

/-- **Every row is that of the reference ledger.** A row that is stored is that of the
first invoice of its ID, and says what the events since then say. No later call of
`SavePayments` stores a row, changes the row of an invoice that none of its payments is
for, or changes the status of an invoice that is not waiting. -/
theorem rows_referenced (empty : w.db.invoices = .empty) (run : InvoiceRun w events w')
    (id : InvoiceID) :
    (∀ row, w'.db.invoices.find id = some row → ∃ before invoice after currency,
      events = before ++ .created invoice :: after ∧
        First (Stores w.db.currencies id) before (.created invoice) ∧
        w.db.currencies.of invoice.currency = some currency ∧
        Reference invoice currency after row ∧
        ∀ time call w'', Commits time call w' w'' →
          ((∀ payment ∈ call.recorded, ¬ payment.For invoice) →
            w''.db.invoices.find id = some row) ∧
          (row.status ≠ .waiting → ∃ row', w''.db.invoices.find id = some row' ∧
            row'.status = row.status)) ∧
      (w'.db.invoices.find id = none → Never (Stores w.db.currencies id) events ∧
        ∀ time call w'', Commits time call w' w'' → w''.db.invoices.find id = none) := by
  have shown := run.shows empty id
  have currencies : w'.store.currencies = w.db.currencies := run.currencies
  constructor
  · intro row found
    rw [found] at shown
    obtain _ | ⟨place, first, tracked, booked⟩ := shown
    refine ⟨_, _, _, _, place, first, tracked, booked.reference, fun time call w'' commits => ?_⟩
    have received : w''.db.invoices.find id =
        (w'.store.receiveAll time call.recorded).invoices.find id := by
      rw [← commits.store]
      rfl
    rw [← currencies] at tracked
    exact ⟨fun others => received.trans (Store.find_receiveAll_of_others found booked tracked others),
      fun closed => received ▸ Store.status_receiveAll found closed⟩
  · intro absent
    rw [absent] at shown
    obtain ⟨never⟩ := shown
    refine ⟨never, fun time call w'' commits => ?_⟩
    have received : w''.db.invoices.find id =
        (w'.store.receiveAll time call.recorded).invoices.find id := by
      rw [← commits.store]
      rfl
    exact received.trans (Store.find_receiveAll_of_none absent)

end Runs

/-! ## Runs that are computed -/

namespace Operation

/-- What a program leads to, when everything works. -/
def ended {α : Type} (choice : Choice) (program : Action α) (w : World Unit) :
    Option (World Unit) :=
  (program.eval (Stmt.run choice ()) w).map Prod.snd

/-- What an operation leads to at a time when everything works. -/
def run (time : Time) (w : World Unit) : Operation → Option (World Unit)
  | .createInvoice invoice =>
      if invoice.status = .waiting ∧ invoice.overpayment = 0 then
        ended (.plain time) (SpiceHarvester.createInvoice invoice) (w.start () (.createInvoice invoice))
      else none
  | .savePayments call =>
      (ended (.plain time) (SpiceHarvester.savePayments call) (w.start () (.savePayments call))).filter
        fun w' => w.history.calls.length < w'.history.calls.length
  | .cancelInvoice id =>
      ended (.plain time) (SpiceHarvester.cancelInvoice id) (w.start () (.cancelInvoice id))
  | .markExpired =>
      let ids := (w.closed .expired (expirable time)).map Snapshot.id
      ended { Choice.plain time with ids := ids } SpiceHarvester.markExpired (w.start () .markExpired)

theorem runsAt_of_ended {α : Type} {choice : Choice} {time : Time} {program : Action α}
    {w w' : World Unit} (clock : choice.clock = time) (leads : ended choice program w = some w') :
    ∃ log result, Alone (RunsAt time) program w log result w' := by
  obtain ⟨⟨result, _⟩, evaluates, rfl⟩ := Option.map_eq_some_iff.mp leads
  have executes : ∃ log, Alone (RunsAt time) program w log result _ :=
    Alone.of_eval (fun op s a s' answers => ⟨choice, clock, answers⟩) evaluates
  obtain ⟨log, runs⟩ := executes
  exact ⟨log, result, runs⟩

/-- What is computed happens. -/
theorem happens {time : Time} {w w' : World Unit} {operation : Operation}
    (leads : operation.run time w = some w') : Happens time w operation w' := by
  cases operation with
  | createInvoice invoice =>
      obtain ⟨new, leads⟩ := Option.ite_none_right_eq_some.mp leads
      obtain ⟨log, result, runs⟩ := runsAt_of_ended rfl leads
      exact .createInvoice ⟨new.1, new.2⟩ runs
  | savePayments call =>
      obtain ⟨leads, commits⟩ := Option.filter_eq_some_iff.mp leads
      obtain ⟨log, result, runs⟩ := runsAt_of_ended rfl leads
      exact .savePayments ⟨⟨log, result, at_of_runsAt runs⟩, of_decide_eq_true commits⟩
  | cancelInvoice id =>
      obtain ⟨log, result, runs⟩ := runsAt_of_ended rfl leads
      exact .cancelInvoice runs
  | markExpired =>
      obtain ⟨log, result, runs⟩ := runsAt_of_ended rfl leads
      exact .markExpired runs

/-- What operations lead to, each at its time. -/
def runAll : List (Time × Operation) → World Unit → Option (World Unit)
  | [], w => some w
  | (time, operation) :: rest, w => (operation.run time w).bind (runAll rest)

/-- What operations mean for the invoices. -/
def allEvents (operations : List (Time × Operation)) : List Event :=
  operations.flatMap fun operation => operation.2.events operation.1

/-- **What is computed is a run.** -/
theorem invoiceRun {operations : List (Time × Operation)} {start w w' : World Unit}
    {before : List Event} (earlier : InvoiceRun start before w)
    (leads : runAll operations w = some w') :
    InvoiceRun start (before ++ allEvents operations) w' := by
  induction operations generalizing w before with
  | nil =>
      cases leads
      rw [allEvents, List.flatMap_nil, List.append_nil]
      exact earlier
  | cons first rest ih =>
      obtain ⟨w₁, leads, later⟩ := Option.bind_eq_some_iff.mp leads
      have run := ih (earlier.step (happens leads)) later
      rw [List.append_assoc] at run
      exact run

end Operation

end Operations

/-! ## Payments before and after an invoice -/

namespace Shop

attribute [local instance] Texts.libraries

/-- The shop before its first invoice. -/
def opened : World Unit := .idle { database with invoices := .empty }

/-- The invoice that is created. -/
def order : Invoice := invoice.invoice .ton

/-- The invoice is paid in two parts, and somebody pays a third time. -/
def paidTwice : List (Time × Operation) :=
  [(0, .createInvoice order), (1, .savePayments (call 1 4)), (2, .savePayments (call 2 6)),
    (3, .markExpired), (4, .savePayments (call 3 3))]

/-- The row of the invoice is that of the reference ledger: it is paid, with 3 too much. -/
theorem paid_twice_referenced : ∃ w' row, InvoiceRun opened (Operation.allEvents paidTwice) w' ∧
    w'.db.invoices.find 7 = some row ∧ row.status = .paid ∧ row.overpayment = 3 ∧
    ∃ invoice currency after, Reference invoice currency after row := by
  have computed : ((Operation.runAll paidTwice opened).bind fun w' =>
      (w'.db.invoices.find 7).map fun row =>
        decide (row.status = .paid ∧ row.overpayment = 3)) = some true := by
    decide +kernel
  obtain ⟨w', leads, found⟩ := Option.bind_eq_some_iff.mp computed
  obtain ⟨row, stored, holds⟩ := Option.map_eq_some_iff.mp found
  obtain ⟨paid, three⟩ := of_decide_eq_true holds
  have run := Operation.invoiceRun .nil leads
  obtain ⟨_, invoice, after, currency, _, _, _, reference, _⟩ :=
    (rows_referenced rfl run 7).1 row stored
  exact ⟨w', row, run, stored, paid, three, invoice, currency, after, reference⟩

/-- The payment comes before the invoice. -/
def early : List (Time × Operation) :=
  [(0, .savePayments (call 1 10)), (1, .createInvoice order)]

/-- A payment that names an invoice before it is created is received for nobody: the row
does not count all the payments that name the invoice. -/
theorem early_payment_forgotten : ¬ ∀ (w w' : World Unit) (events : List Event),
    w.db.invoices = .empty → InvoiceRun w events w' →
    ∀ invoice row, .created invoice ∈ events → w'.db.invoices.find invoice.id = some row →
      row.overpayment = total invoice events - if row.status = .paid then invoice.amount else 0 := by
  intro counts
  have computed : ((Operation.runAll early opened).bind fun w' =>
      (w'.db.invoices.find order.id).map fun row => decide (row.overpayment ≠
        total order (Operation.allEvents early) -
          if row.status = .paid then order.amount else 0)) = some true := by
    decide +kernel
  obtain ⟨w', leads, found⟩ := Option.bind_eq_some_iff.mp computed
  obtain ⟨row, stored, differs⟩ := Option.map_eq_some_iff.mp found
  refine of_decide_eq_true differs (counts opened w' _ rfl (Operation.invoiceRun .nil leads) order
    row ?_ stored)
  decide

end Shop

end SpiceHarvester
