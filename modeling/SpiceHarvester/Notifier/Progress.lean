import SpiceHarvester.Interleaving.Alone
import SpiceHarvester.Lists
import SpiceHarvester.Schedule
import SpiceHarvester.Service

/-!
# What a round of the notifier delivers

A round reads the ten oldest rows of the outbox, and the invoice of each. An invoice that
cannot be printed is skipped, and its rows stay. When nothing fails, a round delivers the
invoices of its batch that can be printed, and no others (`notifierRound_delivers`). So it
delivers one exactly if there is one among the ten oldest, however many may wait behind
them (`delivers_iff`).
-/

set_option autoImplicit false

namespace SpiceHarvester

open Interleaving Lists Sql

section Rounds

variable [Libraries]

/-- What `GetInvoice` reads. -/
def Database.invoiceOf (db : Database) (id : InvoiceID) : Except Err Invoice :=
  match db.invoices.find id with
  | none => .error .notFound
  | some row =>
      match db.currencies.table.find row.currency with
      | none => .error .notFound
      | some currency => currency.decode.map row.invoice

/-- The invoice can be printed. -/
def Printing.prints (printing : Printing) (invoice : Invoice) : Bool :=
  (convertInvoiceToPrintablePrivate printing invoice).isOk

/-- An order in which the query may return the rows of the outbox. -/
def Database.Batch (db : Database) (batch : List Notification) : Prop :=
  batch.Perm db.notifications ∧
    batch.Pairwise fun entry later => entry.row.updatedAt ≤ later.row.updatedAt

/-- What is delivered of a batch of invoices. -/
def deliveries (printing : Printing) (invoices : List Invoice) : List Snapshot :=
  (invoices.filter printing.prints).map fun invoice =>
    ⟨invoice.id, invoice.status, invoice.version⟩

/-- What is delivered where the invoices have to be read first. -/
def deliveriesOf (printing : Printing) (read : Except Err (List Invoice)) : List Snapshot :=
  match read with
  | .ok invoices => deliveries printing invoices
  | .error _ => []

variable {τ : Type} [DecidableEq τ] [Fintype τ]

/-- A statement does not fail, and the webhook accepts what it is sent. -/
def Stmt.Answers (t : τ) (op : Stmt) (w : World τ) (answer : Except Err op.Val) (w' : World τ) :
    Prop :=
  ∃ choice : Choice, choice.delivered = true ∧ op.run choice t w = some (answer, w')

/-- Every round that is not disturbed and in which nothing fails delivers something. -/
def World.Delivers (printing : Printing) (t : τ) (w : World τ) : Prop :=
  ∀ (log : List (Called Stmt Stmt.Val Err)) (result : Except Err Unit) (w' : World τ),
    Alone (Stmt.Answers t) (notifierRound printing) w log result w' →
    w.history.delivered.length < w'.history.delivered.length

variable {t : τ} {w w' : World τ} {log : List (Called Stmt Stmt.Val Err)} {printing : Printing}

/-! ## Reading -/

/-- The tables and what has been recorded are as before. -/
structure World.Same (w w' : World τ) : Prop where
  db : w'.db = w.db
  history : w'.history = w.history

omit [DecidableEq τ] [Fintype τ] in
theorem World.Same.refl (w : World τ) : w.Same w := ⟨rfl, rfl⟩

omit [DecidableEq τ] [Fintype τ] in
theorem World.Same.trans {w₁ : World τ} (first : w.Same w₁) (later : w₁.Same w') : w.Same w' :=
  ⟨later.db.trans first.db, later.history.trans first.history⟩

/-- `GetInvoice` reads the invoice, and changes nothing. -/
theorem getInvoice_answers {id : InvoiceID} {result : Except Err Invoice}
    (runs : Alone (Stmt.Answers t) (getInvoice id) w log result w') :
    result = w.db.invoiceOf id ∧ w.Same w' := by
  obtain ⟨answer, w₁, _, ⟨choice, _, ran⟩, _, rest⟩ := Alone.call_cases runs
  simp only [Stmt.run, Option.some.injEq, Prod.mk.injEq] at ran
  obtain ⟨rfl, rfl⟩ := ran
  cases found : w.db.invoices.find id with
  | none =>
      rw [found] at rest
      obtain ⟨_, rfl, rfl⟩ := Alone.ret_cases rest
      exact ⟨by rw [Database.invoiceOf, found]; rfl, rfl, rfl⟩
  | some row =>
      rw [found] at rest
      obtain ⟨answer, w₂, _, ⟨choice, _, ran⟩, _, rest⟩ := Alone.call_cases rest
      simp only [Stmt.run, Option.some.injEq, Prod.mk.injEq, World.db_setThread] at ran
      obtain ⟨rfl, rfl⟩ := ran
      cases found' : w.db.currencies.table.find row.currency with
      | none =>
          rw [found'] at rest
          obtain ⟨_, rfl, rfl⟩ := Alone.ret_cases rest
          refine ⟨?_, rfl, rfl⟩
          simp only [Database.invoiceOf, found, found']
          rfl
      | some currency =>
          rw [found'] at rest
          have read : w.db.invoiceOf id = currency.decode.map row.invoice := by
            simp only [Database.invoiceOf, found, found']
          rw [read]
          change Alone _ ((Prog.ret currency.decode : Action Currency).bind fun currency =>
            .ret (.ok (row.invoice currency))) _ _ _ _ at rest
          cases decoded : currency.decode with
          | error error =>
              rw [decoded] at rest
              obtain ⟨_, rfl, rfl⟩ := Alone.ret_cases rest
              exact ⟨rfl, rfl, rfl⟩
          | ok currency =>
              rw [decoded] at rest
              obtain ⟨_, rfl, rfl⟩ := Alone.ret_cases rest
              exact ⟨rfl, rfl, rfl⟩

theorem getInvoicesByIDs_answers {ids : List InvoiceID} {result : Except Err (List Invoice)}
    (runs : Alone (Stmt.Answers t) (getInvoicesByIDs ids) w log result w') :
    result = ids.mapM w.db.invoiceOf ∧ w.Same w' := by
  induction ids generalizing w w' log result with
  | nil =>
      obtain ⟨_, rfl, rfl⟩ := Alone.ret_cases runs
      exact ⟨rfl, .refl _⟩
  | cons id rest ih =>
      rw [getInvoicesByIDs, List.mapM_cons] at runs
      rw [List.mapM_cons]
      rcases Alone.bind_cases runs with ⟨error, first, rfl⟩ | ⟨invoice, w₁, _, _, first, runs, _⟩
      · obtain ⟨read, same⟩ := getInvoice_answers first
        rw [← read]
        exact ⟨rfl, same⟩
      · obtain ⟨read, same⟩ := getInvoice_answers first
        rw [← read]
        rcases Alone.bind_cases runs with ⟨error, first, rfl⟩ | ⟨invoices, w₂, _, _, first, runs, _⟩
        · obtain ⟨read', same'⟩ := ih first
          rw [same.db] at read'
          rw [← read']
          exact ⟨rfl, same.trans same'⟩
        · obtain ⟨read', same'⟩ := ih first
          rw [same.db] at read'
          obtain ⟨_, rfl, rfl⟩ := Alone.ret_cases runs
          rw [← read']
          exact ⟨rfl, same.trans same'⟩

/-! ## Sending -/

theorem deliveries_cons (invoice : Invoice) (rest : List Invoice) :
    deliveries printing (invoice :: rest) =
      deliveries printing [invoice] ++ deliveries printing rest := by
  rw [deliveries, deliveries, deliveries, ← List.map_append, ← List.filter_append]
  rfl

/-- An invoice is delivered if it can be printed, and skipped if not. -/
theorem notifyInvoice_answers {invoice : Invoice} {result : Except Err Unit}
    (runs : Alone (Stmt.Answers t) (notifyInvoice printing invoice) w log result w') :
    result = .ok () ∧ w'.history.delivered =
      w.history.delivered ++ deliveries printing [invoice] := by
  unfold notifyInvoice at runs
  cases printed : convertInvoiceToPrintablePrivate printing invoice with
  | error error =>
      have prints : printing.prints invoice = false := by
        rw [Printing.prints, printed]
        rfl
      rw [printed] at runs
      obtain ⟨⟨choice, _, ran⟩, _⟩ := Alone.query_cases runs
      simp only [Stmt.run, Option.some.injEq, Prod.mk.injEq] at ran
      obtain ⟨rfl, rfl⟩ := ran
      exact ⟨rfl, by simp [deliveries, prints]⟩
  | ok printable =>
      have prints : printing.prints invoice = true := by
        rw [Printing.prints, printed]
        rfl
      rw [printed] at runs
      obtain ⟨answer, w₁, _, ⟨choice, accepted, ran⟩, _, runs⟩ := Alone.call_cases runs
      simp only [Stmt.run, accepted, if_true, Option.some.injEq, Prod.mk.injEq] at ran
      obtain ⟨rfl, rfl⟩ := ran
      obtain ⟨⟨choice', _, ran⟩, _⟩ := Alone.query_cases runs
      simp only [Stmt.run, Option.some.injEq, Prod.mk.injEq] at ran
      obtain ⟨rfl, rfl⟩ := ran
      refine ⟨rfl, ?_⟩
      rw [deliveries, List.filter_cons_of_pos prints]
      rfl

theorem notify_answers {invoices : List Invoice} {result : Except Err Unit}
    (runs : Alone (Stmt.Answers t) (notify printing invoices) w log result w') :
    result = .ok () ∧ w'.history.delivered =
      w.history.delivered ++ deliveries printing invoices := by
  induction invoices generalizing w log with
  | nil =>
      obtain ⟨_, rfl, rfl⟩ := Alone.ret_cases runs
      exact ⟨rfl, (List.append_nil _).symm⟩
  | cons invoice rest ih =>
      have parts : Alone (Stmt.Answers t) (notifyInvoice printing invoice >>= fun _ =>
        notify printing rest) w log result w' := runs
      rcases Alone.bind_cases parts with ⟨error, first, _⟩ | ⟨_, w₁, _, _, first, runs, _⟩
      · cases (notifyInvoice_answers first).1
      · obtain ⟨_, delivered⟩ := notifyInvoice_answers first
        obtain ⟨ok, delivered'⟩ := ih runs
        refine ⟨ok, ?_⟩
        rw [delivered', delivered, List.append_assoc, deliveries_cons invoice rest]

/-- The round, once it has read its batch. -/
def deliver (printing : Printing) (read : Except Err (List Invoice)) : Action Unit :=
  match read with
  | .error _ => return ()
  | .ok invoices => do
      let _ ← (notify printing invoices).attempt
      return ()

theorem notifierRound_eq (printing : Printing) :
    notifierRound printing = (getInvoiceNotifications 10).attempt >>= deliver printing := rfl

theorem deliver_answers {read : Except Err (List Invoice)} {result : Except Err Unit}
    (runs : Alone (Stmt.Answers t) (deliver printing read) w log result w') :
    w'.history.delivered = w.history.delivered ++ deliveriesOf printing read := by
  cases read with
  | error error =>
      obtain ⟨_, _, rfl⟩ := Alone.ret_cases runs
      exact (List.append_nil _).symm
  | ok invoices =>
      obtain ⟨_, w₁, _, _, sends, runs, _⟩ := Alone.attempt_bind_cases runs
      obtain ⟨_, _, rfl⟩ := Alone.ret_cases runs
      exact (notify_answers sends).2

/-- What is delivered of the first ten rows of a batch. -/
def Database.deliveries (db : Database) (printing : Printing) (batch : List Notification) :
    List Snapshot :=
  deliveriesOf printing (((batch.take 10).map fun entry => entry.row.id).mapM db.invoiceOf)

/-- **What a round delivers**: the invoices of its batch that can be printed. -/
theorem notifierRound_delivers {result : Except Err Unit}
    (runs : Alone (Stmt.Answers t) (notifierRound printing) w log result w') :
    ∃ batch, w.db.Batch batch ∧
      w'.history.delivered = w.history.delivered ++ w.db.deliveries printing batch := by
  rw [notifierRound_eq] at runs
  obtain ⟨read, w₁, _, _, begins, runs, _⟩ := Alone.attempt_bind_cases runs
  obtain ⟨answer, w₂, _, ⟨choice, _, ran⟩, _, reads⟩ := Alone.call_cases begins
  obtain ⟨batch, perm, sorted, rfl, rfl⟩ := Stmt.run_selectNotifications ran
  obtain ⟨read', same⟩ := getInvoicesByIDs_answers reads
  refine ⟨batch, ⟨perm, sorted⟩, ?_⟩
  rw [deliver_answers runs, same.history, read']
  rfl

/-! ## A round for every batch -/

/-- Nothing fails, and the outbox is read in an order. -/
def answering (batch : List Notification) : Choice :=
  ⟨0, batch, [], [], true, .error .failed, .error .failed⟩

theorem call_total {α : Type} {op : Stmt} {next : Except Err op.Val → Action α}
    (answers : ∀ w : World τ, (op.run (answering []) t w).isSome)
    (rest : ∀ answer, Total (Stmt.Answers t) (next answer)) :
    Total (Stmt.Answers t) (.call op next) := by
  refine .call (fun w => ?_) rest
  obtain ⟨⟨answer, w'⟩, ran⟩ := Option.isSome_iff_exists.mp (answers w)
  exact ⟨answer, w', answering [], rfl, ran⟩

theorem getInvoicesByIDs_total (ids : List InvoiceID) :
    Total (Stmt.Answers t) (getInvoicesByIDs ids) := by
  have row : ∀ id, Total (Stmt.Answers t) (queryRow (.selectInvoice id)) :=
    fun id => call_total (fun w => rfl) fun _ => .ret _
  have currency : ∀ id, Total (Stmt.Answers t) (queryRow (.selectCurrency id)) :=
    fun id => call_total (fun w => rfl) fun _ => .ret _
  have one : ∀ id, Total (Stmt.Answers t) (getInvoice id) := fun id =>
    (row id).bind fun row => ((currency row.currency).bind fun _ => .ret _).bind fun _ => .ret _
  induction ids with
  | nil => exact .ret _
  | cons id rest ih =>
      rw [getInvoicesByIDs, List.mapM_cons]
      exact (one id).bind fun _ => ih.bind fun _ => .ret _

theorem notify_total (invoices : List Invoice) :
    Total (Stmt.Answers t) (notify printing invoices) := by
  have one : ∀ invoice, Total (Stmt.Answers t) (notifyInvoice printing invoice) := by
    intro invoice
    unfold notifyInvoice
    cases convertInvoiceToPrintablePrivate printing invoice with
    | error error => exact call_total (fun w => rfl) fun _ => .ret _
    | ok printable =>
        have sends : Total (Stmt.Answers t) (perform (.send invoice printable)) :=
          call_total (fun w => rfl) fun _ => .ret _
        exact sends.bind fun _ => call_total (fun w => rfl) fun _ => .ret _
  induction invoices with
  | nil => exact .ret _
  | cons invoice rest ih => exact (one invoice).bind fun _ => ih

theorem deliver_total (read : Except Err (List Invoice)) :
    Total (Stmt.Answers t) (deliver printing read) := by
  cases read with
  | error error => exact .ret _
  | ok invoices => exact (notify_total invoices).attempt_bind fun _ => .ret _

/-- For every batch there is a round that reads it. -/
theorem round_of_batch (printing : Printing) (t : τ) {batch : List Notification}
    (returned : w.db.Batch batch) :
    ∃ (log : List (Called Stmt Stmt.Val Err)) (result : Except Err Unit) (w' : World τ),
      Alone (Stmt.Answers t) (notifierRound printing) w log result w' ∧
        w'.history.delivered = w.history.delivered ++ w.db.deliveries printing batch := by
  have ran : (Stmt.selectNotifications 10).run (answering batch) t w =
      some (.ok ((batch.take 10).map fun entry => entry.row.id),
        w.setThread t fun thread => { thread with held := [] }) := if_pos returned
  obtain ⟨log, read, w₁, reads⟩ := getInvoicesByIDs_total (t := t)
    ((batch.take 10).map fun entry => entry.row.id)
    (w.setThread t fun thread => { thread with held := [] })
  obtain ⟨read', same⟩ := getInvoicesByIDs_answers reads
  have delivers : Total (Stmt.Answers t) (deliver printing read) := deliver_total read
  obtain ⟨log', result, w', later⟩ := delivers w₁
  have begins : Alone (Stmt.Answers t) (getInvoiceNotifications 10) w _ read w₁ :=
    .call ⟨answering batch, rfl, ran⟩ reads
  refine ⟨_, result, w', begins.attempt_bind later, ?_⟩
  rw [deliver_answers later, same.history, read']
  rfl

/-! ## The result -/

/-- The invoice of the row can be read and printed. -/
def Database.Printable (db : Database) (printing : Printing) (entry : Notification) : Prop :=
  ∃ invoice, db.invoiceOf entry.row.id = .ok invoice ∧ printing.prints invoice = true

theorem deliveriesOf_ne_nil {read : Except Err (List Invoice)} :
    deliveriesOf printing read ≠ [] ↔
      ∃ invoices, read = .ok invoices ∧ ∃ invoice ∈ invoices, printing.prints invoice = true := by
  cases read with
  | error error =>
      exact ⟨fun ne => absurd rfl ne, fun ⟨_, impossible, _⟩ => by cases impossible⟩
  | ok invoices =>
      rw [deliveriesOf, SpiceHarvester.deliveries, ne_eq, List.map_eq_nil_iff,
        List.filter_eq_nil_iff]
      push Not
      exact ⟨fun found => ⟨invoices, rfl, found⟩, fun ⟨_, same, found⟩ => by cases same; exact found⟩

theorem deliveries_ne_nil {db : Database} {batch : List Notification} :
    db.deliveries printing batch ≠ [] ↔
      (∀ entry ∈ batch.take 10, ∃ invoice, db.invoiceOf entry.row.id = .ok invoice) ∧
        ∃ entry ∈ batch.take 10, db.Printable printing entry := by
  rw [Database.deliveries, deliveriesOf_ne_nil]
  simp only [mapM_ok_iff, List.forall₂_map_left_iff]
  generalize batch.take 10 = entries
  constructor
  · rintro ⟨invoices, read, invoice, member, prints⟩
    refine ⟨fun entry member => ?_, ?_⟩
    · obtain ⟨invoice, _, same⟩ := exists_of_forall₂ read member
      exact ⟨invoice, same⟩
    · obtain ⟨entry, member, same⟩ := exists_of_forall₂ read.flip member
      exact ⟨entry, member, invoice, same, prints⟩
  · rintro ⟨readable, entry, member, invoice, read, prints⟩
    obtain ⟨invoices, reads⟩ := exists_forall₂ readable
    obtain ⟨other, member', read'⟩ := exists_of_forall₂ reads member
    rw [read, Except.ok.injEq] at read'
    exact ⟨invoices, reads, invoice, read' ▸ member', prints⟩

/-- **A round delivers something, exactly if the ten oldest rows allow it.** -/
theorem delivers_iff (printing : Printing) (t : τ) (w : World τ) :
    w.Delivers printing t ↔ ∀ batch, w.db.Batch batch →
      (∀ entry ∈ batch.take 10, ∃ invoice, w.db.invoiceOf entry.row.id = .ok invoice) ∧
        ∃ entry ∈ batch.take 10, w.db.Printable printing entry := by
  constructor
  · intro delivers batch returned
    obtain ⟨log, result, w', runs, delivered⟩ := round_of_batch printing t returned
    have more := delivers log result w' runs
    rw [delivered, List.length_append] at more
    exact deliveries_ne_nil.mp (List.ne_nil_of_length_pos (by omega))
  · intro allows log result w' runs
    obtain ⟨batch, returned, delivered⟩ := notifierRound_delivers runs
    have some := List.length_pos_iff.mpr (deliveries_ne_nil.mpr (allows batch returned))
    rw [delivered, List.length_append]
    omega

end Rounds

/-! ## Ten invoices in a jetton that is gone -/

namespace Shop

attribute [local instance] Texts.libraries

/-- An invoice in a jetton. -/
def jettonInvoice (number : ℕ) : InvoiceRow :=
  { invoice with id := BitVec.ofNat 128 (20 + number), currency := 2 }

/-- Ten invoices in a jetton wait before one in TON. -/
def crowded : Database where
  currencies := {
    table := ⟨[⟨1, .ton, ""⟩, ⟨2, .jetton, Libraries.toRaw ⟨0, 7⟩⟩], by decide⟩
    distinct := by decide
    saved := by
      intro row member
      rcases List.mem_cons.mp member with rfl | member
      · exact ⟨.ton, rfl, rfl⟩
      · obtain rfl := List.mem_singleton.mp member
        exact ⟨.jetton ⟨0, 7⟩, rfl, rfl⟩ }
  invoices := ⟨(List.range 10).map jettonInvoice ++ [invoice], by decide⟩
  notifications := (List.range 10).map (fun number => ⟨jettonInvoice number, 0⟩) ++
    [⟨{ invoice with updatedAt := 1000000 }, 0⟩]
  keys := .empty
  accounts := .empty
  transactions := .empty

/-- **The invoice in TON is not delivered**: `printing` lists TON only. -/
theorem round_starved : ¬ ∀ (printing : Printing) (w : World Unit),
    (∃ entry ∈ w.db.notifications, ∃ invoice, w.db.invoiceOf entry.row.id = .ok invoice ∧
      ∃ listed ∈ printing.currencies, listed.2.currency = invoice.currency) →
    w.Delivers printing () := by
  intro always
  have pending : ∃ entry ∈ crowded.notifications, ∃ invoice,
      crowded.invoiceOf entry.row.id = .ok invoice ∧
        ∃ listed ∈ printing.currencies, listed.2.currency = invoice.currency :=
    ⟨⟨{ invoice with updatedAt := 1000000 }, 0⟩, by decide +kernel, invoice.invoice .ton,
      by decide +kernel, ⟨"TON", ⟨.ton, 9⟩⟩, List.mem_cons_self, rfl⟩
  have returned : crowded.Batch crowded.notifications := ⟨.refl _, by decide +kernel⟩
  obtain ⟨log, result, w', runs, delivered⟩ :=
    round_of_batch printing () (w := .idle crowded) returned
  have more := always printing (.idle crowded) pending log result w' runs
  have none : crowded.deliveries printing crowded.notifications = [] := by decide +kernel
  rw [delivered, show (World.idle crowded : World Unit).db = crowded from rfl, none,
    List.append_nil] at more
  exact lt_irrefl _ more

end Shop

end SpiceHarvester
