import SpiceHarvester.Api.Private
import SpiceHarvester.Api.Custody
import SpiceHarvester.Api.HistoryComplete
import SpiceHarvester.Indexer.Calls
import SpiceHarvester.Serial.Effects

/-!
# Who orders and cancels invoices

Only two statements of the service matter here: `INSERT INTO payments.invoices`, and the
`UPDATE` that cancels an invoice. Every other statement, and every commit, leaves the terms of
all invoices as they are and cancels none (`Stmt.run_allInvoices`). The programs call the two
only in the handlers of the private endpoints, which `authMiddleware` guards.

So in every run the stored invoices are those of the beginning and those that private requests
with the token have ordered, with the terms that these have asked for; and an invoice is
cancelled only when such a request has asked for it (`orders_authorized`).
-/

set_option autoImplicit false

namespace SpiceHarvester

open Interleaving Sql

section Process

variable [Libraries]

/-! ## All invoices -/

section Rows

variable {τ : Type} {Q Q' : InvoiceRow → Prop} {w w' : World τ}

/-- `Q` holds of the stored invoices, and of the versions that open transactions have written. -/
structure World.AllInvoices (Q : InvoiceRow → Prop) (w : World τ) : Prop where
  stored : ∀ row ∈ w.db.invoices.rows, Q row
  written : ∀ {t tx}, w.tx t = some tx → ∀ row ∈ tx.invoices, Q row

/-- What the expiry of an invoice and its payments leave as it is. -/
structure InvoiceRow.Lasting (Q : InvoiceRow → Prop) : Prop where
  expire : ∀ {row} time, Q row → Q (row.close .expired time)
  credit : ∀ {row} overpayment time, Q row → Q (row.credit overpayment time)
  pay : ∀ {row} time paidBy overpayment txHash, Q row → Q (row.pay time paidBy overpayment txHash)

theorem World.AllInvoices.mono (all : w.AllInvoices Q) (weaker : ∀ {row}, Q row → Q' row) :
    w.AllInvoices Q' where
  stored row member := weaker (all.stored row member)
  written opened row member := weaker (all.written opened row member)

variable [DecidableEq τ] {t : τ}

/-- One thread does something. -/
theorem World.AllInvoices.step (all : w.AllInvoices Q)
    (others : ∀ {u}, u ≠ t → w'.threads u = w.threads u)
    (stored : ∀ row ∈ w'.db.invoices.rows, Q row)
    (own : ∀ tx, w'.tx t = some tx → ∀ row ∈ tx.invoices, Q row) : w'.AllInvoices Q where
  stored := stored
  written {u tx} opened row member := by
    by_cases same : u = t
    · exact own tx (same ▸ opened) row member
    · exact all.written ((tx_congr (others same)).symm.trans opened) row member

omit [DecidableEq τ] in
/-- A transaction sees versions of which `Q` holds. -/
theorem World.AllInvoices.seen (all : w.AllInvoices Q) {tx : Tx} (opened : w.tx t = some tx)
    {row : InvoiceRow} (member : row ∈ (w.db.invoices.view tx.invoices).rows) : Q row :=
  (Table.mem_view member).elim (all.stored row) (all.written opened row)

omit [DecidableEq τ] in
/-- What an `UPDATE` of a transaction writes. -/
theorem World.AllInvoices.rewrite (all : w.AllInvoices Q) {tx : Tx} (opened : w.tx t = some tx)
    {condition : InvoiceRow → Bool} {f : InvoiceRow → InvoiceRow} (keeps : ∀ {row}, Q row → Q (f row))
    {row : InvoiceRow} (member : row ∈ w.db.invoices.rewrite tx.invoices condition f) : Q row := by
  obtain new | before := List.mem_append.mp member
  · obtain ⟨seen, hit, rfl⟩ := List.mem_map.mp new
    exact keeps (all.seen opened (List.mem_filter.mp hit).1)
  · exact all.written opened row before

/-- What an `UPDATE` outside a transaction stores. -/
theorem World.AllInvoices.close (all : w.AllInvoices Q) {status : InvoiceStatus} {now : Time}
    {condition : InvoiceRow → Bool}
    (keeps : ∀ {row}, condition row = true → Q row → Q (row.close status now)) :
    ∀ row ∈ (w.closeInvoices t status now condition).db.invoices.rows, Q row := by
  intro row member
  obtain ⟨before, among, rfl⟩ := List.mem_map.mp member
  by_cases hit : condition before = true
  · rw [if_pos hit]
    exact keeps hit (all.stored before among)
  · rw [if_neg hit]
    exact all.stored before among

theorem World.AllInvoices.leave (all : w.AllInvoices Q) (t : τ) : (w.leave t).AllInvoices Q :=
  all.step (t := t) threads_leave_of_ne all.stored fun tx opened => by
    rw [World.tx, threads_leave] at opened
    cases opened

theorem World.AllInvoices.start (all : w.AllInvoices Q) (t : τ) (job : Job) :
    (w.start t job).AllInvoices Q :=
  all.step (t := t) threads_start_of_ne all.stored fun tx opened => by
    rw [World.tx, threads_start] at opened
    cases opened

variable [Fintype τ]

/-- **What a statement does to the invoices.** -/
theorem Stmt.run_allInvoices {op : Stmt} {choice : Choice} {answer : Except Err op.Val}
    (lasting : InvoiceRow.Lasting Q) (inserts : ∀ row, op = .insertInvoice row → Q row)
    (cancels : ∀ time id, op = .cancelInvoice time id → ∀ {row : InvoiceRow}, row.id = id → Q row →
      Q (row.close .cancelled time))
    (all : w.AllInvoices Q) (runs : op.run choice t w = some (answer, w')) : w'.AllInvoices Q := by
  have others : ∀ {u}, u ≠ t → w'.threads u = w.threads u := (Stmt.run_kept runs).others
  have same : w = w' → w'.AllInvoices Q := fun same => same ▸ all
  have quiet : ∀ {f : Thread → Thread}, w'.threads = (w.setThread t f).threads →
      (∀ thread, (f thread).tx = thread.tx) → w'.db.invoices = w.db.invoices →
      w'.AllInvoices Q := by
    intro f threads keeps invoices
    refine all.step others (invoices ▸ all.stored) fun tx opened => ?_
    have kept : w'.tx t = w.tx t := (World.tx_congr (congrFun threads t)).trans (World.tx_setThread keeps)
    exact all.written (kept.symm.trans opened)
  have inside : ∀ {tx tx' : Tx}, w.tx t = some tx → w' = w.setTx t tx' →
      (∀ row ∈ tx'.invoices, Q row) → w'.AllInvoices Q := by
    rintro tx tx' opened rfl written
    refine all.step others all.stored fun _ opened' => ?_
    rw [World.tx_setTx opened, Option.some.injEq] at opened'
    exact opened' ▸ written
  have ended : ∀ {f : Thread → Thread}, (∀ thread tx, (f thread).tx = some tx → tx.invoices = []) →
      w'.threads = (w.setThread t f).threads → (∀ row ∈ w'.db.invoices.rows, Q row) →
      w'.AllInvoices Q := by
    intro f empty threads stored
    refine all.step others stored fun tx opened row member => ?_
    have kept : w'.tx t = (w.setThread t f).tx t := World.tx_congr (congrFun threads t)
    obtain ⟨thread, held, opened⟩ := World.tx_eq_some.mp (kept.symm.trans opened)
    rw [World.threads_setThread] at held
    obtain ⟨before, _, rfl⟩ := Option.map_eq_some_iff.mp held
    rw [empty before tx opened] at member
    cases member
  cases op with
  | insertInvoice row =>
      obtain ⟨_, invoices, _, inserted, _, rfl⟩ | ⟨_, rfl⟩ := run_insertInvoice runs
      · refine all.step others (fun stored member => ?_) fun tx opened => ?_
        · obtain before | rfl := Table.mem_getD_insert? (show stored ∈
            ((w.db.invoices.insert? row).getD w.db.invoices).rows by rw [inserted]; exact member)
          · exact all.stored stored before
          · exact inserts stored rfl
        · have kept : (w.create t row invoices).tx t = w.tx t :=
            World.tx_setThread (f := Thread.owe [row.snapshot]) fun _ => rfl
          exact all.written (kept.symm.trans opened)
      · exact all
  | cancelInvoice time id =>
      obtain ⟨_, _, rfl⟩ := run_cancelInvoice runs
      refine all.step others (all.close fun {row} hit => cancels time id rfl ?_) fun tx opened => ?_
      · rw [cancellable, Bool.and_eq_true, Bool.and_eq_true] at hit
        exact of_decide_eq_true hit.1.1
      · have kept : (w.closeInvoices t .cancelled time (cancellable time id)).tx t = w.tx t :=
          World.tx_setThread (f := Thread.owe _) fun _ => rfl
        exact all.written (kept.symm.trans opened)
  | markExpired time =>
      obtain ⟨_, _, rfl⟩ := run_markExpired runs
      refine all.step others (all.close fun _ => lasting.expire time) fun tx opened => ?_
      have kept : (w.closeInvoices t .expired time (expirable time)).tx t = w.tx t :=
        World.tx_setThread (f := Thread.owe _) fun _ => rfl
      exact all.written (kept.symm.trans opened)
  | setOverpayment overpayment time id =>
      obtain ⟨tx, opened, _, _, same⟩ := run_setOverpayment runs
      exact inside opened same fun row => all.rewrite opened (lasting.credit overpayment time)
  | setPaid time paidBy overpayment txHash id =>
      obtain ⟨tx, opened, _, _, same⟩ := run_setPaid runs
      exact inside opened same fun row =>
        all.rewrite opened (lasting.pay time paidBy overpayment txHash)
  | commit =>
      obtain ⟨tx, opened, _, rfl⟩ := run_commit runs
      exact ended (f := Thread.close _ _) (fun _ _ impossible => by cases impossible) rfl
        fun row => all.seen opened
  | begin call =>
      cases runs
      exact ended (fun _ _ opened => by cases opened; rfl) rfl all.stored
  | rollback =>
      cases runs
      exact ended (fun _ _ impossible => by cases impossible) rfl all.stored
  | selectForPayment currency payment time =>
      obtain ⟨tx, opened, _, same⟩ := run_selectForPayment runs
      have written := all.written opened
      exact inside opened same written
  | acceptKey address =>
      obtain ⟨tx, opened, _, _, same⟩ := run_acceptKey runs
      have written := all.written opened
      exact inside opened same written
  | setProcessingError error account lt =>
      obtain ⟨tx, opened, _, same⟩ := run_setProcessingError runs
      have written := all.written opened
      exact inside opened same written
  | setLastProcessed lt account =>
      obtain ⟨tx, opened, _, _, same⟩ := run_setLastProcessed runs
      have written := all.written opened
      exact inside opened same written
  | insertNotification row =>
      obtain ⟨_, _, _, rfl⟩ | ⟨_, _, rfl⟩ := run_insertNotification runs
      · exact quiet rfl (fun _ => rfl) rfl
      · exact all
  | selectNotifications limit =>
      obtain ⟨_, _, _, _, rfl⟩ := run_selectNotifications runs
      exact quiet rfl (fun _ => rfl) rfl
  | deleteNotification id =>
      cases runs
      exact quiet rfl (fun _ => rfl) rfl
  | send invoice printable =>
      simp only [run] at runs
      split at runs <;> cases runs
      · exact all.step others all.stored fun _ => all.written
      · exact quiet rfl (fun _ => rfl) rfl
  | deleteExpiredKeys before =>
      obtain ⟨_, rfl⟩ := run_deleteExpiredKeys runs
      exact all.step others all.stored fun _ => all.written
  | insertKey address key time =>
      cases runs
      split
      · exact ⟨all.stored, all.written⟩
      · exact all
  | updateAccount last block time account =>
      obtain ⟨_, _, rfl⟩ := run_updateAccount runs
      exact all.step others all.stored fun _ => all.written
  | insertTransaction row =>
      cases runs
      split
      · exact ⟨all.stored, all.written⟩
      · exact all
  | selectInvoice id => cases runs; exact quiet rfl (fun _ => rfl) rfl
  | skip invoice =>
      cases runs
      exact quiet rfl (fun _ => rfl) rfl
  | selectLastProcessed account =>
      cases runs
      exact quiet rfl (fun _ => rfl) rfl
  | selectTransactionByParent account lt =>
      cases runs
      exact quiet rfl (fun _ => rfl) rfl
  | getTransactions account lt hash =>
      cases runs
      exact quiet rfl (fun _ => rfl) rfl
  | setLastLt lt =>
      cases runs
      exact quiet rfl (fun _ => rfl) rfl
  | selectGaps account => exact same (run_selectGaps runs).1.symm
  | now => exact same (congrArg Prod.snd (Option.some.inj runs))
  | selectCurrencyID type info => exact same (congrArg Prod.snd (Option.some.inj runs))
  | selectCurrency id => exact same (congrArg Prod.snd (Option.some.inj runs))
  | selectKey address => exact same (congrArg Prod.snd (Option.some.inj runs))
  | selectLtBelow account lt => exact same (congrArg Prod.snd (Option.some.inj runs))
  | selectLastLt account => exact same (congrArg Prod.snd (Option.some.inj runs))
  | getAccountState account => exact same (congrArg Prod.snd (Option.some.inj runs))
  | getLastLt => exact same (congrArg Prod.snd (Option.some.inj runs))

/-- The same, whatever fails. -/
theorem Stmt.runUnder_allInvoices {op : Stmt} {fault : Fault} {choice : Choice}
    {answer : Except Err op.Val} (lasting : InvoiceRow.Lasting Q)
    (inserts : ∀ row, op = .insertInvoice row → Q row)
    (cancels : ∀ time id, op = .cancelInvoice time id → ∀ {row : InvoiceRow}, row.id = id → Q row →
      Q (row.close .cancelled time))
    (all : w.AllInvoices Q) (runs : op.runUnder fault choice t w = some (answer, w')) :
    w'.AllInvoices Q := by
  have failed : ∀ {w : World τ}, w.AllInvoices Q → (w.setThread t Thread.fail).AllInvoices Q := by
    intro w all
    refine all.step (t := t) World.threads_setThread_of_ne all.stored fun tx opened => ?_
    have kept : (w.setThread t Thread.fail).tx t = w.tx t := World.tx_setThread fun _ => rfl
    exact all.written (kept.symm.trans opened)
  obtain ⟨_, ran⟩ | ⟨_, _, _, rfl⟩ | ⟨_, _, _, _, w₀, ran, rfl⟩ := runUnder_cases runs
  · exact run_allInvoices lasting inserts cancels all ran
  · exact failed all
  · exact failed (run_allInvoices lasting inserts cancels all ran)

end Rows

/-! ## The programs -/

/-- A statement, where invoices of `I` may be stored, and invoices with an ID of `C` cancelled. -/
def Stmt.permits (I : InvoiceRow → Prop) (C : InvoiceID → Prop) : Stmt → Prop
  | .insertInvoice row => I row
  | .cancelInvoice _ id => C id
  | _ => True

section Programs

variable {I : InvoiceRow → Prop} {C : InvoiceID → Prop}

/-- The program stores invoices of `I` only, and cancels only those with an ID of `C`. -/
abbrev Permits (I : InvoiceRow → Prop) (C : InvoiceID → Prop) {α : Type} (program : Action α) : Prop :=
  program.Calls (Stmt.permits I C)

theorem getInvoice_permits (id : InvoiceID) : Permits I C (getInvoice id) :=
  getInvoice_calls id trivial fun _ => trivial

theorem announce_permits (invoice : Invoice) : Permits I C (saveInvoice invoice true) :=
  announce_calls invoice (fun _ _ => trivial) fun _ => trivial

/-- `CancelInvoice`. -/
theorem cancelInvoice_permits {id : InvoiceID} (cancels : C id) : Permits I C (cancelInvoice id) := by
  refine Prog.Calls.bind (.query trivial) fun _ => Prog.Calls.bind (.query cancels) fun _ => ?_
  split
  · exact .ret _
  · exact (getInvoice_permits id).bind fun invoice =>
      (announce_permits invoice).bind fun _ => .ret _

variable [Cryptography]

omit [Cryptography] in
/-- **The jobs of the process neither create nor cancel invoices.** -/
theorem runJob_permits (printing : Printing) {job : Job} (opens : (Gate.Errand.task (.job job)).Open) :
    Permits I C (runJob printing job) := by
  cases job with
  | createInvoice invoice => exact opens.elim
  | cancelInvoice id => exact opens.elim
  | markExpired =>
      refine (markExpired_calls.mono fun {op} expires => ?_).bind fun _ => .ret _
      cases op <;> trivial
  | savePayments call =>
      refine ((savePayments_calls call).mono fun {op} indexes => ?_).bind fun _ => .ret _
      cases op <;> trivial
  | indexerWorker account rounds =>
      refine ((indexerWorker_calls account rounds).mono fun {op} indexes => ?_).bind fun _ => .ret _
      cases op <;> trivial
  | loaderWorker account rounds =>
      refine ((loaderWorker_calls account rounds).mono fun {op} loads => ?_).bind fun _ => .ret _
      cases op <;> trivial
  | notifier rounds =>
      refine ((runNotifier_calls printing rounds).mono fun {op} notifies => ?_).bind fun _ => .ret _
      cases op <;> trivial

/-- **Nor do the public endpoints.** -/
theorem handle_permits (handler : Handler) (request : PublicRequest) :
    Permits I C (request.handle handler) := by
  refine (handle_calls handler request).mono fun {op} answers => ?_
  cases op <;> trivial

theorem task_permits (handler : Handler) {task : Task} (opens : (Gate.Errand.task task).Open) :
    Permits I C (task.run handler) := by
  cases task with
  | job job => exact (runJob_permits handler.printing opens).bind fun _ => .ret _
  | request asked => exact (handle_permits handler asked).bind fun _ => .ret _
  | deleteExpiredKeys =>
      have deletes : Permits I C deleteExpiredKeys :=
        Prog.Calls.bind (.query trivial) fun _ => .query trivial
      exact deletes.bind fun _ => .ret _

end Programs

namespace Gate

open Listing (Call Request Refusal Turn lift)

/-! ## The private endpoints -/

section Endpoints

variable {I : InvoiceRow → Prop} {C : InvoiceID → Prop}

/-- A call, where invoices of `I` may be stored, and invoices with an ID of `C` cancelled. -/
def permits (I : InvoiceRow → Prop) (C : InvoiceID → Prop) : Call → Prop
  | .stmt op => op.permits I C
  | _ => True

omit [Libraries] in
theorem lift_permits {α : Type} {program : Action α} (permitted : Permits I C program) :
    (lift program).Calls (permits I C) := by
  induction permitted with
  | ret result => exact .ret result
  | call holds _ ih => exact .call holds ih

theorem getInvoiceHistory_permits (handler : Handler) (limitQuery afterQuery : String) :
    (Listing.getInvoiceHistory handler limitQuery afterQuery).Calls (permits I C) := by
  have reads : (Listing.readAfter afterQuery).Calls (permits I C) := by
    unfold Listing.readAfter
    split
    · exact .ret _
    split
    · exact .ret _
    · refine (lift_permits (getInvoice_permits _)).attempt.bind fun found => ?_
      split <;> exact .ret _
  have lists : ∀ after limit, (Listing.listInvoices handler after limit).Calls (permits I C) := by
    intro after limit
    have pages : (Listing.getInvoices after limit).Calls (permits I C) :=
      Prog.Calls.bind (.query trivial) fun ids => lift_permits (.mapM getInvoice_permits ids)
    refine pages.attempt.bind fun found => ?_
    split
    · exact .ret _
    · split <;> exact .ret _
  unfold Listing.getInvoiceHistory
  split
  · exact .ret _
  · refine reads.bind fun after => ?_
    split
    · exact .ret _
    · exact lists _ _

theorem getInvoice_permits (handler : Handler) (pathID : String) :
    (Gate.getInvoice handler pathID).Calls (permits I C) := by
  unfold Gate.getInvoice
  split
  · exact .ret _
  · refine (lift_permits (SpiceHarvester.getInvoice_permits _)).attempt.bind fun found => ?_
    split <;> exact .ret _

theorem cancelInvoice_permits {handler : Handler} {pathID : String}
    (cancels : ∀ id, parseInvoiceID pathID = .ok id → C id) :
    (Gate.cancelInvoice handler pathID).Calls (permits I C) := by
  unfold Gate.cancelInvoice
  split
  · exact .ret _
  · rename_i id parsed
    refine (lift_permits (SpiceHarvester.cancelInvoice_permits (cancels id parsed))).attempt.bind
      fun cancelled => ?_
    split <;> exact .ret _

omit [Libraries] in
theorem permits_mono {I' : InvoiceRow → Prop} {C' : InvoiceID → Prop} {call : Call}
    (stores : ∀ {row}, I row → I' row) (cancels : ∀ {id}, C id → C' id)
    (permitted : permits I C call) : permits I' C' call := by
  cases call with
  | stmt op =>
      cases op with
      | insertInvoice row => exact stores permitted
      | cancelInvoice time id => exact cancels permitted
      | _ => trivial
  | _ => trivial

omit [Libraries] in
theorem lift_bind {α β : Type} (program : Action α) (rest : α → Action β) :
    lift (program >>= rest) = lift program >>= fun value => lift (rest value) := by
  induction program with
  | ret result => cases result <;> rfl
  | call op next ih => exact congrArg (Prog.call (Call.stmt op)) (funext ih)

end Endpoints

/-! ## What the private requests have asked for -/

section Asked

/-- What has arrived carries the token. -/
def Cleared (handler : Handler) (arrivals : List Arrival) (asked : Arrival) : Prop :=
  asked ∈ arrivals ∧ checkToken asked.authorization handler.token = true

/-- The request has arrived with the token. -/
def Admitted (handler : Handler) (arrivals : List Arrival) (request : PrivateRequest) : Prop :=
  ∃ authorization, Cleared handler arrivals ⟨authorization, request⟩

/-- A private request has asked for the invoice. -/
def Ordered (handler : Handler) (recipient : AccountID) (db : Database) (arrivals : List Arrival)
    (row : InvoiceRow) : Prop :=
  ∃ data id now invoice currencyID,
    Admitted handler arrivals (.createInvoice (some (.ok data))) ∧
    convertNewInvoice handler data recipient id now = .ok invoice ∧
    db.currencies.of invoice.currency = some currencyID ∧
    row.terms = (invoice.row currencyID).terms

/-- A private request has asked for the cancellation. -/
def Withdrawn (handler : Handler) (arrivals : List Arrival) (id : InvoiceID) : Prop :=
  ∃ pathID, Admitted handler arrivals (.cancelInvoice pathID) ∧ parseInvoiceID pathID = .ok id

/-- The invoice was there at the start, or was ordered; and it was cancelled at the start, or
has been withdrawn, if it is cancelled. -/
structure Authorized (handler : Handler) (recipient : AccountID) (db : Database)
    (arrivals : List Arrival) (row : InvoiceRow) : Prop where
  origin : (∃ old, db.invoices.find row.id = some old ∧ old.terms = row.terms) ∨
    Ordered handler recipient db arrivals row
  cancelled : row.status = .cancelled →
    (∃ old, db.invoices.find row.id = some old ∧ old.status = .cancelled) ∨
      Withdrawn handler arrivals row.id

variable {handler : Handler} {recipient : AccountID} {db : Database} {arrivals later : List Arrival}

omit [Libraries] in
theorem Admitted.mono (more : arrivals ⊆ later) {request : PrivateRequest}
    (admitted : Admitted handler arrivals request) : Admitted handler later request := by
  obtain ⟨authorization, arrived, checked⟩ := admitted
  exact ⟨authorization, more arrived, checked⟩

theorem Authorized.mono (more : arrivals ⊆ later) {row : InvoiceRow}
    (authorized : Authorized handler recipient db arrivals row) :
    Authorized handler recipient db later row where
  origin := authorized.origin.imp_right fun ⟨data, id, now, invoice, currencyID, admitted, rest⟩ =>
    ⟨data, id, now, invoice, currencyID, admitted.mono more, rest⟩
  cancelled closed := (authorized.cancelled closed).imp_right fun ⟨pathID, admitted, parsed⟩ =>
    ⟨pathID, admitted.mono more, parsed⟩

theorem authorized_lasting : InvoiceRow.Lasting (Authorized handler recipient db arrivals) where
  expire _ authorized := ⟨authorized.origin, fun impossible => by cases impossible⟩
  credit _ _ authorized := ⟨authorized.origin, authorized.cancelled⟩
  pay _ _ _ _ authorized := ⟨authorized.origin, fun impossible => by cases impossible⟩

/-- An invoice is stored by the request that orders it. -/
theorem Authorized.of_order {row : InvoiceRow} (ordered : Ordered handler recipient db arrivals row)
    (waits : row.status = .waiting) : Authorized handler recipient db arrivals row where
  origin := .inr ordered
  cancelled closed := by
    rw [waits] at closed
    cases closed

/-- An invoice is cancelled by the request that withdraws it. -/
theorem Authorized.cancel {row : InvoiceRow} (time : Time)
    (authorized : Authorized handler recipient db arrivals row)
    (withdrawn : Withdrawn handler arrivals row.id) :
    Authorized handler recipient db arrivals (row.close .cancelled time) where
  origin := authorized.origin
  cancelled _ := .inr withdrawn

end Asked

/-! ## The contract -/

variable {τ : Type} [DecidableEq τ] [Fintype τ]

section Serving

variable {turn : Turn} {t : τ} {s s' : Premises τ}

/-- A statement of a request runs in the database. -/
theorem serve_stmt {op : Stmt} {answer : Except Err op.Val}
    (answers : serve turn t (.stmt op) s = some (answer, s')) :
    ∃ fault choice, op.runUnder fault choice t s.world = some (answer, s'.world) ∧
      s'.arrivals = s.arrivals := by
  cases turn with
  | stmt fault choice =>
      simp only [serve, Option.map_eq_some_iff, Prod.mk.injEq] at answers
      obtain ⟨⟨found, world⟩, ran, rfl, rfl⟩ := answers
      exact ⟨fault, choice, ran, rfl⟩
  | draw id => cases answers
  | answers => cases answers
  | fails => cases answers

/-- The other calls leave everything as it is. -/
theorem serve_call {call : Call} {answer : Except Err call.Val}
    (answers : serve turn t call s = some (answer, s')) : (∃ op, call = .stmt op) ∨ s' = s := by
  cases call with
  | stmt op => exact .inl ⟨op, rfl⟩
  | selectIDs after limit =>
      right
      cases turn with
      | answers =>
          simp only [serve] at answers
          split at answers <;> cases answers <;> rfl
      | fails =>
          cases answers
          rfl
      | stmt fault choice => cases answers
      | draw id => cases answers
  | newInvoiceID =>
      right
      cases turn with
      | draw id =>
          simp only [serve, Option.ite_none_right_eq_some, Option.some.injEq, Prod.mk.injEq]
            at answers
          exact answers.2.2.symm
      | stmt fault choice => cases answers
      | answers => cases answers
      | fails => cases answers
  | receive page => cases turn <;> cases answers

theorem serve_arrivals {call : Call} {answer : Except Err call.Val}
    (answers : serve turn t call s = some (answer, s')) : s'.arrivals = s.arrivals := by
  obtain ⟨op, rfl⟩ | rfl := serve_call answers
  · obtain ⟨_, _, _, same⟩ := serve_stmt answers
    exact same
  · rfl

end Serving

variable [Cryptography] {handler : Handler} {recipient : AccountID} {db : Database}

/-- What holds in every state: the currencies stay, and all invoices are authorized. -/
structure Governed (handler : Handler) (recipient : AccountID) (db : Database)
    (s : Premises τ) : Prop where
  sane : s.world.Sane
  currencies : s.world.db.currencies = db.currencies
  authorized : s.world.AllInvoices (Authorized handler recipient db s.arrivals)

/-- What a goroutine may do at its next call, and owes at its end. -/
def authority (handler : Handler) (recipient : AccountID) (db : Database) :
    Contract (process (τ := τ) handler recipient) where
  rely _ s s' := s.arrivals ⊆ s'.arrivals
  inv := Governed handler recipient db
  pre _ call s := permits
    (fun row => Ordered handler recipient db s.arrivals row ∧ row.status = .waiting)
    (Withdrawn handler s.arrivals) call
  post _ result s := ∀ asked answer, result = .ok (.answered asked answer) →
    Cleared handler s.arrivals asked

theorem authority_closed : (authority (τ := τ) handler recipient db).Closed where
  rely_refl _ _ := List.Subset.refl _
  rely_trans := List.Subset.trans

/-! ## The programs keep it -/

section Kept

variable {t : τ} {F : Premises τ → Prop} {I : InvoiceRow → Prop} {C : InvoiceID → Prop} {α : Type}

/-- What has arrived does not change by a call. -/
theorem stable_exec (stable : (authority handler recipient db).Stable t F) {call : Call}
    {s s' : Premises τ} {answer : Except Err call.Val}
    (answers : (process handler recipient).exec t call s answer s') (holds : F s) : F s' := by
  obtain ⟨turn, answered⟩ := answers
  refine stable s s' ?_ holds
  change s.arrivals ⊆ s'.arrivals
  rw [serve_arrivals answered]
  exact List.Subset.refl _

/-- A program that stores and cancels what the requests have asked for. -/
theorem permitted_triple {program : Request α} (calls : program.Calls (permits I C))
    (stable : (authority (τ := τ) handler recipient db).Stable t F)
    (orders : ∀ {s row}, F s → I row →
      Ordered handler recipient db s.arrivals row ∧ row.status = .waiting)
    (withdraws : ∀ {s id}, F s → C id → Withdrawn handler s.arrivals id) :
    (authority handler recipient db).Triple t F program fun _ => F :=
  .of_calls calls stable
    (fun permitted _ holds => permits_mono (orders holds) (withdraws holds) permitted)
    fun _ _ holds answers => stable_exec stable answers holds

/-- A program that neither stores nor cancels invoices. -/
theorem quiet_triple {program : Request α}
    (calls : program.Calls (permits (fun _ => False) fun _ => False))
    (stable : (authority (τ := τ) handler recipient db).Stable t F) :
    (authority handler recipient db).Triple t F program fun _ => F :=
  permitted_triple calls stable (fun _ impossible => impossible.elim) fun _ impossible =>
    impossible.elim

/-- `getCurrencyID` answers with the currency of the table. -/
theorem getCurrencyID_triple (currency : Currency)
    (stable : (authority (τ := τ) handler recipient db).Stable t F) :
    (authority handler recipient db).Triple t F (lift (getCurrencyID currency)) fun result s =>
      (∀ currencyID, result = .ok currencyID → db.currencies.of currency = some currencyID) ∧
        F s := by
  intro s _ holds s₁ others kept₁
  have holds₁ := stable _ _ others holds
  refine ⟨trivial, fun answer s₂ answers s₃ later _ => ⟨fun currencyID found => ?_, ?_⟩⟩
  · cases answer with
    | error error => cases found
    | ok value =>
        cases found
        obtain ⟨turn, answered⟩ := answers
        obtain ⟨_, _, ran, _⟩ := serve_stmt answered
        have looked := congrArg Prod.fst (Option.some.inj (Stmt.run_of_ok ran))
        rw [← kept₁.currencies]
        exact eq_of_orNoRows.1 _ looked.symm
  · exact stable _ _ later (stable_exec stable answers holds₁)

theorem cleared_stable (handler : Handler) (recipient : AccountID) (db : Database) (t : τ)
    (asked : Arrival) : (authority (τ := τ) handler recipient db).Stable t fun s =>
      Cleared handler s.arrivals asked :=
  fun _ _ more cleared => ⟨more cleared.1, cleared.2⟩

/-- `CreateInvoice`, of an invoice that has been asked for. -/
theorem create_triple {invoice : Invoice}
    (stable : (authority (τ := τ) handler recipient db).Stable t F)
    (orders : ∀ {s currencyID}, F s → db.currencies.of invoice.currency = some currencyID →
      Ordered handler recipient db s.arrivals (invoice.row currencyID))
    (waits : invoice.status = .waiting) :
    (authority handler recipient db).Triple t F (lift (SpiceHarvester.createInvoice invoice))
      fun _ => F := by
  have inserts : (authority handler recipient db).Triple t F (lift (saveInvoice invoice false))
      fun _ => F := by
    rw [saveInvoice, lift_bind]
    refine .bind authority_closed (getCurrencyID_triple _ stable) (fun currencyID => ?_)
      fun _ holds => holds.2
    refine .of_fact (fun s holds => holds.1 currencyID rfl) fun found => ?_
    have stores : (lift (perform (.insertInvoice (invoice.row currencyID)))).Calls
        (permits (fun row => row = invoice.row currencyID) fun _ => False) :=
      lift_permits (.query rfl)
    refine Contract.Triple.weaken (permitted_triple stores stable ?_ fun _ impossible =>
      impossible.elim) (fun _ holds => holds.2) fun _ holds => holds
    rintro s row holds rfl
    exact ⟨orders holds found, waits⟩
  rw [SpiceHarvester.createInvoice, lift_bind]
  exact .bind authority_closed inserts
    (fun _ => quiet_triple (lift_permits (announce_permits invoice)) stable) fun _ holds => holds

/-- **An order stores the invoice that it asks for.** -/
theorem createInvoice_triple (t : τ) (authorization : String)
    (body : Option (Except String NewInvoice)) :
    (authority (τ := τ) handler recipient db).Triple t
      (fun s => Cleared handler s.arrivals ⟨authorization, .createInvoice body⟩)
      (Listing.createInvoice handler recipient body)
      fun _ s => Cleared handler s.arrivals ⟨authorization, .createInvoice body⟩ := by
  have stable := cleared_stable handler recipient db t ⟨authorization, .createInvoice body⟩
  unfold Listing.createInvoice
  split
  · exact .ret stable fun _ cleared => cleared
  · exact .ret stable fun _ cleared => cleared
  · rename_i data
    refine .bind authority_closed (quiet_triple (lift_permits (.query trivial)) stable)
      (fun now => ?_) fun _ cleared => cleared
    refine .bind authority_closed (quiet_triple (.query trivial) stable)
      (fun id => ?_) fun _ cleared => cleared
    split
    · exact .ret stable fun _ cleared => cleared
    · rename_i invoice converted
      have creates := create_triple stable
        (fun cleared found =>
          ⟨data, id, now, invoice, _, ⟨authorization, cleared⟩, converted, found, rfl⟩)
        (accepted_of_convertNewInvoice converted).status
      refine .attempt_bind authority_closed creates fun result => ?_
      split <;> exact .ret stable fun _ cleared => cleared

/-- The handler of a private endpoint. -/
theorem handle_triple (t : τ) (asked : Arrival) :
    (authority (τ := τ) handler recipient db).Triple t
      (fun s => Cleared handler s.arrivals asked) (asked.request.handle handler recipient)
      fun _ s => Cleared handler s.arrivals asked := by
  have stable := cleared_stable handler recipient db t asked
  obtain ⟨authorization, request⟩ := asked
  cases request with
  | createInvoice body =>
      exact .bind authority_closed (createInvoice_triple t authorization body)
        (fun _ => .ret stable fun _ cleared => cleared) fun _ cleared => cleared
  | getInvoiceHistory limitQuery afterQuery =>
      exact .bind authority_closed
        (quiet_triple (getInvoiceHistory_permits handler limitQuery afterQuery) stable)
        (fun _ => .ret stable fun _ cleared => cleared) fun _ cleared => cleared
  | getInvoice pathID =>
      exact .bind authority_closed (quiet_triple (getInvoice_permits handler pathID) stable)
        (fun _ => .ret stable fun _ cleared => cleared) fun _ cleared => cleared
  | cancelInvoice pathID =>
      have calls : (Gate.cancelInvoice handler pathID).Calls
          (permits (fun _ => False) fun id => parseInvoiceID pathID = .ok id) :=
        cancelInvoice_permits fun _ parsed => parsed
      exact .bind authority_closed
        (permitted_triple calls stable (fun _ impossible => impossible.elim)
          fun cleared parsed => ⟨pathID, ⟨authorization, cleared⟩, parsed⟩)
        (fun _ => .ret stable fun _ cleared => cleared) fun _ cleared => cleared

/-- **What a goroutine does keeps the contract.** -/
theorem Errand.safe (errand : Errand) (opens : errand.Open) {s : Premises τ} (t : τ)
    (governed : Governed handler recipient db (errand.start s t)) :
    (authority handler recipient db).Safe t ((authority handler recipient db).post t)
      (errand.run handler recipient) (errand.start s t) := by
  have anywhere : (authority (τ := τ) handler recipient db).Stable t fun _ => True :=
    fun _ _ _ _ => trivial
  cases errand with
  | task work =>
      have served : (authority (τ := τ) handler recipient db).Triple t (fun _ => True)
          (Errand.run handler recipient (.task work)) ((authority handler recipient db).post t) :=
        .bind authority_closed
          (quiet_triple (lift_permits (task_permits handler opens)) anywhere)
          (fun _ => .ret anywhere fun _ _ _ _ impossible => by cases impossible)
          fun _ _ _ _ impossible => by cases impossible
      exact served _ governed trivial
  | arrival asked =>
      by_cases checked : checkToken asked.authorization handler.token = true
      · have admits : authMiddleware handler asked.authorization asked.request = .ok asked.request :=
          if_pos checked
        rw [Errand.run, admits]
        have stable := cleared_stable handler recipient db t asked
        have answered : (authority (τ := τ) handler recipient db).Triple t
            (fun s => Cleared handler s.arrivals asked)
            (asked.request.handle handler recipient >>= fun answer =>
              return Reply.answered asked answer)
            ((authority handler recipient db).post t) := by
          refine .bind authority_closed (handle_triple t asked) (fun answer => ?_)
            fun _ _ _ _ impossible => by cases impossible
          refine .ret stable fun _ cleared _ _ same => ?_
          cases same
          exact cleared
        have arrived : asked ∈ s.arrivals ++ [asked] := List.mem_append_right _ List.mem_cons_self
        exact answered _ governed ⟨arrived, checked⟩
      · have refuses : authMiddleware handler asked.authorization asked.request =
            .error ⟨401, [], .empty⟩ := if_neg checked
        rw [Errand.run, refuses]
        intro _ _ _ _ _ impossible
        cases impossible

end Kept

/-! ## Every run -/

section Runs

variable {t : τ} {s s' : Premises τ}

omit [Fintype τ] in
theorem Errand.start_arrivals (errand : Errand) : s.arrivals ⊆ (errand.start s t).arrivals := by
  cases errand with
  | task work => exact List.Subset.refl _
  | arrival asked => exact List.subset_append_left _ _

omit [DecidableEq τ] [Fintype τ] [Cryptography] in
/-- A change of the state that leaves all invoices authorized. -/
theorem Governed.of_kept {world : World τ} {arrivals : List Arrival}
    (governed : Governed handler recipient db s) (kept : s.world.Kept t world)
    (all : world.AllInvoices (Authorized handler recipient db s.arrivals))
    (more : s.arrivals ⊆ arrivals) : Governed handler recipient db ⟨world, arrivals⟩ where
  sane := kept.sane governed.sane
  currencies := (kept.grows governed.sane).currencies.trans governed.currencies
  authorized := all.mono (Authorized.mono more)

omit [Fintype τ] in
theorem Governed.start (governed : Governed handler recipient db s) (errand : Errand) :
    Governed handler recipient db (errand.start s t) := by
  have leaves : Governed handler recipient db ⟨s.world.leave t, s.arrivals⟩ :=
    governed.of_kept (s.world.leave_kept t) (governed.authorized.leave t) (List.Subset.refl _)
  cases errand with
  | arrival asked =>
      exact governed.of_kept (s.world.leave_kept t) (governed.authorized.leave t)
        (List.subset_append_left _ _)
  | task work =>
      cases work with
      | job job =>
          exact governed.of_kept (s.world.start_kept t job) (governed.authorized.start t job)
            (List.Subset.refl _)
      | request asked => exact leaves
      | deleteExpiredKeys => exact leaves

/-- **A call leaves all invoices authorized.** -/
theorem Governed.serve {turn : Turn} {call : Call} {answer : Except Err call.Val}
    (governed : Governed handler recipient db s)
    (permitted : (authority handler recipient db).pre t call s)
    (answers : Gate.serve turn t call s = some (answer, s')) :
    Governed handler recipient db s' := by
  obtain ⟨op, rfl⟩ | rfl := serve_call answers
  · obtain ⟨fault, choice, ran, same⟩ := serve_stmt answers
    obtain ⟨world, arrivals⟩ := s'
    cases same
    have inserts : ∀ row, op = .insertInvoice row →
        Authorized handler recipient db s.arrivals row := by
      rintro row rfl
      exact .of_order permitted.1 permitted.2
    have cancels : ∀ time id, op = .cancelInvoice time id → ∀ {row : InvoiceRow}, row.id = id →
        Authorized handler recipient db s.arrivals row →
          Authorized handler recipient db s.arrivals (row.close .cancelled time) := by
      rintro time id rfl row rfl authorized
      exact authorized.cancel time permitted
    exact governed.of_kept (Stmt.runUnder_kept ran)
      (Stmt.runUnder_allInvoices authorized_lasting inserts cancels governed.authorized ran)
      (List.Subset.refl _)
  · exact governed

/-- **The process keeps the contract.** -/
theorem authority_sound : (authority (τ := τ) handler recipient db).Sound where
  toClosed := authority_closed
  exec := by
    rintro t call s answer s' governed permitted ⟨turn, answers⟩
    refine ⟨governed.serve permitted answers, fun _ _ => ?_⟩
    change s.arrivals ⊆ s'.arrivals
    rw [serve_arrivals answers]
    exact List.Subset.refl _
  spawn := by
    rintro t s program s' governed ⟨errand, opens, rfl, rfl⟩
    have started := governed.start (t := t) errand
    exact ⟨started, fun _ _ => errand.start_arrivals, errand.safe opens t started⟩
  retire := by
    rintro t result s s' governed _ rfl
    exact ⟨governed.of_kept (s.world.leave_kept t) (governed.authorized.leave t)
      (List.Subset.refl _), fun _ _ => List.Subset.refl _⟩
  crash := by
    rintro s s' governed rfl
    exact ⟨governed.sane.restart, governed.currencies, governed.authorized.stored,
      fun opened => by cases opened⟩

omit [DecidableEq τ] [Fintype τ] [Cryptography] in
/-- What is there at the start needs no request. -/
theorem Governed.idle (sane : (World.idle db : World τ).Sane) :
    Governed handler recipient db (Premises.idle db : Premises τ) where
  sane := sane
  currencies := rfl
  authorized := {
    stored := fun row member =>
      ⟨.inl ⟨row, Table.find_of_mem member, rfl⟩,
        fun closed => .inl ⟨row, Table.find_of_mem member, closed⟩⟩
    written := fun opened => by cases opened }

/-- **Invoices are ordered and cancelled by requests with the token.** In every state of every
run of the process, whatever requests arrive and whatever fails, each stored invoice has the
terms of one that was there at the start, or of one that a private request with the token has
asked for; each cancelled invoice was cancelled at the start, or such a request has asked for its
cancellation; and whatever goroutine has answered a private request with anything but the
refusal has been asked with the token itself. -/
theorem orders_authorized
    (sane : ∀ {id row}, db.invoices.find id = some row →
      (db.currencies.table.find row.currency).isSome)
    {c : Config τ Call Call.Val Err Reply (Premises τ)}
    (run : (process handler recipient).Reachable (.idle (.idle db)) c) :
    (∀ row ∈ c.state.world.db.invoices.rows,
      Authorized handler recipient db c.state.arrivals row) ∧
    ∀ t asked answer, c.pool t = some (.ret (.ok (.answered asked answer))) →
      asked ∈ c.state.arrivals ∧ checkToken asked.authorization handler.token = true := by
  have kept := authority_sound.reachable (.idle (Governed.idle (.idle sane))) run
  exact ⟨kept.inv.authorized.stored,
    fun t asked answer ended => kept.post authority_sound ended asked answer rfl⟩

end Runs

end Gate

end Process

/-! ## An order and its cancellation -/

namespace Gate.Shop

open Listing (Call Turn)

open SpiceHarvester.Shop (merchant at')

open Listing.Shop (body noInvoices lower)

attribute [local instance] Texts.libraries SpiceHarvester.Shop.cryptography

/-- The merchant knows the token of the shop. -/
def handler : Handler := ⟨SpiceHarvester.Shop.printing, none, "shop", "token"⟩

theorem token_checked : checkToken "Bearer token" handler.token = true := by
  simp +decide [checkToken, String.splitOn, String.splitOnAux]

theorem guess_checked : checkToken "Bearer guess" handler.token = false := by
  simp +decide [checkToken, String.splitOn, String.splitOnAux]

/-- How a call is answered at a time. -/
def turnAt (time : Time) : Call → Turn
  | .stmt _ => .stmt .none (at' time)
  | .newInvoiceID => .draw lower
  | _ => .answers

/-- The requests of the merchant are answered one after another, each at its time. -/
def merchantAsks : List (Time × PrivateRequest) → Premises Unit → Option (Premises Unit)
  | [], s => some s
  | (time, request) :: rest, s =>
      ((request.handle handler merchant).eval (fun call => serve (turnAt time call) () call)
        ((Errand.arrival ⟨"Bearer token", request⟩).start s ())).bind fun done =>
          merchantAsks rest { done.2 with world := done.2.world.leave () }

theorem merchantAsks_reach {requests : List (Time × PrivateRequest)} {s s' : Premises Unit}
    (done : merchantAsks requests s = some s') :
    (process handler merchant).Reachable (.idle s) (.idle s') := by
  induction requests generalizing s with
  | nil =>
      cases done
      exact .refl
  | cons asked rest ih =>
      obtain ⟨time, request⟩ := asked
      obtain ⟨⟨result, s₁⟩, ended, done⟩ := Option.bind_eq_some_iff.mp done
      have answers : ∀ call (s : Premises Unit) answer s', serve (turnAt time call) () call s =
          some (answer, s') → (process handler merchant).exec () call s answer s' :=
        fun call _ _ _ answered => ⟨turnAt time call, answered⟩
      obtain ⟨log, alone⟩ := Alone.of_eval answers ended
      have admits : authMiddleware handler "Bearer token" request = .ok request :=
        if_pos token_checked
      have runs : ∃ log reply, Alone ((process handler merchant).exec ())
          (Errand.run handler merchant (.arrival ⟨"Bearer token", request⟩))
          ((Errand.arrival ⟨"Bearer token", request⟩).start s ()) log reply s₁ := by
        rw [Errand.run, admits]
        cases result with
        | ok answer => exact ⟨_, _, alone.bind .ret⟩
        | error error => exact ⟨_, _, alone.bind_error⟩
      obtain ⟨_, _, runs⟩ := runs
      have round : (process handler merchant).Reachable (.idle s)
          (.idle { s₁ with world := s₁.world.leave () }) :=
        runs.round ⟨.arrival ⟨"Bearer token", request⟩, trivial, rfl, rfl⟩ rfl
      exact round.trans (ih done)

/-- Someone else asks too. -/
def guessed (request : PrivateRequest) : Premises Unit :=
  ⟨((World.idle noInvoices).leave ()).leave (), [⟨"Bearer guess", request⟩]⟩

theorem guessed_reach (request : PrivateRequest) :
    (process handler merchant).Reachable (.idle (.idle noInvoices)) (.idle (guessed request)) := by
  have refuses : authMiddleware handler "Bearer guess" request = .error ⟨401, [], .empty⟩ :=
    if_neg (Bool.eq_false_iff.mp guess_checked)
  have runs : Alone ((process handler merchant).exec ())
      (Errand.run handler merchant (.arrival ⟨"Bearer guess", request⟩))
      ((Errand.arrival ⟨"Bearer guess", request⟩).start (.idle noInvoices) ()) []
      (.ok (.unauthorized ⟨401, [], .empty⟩))
      ((Errand.arrival ⟨"Bearer guess", request⟩).start (.idle noInvoices) ()) := by
    rw [Errand.run, refuses]
    exact .ret
  exact runs.round ⟨.arrival ⟨"Bearer guess", request⟩, trivial, rfl, rfl⟩ rfl

/-- The merchant orders an invoice and cancels it. -/
def orders : List (Time × PrivateRequest) :=
  [(0, .createInvoice body), (1, .cancelInvoice (Libraries.uuidString lower))]

/-- **The invoice of the merchant is cancelled, and that of the other is not there.** -/
theorem merchant_authorized : ∃ c : Config Unit Call Call.Val Err Reply (Premises Unit),
    (process handler merchant).Reachable (.idle (.idle noInvoices)) c ∧
      c.state.world.db.invoices.rows.map InvoiceRow.status = [.cancelled] ∧
      c.state.arrivals.length = 3 ∧
      ∀ row ∈ c.state.world.db.invoices.rows,
        Authorized handler merchant noInvoices c.state.arrivals row := by
  have asks : (merchantAsks orders (guessed (.createInvoice body))).map (fun s =>
      (s.world.db.invoices.rows.map InvoiceRow.status, s.arrivals.length)) =
      some ([.cancelled], 3) := by decide +kernel
  obtain ⟨s, done, same⟩ := Option.map_eq_some_iff.mp asks
  have run := (guessed_reach (.createInvoice body)).trans (merchantAsks_reach done)
  have empty : ∀ {id row}, noInvoices.invoices.find id = some row →
      (noInvoices.currencies.table.find row.currency).isSome := fun found => by cases found
  exact ⟨.idle s, run, congrArg Prod.fst same, congrArg Prod.snd same,
    (orders_authorized empty run).1⟩

end Gate.Shop

end SpiceHarvester
