import SpiceHarvester.Api.History
import SpiceHarvester.Interleaving.Contract
import SpiceHarvester.Schedule
import Mathlib.Data.Fintype.Option

/-!
# Runs of requests and of a client

Any number of requests to `createInvoice` run beside a client that asks for the history
page by page. Every statement of a request or of the client is a step of its own, and may
fail. The IDs that `core.NewInvoiceID` draws rise.
-/

set_option autoImplicit false

namespace SpiceHarvester

open Interleaving Sql

/-- The order in which PostgreSQL compares UUIDs: byte by byte. -/
instance : LinearOrder UUID where
  le_refl _ := BitVec.le_refl _
  le_trans _ _ _ := BitVec.le_trans
  le_antisymm _ _ := BitVec.le_antisymm
  le_total := BitVec.le_total
  lt_iff_le_not_ge a b := by
    rw [BitVec.not_le, BitVec.lt_def, BitVec.le_def]
    omega
  toDecidableLE := inferInstance

namespace Listing

/-- A UUID of version 7. -/
def Seven (id : InvoiceID) : Prop := (id >>> 76).toNat % 16 = 7

instance (id : InvoiceID) : Decidable (Seven id) := inferInstanceAs (Decidable (_ = _))

theorem Seven.pos {id : InvoiceID} (seven : Seven id) : 0 < id := by
  have least : 0 ≤ id := by
    rw [BitVec.le_def]
    exact Nat.zero_le _
  refine lt_of_le_of_ne least ?_
  rintro rfl
  cases seven

/-! ## State -/

section Runs

variable [Libraries] {τ : Type}

/-- The database, the IDs drawn, the texts of the IDs that the client has received, and
the invoices that were stored when its latest page was read. The client is the thread
`none`. -/
structure State (τ : Type) where
  world : World (Option τ)
  drawn : List InvoiceID
  received : List String
  read : List InvoiceID

/-- The IDs that texts stand for. -/
def idsOf (texts : List String) : List InvoiceID :=
  texts.filterMap fun text => (Libraries.parseUUID text).toOption

/-- The IDs that a call brings to the client. -/
def Call.arriving : Call → List InvoiceID
  | .receive texts => idsOf texts
  | .stmt _ | .selectIDs .. | .newInvoiceID => []

namespace State

/-- The service just after its start, and a client that has received nothing. -/
def start (db : Database) : State τ := ⟨.idle db, [], [], []⟩

/-- The IDs of the stored invoices. -/
def ids (s : State τ) : List InvoiceID := s.world.db.invoices.rows.map InvoiceRow.id

/-- The IDs that the client has received. -/
def receivedIDs (s : State τ) : List InvoiceID := idsOf s.received

/-- The invoices are stored. -/
def stored (s : State τ) : Set InvoiceID := {id | id ∈ s.ids}

end State

/-! ## Runs -/

/-- What the outside fixes about the next answer. -/
inductive Turn where
  | stmt (fault : Fault) (choice : Choice)
  | draw (id : InvoiceID)
  | answers
  | fails

variable [DecidableEq τ] [Fintype τ]

/-- What a call of a thread answers and does. The IDs drawn rise. A negative `LIMIT` is an
error. -/
def Call.run (turn : Turn) (t : Option τ) (call : Call) (s : State τ) :
    Option (Except Err call.Val × State τ) :=
  match call, turn with
  | .stmt op, .stmt fault choice =>
      (op.runUnder fault choice t s.world).map fun done => (done.1, { s with world := done.2 })
  | .selectIDs after limit, .answers =>
      if 0 ≤ limit then some (.ok (page s.ids after limit.toNat), { s with read := s.ids })
      else some (.error .failed, s)
  | .selectIDs _ _, .fails => some (.error .failed, s)
  | .newInvoiceID, .draw id =>
      if Seven id ∧ (s.drawn.all fun earlier => decide (earlier < id)) = true then
        some (.ok id, { s with drawn := s.drawn ++ [id] })
      else none
  | .receive page, .answers => some (.ok (), { s with received := s.received ++ page })
  | _, _ => none

/-- A rule of a run: what a call may do. -/
abbrev Rule (τ : Type) := Call → State τ → State τ → Prop

/-- Requests to `createInvoice` on the threads, and the client, which goes on after the
last ID that it has received and asks for at least one invoice at a time. -/
inductive Starts (handler : Handler) (s : State τ) : Option τ → Request Unit → Prop where
  | create (t : τ) (recipient : AccountID) (body : Option (Except String NewInvoice)) :
      Starts handler s (some t) (createInvoice handler recipient body >>= fun _ => return ())
  | client (limits : List String)
      (asks : ∀ limitQuery ∈ limits, ∃ limit, readLimit limitQuery = .ok limit ∧ 0 < limit) :
      Starts handler s none (poll handler limits (s.received.getLast?.getD ""))

/-- Requests and the client side by side. -/
def system (handler : Handler) (rule : Rule τ) :
    System (Option τ) Call Call.Val Err Unit (State τ) where
  spawn t s program s' := Starts handler s t program ∧ s' = s
  exec t call s answer s' :=
    rule call s s' ∧ ∃ turn, call.run turn t s = some (answer, s')
  retire _ _ s s' := s' = s
  crash _ _ := False

/-- The requests and the client, with what they still have to run. -/
abbrev Running (τ : Type) := Config (Option τ) Call Call.Val Err Unit (State τ)

/-- Anything may happen. -/
def anything : Rule τ := fun _ _ _ => True

instance (call : Call) (s s' : State τ) : Decidable (anything call s s') := .isTrue trivial

/-- An invoice is stored ahead of all that the client has received. When a page arrives, the
invoices that have been stored since it was read are ahead of it. -/
structure InOrder (call : Call) (s s' : State τ) : Prop where
  stored : ∀ id ∈ s'.ids, id ∉ s.ids → ∀ last ∈ s.receivedIDs, last < id
  arrives : ∀ id ∈ s.ids, id ∉ s.read → ∀ last ∈ call.arriving, last < id

omit [DecidableEq τ] [Fintype τ] in
theorem inOrder_iff {call : Call} {s s' : State τ} : InOrder call s s' ↔
    ((s'.ids.all fun id => decide (id ∈ s.ids) || s.receivedIDs.all fun last => decide (last < id)) &&
      s.ids.all fun id => decide (id ∈ s.read) || call.arriving.all fun last => decide (last < id)) =
        true := by
  have ahead : ∀ (ids known lasts : List InvoiceID),
      (ids.all fun id => decide (id ∈ known) || lasts.all fun last => decide (last < id)) = true ↔
        ∀ id ∈ ids, id ∉ known → ∀ last ∈ lasts, last < id := by
    intro ids known lasts
    simp only [List.all_eq_true, Bool.or_eq_true, decide_eq_true_eq, or_iff_not_imp_left]
  rw [Bool.and_eq_true, ahead, ahead]
  exact ⟨fun order => ⟨order.stored, order.arrives⟩, fun holds => ⟨holds.1, holds.2⟩⟩

instance (call : Call) (s s' : State τ) : Decidable (InOrder call s s') :=
  decidable_of_iff _ inOrder_iff.symm

/-- No request to `createInvoice` is in progress. -/
def Running.Quiet (c : Running τ) : Prop := ∀ t call next, c.pool (some t) ≠ some (.call call next)

/-! ## What a statement does to the invoices -/

omit [DecidableEq τ] [Fintype τ] in
theorem mem_stored {s : State τ} {id : InvoiceID} : id ∈ s.stored ↔ id ∈ s.ids := Iff.rfl

/-- The statements that the requests and the client call. What they insert has an ID of
version 7. -/
def Creates : Stmt → Prop
  | .now | .selectCurrencyID .. | .selectCurrency _ | .selectInvoice _ | .insertNotification _ => True
  | .insertInvoice row => Seven row.id
  | _ => False

/-- What is known of an answer. -/
def Answers : (op : Stmt) → Except Err op.Val → Prop
  | .selectInvoice id, answer => ∀ row, answer = .ok row → row.id = id
  | _, _ => True

omit [Libraries] in
theorem insert?_rows {invoices invoices' : Table InvoiceRow.id} {row : InvoiceRow}
    (inserted : invoices.insert? row = some invoices') :
    invoices'.rows.map InvoiceRow.id = invoices.rows.map InvoiceRow.id ++ [row.id] := by
  unfold Table.insert? at inserted
  split at inserted
  · cases inserted
  · cases inserted
    rw [List.map_append, List.map_singleton]

section Statements

variable {t : Option τ} {op : Stmt} {w w' : World (Option τ)} {answer : Except Err op.Val}

/-- No invoice is removed, and what is added is of version 7. -/
theorem run_ids {choice : Choice} (creates : Creates op)
    (runs : op.run choice t w = some (answer, w')) :
    (∃ new, w'.db.invoices.rows.map InvoiceRow.id = w.db.invoices.rows.map InvoiceRow.id ++ new ∧
      ∀ id ∈ new, Seven id) ∧ Answers op answer := by
  have same : w'.db.invoices = w.db.invoices → ∃ new,
      w'.db.invoices.rows.map InvoiceRow.id = w.db.invoices.rows.map InvoiceRow.id ++ new ∧
        ∀ id ∈ new, Seven id :=
    fun same => ⟨[], by rw [same, List.append_nil], fun _ member => by cases member⟩
  cases op with
  | insertInvoice row =>
      obtain ⟨_, _, _, inserted, _, rfl⟩ | ⟨_, rfl⟩ := Stmt.run_insertInvoice runs
      · refine ⟨⟨[row.id], insert?_rows inserted, fun id member => ?_⟩, trivial⟩
        exact List.mem_singleton.mp member ▸ creates
      · exact ⟨same rfl, trivial⟩
  | insertNotification row =>
      obtain ⟨_, _, _, rfl⟩ | ⟨_, _, rfl⟩ := Stmt.run_insertNotification runs
      · exact ⟨same rfl, trivial⟩
      · exact ⟨same rfl, trivial⟩
  | selectInvoice id =>
      simp only [Stmt.run, Option.some.injEq, Prod.mk.injEq] at runs
      obtain ⟨rfl, rfl⟩ := runs
      refine ⟨same rfl, fun row found => ?_⟩
      cases stored : w.db.invoices.find id with
      | none =>
          rw [stored] at found
          cases found
      | some other =>
          rw [stored] at found
          cases found
          exact Table.key_of_find stored
  | now =>
      cases runs
      exact ⟨same rfl, trivial⟩
  | selectCurrencyID type info =>
      cases runs
      exact ⟨same rfl, trivial⟩
  | selectCurrency id =>
      cases runs
      exact ⟨same rfl, trivial⟩
  | _ => exact creates.elim

omit [Libraries] in
theorem answers_failed (op : Stmt) : Answers op (.error .failed) := by
  cases op with
  | selectInvoice id => exact fun row same => by cases same
  | _ => trivial

theorem runUnder_ids {fault : Fault} {choice : Choice} (creates : Creates op)
    (runs : op.runUnder fault choice t w = some (answer, w')) :
    (∃ new, w'.db.invoices.rows.map InvoiceRow.id = w.db.invoices.rows.map InvoiceRow.id ++ new ∧
      ∀ id ∈ new, Seven id) ∧ Answers op answer := by
  obtain ⟨_, ran⟩ | ⟨_, _, rfl, rfl⟩ | ⟨_, _, rfl, _, w₀, ran, rfl⟩ := Stmt.runUnder_cases runs
  · exact run_ids creates ran
  · exact ⟨⟨[], (List.append_nil _).symm, fun _ member => by cases member⟩, answers_failed op⟩
  · exact ⟨(run_ids creates ran).1, answers_failed op⟩

end Statements

/-! ## What a call does -/

section Calls

variable {turn : Turn} {t : Option τ} {s s' : State τ}

theorem run_stmt {op : Stmt} {answer : Except Err op.Val} (creates : Creates op)
    (runs : (Call.stmt op).run turn t s = some (answer, s')) :
    s'.received = s.received ∧ s'.read = s.read ∧
      (∃ new, s'.ids = s.ids ++ new ∧ ∀ id ∈ new, Seven id) ∧ Answers op answer := by
  cases turn with
  | stmt fault choice =>
      simp only [Call.run, Option.map_eq_some_iff, Prod.mk.injEq] at runs
      obtain ⟨⟨found, w'⟩, ran, rfl, rfl⟩ := runs
      obtain ⟨added, answers⟩ := runUnder_ids creates ran
      exact ⟨rfl, rfl, added, answers⟩
  | draw id => cases runs
  | answers => cases runs
  | fails => cases runs

theorem run_selectIDs {after : InvoiceID} {limit : ℤ} {answer : Except Err (List InvoiceID)}
    (runs : (Call.selectIDs after limit).run turn t s = some (answer, s')) :
    (answer = .ok (page s.ids after limit.toNat) ∧ s' = { s with read := s.ids }) ∨
      (answer = .error .failed ∧ s' = s) := by
  cases turn with
  | stmt fault choice => cases runs
  | draw id => cases runs
  | answers =>
      simp only [Call.run] at runs
      split at runs
      · cases runs
        exact .inl ⟨rfl, rfl⟩
      · cases runs
        exact .inr ⟨rfl, rfl⟩
  | fails =>
      cases runs
      exact .inr ⟨rfl, rfl⟩

theorem run_newInvoiceID {answer : Except Err InvoiceID}
    (runs : Call.newInvoiceID.run turn t s = some (answer, s')) :
    ∃ id, Seven id ∧ answer = .ok id ∧ s' = { s with drawn := s.drawn ++ [id] } := by
  cases turn with
  | draw id =>
      simp only [Call.run, Option.ite_none_right_eq_some, Option.some.injEq, Prod.mk.injEq] at runs
      obtain ⟨⟨seven, _⟩, rfl, rfl⟩ := runs
      exact ⟨id, seven, rfl, rfl⟩
  | stmt fault choice => cases runs
  | answers => cases runs
  | fails => cases runs

theorem run_receive {texts : List String} {answer : Except Err Unit}
    (runs : (Call.receive texts).run turn t s = some (answer, s')) :
    s' = { s with received := s.received ++ texts } := by
  cases turn with
  | answers =>
      cases runs
      rfl
  | stmt fault choice => cases runs
  | draw id => cases runs
  | fails => cases runs

end Calls

end Runs

end Listing

end SpiceHarvester
