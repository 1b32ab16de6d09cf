import SpiceHarvester.Api.HistoryRuns
import SpiceHarvester.Api.Serving

/-!
# The private endpoints

The endpoints that `RegisterHandlers` registers behind `authMiddleware`, and the process with
all of its endpoints. Beside the jobs of the service and the public requests it answers private
requests, whoever sends them and whatever their `Authorization` header says. What has arrived is
written down, for the statements about runs.
-/

set_option autoImplicit false

namespace SpiceHarvester

open Interleaving Sql

namespace Gate

open Listing (Call Request Refusal Turn lift)

section Handlers

variable [Libraries]

/-- What the handler answers with. -/
def printed (handler : Handler) (invoice : Invoice) : Except Refusal PrivateInvoicePrintable :=
  (convertInvoiceToPrintablePrivate handler.printing invoice).mapError fun error => ⟨error.text, 500⟩

/-- `getInvoice`, for the `id` of the path. -/
def getInvoice (handler : Handler) (pathID : String) :
    Request (Except Refusal PrivateInvoicePrintable) :=
  match parseInvoiceID pathID with
  | .error _ => return .error ⟨"invalid id", 400⟩
  | .ok id => do
      match ← (lift (SpiceHarvester.getInvoice id)).attempt with
      | .error .notFound => return .error ⟨Err.text .notFound, 404⟩
      | .error error => return .error ⟨error.text, 500⟩
      | .ok invoice => return printed handler invoice

/-- `cancelInvoice`, for the `id` of the path. -/
def cancelInvoice (handler : Handler) (pathID : String) :
    Request (Except Refusal PrivateInvoicePrintable) :=
  match parseInvoiceID pathID with
  | .error _ => return .error ⟨"invalid id", 400⟩
  | .ok id => do
      match ← (lift (SpiceHarvester.cancelInvoice id)).attempt with
      | .error .notFound => return .error ⟨"no waiting payment invoice found", 404⟩
      | .error error => return .error ⟨error.text, 500⟩
      | .ok invoice => return printed handler invoice

/-! ## Requests -/

/-- The endpoints behind `authMiddleware`, with what they take from a request. -/
inductive PrivateRequest where
  | createInvoice (body : Option (Except String NewInvoice))
  | getInvoiceHistory (limitQuery afterQuery : String)
  | getInvoice (pathID : String)
  | cancelInvoice (pathID : String)

/-- The body of an answer. -/
inductive Answer where
  | invoice (printable : PrivateInvoicePrintable)
  | invoices (printables : List PrivateInvoicePrintable)

/-- The handler of a private endpoint. -/
def PrivateRequest.handle (handler : Handler) (recipient : AccountID) :
    PrivateRequest → Request (Except Refusal Answer)
  | .createInvoice body => do
      let result ← Listing.createInvoice handler recipient body
      return result.map .invoice
  | .getInvoiceHistory limitQuery afterQuery => do
      let result ← Listing.getInvoiceHistory handler limitQuery afterQuery
      return result.map .invoices
  | .getInvoice pathID => do
      let result ← Gate.getInvoice handler pathID
      return result.map .invoice
  | .cancelInvoice pathID => do
      let result ← Gate.cancelInvoice handler pathID
      return result.map .invoice

/-- A request with its `Authorization` header. -/
structure Arrival where
  authorization : String
  request : PrivateRequest

variable [Cryptography]

/-- What a goroutine of the process does. -/
inductive Errand where
  | task (task : Task)
  | arrival (arrival : Arrival)

/-- How it ends. -/
inductive Reply where
  | served (served : Served)
  | unauthorized (response : Response)
  | answered (asked : Arrival) (answer : Except Refusal Answer)

namespace Errand

/-- Invoices are created and cancelled by private requests, not by jobs of the process. -/
def Open : Errand → Prop
  | .task (.job (.createInvoice _)) => False
  | .task (.job (.cancelInvoice _)) => False
  | _ => True

/-- The program of a goroutine. -/
def run (handler : Handler) (recipient : AccountID) : Errand → Request Reply
  | .task work => do
      let served ← lift (work.run handler)
      return .served served
  | .arrival asked =>
      match authMiddleware handler asked.authorization asked.request with
      | .error response => return .unauthorized response
      | .ok request => do
          let answer ← request.handle handler recipient
          return .answered asked answer

end Errand

end Handlers

/-! ## The process -/

variable [Libraries] {τ : Type}

/-- The database, and the private requests that have arrived. -/
structure Premises (τ : Type) where
  world : World τ
  arrivals : List Arrival

variable [DecidableEq τ]

/-- The state when a goroutine starts. -/
def Errand.start [Cryptography] (s : Premises τ) (t : τ) : Errand → Premises τ
  | .task work => { s with world := work.start s.world t }
  | .arrival asked => ⟨s.world.leave t, s.arrivals ++ [asked]⟩

variable [Fintype τ]

/-- What a call of a thread answers and does. An ID that is drawn has version 7. -/
def serve (turn : Turn) (t : τ) (call : Call) (s : Premises τ) :
    Option (Except Err call.Val × Premises τ) :=
  match call, turn with
  | .stmt op, .stmt fault choice =>
      (op.runUnder fault choice t s.world).map fun done => (done.1, { s with world := done.2 })
  | .selectIDs after limit, .answers =>
      let ids := s.world.db.invoices.rows.map InvoiceRow.id
      if 0 ≤ limit then some (.ok (page ids after limit.toNat), s) else some (.error .failed, s)
  | .selectIDs _ _, .fails => some (.error .failed, s)
  | .newInvoiceID, .draw id => if Listing.Seven id then some (.ok id, s) else none
  | _, _ => none

/-- The process with all of its endpoints. -/
def process [Cryptography] (handler : Handler) (recipient : AccountID) :
    System τ Call Call.Val Err Reply (Premises τ) where
  spawn t s program s' := ∃ errand : Errand, errand.Open ∧ program = errand.run handler recipient ∧
    s' = errand.start s t
  exec t call s answer s' := ∃ turn, serve turn t call s = some (answer, s')
  retire t _ s s' := s' = { s with world := s.world.leave t }
  crash s s' := s' = { s with world := s.world.restart }

/-- The process over a database, before anything has arrived. -/
def Premises.idle (db : Database) : Premises τ := ⟨.idle db, []⟩

end Gate

end SpiceHarvester
