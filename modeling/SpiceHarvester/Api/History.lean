import SpiceHarvester.Api.NewInvoice
import SpiceHarvester.Sql.Paging
import SpiceHarvester.StartUp.Config

/-!
# The history of invoices

`createInvoice` and `getInvoiceHistory` of `pkg/api/handlers.go`, as programs over the
statements of the database, the IDs that `core.NewInvoiceID` draws, and what a client
receives. The client asks for page after page, each from the last ID that it has
received.
-/

set_option autoImplicit false

namespace SpiceHarvester

open Interleaving Sql

namespace Listing

/-! ## What the programs call -/

/-- A statement of `pkg/db`, the query of `GetInvoices`, the draw of an ID, and the
arrival of a page at the client, as the texts of its IDs. -/
inductive Call where
  | stmt (op : Stmt)
  | selectIDs (after : InvoiceID) (limit : ℤ)
  | newInvoiceID
  | receive (page : List String)

@[reducible] def Call.Val : Call → Type
  | .stmt op => op.Val
  | .selectIDs .. => List InvoiceID
  | .newInvoiceID => InvoiceID
  | .receive _ => Unit

/-- A program of the API or of its client. -/
abbrev Request := Prog Call Call.Val Err

/-- The functions of `pkg/db` call statements only. -/
def lift {α : Type} : Action α → Request α
  | .ret result => .ret result
  | .call op next => .call (.stmt op) fun answer => lift (next answer)

/-- What `writeHttpError` writes. -/
structure Refusal where
  comment : String
  status : ℕ

/-! ## `createInvoice` -/

section Handlers

variable [Libraries]

/-- `createInvoice`, for what the decoder makes of the body. The clock is read and the ID
is drawn also where the request is refused. -/
def createInvoice (handler : Handler) (recipient : AccountID)
    (body : Option (Except String NewInvoice)) : Request (Except Refusal PrivateInvoicePrintable) :=
  match body with
  | none => return .error ⟨"empty body", 400⟩
  | some (.error message) => return .error ⟨"invalid invoice data: " ++ message, 400⟩
  | some (.ok data) => do
      let now ← lift (perform .now)
      let id ← Prog.query .newInvoiceID
      match convertNewInvoice handler data recipient id now with
      | .error message => return .error ⟨"invoice data parsing error: " ++ message, 400⟩
      | .ok invoice => save invoice
where
  /-- What the handler does with the invoice. -/
  save (invoice : Invoice) : Request (Except Refusal PrivateInvoicePrintable) := do
    match ← (lift (SpiceHarvester.createInvoice invoice)).attempt with
    | .error error => return .error ⟨error.text, 500⟩
    | .ok _ => return printed (convertInvoiceToPrintablePrivate handler.printing invoice)
  printed (result : Except Err PrivateInvoicePrintable) : Except Refusal PrivateInvoicePrintable :=
    result.mapError fun error => ⟨error.text, 500⟩

/-! ## `getInvoiceHistory` -/

/-- `strconv.ParseInt` for 64 bits. -/
def parseInt (text : String) : Except String ℤ :=
  match parseDecimal text with
  | none => .error ("strconv.ParseInt: parsing \"" ++ text ++ "\": invalid syntax")
  | some value =>
      if -2 ^ 63 ≤ value ∧ value < 2 ^ 63 then .ok value
      else .error ("strconv.ParseInt: parsing \"" ++ text ++ "\": value out of range")

/-- The parameter `limit` of the query. -/
def readLimit (limitQuery : String) : Except String ℤ :=
  if limitQuery = "" then .ok 20 else parseInt limitQuery

/-- The parameter `after` of the query. Without it the history starts from the empty ID. -/
def readAfter (afterQuery : String) : Request (Except Refusal InvoiceID) :=
  if afterQuery = "" then return .ok 0
  else
    match parseInvoiceID afterQuery with
    | .error error => return .error ⟨"invalid invoice ID: " ++ error.text, 400⟩
    | .ok id => do
        match ← (lift (getInvoice id)).attempt with
        | .error .notFound => return .error ⟨"unknown invoice ID", 400⟩
        | .error error => return .error ⟨error.text, 500⟩
        | .ok _ => return .ok id

/-- `GetInvoices`. -/
def getInvoices (after : InvoiceID) (limit : ℤ) : Request (List Invoice) := do
  let ids ← Prog.query (.selectIDs after limit)
  lift (getInvoicesByIDs ids)

/-- What `getInvoiceHistory` does once it has read its parameters. -/
def listInvoices (handler : Handler) (after : InvoiceID) (limit : ℤ) :
    Request (Except Refusal (List PrivateInvoicePrintable)) := do
  match ← (getInvoices after limit).attempt with
  | .error error => return .error ⟨error.text, 500⟩
  | .ok invoices =>
      match invoices.mapM (convertInvoiceToPrintablePrivate handler.printing) with
      | .error error => return .error ⟨error.text, 500⟩
      | .ok printables => return .ok printables

/-- `getInvoiceHistory`. -/
def getInvoiceHistory (handler : Handler) (limitQuery afterQuery : String) :
    Request (Except Refusal (List PrivateInvoicePrintable)) :=
  match readLimit limitQuery with
  | .error message => return .error ⟨"invalid limit: " ++ message, 400⟩
  | .ok limit => do
      match ← readAfter afterQuery with
      | .error refusal => return .error refusal
      | .ok after => listInvoices handler after limit

/-! ## The client -/

/-- A client that asks for one page for each of the limits, after the last ID that it has
received. A refused request leaves it where it was. -/
def poll (handler : Handler) : List String → String → Request Unit
  | [], _ => return ()
  | limitQuery :: rest, afterQuery => do
      match ← getInvoiceHistory handler limitQuery afterQuery with
      | .error _ => poll handler rest afterQuery
      | .ok printables => do
          let page := printables.map fun printable => printable.public'.id
          Prog.query (Call.receive page)
          poll handler rest (page.getLast?.getD afterQuery)

end Handlers

end Listing

end SpiceHarvester
