import SpiceHarvester.Api.Keys
import SpiceHarvester.Db.Transactions

/-!
# The public endpoints of `pkg/api/handlers.go`

The handlers of the endpoints that anybody may call, as programs over the
statements of the database. A handler writes a response or panics; what panics is
answered by `recoverMiddleware`. A request to a private endpoint comes to nothing
without the token (`authMiddleware`).
-/

set_option autoImplicit false

namespace SpiceHarvester

open Interleaving

/-! ## Responses -/

/-- The body of a response, before it is encoded. -/
inductive Body where
  | empty
  | error (comment : String)
  | invoice (printable : PublicInvoicePrintable)
  | manifest (url name iconURL : String)
  | bytes (bytes : List UInt8)
  | file (path : String)

/-- What a handler writes to its `http.ResponseWriter`. -/
structure Response where
  status : ℕ
  header : List (String × String)
  body : Body

/-- Why a handler panics. -/
inductive Panic where
  | nilDereference

/-- How a handler ends. -/
inductive Outcome where
  | wrote (response : Response)
  | panicked (cause : Panic)

/-- `writeHttpError`. -/
def writeHttpError (comment : String) (status : ℕ) : Outcome :=
  .wrote ⟨status, [("Content-Type", "application/json")], .error comment⟩

/-- The text of an error. That of the driver is not modelled. -/
def Err.text : Err → String
  | .notFound => "not found"
  | .noRows => "no rows in result set"
  | .failed => "database error"
  | .invalid message => message

/-- `core.ErrInternalServerError`. -/
def internalServerError : Outcome := writeHttpError "internal server error" 500

/-- `recoverMiddleware`. -/
def recoverMiddleware : Outcome → Response
  | .wrote response => response
  | .panicked _ => ⟨500, [], .empty⟩

/-- `checkToken`. -/
def checkToken (authorization token : String) : Bool :=
  match authorization.splitOn " " with
  | [scheme, value] => scheme = "Bearer" && bytesOf value = bytesOf token
  | _ => false

/-! ## Handlers -/

/-- `Handler`. -/
structure Handler where
  printing : Printing
  ourEncryptionKey : Option (List UInt8)
  domain : String
  token : String

section Handlers

variable [Libraries] [Cryptography]

/-- `getEncryptedData`, for the `id` of the path. -/
def getEncryptedData (handler : Handler) (pathID : String) : Action Outcome :=
  match handler.ourEncryptionKey with
  | none => return writeHttpError "encrypted data is not available" 423
  | some ourEncryptionKey =>
      match parseInvoiceID pathID with
      | .error _ => return writeHttpError "invalid id" 400
      | .ok id => do
          match ← (getInvoice id).attempt with
          | .error .notFound => return writeHttpError (Err.text .notFound) 404
          | .error _ => return internalServerError
          | .ok invoice => readMetadata ourEncryptionKey invoice
where
  /-- What the handler does with the invoice. -/
  readMetadata (ourEncryptionKey : List UInt8) (invoice : Invoice) : Action Outcome :=
    if invoice.status ≠ .paid then return writeHttpError "invalid invoice" 400
    else
      match invoice.paidBy with
      | none => return .panicked .nilDereference
      | some paidBy => do
          match ← (getEncryptionKey paidBy).attempt with
          | .error .notFound => return writeHttpError (Err.text .notFound) 404
          | .error _ => return internalServerError
          | .ok key =>
              match encryptData key (marshalRawMap invoice.metadata) ourEncryptionKey with
              | .error _ => return internalServerError
              | .ok encrypted =>
                  return .wrote ⟨200, [("Content-Type", "application/octet-stream")],
                    .bytes encrypted⟩

/-- `commitKey`, for the `account` of the path and what the decoder makes of the
body. -/
def commitKey (pathAccount : String) (body : Option (Except String NewKey)) : Action Outcome :=
  match body with
  | none => return writeHttpError "empty body" 400
  | some (.error message) => return writeHttpError ("invalid key data: " ++ message) 400
  | some (.ok data) =>
      match Libraries.parseAccountID pathAccount with
      | .error message => return writeHttpError ("invalid account: " ++ message) 400
      | .ok account =>
          match convertNewKey account data with
          | .error message => return writeHttpError ("key parsing error: " ++ message) 400
          | .ok encryptionKey => do
              match ← (saveEncryptionKey account encryptionKey).attempt with
              | .error _ => return internalServerError
              | .ok _ => return .wrote ⟨200, [], .empty⟩

/-- `getInvoicePublic`, for the `id` of the path. -/
def getInvoicePublic (handler : Handler) (pathID : String) : Action Outcome :=
  match parseInvoiceID pathID with
  | .error _ => return writeHttpError "invalid id" 400
  | .ok id => do
      match ← (getInvoice id).attempt with
      | .error .notFound => return writeHttpError (Err.text .notFound) 404
      | .error error => return writeHttpError error.text 500
      | .ok invoice =>
          match convertInvoiceToPrintablePublic handler.printing invoice with
          | .error error => return writeHttpError error.text 500
          | .ok printable =>
              return .wrote ⟨200, [("Content-Type", "application/json")], .invoice printable⟩

/-- `getManifest`. -/
def getManifest (handler : Handler) : Outcome :=
  .wrote {
    status := 200
    header := [("Access-Control-Allow-Origin", "*"),
      ("Access-Control-Allow-Methods", "GET, OPTIONS"), ("Access-Control-Allow-Headers", "*"),
      ("Content-Type", "application/json")]
    body := .manifest ("https://" ++ handler.domain ++ "/") "Payment"
      ("https://" ++ handler.domain ++ "/tonpay/public/static/logo.png") }

/-- `getInvoiceRender`: the page is the same for every invoice. -/
def getInvoiceRender : Outcome := .wrote ⟨200, [], .file "static/index.html"⟩

/-- `handleStatic`: a file of those embedded in the program. -/
def handleStatic (path : String) : Outcome := .wrote ⟨200, [], .file path⟩

/-- The endpoints that `RegisterHandlers` registers without `authMiddleware`, with
what they take from a request. -/
inductive PublicRequest where
  | getEncryptedData (pathID : String)
  | commitKey (pathAccount : String) (body : Option (Except String NewKey))
  | getInvoicePublic (pathID : String)
  | getManifest
  | static (path : String)
  | getInvoiceRender (pathID : String)

/-- The handler of a public endpoint. -/
def PublicRequest.handle (handler : Handler) : PublicRequest → Action Outcome
  | .getEncryptedData pathID => SpiceHarvester.getEncryptedData handler pathID
  | .commitKey pathAccount body => SpiceHarvester.commitKey pathAccount body
  | .getInvoicePublic pathID => SpiceHarvester.getInvoicePublic handler pathID
  | .getManifest => return SpiceHarvester.getManifest handler
  | .static path => return handleStatic path
  | .getInvoiceRender _ => return SpiceHarvester.getInvoiceRender

/-- `authMiddleware`: what is left of a private request. -/
def authMiddleware {α : Type} (handler : Handler) (authorization : String) (next : α) :
    Except Response α :=
  if checkToken authorization handler.token then .ok next else .error ⟨401, [], .empty⟩

end Handlers

end SpiceHarvester
