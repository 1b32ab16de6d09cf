import SpiceHarvester.Core

/-!
# The payments of a transaction

`extractNativePayments` and `extractJettonPayments` of `pkg/indexer`. Each
returns payments or an error, whose text is recorded with the transaction. An
internal message without a source makes `extractNativePayments` dereference
nil: there is no result then.
-/

set_option autoImplicit false

namespace SpiceHarvester

def Json.asString : Json → Option String
  | .string value => some value
  | _ => none

def Json.asObject : Json → Option (List (String × Json))
  | .object fields => some fields
  | _ => none

/-- `valueFromBody[T]`, where the conversion is the assertion of the type. -/
def valueFromBody {α : Type} (conversion : Json → Option α) (body : List (String × Json))
    (key : String) : Except String α :=
  match body.lookup key with
  | none => .error ("no " ++ key ++ " found")
  | some value =>
      match conversion value with
      | none => .error ("invalid type " ++ key)
      | some typed => .ok typed

/-- `fmt.Errorf("...: %w", err)`. -/
def wrap {α : Type} (message : String) (result : Except String α) : Except String α :=
  result.mapError fun error => message ++ ": " ++ error

section Extract

variable [Libraries]

/-- The text that names the invoice in a native payment, when the message is of
one of the two operations that carry it. -/
def nativeInvoiceText (message : Message) : Except String (Option String) :=
  if message.decodedOperation = Libraries.invoicePayloadMsgOp then
    match message.decodedBody.asObject with
    | none => .error "failed to extract invoice payload body"
    | some body =>
        (wrap "id not found in InvoicePayloadMsg" (valueFromBody Json.asString body "Id")).map some
  else if message.decodedOperation = Libraries.textCommentMsgOp then
    match message.decodedBody.asObject with
    | none => .error "failed to extract text comment body"
    | some body =>
        (wrap "text not found in TextCommentMsg" (valueFromBody Json.asString body "Text")).map some
  else
    .ok none

/-- `big.NewInt(int64(tons))`. -/
def tonAmount (tons : UInt64) : ℤ := tons.toInt64.toInt

/-- `extractNativePayments`. -/
def extractNativePayments (tx : Transaction) (account : Account) :
    Option (Except String (List Payment)) :=
  if !tx.success then some (.ok [])
  else if tx.inMessage.type ≠ "Int" then some (.ok [])
  else
    match nativeInvoiceText tx.inMessage with
    | .error error => some (.error error)
    | .ok none => some (.ok [])
    | .ok (some text) =>
        match parseInvoiceID text with
        | .error _ => some (.ok [])
        | .ok invoiceID =>
            tx.inMessage.source.map fun source =>
              let payment := fun (currency : Currency) (amount : ℤ) =>
                (⟨invoiceID, currency, amount, source, account.accountID, tx.hash⟩ : Payment)
              .ok (payment .ton (tonAmount tx.inMessage.value) ::
                (tx.inMessage.extraCurrencies.filter fun extra => extra.2 ≠ 0).map fun extra =>
                  payment (.extra extra.1) extra.2)

/-- The payment of a `JettonNotify` message. -/
def jettonNotifyPayments (tx : Transaction) (account : Account) (jetton : AccountID)
    (outMsg : Message) : Except String (List Payment) := do
  let some body := outMsg.decodedBody.asObject | throw "invalid decoded body"
  let forwardPayload ←
    wrap "invalid ForwardPayload" (valueFromBody Json.asObject body "ForwardPayload")
  let value ← wrap "invalid ForwardPayload value"
    (valueFromBody Json.asObject forwardPayload "Value")
  if value.isEmpty then
    return []
  let payload ← wrap "invalid ForwardPayload payload" (valueFromBody Json.asObject value "Value")
  let sumType ← wrap "sumType not found in ForwardPayload"
    (valueFromBody Json.asString value "SumType")
  let text? ←
    if sumType = Libraries.invoicePayloadJettonOp then
      (wrap "id not found in InvoicePayloadJetton"
        (valueFromBody Json.asString payload "Id")).map some
    else if sumType = Libraries.textCommentJettonOp then
      (wrap "text not found in TextCommentJetton"
        (valueFromBody Json.asString payload "Text")).map some
    else
      pure none
  let some text := text? | return []
  let .ok invoiceID := parseInvoiceID text | return []
  let amountS ← wrap "invalid amount" (valueFromBody Json.asString body "Amount")
  let some amount := parseDecimal amountS | throw "invalid amount"
  let senderS ← wrap "invalid sender" (valueFromBody Json.asString body "Sender")
  let sender ← wrap "invalid sender" (Libraries.parseAccountID senderS)
  let some destination := outMsg.destination | throw "empty destination from jetton notify"
  if destination ≠ account.info.recipient then
    throw "invalid destination from jetton notify"
  return [⟨invoiceID, .jetton jetton, amount, sender, account.info.recipient, tx.hash⟩]

/-- The loop of `extractJettonPayments` over the outgoing messages. -/
def scanOutMessages (tx : Transaction) (account : Account) (jetton : AccountID) :
    List Message → Except String (List Payment)
  | [] => .ok []
  | outMsg :: rest =>
      if outMsg.type ≠ "Int" then .ok []
      else if outMsg.decodedOperation ≠ Libraries.jettonNotifyMsgOp then
        scanOutMessages tx account jetton rest
      else jettonNotifyPayments tx account jetton outMsg

/-- `extractJettonPayments`. -/
def extractJettonPayments (tx : Transaction) (account : Account) (jetton : AccountID) :
    Except String (List Payment) :=
  if !tx.success then .ok []
  else if tx.inMessage.type ≠ "Int" then .ok []
  else scanOutMessages tx account jetton tx.outMessages

/-- The payments that the indexer takes from a transaction, or the error. -/
def extractPayments (tx : Transaction) (account : Account) : Option (Except String (List Payment)) :=
  match account.info.jetton with
  | some jetton => some (extractJettonPayments tx account jetton)
  | none => extractNativePayments tx account

end Extract

end SpiceHarvester
