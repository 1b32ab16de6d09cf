import SpiceHarvester.Core.Texts
import SpiceHarvester.Indexer.Extract

/-!
# The out messages beside a notification

A jetton wallet that receives a transfer notifies its owner by one out message, and
sends others: the excess, logs, whatever its code does. The payment should not depend
on these others. `extractJettonPayments` goes through the out messages in their order
and passes over an internal message of another operation, but a message that is not
internal ends it. So the others are harmless exactly if those before the notification
are all internal (`notifyOnly_iff`).
-/

set_option autoImplicit false

namespace SpiceHarvester

/-! ## Looking up a field -/

theorem valueFromBody_object {body fields : List (String × Json)} {key : String}
    (found : body.lookup key = some (.object fields)) :
    valueFromBody Json.asObject body key = .ok fields := by
  unfold valueFromBody
  rw [found]
  rfl

theorem valueFromBody_string {body : List (String × Json)} {key text : String}
    (found : body.lookup key = some (.string text)) :
    valueFromBody Json.asString body key = .ok text := by
  unfold valueFromBody
  rw [found]
  rfl

section Extract

variable [Libraries]

/-! ## Notifications -/

/-- A `JettonNotify` message. Only internal messages have a decoded operation. -/
structure Message.IsJettonNotify (message : Message) : Prop where
  internal : message.type = "Int"
  operation : message.decodedOperation = Libraries.jettonNotifyMsgOp

/-- What the body of a notification has to contain. -/
structure NotifyBody where
  body : List (String × Json)
  forwardPayload : List (String × Json)
  value : List (String × Json)
  payload : List (String × Json)
  sumType : String
  text : String
  amount : String
  sender : String

/-- The message notifies the recipient of the payment of an amount by a sender for an
invoice, and its body has the given contents. -/
structure Message.Notifies (message : Message) (contents : NotifyBody) (recipient : AccountID)
    (invoiceID : InvoiceID) (amount : ℤ) (sender : AccountID) : Prop where
  body : message.decodedBody = .object contents.body
  forwardPayload :
    contents.body.lookup "ForwardPayload" = some (.object contents.forwardPayload)
  value : contents.forwardPayload.lookup "Value" = some (.object contents.value)
  payload : contents.value.lookup "Value" = some (.object contents.payload)
  sumType : contents.value.lookup "SumType" = some (.string contents.sumType)
  text : (contents.sumType = Libraries.invoicePayloadJettonOp ∧
      contents.payload.lookup "Id" = some (.string contents.text)) ∨
    (contents.sumType ≠ Libraries.invoicePayloadJettonOp ∧
      contents.sumType = Libraries.textCommentJettonOp ∧
      contents.payload.lookup "Text" = some (.string contents.text))
  invoiceID : parseInvoiceID contents.text = .ok invoiceID
  amountText : contents.body.lookup "Amount" = some (.string contents.amount)
  amount : parseDecimal contents.amount = some amount
  senderText : contents.body.lookup "Sender" = some (.string contents.sender)
  sender : Libraries.parseAccountID contents.sender = .ok sender
  destination : message.destination = some recipient

/-- A well-formed notification is one payment. -/
theorem jettonNotifyPayments_of_notifies {tx : Transaction} {account : Account}
    {jetton : AccountID} {message : Message} {contents : NotifyBody} {invoiceID : InvoiceID}
    {amount : ℤ} {sender : AccountID}
    (notifies : message.Notifies contents account.info.recipient invoiceID amount sender) :
    jettonNotifyPayments tx account jetton message =
      .ok [⟨invoiceID, .jetton jetton, amount, sender, account.info.recipient, tx.hash⟩] := by
  have nonempty : contents.value.isEmpty = false := by
    cases same : contents.value with
    | nil =>
        have payload := notifies.payload
        rw [same] at payload
        cases payload
    | cons _ _ => rfl
  have forwardPayload := valueFromBody_object notifies.forwardPayload
  have value := valueFromBody_object notifies.value
  have payload := valueFromBody_object notifies.payload
  have sumType := valueFromBody_string notifies.sumType
  have amountText := valueFromBody_string notifies.amountText
  have senderText := valueFromBody_string notifies.senderText
  unfold jettonNotifyPayments
  rw [notifies.body]
  obtain ⟨operation, text⟩ | ⟨other, operation, text⟩ := notifies.text
  · have text := valueFromBody_string text
    simp [Json.asObject, forwardPayload, value, nonempty, payload, sumType, operation, text,
      notifies.invoiceID, amountText, notifies.amount, senderText, notifies.sender,
      notifies.destination, wrap, Except.mapError, Except.map, bind, Except.bind, pure, Except.pure]
  · have text := valueFromBody_string text
    simp [Json.asObject, forwardPayload, value, nonempty, payload, sumType, operation ▸ other,
      operation, text, notifies.invoiceID, amountText, notifies.amount, senderText,
      notifies.sender, notifies.destination, wrap, Except.mapError, Except.map, bind, Except.bind,
      pure, Except.pure]

/-- Nothing but an object is accepted as a body. -/
theorem jettonNotifyPayments_of_null {tx : Transaction} {account : Account} {jetton : AccountID}
    {message : Message} (body : message.decodedBody = .null) :
    jettonNotifyPayments tx account jetton message = .error "invalid decoded body" := by
  unfold jettonNotifyPayments
  rw [body]
  rfl

/-! ## Going through the messages -/

section Scan

variable {tx : Transaction} {account : Account} {jetton : AccountID} {message : Message}
  {before after : List Message}

theorem scanOutMessages_notify (notify : message.IsJettonNotify) :
    scanOutMessages tx account jetton (message :: after) =
      jettonNotifyPayments tx account jetton message := by
  unfold scanOutMessages
  rw [if_neg (not_not.mpr notify.internal), if_neg (not_not.mpr notify.operation)]

/-- Internal messages of other operations are passed over. -/
theorem scanOutMessages_append (others : ∀ other ∈ before, ¬ other.IsJettonNotify)
    (internal : ∀ other ∈ before, other.type = "Int") :
    scanOutMessages tx account jetton (before ++ after) =
      scanOutMessages tx account jetton after := by
  induction before with
  | nil => rfl
  | cons first rest ih =>
      have type := internal first List.mem_cons_self
      have operation : first.decodedOperation ≠ Libraries.jettonNotifyMsgOp :=
        fun same => others first List.mem_cons_self ⟨type, same⟩
      rw [List.cons_append, scanOutMessages, if_neg (not_not.mpr type), if_pos operation]
      exact ih (fun other member => others other (List.mem_cons_of_mem _ member))
        (fun other member => internal other (List.mem_cons_of_mem _ member))

/-- A message that is not internal ends the loop, if no notification comes before. -/
theorem scanOutMessages_stops (others : ∀ other ∈ before, ¬ other.IsJettonNotify)
    (stops : ∃ other ∈ before, other.type ≠ "Int") :
    scanOutMessages tx account jetton (before ++ after) = .ok [] := by
  induction before with
  | nil =>
      obtain ⟨_, member, _⟩ := stops
      cases member
  | cons first rest ih =>
      rw [List.cons_append, scanOutMessages]
      by_cases type : first.type = "Int"
      · have operation : first.decodedOperation ≠ Libraries.jettonNotifyMsgOp :=
          fun same => others first List.mem_cons_self ⟨type, same⟩
        rw [if_neg (not_not.mpr type), if_pos operation]
        refine ih (fun other member => others other (List.mem_cons_of_mem _ member)) ?_
        obtain ⟨other, member, external⟩ := stops
        rcases List.mem_cons.mp member with rfl | member
        · exact absurd type external
        · exact ⟨other, member, external⟩
      · rw [if_pos type]

end Scan

/-! ## Only the notification counts -/

/-- With these messages before the notification and those after it, the result of
`extractJettonPayments` depends on the success flag, the type of the in message, the
hash and the notification only. A well-formed notification to the recipient is exactly
one payment. -/
structure NotifyOnly (before after : List Message) : Prop where
  depends : ∀ (tx tx' : Transaction) (account : Account) (jetton : AccountID) (message : Message),
    message.IsJettonNotify → tx.outMessages = before ++ message :: after →
    tx'.outMessages = [message] → tx.success = tx'.success →
    tx.inMessage.type = tx'.inMessage.type → tx.hash = tx'.hash →
    extractJettonPayments tx account jetton = extractJettonPayments tx' account jetton
  pays : ∀ (tx : Transaction) (account : Account) (jetton : AccountID) (message : Message)
    (contents : NotifyBody) (invoiceID : InvoiceID) (amount : ℤ) (sender : AccountID),
    message.IsJettonNotify → tx.outMessages = before ++ message :: after → tx.success = true →
    tx.inMessage.type = "Int" →
    message.Notifies contents account.info.recipient invoiceID amount sender →
    extractJettonPayments tx account jetton =
      .ok [⟨invoiceID, .jetton jetton, amount, sender, account.info.recipient, tx.hash⟩]

/-- The payments of a notification use the hash of the transaction and nothing else of
it. -/
theorem jettonNotifyPayments_congr {tx tx' : Transaction} (hash : tx.hash = tx'.hash)
    (account : Account) (jetton : AccountID) (message : Message) :
    jettonNotifyPayments tx account jetton message =
      jettonNotifyPayments tx' account jetton message := by
  unfold jettonNotifyPayments
  rw [hash]

theorem NotifyOnly.of_internal {before after : List Message}
    (others : ∀ other ∈ before, ¬ other.IsJettonNotify)
    (internal : ∀ other ∈ before, other.type = "Int") : NotifyOnly before after where
  depends := by
    intro tx tx' account jetton message notify out out' success type hash
    unfold extractJettonPayments
    rw [success, type, out, out', scanOutMessages_append others internal,
      scanOutMessages_notify notify, scanOutMessages_notify notify,
      jettonNotifyPayments_congr hash]
  pays := by
    intro tx account jetton message contents invoiceID amount sender notify out success type
      notifies
    unfold extractJettonPayments
    rw [success, out, scanOutMessages_append others internal, scanOutMessages_notify notify,
      jettonNotifyPayments_of_notifies notifies, if_neg (by decide), if_neg (not_not.mpr type)]

/-- A message without source, destination, value and body. -/
def Message.bare (type decodedOperation : String) : Message :=
  ⟨type, none, none, 0, [], 0, 0, 0, decodedOperation, .null⟩

/-- A successful transaction of an internal message with the given out messages. -/
def Transaction.sending (outMessages : List Message) : Transaction :=
  ⟨0, 0, 0, 0, 0, true, .bare "Int" "", outMessages⟩

/-- A jetton wallet whose owner is the given account. -/
def Account.wallet (recipient jetton : AccountID) : Account := ⟨⟨0, 0⟩, 0, recipient, some jetton⟩

/-- **The result depends on the notification only, exactly if the messages before it are
all internal.** -/
theorem notifyOnly_iff {before after : List Message}
    (others : ∀ other ∈ before ++ after, ¬ other.IsJettonNotify) :
    NotifyOnly before after ↔ ∀ other ∈ before, other.type = "Int" := by
  have others : ∀ other ∈ before, ¬ other.IsJettonNotify :=
    fun other member => others other (List.mem_append_left _ member)
  constructor
  · intro only
    by_contra external
    simp only [not_forall] at external
    obtain ⟨other, member, external⟩ := external
    -- A notification with a body that is no object is reported when it stands alone.
    let message := Message.bare "Int" Libraries.jettonNotifyMsgOp
    let account := Account.wallet ⟨0, 0⟩ ⟨0, 0⟩
    have notify : message.IsJettonNotify := ⟨rfl, rfl⟩
    have same := only.depends (.sending (before ++ message :: after)) (.sending [message]) account
      ⟨0, 0⟩ message notify rfl rfl rfl rfl rfl
    have silent : extractJettonPayments (.sending (before ++ message :: after)) account ⟨0, 0⟩ =
        .ok [] := scanOutMessages_stops others ⟨other, member, external⟩
    have scanned : extractJettonPayments (.sending [message]) account ⟨0, 0⟩ =
        jettonNotifyPayments (.sending [message]) account ⟨0, 0⟩ message :=
      scanOutMessages_notify notify
    rw [silent, scanned, jettonNotifyPayments_of_null rfl] at same
    cases same
  · exact NotifyOnly.of_internal others

end Extract

/-! ## A log before the notification -/

section Shop

attribute [local instance] Texts.libraries

namespace Shop

def owner : AccountID := ⟨0, 1⟩

/-- An ID of version 7. -/
def invoiceID : InvoiceID := BitVec.ofNat 128 (7 * 2 ^ 76)

/-- A notification of 10 jettons for the invoice. -/
def contents : NotifyBody where
  body := [("Amount", .string "10"), ("Sender", .string (Texts.toRaw ⟨0, 2⟩)),
    ("ForwardPayload", .object [("Value", .object [("SumType", .string "TextComment"),
      ("Value", .object [("Text", .string (Texts.uuidString invoiceID))])])])]
  forwardPayload := [("Value", .object [("SumType", .string "TextComment"),
    ("Value", .object [("Text", .string (Texts.uuidString invoiceID))])])]
  value := [("SumType", .string "TextComment"),
    ("Value", .object [("Text", .string (Texts.uuidString invoiceID))])]
  payload := [("Text", .string (Texts.uuidString invoiceID))]
  sumType := "TextComment"
  text := Texts.uuidString invoiceID
  amount := "10"
  sender := Texts.toRaw ⟨0, 2⟩

def notification : Message :=
  { Message.bare "Int" "JettonNotify" with
    destination := some owner
    decodedBody := .object contents.body }

theorem notification_notifies : notification.Notifies contents owner invoiceID 10 ⟨0, 2⟩ where
  body := rfl
  forwardPayload := rfl
  value := rfl
  payload := rfl
  sumType := rfl
  text := .inr ⟨by decide, rfl, rfl⟩
  invoiceID := by decide +kernel
  amountText := rfl
  amount := by decide +kernel
  senderText := rfl
  sender := Texts.parseRaw_toRaw _
  destination := rfl

/-- The excess that a jetton wallet returns, and a log for the outside. -/
def excess : Message := Message.bare "Int" "Excess"

def log : Message := Message.bare "ExtOut" ""

end Shop

open Shop

/-- Excesses and logs after the notification, and excesses before it, leave one
payment. -/
theorem excesses_harmless :
    NotifyOnly [excess] [log, excess] ∧
      extractJettonPayments (.sending [excess, notification, log, excess])
        (.wallet owner ⟨0, 9⟩) ⟨0, 9⟩ =
      .ok [⟨invoiceID, .jetton ⟨0, 9⟩, 10, ⟨0, 2⟩, owner, 0⟩] := by
  have only : NotifyOnly [excess] [log, excess] :=
    (notifyOnly_iff (fun other member notify => by
      have operation := notify.operation
      simp only [List.cons_append, List.nil_append, List.mem_cons, List.not_mem_nil, or_false]
        at member
      rcases member with rfl | rfl | rfl <;> exact absurd operation (by decide))).mpr
      (fun other member => by
        rcases List.mem_singleton.mp member with rfl
        rfl)
  exact ⟨only, only.pays _ _ _ notification contents _ _ _ ⟨rfl, rfl⟩ rfl rfl rfl
    notification_notifies⟩

/-- A log before the notification drops the payment, which alone is found. -/
theorem log_drops_payment :
    extractJettonPayments (.sending [log, notification]) (.wallet owner ⟨0, 9⟩) ⟨0, 9⟩ = .ok [] ∧
      extractJettonPayments (.sending [notification]) (.wallet owner ⟨0, 9⟩) ⟨0, 9⟩ =
        .ok [⟨invoiceID, .jetton ⟨0, 9⟩, 10, ⟨0, 2⟩, owner, 0⟩] ∧
      ¬ NotifyOnly [log] [] := by
  have notify : notification.IsJettonNotify := ⟨rfl, rfl⟩
  have dropped : extractJettonPayments (.sending [log, notification]) (.wallet owner ⟨0, 9⟩)
      ⟨0, 9⟩ = .ok [] := rfl
  have alone : NotifyOnly [] [] := .of_internal (fun _ none => by cases none) fun _ none => by cases none
  have found := alone.pays (.sending [notification]) (.wallet owner ⟨0, 9⟩) ⟨0, 9⟩ notification
    contents invoiceID 10 ⟨0, 2⟩ notify rfl rfl rfl notification_notifies
  refine ⟨dropped, found, fun only => ?_⟩
  have same := only.depends (.sending [log, notification]) (.sending [notification])
    (.wallet owner ⟨0, 9⟩) ⟨0, 9⟩ notification notify rfl rfl rfl rfl rfl
  rw [dropped, found] at same
  cases same

end Shop

end SpiceHarvester
