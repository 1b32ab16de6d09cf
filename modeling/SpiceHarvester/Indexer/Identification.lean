import SpiceHarvester.Db.ReadBack
import SpiceHarvester.Indexer.NativePayments

/-!
# How a payment names its invoice

`EncodePayload` writes the ID of an invoice into a cell, and a payer may write it as a text
comment instead. The cell is the body of a message in TON, or the forward payload with which
a jetton wallet notifies its owner. `tongo` decodes it into a body, `SaveTransactions` stores
that as JSON, and the extraction takes the ID from the JSON of the stored transaction. It is
the ID of the invoice, on each of the four ways (`identified`).
-/

set_option autoImplicit false

namespace SpiceHarvester

open JsonText

/-! ## The cells of a payment -/

/-- `abi.PaymentProviderUrl`. -/
inductive PaymentProviderUrl where
  | none
  | tonsite (address : Bits256)

/-- `abi.InvoicePayloadMsgBody`. -/
structure InvoicePayloadMsgBody where
  id : UUID
  url : PaymentProviderUrl

/-- The payload of `EncodePayload`. -/
def payloadOf (id : InvoiceID) (adnlAddress : Option Bits256) : InvoicePayloadMsgBody where
  id := id
  url := match adnlAddress with
    | none => .none
    | some address => .tonsite address

/-- What a jetton wallet tells its owner of a transfer. -/
structure JettonNotify [Tongo] where
  queryID : ℕ
  amount : ℕ
  sender : AccountID
  isRight : Bool
  forwardPayload : Tongo.Cell

/-- What writes cells: the functions of `boc` and `tlb` that `EncodePayload` calls, a wallet
that sends a text comment, and a jetton wallet that notifies. -/
class Cells [Libraries] [Tongo] where
  newCell : Tongo.Cell
  writeUint : Tongo.Cell → (value bits : ℕ) → Except String Tongo.Cell
  marshal : Tongo.Cell → InvoicePayloadMsgBody → Except String Tongo.Cell
  toBoc : Tongo.Cell → Except String (List UInt8)
  invoicePayloadMsgOpCode : ℕ
  comment : String → Tongo.Cell
  jettonNotify : JettonNotify → Tongo.Cell
  urlJson : PaymentProviderUrl → Json
  /-- The bytes of a payload are those of the cell that `EncodePayload` writes. -/
  boc : ∀ id adnlAddress, Libraries.invoicePayloadBoc id adnlAddress =
    ((writeUint newCell invoicePayloadMsgOpCode 32 >>= fun c => marshal c (payloadOf id adnlAddress)) >>=
      toBoc)

/-- The digits of a number in base 16 that stand for 128 bits. -/
def hex128 (bits : UUID) : String := String.ofList (Texts.hexDigits 32 bits.toNat)

section Cells

variable [Libraries] [Tongo] [Cells]

/-- The cell that `EncodePayload` writes. -/
def payloadCell (payload : InvoicePayloadMsgBody) : Except String Tongo.Cell := do
  let c ← Cells.writeUint Cells.newCell Cells.invoicePayloadMsgOpCode 32
  Cells.marshal c payload

/-- `EncodePayload` returns the bytes of that cell in base 64. -/
theorem encodePayload_eq (invoice : Invoice) (adnlAddress : Option Bits256) (urlSafe : Bool) :
    encodePayload invoice adnlAddress urlSafe =
      match payloadCell (payloadOf invoice.id adnlAddress) >>= Cells.toBoc with
      | .error message => .error (.invalid message)
      | .ok bytes => .ok (String.ofList (base64Encode urlSafe bytes)) := by
  unfold encodePayload
  rw [Cells.boc]
  rfl

/-- The JSON form of a decoded payload. -/
def payloadJson (payload : InvoicePayloadMsgBody) : Json :=
  .object [("Id", .string (hex128 payload.id)), ("Url", Cells.urlJson payload.url)]

/-- The JSON form of a decoded notification, with the forward payload under its name. -/
def notifyJson (notify : JettonNotify) (sumType : String) (opCode : ℕ) (payload : Json) : Json :=
  .object [("QueryId", .number (toString notify.queryID)),
    ("Amount", .string (toString notify.amount)),
    ("Sender", .string (Libraries.toRaw notify.sender)),
    ("ForwardPayload", .object [("IsRight", .bool notify.isRight),
      ("Value", .object [("SumType", .string sumType), ("OpCode", .number (toString opCode)),
        ("Value", payload)])])]

/-- The cell is decoded as the operation, with a body of the JSON form. -/
structure Decodes (cell : Tongo.Cell) (operation : String) (x : Json) : Prop where
  nonempty : Tongo.isEmpty cell = false
  hashed : ∃ bodyHash, Tongo.hash cell = .ok bodyHash
  decoded : ∃ decodedOperation decodedBody encoded,
    Tongo.decode cell = some (decodedOperation, decodedBody) ∧ decodedOperation.text = operation ∧
      Tongo.marshalJSON decodedBody = .ok encoded ∧ encoded.text = x.marshal ∧ encoded.value = x

/-- The value is written without a backslash. -/
def Json.Plain (x : Json) : Prop := x.Encodable ∧ NoBackslash x.marshal

/-- The decoder inverts what writes cells, and renders 128 bits as 32 digits. -/
structure Inverts : Prop where
  payload : ∀ payload cell, payloadCell payload = .ok cell →
    Decodes cell Libraries.invoicePayloadMsgOp (payloadJson payload)
  comment : ∀ text, Decodes (Cells.comment text) Libraries.textCommentMsgOp (textComment text)
  notifyPayload : ∀ (notify : JettonNotify) payload,
    payloadCell payload = .ok notify.forwardPayload →
    Decodes (Cells.jettonNotify notify) Libraries.jettonNotifyMsgOp
      (notifyJson notify Libraries.invoicePayloadJettonOp Cells.invoicePayloadMsgOpCode
        (payloadJson payload))
  notifyComment : ∀ (notify : JettonNotify) text, notify.forwardPayload = Cells.comment text →
    Decodes (Cells.jettonNotify notify) Libraries.jettonNotifyMsgOp
      (notifyJson notify Libraries.textCommentJettonOp 0 (textComment text))
  plainUrl : ∀ url, (Cells.urlJson url).Plain

end Cells

/-- The texts of UUIDs, of accounts and of the names of operations. `uuid.Parse` accepts the
hyphenated form and the one of 32 digits. -/
structure Readable [Libraries] : Prop where
  parseHex : ∀ id, Libraries.parseUUID (hex128 id) = .ok id
  parseString : ∀ id, Libraries.parseUUID (Libraries.uuidString id) = .ok id
  plainString : ∀ id, NoBackslash (marshalText (Libraries.uuidString id).toList)
  plainRaw : ∀ account, NoBackslash (marshalText (Libraries.toRaw account).toList)
  plainPayload : NoBackslash (marshalText Libraries.invoicePayloadJettonOp.toList)
  plainComment : NoBackslash (marshalText Libraries.textCommentJettonOp.toList)
  messages : Libraries.textCommentMsgOp ≠ Libraries.invoicePayloadMsgOp
  jettons : Libraries.textCommentJettonOp ≠ Libraries.invoicePayloadJettonOp

/-! ## Plain values -/

theorem noBackslash_hex128 (id : UUID) : NoBackslash (marshalText (hex128 id).toList) := by
  rw [hex128, String.toList_ofList]
  exact noBackslash_marshalText fun c member => .inl (Texts.hexDigits_alphanum member)

/-- A plain value is stored as it is. -/
theorem Json.Plain.strip {x : Json} (plain : x.Plain) : x.strip = x :=
  Json.strip_of_noBackslash plain.1 plain.2

theorem Json.Plain.clear {x : Json} (plain : x.Plain) : ¬ Clash false x.marshal := by
  have clash := clash_append plain.2 []
  rw [List.append_nil] at clash
  exact clash.mp

theorem Json.Plain.field {key : String} {x : Json} (plain : x.Plain)
    (clean : NoBackslash (marshalText key.toList)) : CleanField (key, x) :=
  ⟨clean, plain.1, plain.2⟩

theorem plain_string {text : String} (clean : NoBackslash (marshalText text.toList)) :
    (Json.string text).Plain := ⟨trivial, clean⟩

theorem plain_number (n : ℕ) : (Json.number (toString n)).Plain :=
  ⟨isNumber_toString n, noBackslash_digits n⟩

section Plain

variable [Libraries] [Tongo] [Cells]

omit [Libraries] [Tongo] [Cells] in
theorem plain_textComment {text : String} (clean : NoBackslash (marshalText text.toList)) :
    (textComment text).Plain :=
  object_of_clean fun entry member => by
    obtain rfl := List.mem_singleton.mp member
    exact (plain_string clean).field (no_backslash rfl)

theorem plain_payloadJson (inverts : Inverts) (payload : InvoicePayloadMsgBody) :
    (payloadJson payload).Plain :=
  object_of_clean (List.forall_mem_cons.mpr
    ⟨(plain_string (noBackslash_hex128 payload.id)).field (no_backslash rfl),
      List.forall_mem_singleton.mpr ((inverts.plainUrl payload.url).field (no_backslash rfl))⟩)

omit [Cells] in
theorem plain_notifyJson (readable : Readable) (notify : JettonNotify) {sumType : String}
    (named : NoBackslash (marshalText sumType.toList)) (opCode : ℕ) {payload : Json}
    (plain : payload.Plain) : (notifyJson notify sumType opCode payload).Plain := by
  have value : (Json.object [("SumType", .string sumType), ("OpCode", .number (toString opCode)),
      ("Value", payload)]).Plain :=
    object_of_clean (List.forall_mem_cons.mpr ⟨(plain_string named).field (no_backslash rfl),
      List.forall_mem_cons.mpr ⟨(plain_number opCode).field (no_backslash rfl),
        List.forall_mem_singleton.mpr (plain.field (no_backslash rfl))⟩⟩)
  have isRight : (Json.bool notify.isRight).Plain := by
    cases notify.isRight <;> exact ⟨trivial, no_backslash rfl⟩
  have forward : (Json.object [("IsRight", .bool notify.isRight), ("Value", .object
      [("SumType", .string sumType), ("OpCode", .number (toString opCode)), ("Value", payload)])]).Plain :=
    object_of_clean (List.forall_mem_cons.mpr ⟨isRight.field (no_backslash rfl),
      List.forall_mem_singleton.mpr (value.field (no_backslash rfl))⟩)
  have amount : (Json.string (toString notify.amount)).Plain :=
    plain_string (noBackslash_marshalText_digits _)
  have sender : (Json.string (Libraries.toRaw notify.sender)).Plain :=
    plain_string (readable.plainRaw notify.sender)
  exact object_of_clean (List.forall_mem_cons.mpr
    ⟨(plain_number notify.queryID).field (no_backslash rfl),
      List.forall_mem_cons.mpr ⟨amount.field (no_backslash rfl),
        List.forall_mem_cons.mpr ⟨sender.field (no_backslash rfl),
          List.forall_mem_singleton.mpr (forward.field (no_backslash rfl))⟩⟩⟩)

end Plain

/-! ## Storage -/

section Storage

variable [Libraries] [Tongo]

/-- The JSON text of a body, which is null where there is none. -/
def encodeBody : AnyBody → Except String Encoded
  | none => .ok ⟨Json.null.marshal, .null, Json.null.reads_marshal trivial⟩
  | some body => Tongo.marshalJSON body

/-- The transaction is stored for the account and read again. -/
def TonTransaction.Reloads (tx : TonTransaction) (account : AccountID) (reloaded : Transaction) :
    Prop :=
  ∃ row, (convertTransaction tx).Inserts encodeBody account row ∧ row.transaction = .ok reloaded

omit [Libraries] in
/-- A stored message keeps its type and its operation. -/
theorem stored_head (m : LoadedMessage AnyBody) :
    (m.stored encodeBody).type = m.type.text ∧
      (m.stored encodeBody).decodedOperation = m.decodedOperation.text := by
  unfold LoadedMessage.stored
  split <;> exact ⟨rfl, rfl⟩

omit [Tongo] in
/-- What is read of a row is what its columns hold. -/
theorem JsonbRow.columns_of_transaction {row : JsonbRow} {tx : Transaction}
    (read : row.transaction = .ok tx) :
    decodeColumn row.inMessage = .ok tx.inMessage ∧
      row.outMessages.mapM decodeColumn = .ok tx.outMessages ∧ tx.success = row.success := by
  unfold JsonbRow.transaction at read
  obtain ⟨inMessage, first, read⟩ := except_bind read
  obtain ⟨outMessages, later, read⟩ := except_bind read
  cases read
  exact ⟨first, later, rfl⟩

variable {message : TlbMessage} {info : IntMsgInfo} {operation : String} {x : Json}

omit [Libraries] in
/-- An internal message whose body is decoded as a plain value can be stored. -/
theorem storable_of_decodes (internal : message.info = .intMsgInfo info)
    (decodes : Decodes message.body operation x) (plain : x.Plain) :
    (convertMessage message).Storable encodeBody := by
  obtain ⟨_, hashed⟩ := decodes.hashed
  obtain ⟨_, body, encoded, decoded, _, marshalled, text, _⟩ := decodes.decoded
  refine ⟨encoded, ?_, text ▸ plain.clear⟩
  rw [(decoded_of_internal internal decodes.nonempty hashed decoded).2]
  exact marshalled

omit [Libraries] in
/-- It is read back with that value. -/
theorem stored_of_decodes (internal : message.info = .intMsgInfo info)
    (decodes : Decodes message.body operation x) (plain : x.Plain) :
    (convertMessage message).stored encodeBody = (convertMessage message).decoded x ∧
      (convertMessage message).decodedOperation.text = operation := by
  obtain ⟨_, hashed⟩ := decodes.hashed
  obtain ⟨_, body, encoded, decoded, named, marshalled, _, value⟩ := decodes.decoded
  have same := decoded_of_internal internal decodes.nonempty hashed decoded
  refine ⟨?_, same.1 ▸ named⟩
  have found : encodeBody (convertMessage message).decodedBody = .ok encoded := by
    rw [same.2]
    exact marshalled
  unfold LoadedMessage.stored
  rw [found]
  dsimp only
  rw [value, plain.strip]

variable {tx : TonTransaction} {account : AccountID} {reloaded : Transaction}

/-- A transaction all of whose messages can be stored is stored and read again. -/
theorem reloads_of_storable (readable : Readable)
    (storable : ∀ m ∈ (convertTransaction tx).messages, m.Storable encodeBody) :
    tx.Reloads account ((convertTransaction tx).stored encodeBody) := by
  obtain ⟨first, later⟩ := List.forall_mem_cons.mp storable
  obtain ⟨inColumn, inHolds⟩ := first.holds readable.plainRaw
  have columns : ∀ messages : List (LoadedMessage AnyBody),
      (∀ m ∈ messages, m.Storable encodeBody) →
      ∃ columns, List.Forall₂ (Holds encodeBody) messages columns := by
    intro messages
    induction messages with
    | nil => exact fun _ => ⟨[], .nil⟩
    | cons m messages ih =>
        intro storable
        obtain ⟨first, later⟩ := List.forall_mem_cons.mp storable
        obtain ⟨column, holds⟩ := first.holds readable.plainRaw
        obtain ⟨columns, hold⟩ := ih later
        exact ⟨some column :: columns, .cons holds hold⟩
  obtain ⟨outColumns, outHold⟩ := columns _ later
  let row : JsonbRow := ⟨tx.hash, tx.lt.toNat, account, tx.prevTransHash, tx.prevTransLt.toNat,
    tx.now, some inColumn, outColumns, tx.isSuccess⟩
  have inserts : (convertTransaction tx).Inserts encodeBody account row :=
    ⟨rfl, rfl, rfl, rfl, rfl, rfl, inHolds, outHold, rfl⟩
  exact ⟨row, inserts, (inserts.transaction_iff readable.plainRaw).mpr storable⟩

/-- The incoming message that is read is the one that was stored. -/
theorem inMessage_of_reloads (readable : Readable) (reloads : tx.Reloads account reloaded)
    (storable : (convertTransaction tx).inMessage.Storable encodeBody) :
    reloaded.inMessage = (convertTransaction tx).inMessage.stored encodeBody ∧
      reloaded.success = tx.isSuccess := by
  obtain ⟨row, inserts, read⟩ := reloads
  obtain ⟨first, _, success⟩ := JsonbRow.columns_of_transaction read
  have same := (decodeColumn_iff readable.plainRaw inserts.inMessage).mpr storable
  rw [first, Except.ok.injEq] at same
  exact ⟨same, success.trans inserts.success⟩

/-- Columns are read in their order, those that can be stored as they were. -/
theorem mapM_decodeColumn_append (readable : Readable)
    {before after : List (LoadedMessage AnyBody)} {columns : List (Option Json)}
    {messages : List Message}
    (hold : List.Forall₂ (Holds encodeBody) (before ++ after) columns)
    (storable : ∀ m ∈ before, m.Storable encodeBody)
    (read : columns.mapM decodeColumn = .ok messages) :
    ∃ later, messages = before.map (LoadedMessage.stored encodeBody) ++ later := by
  induction before generalizing columns messages with
  | nil => exact ⟨messages, rfl⟩
  | cons m before ih =>
      cases hold with
      | @cons _ column _ columns holds hold =>
          obtain ⟨first, others⟩ := List.forall_mem_cons.mp storable
          rw [List.mapM_cons] at read
          obtain ⟨message, decoded, read⟩ := except_bind read
          obtain ⟨messages, rest, read⟩ := except_bind read
          cases read
          rw [(decodeColumn_iff readable.plainRaw holds).mpr first, Except.ok.injEq] at decoded
          obtain ⟨later, same⟩ := ih hold others rest
          exact ⟨later, by rw [same, ← decoded]; rfl⟩

end Storage

/-! ## Payments for an invoice -/

section Identified

variable [Libraries] [Tongo] [Cells]

/-- The cell names the invoice: it is the one of `EncodePayload`, with or without an ADNL
address, or a text comment with the ID. -/
inductive NamesInvoice (id : InvoiceID) : Tongo.Cell → Prop where
  | payload {adnlAddress : Option Bits256} {cell : Tongo.Cell}
      (written : payloadCell (payloadOf id adnlAddress) = .ok cell) : NamesInvoice id cell
  | comment : NamesInvoice id (Cells.comment (Libraries.uuidString id))

/-- A message that the search for a notification passes over. -/
structure Passed (message : TlbMessage) : Prop where
  internal : (convertMessage message).type.text = "Int"
  other : (convertMessage message).decodedOperation.text ≠ Libraries.jettonNotifyMsgOp
  storable : (convertMessage message).Storable encodeBody

/-- A payment to the account whose message carries a cell that names the invoice: a transfer
of TON to it, or a transfer of jettons of which it notifies its owner. -/
inductive TonTransaction.PaysFor (tx : TonTransaction) (account : Account) (id : InvoiceID) :
    TlbMessage → Prop where
  | native {message : TlbMessage} {info : IntMsgInfo} {sender : AccountID}
      (success : tx.isSuccess = true) (own : account.info.jetton = none)
      (received : tx.inMsg = some message) (internal : message.info = .intMsgInfo info)
      (sent : (Tongo.accountIDFromTlb info.src).1 = some sender)
      (names : NamesInvoice id message.body) : PaysFor tx account id message
  | jetton {master : AccountID} {incoming message : TlbMessage} {info info' : IntMsgInfo}
      {notify : JettonNotify} {before after : List TlbMessage}
      (success : tx.isSuccess = true) (own : account.info.jetton = some master)
      (received : tx.inMsg = some incoming) (internal : incoming.info = .intMsgInfo info)
      (kept : (convertMessage incoming).Storable encodeBody)
      (sent : tx.outMsgs = before ++ message :: after) (passed : ∀ other ∈ before, Passed other)
      (notifies : message.info = .intMsgInfo info')
      (owner : (Tongo.accountIDFromTlb info'.dest).1 = some account.info.recipient)
      (body : message.body = Cells.jettonNotify notify)
      (names : NamesInvoice id notify.forwardPayload) : PaysFor tx account id message

variable {tx : TonTransaction} {account : Account} {id : InvoiceID} {message : TlbMessage}

/-- A message body that names an invoice is decoded as one that carries its ID. -/
theorem NamesInvoice.native (inverts : Inverts) (readable : Readable) {cell : Tongo.Cell}
    (names : NamesInvoice id cell) :
    ∃ operation x text, Decodes cell operation x ∧ x.Plain ∧
      Libraries.parseUUID text = .ok id ∧
      ∀ message : Message, message.decodedOperation = operation → message.decodedBody = x →
        message.Carries text := by
  cases names with
  | payload written =>
      refine ⟨_, _, hex128 id, inverts.payload _ _ written, plain_payloadJson inverts _,
        readable.parseHex id, ?_⟩
      intro message named body
      exact ⟨_, body, .inl ⟨named, rfl⟩⟩
  | comment =>
      refine ⟨_, _, Libraries.uuidString id, inverts.comment _,
        plain_textComment (readable.plainString id), readable.parseString id, ?_⟩
      intro message named body
      refine ⟨_, body, .inr ⟨?_, named, rfl⟩⟩
      rw [named]
      exact readable.messages

/-- So is the forward payload of a notification. -/
theorem NamesInvoice.jetton (inverts : Inverts) (readable : Readable) {notify : JettonNotify}
    (names : NamesInvoice id notify.forwardPayload) :
    ∃ sumType opCode fields text,
      Decodes (Cells.jettonNotify notify) Libraries.jettonNotifyMsgOp
        (notifyJson notify sumType opCode (.object fields)) ∧
      (notifyJson notify sumType opCode (.object fields)).Plain ∧
      Libraries.parseUUID text = .ok id ∧
      ((sumType = Libraries.invoicePayloadJettonOp ∧ fields.lookup "Id" = some (.string text)) ∨
        (sumType ≠ Libraries.invoicePayloadJettonOp ∧ sumType = Libraries.textCommentJettonOp ∧
          fields.lookup "Text" = some (.string text))) := by
  generalize forward : notify.forwardPayload = cell at names
  cases names with
  | payload written =>
      exact ⟨Libraries.invoicePayloadJettonOp, Cells.invoicePayloadMsgOpCode, _, hex128 id,
        inverts.notifyPayload notify _ (written.trans (congrArg _ forward.symm)), plain_notifyJson readable notify readable.plainPayload _ (plain_payloadJson inverts _),
        readable.parseHex id, .inl ⟨rfl, rfl⟩⟩
  | comment =>
      exact ⟨Libraries.textCommentJettonOp, 0, _, Libraries.uuidString id,
        inverts.notifyComment notify _ forward,
        plain_notifyJson readable notify readable.plainComment _
          (plain_textComment (readable.plainString id)),
        readable.parseString id, .inr ⟨readable.jettons, rfl, rfl⟩⟩

/-- The message that names the invoice can be stored. -/
theorem storable_of_paysFor (inverts : Inverts) (readable : Readable)
    (pays : tx.PaysFor account id message) : (convertMessage message).Storable encodeBody := by
  cases pays with
  | native _ _ _ internal _ names =>
      obtain ⟨_, _, _, decodes, plain, _⟩ := names.native inverts readable
      exact storable_of_decodes internal decodes plain
  | jetton _ _ _ _ _ _ _ notifies _ body names =>
      obtain ⟨_, _, _, _, decodes, plain, _⟩ := names.jetton inverts readable
      exact storable_of_decodes notifies (body ▸ decodes) plain

/-- A transfer of TON is paid for the invoice. -/
theorem extracted_native (inverts : Inverts) (readable : Readable) (seven : version id = 7)
    {info : IntMsgInfo} {sender : AccountID} {reloaded : Transaction} (success : tx.isSuccess = true)
    (own : account.info.jetton = none) (received : tx.inMsg = some message)
    (internal : message.info = .intMsgInfo info)
    (sent : (Tongo.accountIDFromTlb info.src).1 = some sender)
    (names : NamesInvoice id message.body) (reloads : tx.Reloads account.accountID reloaded) :
    ∃ payments, extractPayments reloaded account = some (.ok payments) ∧ payments ≠ [] ∧
      ∀ payment ∈ payments, payment.invoiceID = id := by
  obtain ⟨operation, x, text, decodes, plain, parsed, carries⟩ := names.native inverts readable
  have storable := storable_of_decodes internal decodes plain
  rw [← inMessage_of_received received] at storable
  obtain ⟨inMessage, succeeded⟩ := inMessage_of_reloads readable reloads storable
  obtain ⟨stored, named⟩ := stored_of_decodes internal decodes plain
  rw [inMessage_of_received received, stored] at inMessage
  have heads := heads_of_internal internal
  have type : reloaded.inMessage.type = "Int" := by
    rw [inMessage]
    exact heads.type
  have source : reloaded.inMessage.source = some sender := by
    rw [inMessage]
    exact heads.source.trans sent
  have namesID : reloaded.inMessage.Names id :=
    ⟨text, carries _ (by rw [inMessage]; exact named) (by rw [inMessage]; rfl), parsed, seven⟩
  refine ⟨nativePayments reloaded account id sender (tonAmount reloaded.inMessage.value)
    reloaded.inMessage.extraCurrencies, ?_, List.cons_ne_nil _ _, fun payment member => ?_⟩
  · unfold extractPayments
    rw [own]
    dsimp only
    rw [extractNativePayments_of_names (succeeded.trans success) type namesID, source]
    rfl
  · rcases List.mem_cons.mp member with rfl | extra
    · rfl
    · obtain ⟨_, _, rfl⟩ := List.mem_map.mp extra
      rfl

omit [Cells] in
/-- The body of a notification of a transfer that names an invoice. -/
theorem notifies_of_json {message : Message} {notify : JettonNotify} {sumType text : String}
    {opCode : ℕ} {fields : List (String × Json)} {recipient : AccountID}
    (body : message.decodedBody = notifyJson notify sumType opCode (.object fields))
    (carries : (sumType = Libraries.invoicePayloadJettonOp ∧
        fields.lookup "Id" = some (.string text)) ∨
      (sumType ≠ Libraries.invoicePayloadJettonOp ∧ sumType = Libraries.textCommentJettonOp ∧
        fields.lookup "Text" = some (.string text)))
    (parsed : Libraries.parseUUID text = .ok id) (seven : version id = 7)
    (destination : message.destination = some recipient) :
    ∃ contents, message.Notifies contents recipient id notify.amount notify.sender := by
  let value : List (String × Json) := [("SumType", .string sumType),
    ("OpCode", .number (toString opCode)), ("Value", .object fields)]
  let forwardPayload : List (String × Json) :=
    [("IsRight", .bool notify.isRight), ("Value", .object value)]
  exact ⟨⟨_, forwardPayload, value, fields, sumType, text, toString notify.amount,
    Libraries.toRaw notify.sender⟩, body, rfl, rfl, rfl, rfl, carries,
    parseInvoiceID_eq_ok.mpr ⟨parsed, seven⟩, rfl, parseDecimal_toString _, rfl,
    Libraries.parse_toRaw _, destination⟩

/-- A transfer of jettons is paid for the invoice. -/
theorem extracted_jetton (inverts : Inverts) (readable : Readable) (seven : version id = 7)
    {master : AccountID} {incoming : TlbMessage} {info info' : IntMsgInfo} {notify : JettonNotify}
    {before after : List TlbMessage} {reloaded : Transaction} (success : tx.isSuccess = true)
    (own : account.info.jetton = some master) (received : tx.inMsg = some incoming)
    (internal : incoming.info = .intMsgInfo info) (kept : (convertMessage incoming).Storable encodeBody)
    (sent : tx.outMsgs = before ++ message :: after)
    (passed : ∀ other ∈ before, Passed other) (notifies : message.info = .intMsgInfo info')
    (owner : (Tongo.accountIDFromTlb info'.dest).1 = some account.info.recipient)
    (body : message.body = Cells.jettonNotify notify)
    (names : NamesInvoice id notify.forwardPayload)
    (reloads : tx.Reloads account.accountID reloaded) :
    ∃ payments, extractPayments reloaded account = some (.ok payments) ∧ payments ≠ [] ∧
      ∀ payment ∈ payments, payment.invoiceID = id := by
  obtain ⟨sumType, opCode, fields, text, decodes, plain, parsed, carries⟩ :=
    names.jetton inverts readable
  rw [← body] at decodes
  have storable := storable_of_decodes notifies decodes plain
  obtain ⟨stored, named⟩ := stored_of_decodes notifies decodes plain
  obtain ⟨inMessage, succeeded⟩ := inMessage_of_reloads readable reloads
    (inMessage_of_received received ▸ kept)
  obtain ⟨row, inserts, read⟩ := reloads
  obtain ⟨_, columns, _⟩ := JsonbRow.columns_of_transaction read
  have hold : List.Forall₂ (Holds encodeBody)
      ((before.map convertMessage ++ [convertMessage message]) ++ after.map convertMessage)
      row.outMessages := by
    have all := inserts.outMessages
    change List.Forall₂ _ (tx.outMsgs.map convertMessage) _ at all
    rw [sent, List.map_append, List.map_cons] at all
    rwa [List.append_assoc, List.singleton_append]
  have storables : ∀ m ∈ before.map convertMessage ++ [convertMessage message],
      m.Storable encodeBody := by
    intro m member
    rcases List.mem_append.mp member with others | last
    · obtain ⟨other, among, rfl⟩ := List.mem_map.mp others
      exact (passed other among).storable
    · rw [List.mem_singleton.mp last]
      exact storable
  obtain ⟨later, outMessages⟩ := mapM_decodeColumn_append readable hold storables columns
  rw [List.map_append, List.map_singleton, List.append_assoc, List.singleton_append, stored]
    at outMessages
  have heads := heads_of_internal notifies
  have notify' : ((convertMessage message).decoded (notifyJson notify sumType opCode
      (.object fields))).IsJettonNotify := ⟨heads.type, named⟩
  have others : ∀ other ∈ (before.map convertMessage).map (LoadedMessage.stored encodeBody),
      other.type = "Int" ∧ other.decodedOperation ≠ Libraries.jettonNotifyMsgOp := by
    intro _ listed
    obtain ⟨_, converted, rfl⟩ := List.mem_map.mp listed
    obtain ⟨other, among, rfl⟩ := List.mem_map.mp converted
    obtain ⟨type, operation⟩ := stored_head (convertMessage other)
    rw [type, operation]
    exact ⟨(passed other among).internal, (passed other among).other⟩
  have type : reloaded.inMessage.type = "Int" := by
    rw [inMessage, inMessage_of_received received, (stored_head _).1]
    exact (heads_of_internal internal).type
  have destination : ((convertMessage message).decoded (notifyJson notify sumType opCode
      (.object fields))).destination = some account.info.recipient := heads.destination.trans owner
  obtain ⟨contents, paid⟩ := notifies_of_json rfl carries parsed seven destination
  refine ⟨[⟨id, .jetton master, notify.amount, notify.sender, account.info.recipient,
    reloaded.hash⟩], ?_, List.cons_ne_nil _ _, List.forall_mem_singleton.mpr rfl⟩
  unfold extractPayments extractJettonPayments
  rw [own]
  dsimp only
  rw [succeeded.trans success, if_neg (by decide), if_neg (not_not.mpr type), outMessages,
    scanOutMessages_append (fun other among found => (others other among).2 found.operation)
      (fun other among => (others other among).1),
    scanOutMessages_notify notify', jettonNotifyPayments_of_notifies paid]

/-- What is extracted of a payment for an invoice, after storage. -/
theorem extracted_of_paysFor (inverts : Inverts) (readable : Readable) (seven : version id = 7)
    (pays : tx.PaysFor account id message) {reloaded : Transaction}
    (reloads : tx.Reloads account.accountID reloaded) :
    ∃ payments, extractPayments reloaded account = some (.ok payments) ∧ payments ≠ [] ∧
      ∀ payment ∈ payments, payment.invoiceID = id := by
  cases pays with
  | native success own received internal sent names =>
      exact extracted_native inverts readable seven success own received internal sent names reloads
  | jetton success own received internal kept sent passed notifies owner body names =>
      exact extracted_jetton inverts readable seven success own received internal kept sent passed
        notifies owner body names reloads

/-- **A payment that carries the cell of `EncodePayload` or the ID as a text comment is
identified, in TON and in jettons.** Storage takes its message, what is read again is paid for
the invoice and for no other, and payments for two invoices are never for the same. -/
theorem identified (inverts : Inverts) (readable : Readable) (seven : version id = 7)
    (pays : tx.PaysFor account id message) :
    ((∀ m ∈ (convertTransaction tx).messages, m ≠ convertMessage message →
        m.Storable encodeBody) → ∃ reloaded, tx.Reloads account.accountID reloaded) ∧
      ∀ reloaded, tx.Reloads account.accountID reloaded →
        ∃ payments, extractPayments reloaded account = some (.ok payments) ∧ payments ≠ [] ∧
          (∀ payment ∈ payments, payment.invoiceID = id) ∧
          ∀ (tx' : TonTransaction) (account' : Account) (id' : InvoiceID) (message' : TlbMessage)
            (reloaded' : Transaction) (payments' : List Payment), version id' = 7 → id' ≠ id →
            tx'.PaysFor account' id' message' → tx'.Reloads account'.accountID reloaded' →
            extractPayments reloaded' account' = some (.ok payments') →
            ∀ payment ∈ payments, ∀ payment' ∈ payments',
              payment'.invoiceID ≠ payment.invoiceID := by
  refine ⟨fun others => ⟨_, reloads_of_storable readable fun m member => ?_⟩,
    fun reloaded reloads => ?_⟩
  · by_cases same : m = convertMessage message
    · rw [same]
      exact storable_of_paysFor inverts readable pays
    · exact others m member same
  · obtain ⟨payments, extracted, some', ids⟩ :=
      extracted_of_paysFor inverts readable seven pays reloads
    refine ⟨payments, extracted, some', ids, ?_⟩
    intro tx' account' id' message' reloaded' payments' seven' other pays' reloads' extracted'
      payment member payment' member'
    obtain ⟨found, extracted'', _, ids'⟩ :=
      extracted_of_paysFor inverts readable seven' pays' reloads'
    rw [extracted'] at extracted''
    cases extracted''
    rw [ids' payment' member', ids payment member]
    exact other

end Identified

/-! ## Cells that remember what was written -/

namespace Texts

theorem parseUUID_hex128 (id : UUID) : parseUUID (hex128 id) = .ok id :=
  parseUUID_of_digits (by rw [hex128, String.toList_ofList, filter_hexDigits])

theorem plain_uuidString (id : UUID) : NoBackslash (marshalText (uuidString id).toList) := by
  have all : ∀ value ∈ List.range 16, (Nat.digitChar value).isAlphanum = true := by decide
  have digits : ∀ c ∈ hexDigits 32 id.toNat, c.isAlphanum = true := by
    intro c member
    obtain ⟨place, _, rfl⟩ := List.mem_map.mp member
    exact all _ (List.mem_range.mpr (Nat.mod_lt _ (by decide)))
  refine noBackslash_marshalText fun c member => ?_
  rw [uuidString, String.toList_ofList] at member
  simp only [List.mem_append, List.mem_cons] at member
  rcases member with (((member | rfl | member) | rfl | member) | rfl | member) | rfl | member
  all_goals first
    | exact .inr (.inr rfl)
    | exact .inl (digits c (List.mem_of_mem_take member))
    | exact .inl (digits c (List.mem_of_mem_drop member))
    | exact .inl (digits c (List.mem_of_mem_drop (List.mem_of_mem_take member)))

attribute [local instance] Texts.libraries

theorem readable : Readable where
  parseHex := parseUUID_hex128
  parseString := parseUUID_uuidString
  plainString := plain_uuidString
  plainRaw := plainRaw
  plainPayload := no_backslash rfl
  plainComment := no_backslash rfl
  messages := by decide
  jettons := by decide

end Texts

namespace Shop

attribute [local instance] Texts.libraries

/-- A cell, by what was written into it. -/
inductive Written where
  | empty
  | opCode (value : ℕ)
  | payload (payload : InvoicePayloadMsgBody)
  | comment (text : String)
  | notify (queryID amount : ℕ) (sender : AccountID) (isRight : Bool) (forward : Written)

/-- The JSON form of a URL. -/
def urlForm : PaymentProviderUrl → Json
  | .none => .object [("SumType", .string "None"), ("None", .object [])]
  | .tonsite address => .object [("SumType", .string "Tonsite"),
      ("Tonsite", .object [("Address", .string (Libraries.hex address))])]

theorem plain_urlForm (url : PaymentProviderUrl) : (urlForm url).Plain := by
  cases url with
  | none => exact ⟨⟨trivial, trivial, trivial⟩, no_backslash rfl⟩
  | tonsite address =>
      have inner : (Json.object [("Address", .string (Libraries.hex address))]).Plain :=
        object_of_clean (List.forall_mem_singleton.mpr (cleanField_hex (no_backslash rfl) address))
      exact object_of_clean (List.forall_mem_cons.mpr
        ⟨(plain_string (no_backslash rfl)).field (no_backslash rfl),
          List.forall_mem_singleton.mpr (inner.field (no_backslash rfl))⟩)

/-- The text of a value. -/
def encodedOf (x : Json) (encodable : x.Encodable) : Encoded :=
  ⟨x.marshal, x, x.reads_marshal encodable⟩

def payloadForm (payload : InvoicePayloadMsgBody) : Json :=
  .object [("Id", .string (hex128 payload.id)), ("Url", urlForm payload.url)]

theorem payloadForm_encodable (payload : InvoicePayloadMsgBody) : (payloadForm payload).Encodable :=
  ⟨trivial, (plain_urlForm payload.url).1, trivial⟩

/-- The JSON form of a notification. -/
def notifyForm (queryID amount : ℕ) (sender : AccountID) (isRight : Bool) (sumType : String)
    (opCode : ℕ) (payload : Json) : Json :=
  .object [("QueryId", .number (toString queryID)), ("Amount", .string (toString amount)),
    ("Sender", .string (Texts.toRaw sender)),
    ("ForwardPayload", .object [("IsRight", .bool isRight),
      ("Value", .object [("SumType", .string sumType), ("OpCode", .number (toString opCode)),
        ("Value", payload)])])]

theorem notifyForm_encodable (queryID amount : ℕ) (sender : AccountID) (isRight : Bool)
    (sumType : String) (opCode : ℕ) {payload : Json} (encodable : payload.Encodable) :
    (notifyForm queryID amount sender isRight sumType opCode payload).Encodable :=
  ⟨isNumber_toString _, trivial, trivial,
    ⟨trivial, ⟨trivial, isNumber_toString _, encodable, trivial⟩, trivial⟩, trivial⟩

/-- The code of the operation of a payload. -/
def payloadOpCode : ℕ := 0x7aa23eb5

/-- The operation and the body of a cell. -/
def decodeWritten : Written → Option (PlainText × Encoded)
  | .payload payload => some (⟨"InvoicePayload", plain_invoicePayload_op⟩,
      encodedOf (payloadForm payload) (payloadForm_encodable payload))
  | .comment text => some (⟨"TextComment", plain_textComment_op⟩,
      encodedOf (textComment text) (textComment_encodable text))
  | .notify queryID amount sender isRight (.payload payload) =>
      some (⟨"JettonNotify", plain_jettonNotify_op⟩, encodedOf _
        (notifyForm_encodable queryID amount sender isRight "InvoicePayload" payloadOpCode
          (payloadForm_encodable payload)))
  | .notify queryID amount sender isRight (.comment text) =>
      some (⟨"JettonNotify", plain_jettonNotify_op⟩, encodedOf _
        (notifyForm_encodable queryID amount sender isRight "TextComment" 0
          (textComment_encodable text)))
  | _ => none

@[reducible] def writtenTongo : Tongo where
  MsgAddress := Option AccountID
  accountIDFromTlb address := (address, none)
  Cell := Written
  isEmpty cell := match cell with
    | .empty => true
    | _ => false
  hash _ := .ok 0
  Body := Encoded
  decode := decodeWritten
  marshalJSON := .ok

attribute [local instance] writtenTongo

@[reducible] def writtenCells : Cells where
  newCell := .empty
  writeUint _ value _ := .ok (.opCode value)
  marshal cell payload := match cell with
    | .opCode value => if value = payloadOpCode then .ok (.payload payload) else .error "wrong cell"
    | _ => .error "wrong cell"
  toBoc cell := match cell with
    | .payload ⟨id, .none⟩ => .ok (Texts.payloadBytes id)
    | _ => .error "not supported"
  invoicePayloadMsgOpCode := payloadOpCode
  comment := .comment
  jettonNotify notify :=
    .notify notify.queryID notify.amount notify.sender notify.isRight notify.forwardPayload
  urlJson := urlForm
  boc _ adnlAddress := by cases adnlAddress <;> rfl

attribute [local instance] writtenCells

theorem payloadCell_written {payload : InvoicePayloadMsgBody} {cell : Written}
    (written : payloadCell payload = .ok cell) : cell = .payload payload := by
  cases written
  rfl

theorem inverts : Inverts where
  payload payload cell written := by
    obtain rfl := payloadCell_written written
    exact ⟨rfl, ⟨_, rfl⟩, ⟨_, _, _, rfl, rfl, rfl, rfl, rfl⟩⟩
  comment text := ⟨rfl, ⟨_, rfl⟩, ⟨_, _, _, rfl, rfl, rfl, rfl, rfl⟩⟩
  notifyPayload notify payload written := by
    obtain ⟨queryID, amount, sender, isRight, forward⟩ := notify
    obtain rfl := payloadCell_written written
    exact ⟨rfl, ⟨_, rfl⟩, ⟨_, _, _, rfl, rfl, rfl, rfl, rfl⟩⟩
  notifyComment notify text same := by
    obtain ⟨queryID, amount, sender, isRight, forward⟩ := notify
    cases same
    exact ⟨rfl, ⟨_, rfl⟩, ⟨_, _, _, rfl, rfl, rfl, rfl, rfl⟩⟩
  plainUrl := plain_urlForm

/-- A message to the owner. -/
def messageWith (body : Written) : TlbMessage :=
  ⟨.intMsgInfo ⟨some ⟨0, 2⟩, some owner, 10, 0, ⟨[], List.nodup_nil⟩, 4⟩, 0, body⟩

/-- A transaction that receives a message and sends others. -/
def transactionWith (body : Written) (out : List TlbMessage) : TonTransaction :=
  ⟨5, 0, 0, 3, 0, true, some (messageWith body), out⟩

def jettonWallet : Account := ⟨⟨0, 8⟩, ⟨0, owner, some ⟨0, 9⟩⟩⟩

/-- The payload of an invoice, sent with TON to a wallet, and its text, with which a jetton
wallet notifies: both are paid for the invoice. -/
theorem both_identified :
    (∃ reloaded payments, (transactionWith (.payload (payloadOf invoiceID (some 1))) []).Reloads
        owner reloaded ∧ extractPayments reloaded wallet = some (.ok payments) ∧ payments ≠ [] ∧
          ∀ payment ∈ payments, payment.invoiceID = invoiceID) ∧
      ∃ reloaded payments, (transactionWith (.comment "")
          [messageWith (.notify 1 10 ⟨0, 2⟩ true (.comment (Texts.uuidString invoiceID)))]).Reloads
            ⟨0, 8⟩ reloaded ∧ extractPayments reloaded jettonWallet = some (.ok payments) ∧
          payments ≠ [] ∧ ∀ payment ∈ payments, payment.invoiceID = invoiceID := by
  have seven : version invoiceID = 7 := by decide +kernel
  have native : (transactionWith (.payload (payloadOf invoiceID (some 1))) []).PaysFor wallet
      invoiceID (messageWith (.payload (payloadOf invoiceID (some 1)))) :=
    .native rfl rfl rfl rfl rfl (.payload rfl)
  have kept : (convertMessage (messageWith (.comment ""))).Storable encodeBody :=
    storable_of_decodes rfl (inverts.comment "") (plain_textComment (no_backslash rfl))
  have jetton : (transactionWith (.comment "")
      [messageWith (.notify 1 10 ⟨0, 2⟩ true (.comment (Texts.uuidString invoiceID)))]).PaysFor
      jettonWallet invoiceID
      (messageWith (.notify 1 10 ⟨0, 2⟩ true (.comment (Texts.uuidString invoiceID)))) :=
    .jetton rfl rfl rfl rfl kept (show _ = [] ++ _ :: [] from rfl) (fun _ none => by cases none) rfl
      rfl (show _ = Cells.jettonNotify ⟨1, 10, ⟨0, 2⟩, true, .comment _⟩ from rfl) .comment
  constructor
  · obtain ⟨stored, extracted⟩ := identified inverts Texts.readable seven native
    obtain ⟨reloaded, reloads⟩ := stored fun m member other => by
      rcases List.mem_singleton.mp member with rfl
      exact absurd rfl other
    obtain ⟨payments, found, some', ids, _⟩ := extracted reloaded reloads
    exact ⟨reloaded, payments, reloads, found, some', ids⟩
  · obtain ⟨stored, extracted⟩ := identified inverts Texts.readable seven jetton
    obtain ⟨reloaded, reloads⟩ := stored fun m member other => by
      rcases List.mem_cons.mp member with rfl | member
      · exact kept
      · rcases List.mem_singleton.mp member with rfl
        exact absurd rfl other
    obtain ⟨payments, found, some', ids, _⟩ := extracted reloaded reloads
    exact ⟨reloaded, payments, reloads, found, some', ids⟩

end Shop

end SpiceHarvester
