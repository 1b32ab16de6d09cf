import SpiceHarvester.Blockchain.Messages
import SpiceHarvester.Indexer.OutMessages

/-!
# The payments of an incoming message

From the message of a transaction as `tongo` decodes it to the payments of
`extractNativePayments`. An internal message that names an invoice should be one payment of
its grams and its fee, and one of each extra currency. It is that exactly if its sender is an
account and the sum of grams and fee fits 63 bits (`paysExactly_iff`): without a sender the
extraction dereferences nil, and larger sums wrap around or turn negative.
-/

set_option autoImplicit false

namespace SpiceHarvester

/-! ## The amount -/

/-- The amount is exact as long as the sum fits 63 bits. -/
theorem tonAmount_add_iff (grams ihrFee : UInt64) :
    tonAmount (grams + ihrFee) = (grams.toNat + ihrFee.toNat : ℕ) ↔
      grams.toNat + ihrFee.toNat < 2 ^ 63 := by
  have sum : (grams + ihrFee).toNat = (grams.toNat + ihrFee.toNat) % 2 ^ 64 :=
    UInt64.toNat_add grams ihrFee
  have signed : tonAmount (grams + ihrFee) =
      if 2 * (grams + ihrFee).toNat < 2 ^ 64 then ((grams + ihrFee).toNat : ℤ)
      else ((grams + ihrFee).toNat : ℤ) - (2 ^ 64 : ℕ) :=
    BitVec.toInt_eq_toNat_cond (grams + ihrFee).toBitVec
  have first := grams.toNat_lt
  have second := ihrFee.toNat_lt
  rw [signed]
  constructor
  · intro same
    split at same <;> omega
  · intro small
    split <;> omega

/-! ## The payments -/

/-- The payments of a message that names an invoice. -/
def nativePayments (tx : Transaction) (account : Account) (invoiceID : InvoiceID)
    (source : AccountID) (tons : ℤ) (extras : List (UInt32 × ℕ)) : List Payment :=
  ⟨invoiceID, .ton, tons, source, account.accountID, tx.hash⟩ ::
    (extras.filter fun extra => extra.2 ≠ 0).map fun extra =>
      ⟨invoiceID, .extra extra.1, extra.2, source, account.accountID, tx.hash⟩

/-- Payments are the same in any order of the extra currencies, and in no other amount. -/
theorem nativePayments_perm {tx : Transaction} {account : Account} {invoiceID : InvoiceID} {source : AccountID}
    {tons : ℤ} {extras order : List (UInt32 × ℕ)} (same : order.Perm extras) :
    (nativePayments tx account invoiceID source tons order).Perm
      (nativePayments tx account invoiceID source tons extras) :=
  ((same.filter _).map _).cons _

/-- The payment in TON is among the payments, and is the only one. -/
theorem tons_of_perm {tx : Transaction} {account : Account} {invoiceID : InvoiceID} {source source' : AccountID}
    {tons tons' : ℤ} {extras order : List (UInt32 × ℕ)}
    (same : (nativePayments tx account invoiceID source tons order).Perm
      (nativePayments tx account invoiceID source' tons' extras)) : tons = tons' := by
  have member := same.subset List.mem_cons_self
  rcases List.mem_cons.mp member with head | tail
  · exact congrArg Payment.amount head
  · obtain ⟨extra, _, impossible⟩ := List.mem_map.mp tail
    cases congrArg Payment.currency impossible

/-! ## Texts in a body -/

/-- `valueFromBody` answers exactly with the text of a field. -/
theorem valueFromBody_eq_ok {fields : List (String × Json)} {key text : String} :
    valueFromBody Json.asString fields key = .ok text ↔
      fields.lookup key = some (.string text) := by
  unfold valueFromBody
  cases fields.lookup key with
  | none => exact ⟨fun same => (by cases same), fun same => by cases same⟩
  | some value =>
      cases value with
      | string found =>
          change (Except.ok found : Except String String) = .ok text ↔ _
          rw [Except.ok.injEq, Option.some.injEq, Json.string.injEq]
      | null | bool | number | array | object =>
          exact ⟨fun same => (by cases same), fun same => by cases same⟩

/-- The text of a field, with a wrapped error, as an answer that there is a text. -/
theorem wrapped_eq_ok {result : Except String String} {message text : String} :
    (wrap message result).map some = .ok (some text) ↔ result = .ok text := by
  cases result with
  | error error => exact ⟨fun same => (by cases same), fun same => by cases same⟩
  | ok found =>
      change (Except.ok (some found) : Except String (Option String)) = .ok (some text) ↔ _
      rw [Except.ok.injEq, Option.some.injEq, Except.ok.injEq]

section Extract

variable [Libraries]

/-! ## The invoice that a message names -/

/-- The version of a UUID. -/
def version (id : UUID) : ℕ := (id >>> 76).toNat % 16

/-- The body of the message is an invoice payload or a text comment, with the text. -/
def Message.Carries (message : Message) (text : String) : Prop :=
  ∃ fields, message.decodedBody = .object fields ∧
    ((message.decodedOperation = Libraries.invoicePayloadMsgOp ∧
        fields.lookup "Id" = some (.string text)) ∨
      (message.decodedOperation ≠ Libraries.invoicePayloadMsgOp ∧
        message.decodedOperation = Libraries.textCommentMsgOp ∧
        fields.lookup "Text" = some (.string text)))

/-- The text in the body of the message is an ID of version 7. -/
def Message.Names (message : Message) (invoiceID : InvoiceID) : Prop :=
  ∃ text, message.Carries text ∧ Libraries.parseUUID text = .ok invoiceID ∧ version invoiceID = 7

theorem nativeInvoiceText_eq_ok {message : Message} {text : String} :
    nativeInvoiceText message = .ok (some text) ↔ message.Carries text := by
  unfold nativeInvoiceText Message.Carries
  split
  · rename_i operation
    cases body : message.decodedBody with
    | object fields =>
        change (wrap _ (valueFromBody Json.asString fields "Id")).map some = _ ↔ _
        rw [wrapped_eq_ok, valueFromBody_eq_ok]
        simp [operation]
    | null | bool | number | string | array =>
        exact ⟨fun same => (by cases same), fun ⟨_, same, _⟩ => by cases same⟩
  · rename_i other
    split
    · rename_i operation
      cases body : message.decodedBody with
      | object fields =>
          change (wrap _ (valueFromBody Json.asString fields "Text")).map some = _ ↔ _
          rw [wrapped_eq_ok, valueFromBody_eq_ok]
          simp [operation, operation ▸ other]
      | null | bool | number | string | array =>
          exact ⟨fun same => (by cases same), fun ⟨_, same, _⟩ => by cases same⟩
    · rename_i neither
      refine ⟨fun same => (by cases same), ?_⟩
      rintro ⟨_, _, ⟨operation, _⟩ | ⟨_, operation, _⟩⟩
      · exact absurd operation other
      · exact absurd operation neither

theorem parseInvoiceID_eq_ok {text : String} {invoiceID : InvoiceID} :
    parseInvoiceID text = .ok invoiceID ↔
      Libraries.parseUUID text = .ok invoiceID ∧ version invoiceID = 7 := by
  unfold parseInvoiceID version
  cases Libraries.parseUUID text with
  | error message => exact ⟨fun same => (by cases same), fun same => by cases same.1⟩
  | ok found =>
      dsimp only
      split
      · rename_i seven
        rw [Except.ok.injEq, Except.ok.injEq]
        exact ⟨fun same => ⟨same, same ▸ seven⟩, And.left⟩
      · rename_i other
        refine ⟨fun same => (by cases same), ?_⟩
        rintro ⟨same, seven⟩
        cases same
        exact absurd seven other

/-! ## What is extracted -/

variable {tx : Transaction} {account : Account} {invoiceID : InvoiceID}

/-- A successful internal message that names an invoice is paid for, if it has a source. -/
theorem extractNativePayments_of_names (success : tx.success = true)
    (internal : tx.inMessage.type = "Int") (names : tx.inMessage.Names invoiceID) :
    extractNativePayments tx account = tx.inMessage.source.map fun source =>
      .ok (nativePayments tx account invoiceID source (tonAmount tx.inMessage.value)
        tx.inMessage.extraCurrencies) := by
  obtain ⟨text, carries, parsed⟩ := names
  unfold extractNativePayments
  rw [success, if_neg (by decide), if_neg (not_not.mpr internal), nativeInvoiceText_eq_ok.mpr carries]
  dsimp only
  rw [parseInvoiceID_eq_ok.mpr parsed]
  rfl

/-- Otherwise there is an error, or no payment. -/
theorem extractNativePayments_otherwise
    (not : ∀ invoiceID, tx.success = true → tx.inMessage.type = "Int" →
      ¬ tx.inMessage.Names invoiceID) :
    extractNativePayments tx account = some (.ok []) ∨
      ∃ message, extractNativePayments tx account = some (.error message) := by
  unfold extractNativePayments
  split
  · exact .inl rfl
  · rename_i success
    split
    · exact .inl rfl
    · rename_i internal
      cases text : nativeInvoiceText tx.inMessage with
      | error message => exact .inr ⟨message, rfl⟩
      | ok found =>
          cases found with
          | none => exact .inl rfl
          | some text' =>
              dsimp only
              cases parsed : parseInvoiceID text' with
              | error message => exact .inl rfl
              | ok found =>
                  refine absurd ⟨text', nativeInvoiceText_eq_ok.mp text,
                    parseInvoiceID_eq_ok.mp parsed⟩ (not found ?_ (not_not.mp internal))
                  rwa [Bool.not_eq_true', Bool.not_eq_false] at success

end Extract

/-! ## From the message to the payments -/

section Convert

variable [Libraries] [Tongo]

/-- The transaction as the indexer has it, with some decoded body. The map of the extra
currencies is visited in some order. -/
structure TonTransaction.Loads (tx : TonTransaction) (body : Json) (loaded : Transaction) :
    Prop where
  success : loaded.success = tx.isSuccess
  hash : loaded.hash = tx.hash
  inMessage : ∃ order : List (UInt32 × ℕ),
    order.Perm ((convertTransaction tx).inMessage.decoded body).extraCurrencies ∧
    loaded.inMessage =
      { (convertTransaction tx).inMessage.decoded body with extraCurrencies := order }

/-- The transaction succeeded, and its message is internal and names the invoice. -/
structure TonTransaction.Pays (tx : TonTransaction) (body : Json) (message : TlbMessage)
    (info : IntMsgInfo) (invoiceID : InvoiceID) : Prop where
  success : tx.isSuccess = true
  received : tx.inMsg = some message
  internal : message.info = .intMsgInfo info
  names : ((convertMessage message).decoded body).Names invoiceID

/-- There is a payment of grams and fee and one of each extra currency, exactly when the
transaction succeeded and its message is internal and names an invoice. Otherwise there is an
error, or no payment. -/
structure TonTransaction.PaysExactly (tx : TonTransaction) (account : Account) (body : Json) :
    Prop where
  pays : ∀ loaded message info invoiceID, tx.Loads body loaded →
    tx.Pays body message info invoiceID →
    ∃ source payments, (Tongo.accountIDFromTlb info.src).1 = some source ∧
      extractNativePayments loaded account = some (.ok payments) ∧
      payments.Perm (nativePayments loaded account invoiceID source
        (info.grams.toNat + info.ihrFee.toNat : ℕ) info.other.items)
  otherwise : ∀ loaded, tx.Loads body loaded →
    (∀ message info invoiceID, ¬ tx.Pays body message info invoiceID) →
    extractNativePayments loaded account = some (.ok []) ∨
      ∃ error, extractNativePayments loaded account = some (.error error)

variable {tx : TonTransaction} {account : Account} {body : Json}

/-- What is extracted of a message that names an invoice. -/
theorem extract_of_pays (account : Account) {loaded : Transaction} {message : TlbMessage}
    {info : IntMsgInfo} {invoiceID : InvoiceID} (loads : tx.Loads body loaded)
    (pays : tx.Pays body message info invoiceID) :
    ∃ order, order.Perm info.other.items ∧ extractNativePayments loaded account =
      (Tongo.accountIDFromTlb info.src).1.map fun source =>
        .ok (nativePayments loaded account invoiceID source
          (tonAmount (info.grams + info.ihrFee)) order) := by
  have heads := heads_of_internal pays.internal
  obtain ⟨order, perm, same⟩ := loads.inMessage
  rw [inMessage_of_received pays.received] at perm same
  change order.Perm ((convertMessage message).extraCurrencies.getD []) at perm
  rw [heads.extraCurrencies] at perm
  have internal : loaded.inMessage.type = "Int" := by
    rw [same]
    exact heads.type
  have names : loaded.inMessage.Names invoiceID := by
    rw [same]
    exact pays.names
  have source : loaded.inMessage.source = (Tongo.accountIDFromTlb info.src).1 := by
    rw [same]
    exact heads.source
  have value : loaded.inMessage.value = info.grams + info.ihrFee := by
    rw [same]
    exact heads.value
  have extras : loaded.inMessage.extraCurrencies = order := by rw [same]
  refine ⟨order, perm, ?_⟩
  rw [extractNativePayments_of_names (loads.success.trans pays.success) internal names, source,
    value, extras]

/-- Without a message that names an invoice there is no payment. -/
theorem extract_otherwise {loaded : Transaction} (loads : tx.Loads body loaded)
    (none : ∀ message info invoiceID, ¬ tx.Pays body message info invoiceID) :
    extractNativePayments loaded account = some (.ok []) ∨
      ∃ error, extractNativePayments loaded account = some (.error error) := by
  refine extractNativePayments_otherwise fun invoiceID success internal names => ?_
  obtain ⟨order, _, same⟩ := loads.inMessage
  rw [same] at internal names
  cases received : tx.inMsg with
  | none =>
      have empty : (convertTransaction tx).inMessage = noMessage := by
        unfold convertTransaction
        rw [received]
        rfl
      rw [empty] at internal
      exact absurd internal (show ¬ "" = "Int" by decide)
  | some message =>
      rw [inMessage_of_received received] at internal names
      obtain ⟨info, kind⟩ := internal_of_type internal
      exact none message info invoiceID ⟨loads.success.symm.trans success, received, kind, names⟩

/-- The transaction with its extra currencies in the order they came. -/
def TonTransaction.loaded (tx : TonTransaction) (body : Json) : Transaction where
  lt := tx.lt.toNat
  hash := tx.hash
  prevTxLt := tx.prevTransLt.toNat
  prevTxHash := tx.prevTransHash
  utime := tx.now
  success := tx.isSuccess
  inMessage := (convertTransaction tx).inMessage.decoded body
  outMessages := (convertTransaction tx).outMessages.map fun message => message.decoded .null

omit [Libraries] in
theorem TonTransaction.loads (tx : TonTransaction) (body : Json) : tx.Loads body (tx.loaded body) :=
  ⟨rfl, rfl, _, .refl _, rfl⟩

/-- **The payments are exact, exactly if every message that names an invoice has a sender and
its grams and fee fit 63 bits.** -/
theorem paysExactly_iff (tx : TonTransaction) (account : Account) (body : Json) :
    tx.PaysExactly account body ↔ ∀ message info invoiceID, tx.Pays body message info invoiceID →
      (Tongo.accountIDFromTlb info.src).1.isSome ∧
        info.grams.toNat + info.ihrFee.toNat < 2 ^ 63 := by
  constructor
  · intro exact' message info invoiceID pays
    obtain ⟨source, payments, sender, extracted, same⟩ :=
      exact'.pays _ message info invoiceID (tx.loads body) pays
    obtain ⟨order, _, found⟩ := extract_of_pays account (tx.loads body) pays
    rw [found, sender] at extracted
    cases extracted
    exact ⟨by rw [sender]; rfl, (tonAmount_add_iff _ _).mp (tons_of_perm same)⟩
  · intro fits
    refine ⟨?_, fun loaded loads none => extract_otherwise loads none⟩
    intro loaded message info invoiceID loads pays
    obtain ⟨isSome, small⟩ := fits message info invoiceID pays
    obtain ⟨source, sender⟩ := Option.isSome_iff_exists.mp isSome
    obtain ⟨order, perm, found⟩ := extract_of_pays account loads pays
    refine ⟨source, _, sender, by rw [found, sender]; rfl, ?_⟩
    rw [(tonAmount_add_iff _ _).mpr small]
    exact nativePayments_perm perm

end Convert

/-! ## A message without a sender, and one with too much -/

namespace Shop

/-- Addresses are accounts or none, and bodies are decoded. -/
@[reducible] def tongo : Tongo where
  MsgAddress := Option AccountID
  accountIDFromTlb address := (address, none)
  Cell := Unit
  isEmpty _ := false
  hash _ := .ok 0
  Body := Unit
  decode _ := some (⟨"TextComment", JsonText.no_backslash rfl⟩, ())
  marshalJSON _ := .error "not supported"

attribute [local instance] Texts.libraries tongo

/-- A text comment with an ID of version 7. -/
def comment : Json := .object [("Text", .string (Texts.uuidString invoiceID))]

/-- The header of a payment. -/
def header (source : Option AccountID) (grams : UInt64) : IntMsgInfo :=
  ⟨source, some owner, grams, 1, ⟨[(100, 3)], List.nodup_singleton _⟩, 4⟩

/-- A transaction with the payment. -/
def incoming (source : Option AccountID) (grams : UInt64) : TonTransaction :=
  ⟨5, 0, 0, 3, 0, true, some ⟨.intMsgInfo (header source grams), 0, ()⟩, []⟩

theorem incoming_pays (source : Option AccountID) (grams : UInt64) :
    (incoming source grams).Pays comment ⟨.intMsgInfo (header source grams), 0, ()⟩
      (header source grams) invoiceID where
  success := rfl
  received := rfl
  internal := rfl
  names := ⟨Texts.uuidString invoiceID,
    ⟨_, rfl, .inr ⟨(by decide : "TextComment" ≠ "InvoicePayload"), rfl, rfl⟩⟩,
    by decide +kernel, by decide +kernel⟩

def wallet : Account := ⟨owner, ⟨0, owner, none⟩⟩

/-- A payment of ten and one is exact. -/
theorem small_payment_exact :
    (∀ message info invoiceID, (incoming (some ⟨0, 2⟩) 10).Pays comment message info invoiceID →
      (Tongo.accountIDFromTlb info.src).1.isSome ∧
        info.grams.toNat + info.ihrFee.toNat < 2 ^ 63) ∧
      (incoming (some ⟨0, 2⟩) 10).PaysExactly wallet comment := by
  have fits : ∀ message info invoiceID,
      (incoming (some ⟨0, 2⟩) 10).Pays comment message info invoiceID →
      (Tongo.accountIDFromTlb info.src).1.isSome ∧
        info.grams.toNat + info.ihrFee.toNat < 2 ^ 63 := by
    intro message info invoiceID pays
    cases pays.received
    cases pays.internal
    decide
  exact ⟨fits, (paysExactly_iff _ wallet comment).mpr fits⟩

/-- Without a sender the extraction dereferences nil, and an amount of 2 ^ 63 is negative. -/
theorem sender_and_amount_matter :
    extractNativePayments ((incoming none 10).loaded comment) wallet = none ∧
      ¬ (incoming none 10).PaysExactly wallet comment ∧
      (∃ later, extractNativePayments ((incoming (some ⟨0, 2⟩) (2 ^ 63 - 1)).loaded comment) wallet =
        some (.ok (⟨invoiceID, .ton, -2 ^ 63, ⟨0, 2⟩, owner, 0⟩ :: later))) ∧
      ¬ (incoming (some ⟨0, 2⟩) (2 ^ 63 - 1)).PaysExactly wallet comment := by
  have senderless : extractNativePayments ((incoming none 10).loaded comment) wallet = none :=
    (extract_of_pays wallet ((incoming none 10).loads comment) (incoming_pays none 10)).choose_spec.2
  obtain ⟨order, _, large⟩ := extract_of_pays wallet
    ((incoming (some ⟨0, 2⟩) (2 ^ 63 - 1)).loads comment)
    (incoming_pays (some ⟨0, 2⟩) (2 ^ 63 - 1))
  have negative : tonAmount (2 ^ 63 - 1 + 1) = -2 ^ 63 := by decide +kernel
  change _ = some (Except.ok (nativePayments _ wallet invoiceID ⟨0, 2⟩
    (tonAmount (2 ^ 63 - 1 + 1)) order)) at large
  rw [negative] at large
  refine ⟨senderless, fun exact' => ?_, ⟨_, large⟩, fun exact' => ?_⟩
  · obtain ⟨_, _, _, extracted, _⟩ :=
      exact'.pays _ _ _ _ ((incoming none 10).loads comment) (incoming_pays none 10)
    rw [senderless] at extracted
    cases extracted
  · obtain ⟨source, payments, _, extracted, same⟩ :=
      exact'.pays _ _ _ _ ((incoming (some ⟨0, 2⟩) (2 ^ 63 - 1)).loads comment)
        (incoming_pays (some ⟨0, 2⟩) (2 ^ 63 - 1))
    rw [large] at extracted
    cases extracted
    exact absurd (tons_of_perm same) (by decide)

end Shop

end SpiceHarvester
