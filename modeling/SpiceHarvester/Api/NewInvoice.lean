import SpiceHarvester.Api.Handlers

/-!
# New invoices

`convertNewInvoice` of `pkg/api/handlers.go`: what a request for a new invoice is
checked for, and the invoice it becomes. The ID and the clock are given. The time an
invoice lives is a product of 64-bit integers, which wraps around.
-/

set_option autoImplicit false

namespace SpiceHarvester

/-! ## Requests -/

/-- `core.InvoiceItem`. -/
structure InvoiceItem where
  name : String

/-- `core.InvoiceMetadata`. -/
structure InvoiceMetadata where
  merchantName : String
  merchantURL : String
  merchantLogo : String
  goods : Option (List InvoiceItem)
  mcc : ℤ

/-- `NewInvoice`. -/
structure NewInvoice where
  amount : String
  currency : String
  lifeTime : Int64
  privateInfo : Option RawMap
  metadata : InvoiceMetadata

/-- `validateMetadata`. -/
def validateMetadata (metadata : InvoiceMetadata) : Except String Unit := do
  ensure (metadata.merchantName ≠ "") "missing merchant_name"
  ensure (0 ≤ metadata.mcc ∧ metadata.mcc ≤ 9999) "mcc_code must be between 0 and 9999"

/-- The fields of the metadata as they come out of `json.Marshal` and
`json.Unmarshal`: empty fields marked `omitempty` are left out. -/
def InvoiceMetadata.raw (metadata : InvoiceMetadata) : RawMap :=
  let items := (metadata.goods.getD []).map fun item => "\x7b\"name\":" ++ quote item.name ++ "\x7d"
  [("merchant_name", quote metadata.merchantName)] ++
    (if metadata.merchantURL = "" then [] else [("merchant_url", quote metadata.merchantURL)]) ++
    (if metadata.merchantLogo = "" then [] else [("merchant_logo", quote metadata.merchantLogo)]) ++
    [("goods", "[" ++ String.intercalate "," items ++ "]"), ("mcc_code", toString metadata.mcc)]

/-- `time.Second`. -/
def second : Int64 := 1000000000

/-- `time.Second * time.Duration(newInvoice.LifeTime)`. -/
def NewInvoice.duration (newInvoice : NewInvoice) : Int64 := second * newInvoice.lifeTime

/-- What a request is checked for before the clock is read, and the amount in it. -/
def NewInvoice.checked (newInvoice : NewInvoice) : Except String ℤ := do
  let some amount := parseDecimal newInvoice.amount | throw "can not parse amount string"
  ensure (0 < amount) "amount must be positive integer"
  ensure (0 < newInvoice.lifeTime) "life time must be positive integer"
  return amount

/-- `convertNewInvoice`, for the ID drawn and the clock read. -/
def convertNewInvoice (handler : Handler) (newInvoice : NewInvoice) (recipient : AccountID)
    (id : InvoiceID) (now : Time) : Except String Invoice := do
  let amount ← newInvoice.checked
  match handler.printing.currencies.lookup newInvoice.currency with
  | none => .error ("currency ticker " ++ newInvoice.currency ++ " not found")
  | some extended =>
      wrapMetadata (validateMetadata newInvoice.metadata)
      return {
        id := id
        recipient := recipient
        status := .waiting
        amount := amount
        overpayment := 0
        currency := extended.currency
        createdAt := now
        expireAt := now + newInvoice.duration.toInt
        updatedAt := now
        privateInfo := newInvoice.privateInfo.getD []
        metadata := newInvoice.metadata.raw
        paidBy := none
        paidAt := none
        txHash := none
        version := 0 }
where
  wrapMetadata (checked : Except String Unit) : Except String Unit :=
    checked.mapError fun error => "metadata validation: " ++ error

/-! ## What is accepted -/

/-- What is known of an invoice that has been accepted. -/
structure Accepted (newInvoice : NewInvoice) (now : Time) (invoice : Invoice) : Prop where
  lifeTime : 0 < newInvoice.lifeTime
  amount : 0 < invoice.amount
  status : invoice.status = .waiting
  overpayment : invoice.overpayment = 0
  createdAt : invoice.createdAt = now
  expireAt : invoice.expireAt = now + newInvoice.duration.toInt

theorem NewInvoice.of_checked {newInvoice : NewInvoice} {amount : ℤ}
    (checked : newInvoice.checked = .ok amount) : 0 < amount ∧ 0 < newInvoice.lifeTime := by
  unfold NewInvoice.checked at checked
  split at checked
  · rename_i found _
    obtain ⟨_, positive, checked⟩ := except_bind checked
    obtain ⟨_, lives, checked⟩ := except_bind checked
    cases checked
    exact ⟨of_ensure positive, of_ensure lives⟩
  · cases checked

/-- **Every accepted invoice is waiting, for a positive amount.** -/
theorem accepted_of_convertNewInvoice {handler : Handler} {newInvoice : NewInvoice}
    {recipient : AccountID} {id : InvoiceID} {now : Time} {invoice : Invoice}
    (converted : convertNewInvoice handler newInvoice recipient id now = .ok invoice) :
    Accepted newInvoice now invoice := by
  obtain ⟨amount, checked, converted⟩ := except_bind converted
  obtain ⟨positive, lives⟩ := NewInvoice.of_checked checked
  split at converted
  · cases converted
  · obtain ⟨_, _, converted⟩ := except_bind converted
    cases converted
    exact ⟨lives, positive, rfl, rfl, rfl, rfl⟩

/-- What passes the checks is accepted. -/
theorem convertNewInvoice_accepts {handler : Handler} {newInvoice : NewInvoice} {amount : ℤ}
    {extended : ExtendedCurrency} (checked : newInvoice.checked = .ok amount)
    (listed : handler.printing.currencies.lookup newInvoice.currency = some extended)
    (valid : validateMetadata newInvoice.metadata = .ok ()) (recipient : AccountID)
    (id : InvoiceID) (now : Time) :
    ∃ invoice, convertNewInvoice handler newInvoice recipient id now = .ok invoice := by
  unfold convertNewInvoice
  rw [checked, listed, valid]
  exact ⟨_, rfl⟩

/-- An accepted invoice is over the currency that is listed under its ticker. -/
theorem listed_of_convertNewInvoice {handler : Handler} {newInvoice : NewInvoice}
    {recipient : AccountID} {id : InvoiceID} {now : Time} {invoice : Invoice}
    (converted : convertNewInvoice handler newInvoice recipient id now = .ok invoice) :
    ∃ extended, handler.printing.currencies.lookup newInvoice.currency = some extended ∧
      invoice.currency = extended.currency := by
  obtain ⟨amount, checked, converted⟩ := except_bind converted
  split at converted
  · cases converted
  · rename_i extended listed
    obtain ⟨_, _, converted⟩ := except_bind converted
    cases converted
    exact ⟨extended, listed, rfl⟩

/-- The invoice has the ID drawn. -/
theorem id_of_convertNewInvoice {handler : Handler} {newInvoice : NewInvoice}
    {recipient : AccountID} {id : InvoiceID} {now : Time} {invoice : Invoice}
    (converted : convertNewInvoice handler newInvoice recipient id now = .ok invoice) :
    invoice.id = id := by
  obtain ⟨amount, checked, converted⟩ := except_bind converted
  split at converted
  · cases converted
  · obtain ⟨_, _, converted⟩ := except_bind converted
    cases converted
    rfl

/-! ## How long an invoice lives -/

/-- The product is exact as long as it fits 63 bits. -/
theorem NewInvoice.duration_exact {newInvoice : NewInvoice} (lives : 0 < newInvoice.lifeTime) :
    newInvoice.duration.toInt = newInvoice.lifeTime.toInt * 1000000000 ↔
      newInvoice.lifeTime.toInt ≤ 9223372036 := by
  have positive : 0 < newInvoice.lifeTime.toInt := Int64.lt_iff_toInt_lt.mp lives
  have bound := newInvoice.lifeTime.toInt_lt
  unfold duration
  rw [Int64.toInt_mul]
  have one : second.toInt = 1000000000 := by decide
  rw [one, Int.bmod_def]
  constructor
  · intro same
    split at same <;> omega
  · intro small
    split <;> omega

end SpiceHarvester
