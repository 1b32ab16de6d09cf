import SpiceHarvester.Core

/-!
# The printable invoices of `pkg/core`

`ConvertInvoiceToPrintablePublic` and `ConvertInvoiceToPrintablePrivate` with
what they print: the payload of a payment and the payment links. A `map` that
a function ranges over is a list here, in the order the range visits it.
-/

set_option autoImplicit false

namespace SpiceHarvester

/-! ## Texts of bytes -/

/-- The alphabet of a base64 encoding: `StdEncoding` or `URLEncoding`. -/
def base64Alphabet (urlSafe : Bool) : List Char :=
  "ABCDEFGHIJKLMNOPQRSTUVWXYZabcdefghijklmnopqrstuvwxyz0123456789".toList ++
    if urlSafe then ['-', '_'] else ['+', '/']

/-- `base64.StdEncoding.EncodeToString`, or with `urlSafe` the same of
`base64.RawURLEncoding`, which does not pad. -/
def base64Encode (urlSafe : Bool) : List UInt8 → List Char
  | [] => []
  | [a] => sextets (a.toNat * 16) 2 ++ if urlSafe then [] else ['=', '=']
  | [a, b] => sextets ((a.toNat * 256 + b.toNat) * 4) 3 ++ if urlSafe then [] else ['=']
  | a :: b :: c :: rest =>
      sextets ((a.toNat * 256 + b.toNat) * 256 + c.toNat) 4 ++ base64Encode urlSafe rest
where
  /-- The lowest sextets of a number, the highest first. -/
  sextets (bits count : ℕ) : List Char :=
    (List.range count).reverse.map fun place =>
      (base64Alphabet urlSafe).getD (bits / 64 ^ place % 64) 'A'

/-- `time.Time.Unix`. -/
def Time.unix (t : Time) : ℤ := t / 1000000000

/-! ## Payloads and links -/

section Printable

variable [Libraries]

/-- `EncodePayload`. -/
def encodePayload (invoice : Invoice) (adnlAddress : Option Bits256) (urlSafe : Bool) :
    Except Err String :=
  match Libraries.invoicePayloadBoc invoice.id adnlAddress with
  | .error message => .error (.invalid message)
  | .ok bytes => .ok (String.ofList (base64Encode urlSafe bytes))

/-- `GeneratePaymentLink`. -/
def generatePaymentLink (linkPrefix : String) (invoice : Invoice) (adnlAddress : Option Bits256) :
    Except Err String := do
  let payload ← encodePayload invoice adnlAddress true
  match invoice.currency with
  | .ton =>
      return linkPrefix ++ "transfer/" ++ Libraries.toHuman invoice.recipient false false ++
        "?amount=" ++ toString invoice.amount ++ "&bin=" ++ payload ++
        "&exp=" ++ toString (Time.unix invoice.expireAt)
  | .jetton master =>
      return linkPrefix ++ "transfer/" ++ Libraries.toHuman invoice.recipient true false ++
        "?jetton=" ++ Libraries.toHuman master true false ++
        "&amount=" ++ toString invoice.amount ++ "&bin=" ++ payload ++
        "&exp=" ++ toString (Time.unix invoice.expireAt)
  | .extra _ => throw (.invalid "extra not supported yet")

/-! ## Printable invoices -/

/-- The text of a status. -/
def InvoiceStatus.text : InvoiceStatus → String
  | .waiting => "waiting"
  | .paid => "paid"
  | .cancelled => "cancelled"
  | .expired => "expired"

omit [Libraries] in
theorem InvoiceStatus.text_injective : Function.Injective InvoiceStatus.text := by
  intro status status' same
  cases status <;> cases status' <;> first | rfl | exact absurd same (by decide)

/-- The text of a currency type. -/
def CurrencyType.text : CurrencyType → String
  | .ton => "ton"
  | .jetton => "jetton"
  | .extra => "extra"

/-- `Currency.String`. -/
def Currency.string : Currency → String
  | .ton => "ton$"
  | .extra id => "extra$" ++ toString id.toNat
  | .jetton master => "jetton$" ++ Libraries.toRaw master

/-- `core.JettonInfo`. -/
structure JettonInfo where
  address : String
  decimals : ℤ

/-- `core.PublicInvoicePrintable`. -/
structure PublicInvoicePrintable where
  id : String
  status : String
  amount : String
  currency : String
  recipient : String
  paymentLinks : List (String × String)
  createdAt : ℤ
  expireAt : ℤ
  updatedAt : ℤ
  overpayment : String
  paidBy : String
  paidAt : Option ℤ
  txHash : String
  jettonInfo : Option JettonInfo
  payload : String

/-- `core.PrivateInvoicePrintable`. -/
structure PrivateInvoicePrintable where
  public' : PublicInvoicePrintable
  privateInfo : RawMap
  metadata : RawMap

/-- What printing an invoice takes from the configuration: the prefixes of the
payment links, the currencies by their tickers and the ADNL address. -/
structure Printing where
  prefixes : List (String × String)
  currencies : List (String × ExtendedCurrency)
  adnlAddress : Option Bits256

/-- The loop that looks for the ticker of a currency: the last one that the
range visits. -/
def tickerOf (currencies : List (String × ExtendedCurrency)) (currency : Currency) : String :=
  currencies.foldl
    (fun ticker entry => if entry.2.currency = currency then entry.1 else ticker) ""

/-- `ConvertInvoiceToPrintablePublic`. -/
def convertInvoiceToPrintablePublic (printing : Printing) (invoice : Invoice) :
    Except Err PublicInvoicePrintable := do
  let ticker := tickerOf printing.currencies invoice.currency
  if ticker = "" then
    throw (.invalid ("currency not found: " ++ invoice.currency.string))
  let payload ← encodePayload invoice printing.adnlAddress false
  let paymentLinks ← printing.prefixes.mapM fun entry => do
    let paymentLink ← generatePaymentLink entry.2 invoice printing.adnlAddress
    return (entry.1, paymentLink)
  return {
    id := Libraries.uuidString invoice.id
    status := invoice.status.text
    amount := toString invoice.amount
    currency := ticker
    recipient := Libraries.toRaw invoice.recipient
    paymentLinks := paymentLinks
    createdAt := Time.unix invoice.createdAt
    expireAt := Time.unix invoice.expireAt
    updatedAt := Time.unix invoice.updatedAt
    overpayment := toString invoice.overpayment
    paidBy := (invoice.paidBy.map Libraries.toRaw).getD ""
    paidAt := invoice.paidAt.map Time.unix
    txHash := (invoice.txHash.map Libraries.hex).getD ""
    jettonInfo := match invoice.currency with
      | .jetton master => some {
          address := Libraries.toRaw master
          decimals := ((printing.currencies.lookup ticker).map
            ExtendedCurrency.jettonDecimals).getD 0 }
      | _ => none
    payload := payload }

/-- `ConvertInvoiceToPrintablePrivate`. -/
def convertInvoiceToPrintablePrivate (printing : Printing) (invoice : Invoice) :
    Except Err PrivateInvoicePrintable := do
  let publicInvoice ← convertInvoiceToPrintablePublic printing invoice
  return ⟨publicInvoice, invoice.privateInfo, invoice.metadata⟩

/-- What is printed has the texts of the ID and of the status. -/
theorem of_printed {printing : Printing} {invoice : Invoice} {printable : PrivateInvoicePrintable}
    (printed : convertInvoiceToPrintablePrivate printing invoice = .ok printable) :
    printable.public'.id = Libraries.uuidString invoice.id ∧
      printable.public'.status = invoice.status.text := by
  obtain ⟨public', printed', same⟩ := except_bind printed
  cases same
  simp only [convertInvoiceToPrintablePublic] at printed'
  split at printed'
  · cases printed'
  · obtain ⟨_, _, printed'⟩ := except_bind printed'
    obtain ⟨_, _, printed'⟩ := except_bind printed'
    cases printed'
    exact ⟨rfl, rfl⟩

end Printable

end SpiceHarvester
