import Mathlib.Algebra.Order.Ring.Int
import Mathlib.Data.BitVec
import Mathlib.Data.UInt

/-!
# The types of `pkg/core`

Accounts, currencies, transactions, payments and invoices, as the packages of
the service pass them around.

A `Currency` of the source has three fields, two of them hidden, and only the
constructors `TonCurrency`, `JettonCurrency` and `ExtraCurrency` can fill
them: it is an inductive type here. Amounts are `big.Int`, so `Int`. A
`time.Time` is its number of nanoseconds.
-/

set_option autoImplicit false

namespace SpiceHarvester

theorem except_bind {ε α β : Type} {first : Except ε α} {rest : α → Except ε β} {value : β}
    (ended : (first >>= rest) = .ok value) : ∃ found, first = .ok found ∧ rest found = .ok value := by
  cases first with
  | error _ => cases ended
  | ok found => exact ⟨found, rfl, ended⟩

/-- `time.Time`, in nanoseconds. -/
abbrev Time := ℤ

/-- `timestamptz` keeps microseconds: what PostgreSQL stores for a `time.Time`. -/
def timestamptz (t : Time) : Time := t / 1000 * 1000

theorem timestamptz_le (t : Time) : timestamptz t ≤ t :=
  Int.ediv_mul_le t (by decide)

theorem timestamptz_mono {s t : Time} (le : s ≤ t) : timestamptz s ≤ timestamptz t :=
  Int.mul_le_mul_of_nonneg_right (Int.ediv_le_ediv (by decide) le) (by decide)

@[simp] theorem timestamptz_idem (t : Time) : timestamptz (timestamptz t) = timestamptz t := by
  unfold timestamptz
  rw [Int.mul_ediv_cancel _ (by decide)]

abbrev UUID := BitVec 128

abbrev Bits256 := BitVec 256

/-- `ton.AccountID`. -/
structure AccountID where
  workchain : ℤ
  address : Bits256
  deriving DecidableEq

/-- What the service uses of other packages: the texts of an account, of a
`Bits256` and of a `VarUInteger32`, with the parsers that `UnmarshalJSON` applies
to them, the text of a UUID and its parser, the bytes of the cell of an invoice
payload, and the names of the operations that `abi` decodes. The three parsers
give back what has been written, and the texts of the last two types are of
letters and digits. -/
class Libraries where
  toRaw : AccountID → String
  parseAccountID : String → Except String AccountID
  parse_toRaw : ∀ account, parseAccountID (toRaw account) = .ok account
  toHuman : AccountID → (bounce testnet : Bool) → String
  hex : Bits256 → String
  parseBits256 : String → Except String Bits256
  parse_hex : ∀ bits, parseBits256 (hex bits) = .ok bits
  hex_alphanum : ∀ bits, ∀ c ∈ (hex bits).toList, c.isAlphanum = true
  varUIntegerText : ℕ → String
  parseVarUInteger : String → Except String ℕ
  parse_varUIntegerText : ∀ value, parseVarUInteger (varUIntegerText value) = .ok value
  varUIntegerText_alphanum : ∀ value, ∀ c ∈ (varUIntegerText value).toList, c.isAlphanum = true
  uuidString : UUID → String
  parseUUID : String → Except String UUID
  invoicePayloadBoc : UUID → Option Bits256 → Except String (List UInt8)
  invoicePayloadMsgOp : String
  textCommentMsgOp : String
  jettonNotifyMsgOp : String
  invoicePayloadJettonOp : String
  textCommentJettonOp : String

/-! ## Currencies -/

/-- `core.CurrencyType`. -/
inductive CurrencyType where
  | ton
  | jetton
  | extra
  deriving DecidableEq

/-- `core.Currency`, by its constructors. -/
inductive Currency where
  | ton
  | jetton (master : AccountID)
  | extra (id : UInt32)
  deriving DecidableEq

/-- The field `Type` of a currency. -/
def Currency.type : Currency → CurrencyType
  | .ton => .ton
  | .jetton _ => .jetton
  | .extra _ => .extra

/-- `core.ExtendedCurrency`. -/
structure ExtendedCurrency where
  currency : Currency
  jettonDecimals : ℤ
  deriving DecidableEq

/-! ## Transactions -/

/-- A decoded message body: `any`, as `encoding/json` reads it with
`UseNumber`. -/
inductive Json where
  | null
  | bool (value : Bool)
  | number (literal : String)
  | string (value : String)
  | array (items : List Json)
  | object (fields : List (String × Json))

/-- `core.Message`. -/
structure Message where
  type : String
  source : Option AccountID
  destination : Option AccountID
  value : UInt64
  extraCurrencies : List (UInt32 × ℕ)
  lt : ℕ
  hash : Bits256
  bodyHash : Bits256
  decodedOperation : String
  decodedBody : Json

/-- The zero value of `core.Message`. -/
def Message.zero : Message where
  type := ""
  source := none
  destination := none
  value := 0
  extraCurrencies := []
  lt := 0
  hash := 0
  bodyHash := 0
  decodedOperation := ""
  decodedBody := .null

/-- `core.Transaction`. -/
structure Transaction where
  lt : ℕ
  hash : Bits256
  prevTxLt : ℕ
  prevTxHash : Bits256
  utime : UInt32
  success : Bool
  inMessage : Message
  outMessages : List Message

/-- `core.TxID`. -/
structure TxID where
  lt : ℕ
  hash : Bits256

/-- `core.TxGap`. -/
structure TxGap where
  startLt : ℕ
  endLt : ℕ
  startHash : Bits256

/-- `core.AccountInfo`. -/
structure AccountInfo where
  maxDepthLt : ℕ
  recipient : AccountID
  jetton : Option AccountID
  deriving DecidableEq

/-- `core.Account`. -/
structure Account where
  accountID : AccountID
  info : AccountInfo
  deriving DecidableEq

/-- `strconv.ParseInt` and `big.Int.SetString` in base 10: an optional sign and
at least one digit. -/
def parseDecimal (text : String) : Option ℤ :=
  match text.toList with
  | '-' :: digits => (parseDigits digits).map fun value => -(value : ℤ)
  | '+' :: digits => (parseDigits digits).map fun value => (value : ℤ)
  | digits => (parseDigits digits).map fun value => (value : ℤ)
where
  parseDigits (digits : List Char) : Option ℕ :=
    if digits.isEmpty || !digits.all Char.isDigit then none
    else some (Nat.ofDigitChars 10 digits 0)

theorem toList_toString_nat (n : ℕ) : (toString n).toList = Nat.toDigits 10 n := by
  rw [Nat.toString_eq_ofList_toDigits, String.toList_ofList]

theorem isDigit_of_mem_toString {n : ℕ} {digit : Char} (member : digit ∈ (toString n).toList) :
    digit.isDigit = true := by
  rw [toList_toString_nat] at member
  exact Nat.isDigit_of_mem_toDigits (by decide) (by decide) member

theorem parseDigits_toString (n : ℕ) : parseDecimal.parseDigits (toString n).toList = some n := by
  have all : (toString n).toList.all Char.isDigit = true :=
    List.all_eq_true.mpr fun _ => isDigit_of_mem_toString
  rw [parseDecimal.parseDigits, all, toList_toString_nat, if_neg (by simp [Nat.toDigits_ne_nil]),
    Nat.ofDigitChars_ten_toDigits]

/-- A printed natural number is parsed back. -/
theorem parseDecimal_toString (n : ℕ) : parseDecimal (toString n) = some (n : ℤ) := by
  unfold parseDecimal
  split
  · rename_i rest same
    exact absurd (isDigit_of_mem_toString (n := n) (same ▸ List.mem_cons_self)) (by decide)
  · rename_i rest same
    exact absurd (isDigit_of_mem_toString (n := n) (same ▸ List.mem_cons_self)) (by decide)
  · rw [parseDigits_toString]
    rfl

/-! ## What is kept of a currency -/

section Info

variable [Libraries]

/-- What `payments.currencies` keeps of a currency beside its type. -/
def Currency.info : Currency → String
  | .ton => ""
  | .jetton master => Libraries.toRaw master
  | .extra id => toString id.toNat

theorem toRaw_injective {account account' : AccountID}
    (same : Libraries.toRaw account = Libraries.toRaw account') : account = account' := by
  have parsed := Libraries.parse_toRaw account
  rw [same, Libraries.parse_toRaw, Except.ok.injEq] at parsed
  exact parsed.symm

/-- The type and the info of a currency determine it. -/
theorem Currency.eq_of_type_info {currency currency' : Currency}
    (type : currency.type = currency'.type) (info : currency.info = currency'.info) :
    currency = currency' := by
  cases currency with
  | ton =>
      cases currency' with
      | ton => rfl
      | jetton master => cases type
      | extra id => cases type
  | jetton master =>
      cases currency' with
      | ton => cases type
      | jetton master' => exact congrArg Currency.jetton (toRaw_injective info)
      | extra id => cases type
  | extra id =>
      cases currency' with
      | ton => cases type
      | jetton master => cases type
      | extra id' =>
          have parsed := congrArg parseDecimal info
          simp only [Currency.info, parseDecimal_toString, Option.some.injEq, Int.ofNat_inj] at parsed
          exact congrArg Currency.extra (UInt32.toNat_inj.mp parsed)

end Info

/-- The errors a function returns: `core.ErrNotFound`, `pgx.ErrNoRows`, an
error of the database or of the network, and an error of the function itself. -/
inductive Err where
  | notFound
  | noRows
  | failed
  | invalid (message : String)
  deriving DecidableEq

/-! ## Invoices -/

abbrev InvoiceID := UUID

/-- `core.InvoiceStatus`. -/
inductive InvoiceStatus where
  | waiting
  | paid
  | cancelled
  | expired
  deriving DecidableEq

/-- `map[string]json.RawMessage`: the JSON text of each field. -/
abbrev RawMap := List (String × String)

/-- `core.Invoice`. The last field is not in the source: it names the version
of the stored row that the value was read from, and no function looks at it. -/
structure Invoice where
  id : InvoiceID
  recipient : AccountID
  status : InvoiceStatus
  amount : ℤ
  overpayment : ℤ
  currency : Currency
  createdAt : Time
  expireAt : Time
  updatedAt : Time
  privateInfo : RawMap
  metadata : RawMap
  paidBy : Option AccountID
  paidAt : Option Time
  txHash : Option Bits256
  version : ℕ
  deriving DecidableEq

/-- `ParseInvoiceID`. -/
def parseInvoiceID [Libraries] (text : String) : Except Err InvoiceID :=
  match Libraries.parseUUID text with
  | .error message => .error (.invalid message)
  | .ok id => if (id >>> 76).toNat % 16 = 7 then .ok id else .error (.invalid "invalid invoice id")

/-- `core.Payment`. -/
structure Payment where
  invoiceID : InvoiceID
  currency : Currency
  amount : ℤ
  paidBy : AccountID
  recipient : AccountID
  txHash : Bits256
  deriving DecidableEq

end SpiceHarvester
