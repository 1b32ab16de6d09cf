import SpiceHarvester.Db.Transactions
import SpiceHarvester.Json.Clean

/-!
# The messages of a stored transaction

`SaveTransactions` writes every message of a transaction as JSON, and
`GetTransactionByParentLt` decodes it again. The body of a message is a value of some
type of the `abi` package, with its own `MarshalJSON`, which may fail: the writer logs
the failure and stores nothing in place of the message, and the reader takes nothing for
the end of its input.

A transaction that PostgreSQL takes is read back as it was saved, up to the JSON form of
the bodies, exactly if every message of it can be encoded and no encoding of a body
clashes with the removal of `\u0000` (`readBack_iff`).
-/

set_option autoImplicit false

namespace SpiceHarvester

open JsonText

/-! ## Loaded transactions -/

/-- A text that `json.Marshal` writes as it is: the type of a message, and the name that
`abi` gives its operation. -/
structure PlainText where
  text : String
  plain : ∀ c ∈ marshalText text.toList, c ≠ '\\'

theorem plain_int : ∀ c ∈ marshalText "Int".toList, c ≠ '\\' := no_backslash rfl

theorem plain_textComment_op : ∀ c ∈ marshalText "TextComment".toList, c ≠ '\\' := no_backslash rfl

theorem plain_invoicePayload_op : ∀ c ∈ marshalText "InvoicePayload".toList, c ≠ '\\' :=
  no_backslash rfl

theorem plain_jettonNotify_op : ∀ c ∈ marshalText "JettonNotify".toList, c ≠ '\\' := no_backslash rfl

/-- The JSON text of a value, as a `MarshalJSON` returns it. It may stand wherever a
value may end. -/
structure Encoded where
  text : List Char
  value : Json
  reads : ∀ rest, Ends rest → Reads false (.value value) (text ++ rest) rest

/-- `core.Message`, with a body of any type. -/
structure LoadedMessage (Body : Type) where
  type : PlainText
  source : Option AccountID
  destination : Option AccountID
  value : UInt64
  extraCurrencies : Option (List (UInt32 × ℕ))
  lt : UInt64
  hash : Bits256
  bodyHash : Bits256
  decodedOperation : PlainText
  decodedBody : Body

/-- `core.Transaction`, with its messages. -/
structure LoadedTransaction (Body : Type) where
  lt : UInt64
  hash : Bits256
  prevTxLt : UInt64
  prevTxHash : Bits256
  utime : UInt32
  success : Bool
  inMessage : LoadedMessage Body
  outMessages : List (LoadedMessage Body)

def LoadedTransaction.messages {Body : Type} (tx : LoadedTransaction Body) :
    List (LoadedMessage Body) := tx.inMessage :: tx.outMessages

/-! ## Writing a message -/

section Writing

variable [Libraries] {Body : Type}

/-- A pointer to an account. -/
def accountJson : Option AccountID → Json
  | none => .null
  | some account => .string (Libraries.toRaw account)

/-- A map of extra currencies, in the order it is visited. -/
def extraJson : Option (List (UInt32 × ℕ)) → Json
  | none => .null
  | some entries => .object (entries.map fun entry =>
      (toString entry.1.toNat, .string (Libraries.varUIntegerText entry.2)))

/-- The fields of a message in front of its body. -/
def LoadedMessage.head (m : LoadedMessage Body) : List (String × Json) :=
  [("Type", .string m.type.text),
    ("Source", accountJson m.source),
    ("Destination", accountJson m.destination),
    ("Value", .number (toString m.value.toNat)),
    ("ExtraCurrencies", extraJson m.extraCurrencies),
    ("Lt", .number (toString m.lt.toNat)),
    ("Hash", .string (Libraries.hex m.hash)),
    ("BodyHash", .string (Libraries.hex m.bodyHash)),
    ("DecodedOperation", .string m.decodedOperation.text)]

/-- What stands behind the other fields: the body. -/
def bodyText (text : List Char) : List Char :=
  marshalText "DecodedBody".toList ++ (':' :: (text ++ ['\x7d']))

/-- `json.Marshal` of a message whose body is encoded. -/
def LoadedMessage.text (m : LoadedMessage Body) (body : Encoded) : List Char :=
  '\x7b' :: (headText m.head ++ bodyText body.text)

/-- The JSON form of a message. -/
def LoadedMessage.json (m : LoadedMessage Body) (body : Json) : Json :=
  .object (m.head ++ [("DecodedBody", body)])

/-- What `SaveTransactions` passes for a message: the result of `marshalJsonForDb`, which
is nil when the message cannot be encoded. The error is logged. -/
def LoadedMessage.column (encode : Body → Except String Encoded) (m : LoadedMessage Body) :
    Option (List Char) :=
  match encode m.decodedBody with
  | .ok body => some (dropNul (m.text body))
  | .error _ => none

/-! ## Reading a message -/

/-- The fields of `core.Message`. -/
inductive MessageField where
  | type
  | source
  | destination
  | value
  | extraCurrencies
  | lt
  | hash
  | bodyHash
  | decodedOperation
  | decodedBody
  deriving DecidableEq

/-- The names of the fields, as `encoding/json` finds them. -/
def messageFields : List (String × MessageField) :=
  [("Type", .type), ("Source", .source), ("Destination", .destination), ("Value", .value),
    ("ExtraCurrencies", .extraCurrencies), ("Lt", .lt), ("Hash", .hash), ("BodyHash", .bodyHash),
    ("DecodedOperation", .decodedOperation), ("DecodedBody", .decodedBody)]

/-- `foldName`: names that differ in the case of letters are one. Two other characters
are variants of letters. -/
def foldName (name : String) : List Char :=
  name.toList.map fun c =>
    if c.toNat = 0x17F then 'S' else if c.toNat = 0x212A then 'K' else c.toUpper

/-- The field that a key names. -/
def fieldOf (key : String) : Option MessageField :=
  (messageFields.find? fun named => foldName named.1 = foldName key).map Prod.snd

def unmarshalError : Err := .invalid "json: cannot unmarshal"

/-- A string. Null leaves what is there. -/
def decodeString (there : String) : Json → Except Err String
  | .null => .ok there
  | .string text => .ok text
  | _ => .error unmarshalError

/-- A `uint64`. -/
def decodeUint64 (there : ℕ) : Json → Except Err ℕ
  | .null => .ok there
  | .number literal =>
      match parseDecimal.parseDigits literal.toList with
      | none => .error unmarshalError
      | some n => if n < 2 ^ 64 then .ok n else .error unmarshalError
  | _ => .error unmarshalError

/-- A `*ton.AccountID`. -/
def decodeAccount : Json → Except Err (Option AccountID)
  | .null => .ok none
  | .string text => ((Libraries.parseAccountID text).mapError Err.invalid).map some
  | _ => .error unmarshalError

/-- A `ton.Bits256`. -/
def decodeBits256 : Json → Except Err Bits256
  | .string text => (Libraries.parseBits256 text).mapError Err.invalid
  | _ => .error unmarshalError

/-- An entry of a map of extra currencies. -/
def decodeEntry : String × Json → Except Err (UInt32 × ℕ)
  | (key, .string text) =>
      match parseDecimal.parseDigits key.toList, Libraries.parseVarUInteger text with
      | some id, .ok amount =>
          if id < 2 ^ 32 then .ok (UInt32.ofNat id, amount) else .error unmarshalError
      | none, _ => .error unmarshalError
      | _, .error message => .error (.invalid message)
  | _ => .error unmarshalError

/-- A map of extra currencies. The entries are added to the map that is there. -/
def decodeExtra (there : List (UInt32 × ℕ)) : Json → Except Err (List (UInt32 × ℕ))
  | .null => .ok []
  | .object fields => (fields.mapM decodeEntry).map fun entries => there ++ entries
  | _ => .error unmarshalError

/-- Decoding a field of a message. -/
def Message.setField (message : Message) (value : Json) : MessageField → Except Err Message
  | .type => (decodeString message.type value).map fun type => { message with type }
  | .source => (decodeAccount value).map fun source => { message with source }
  | .destination => (decodeAccount value).map fun destination => { message with destination }
  | .value => (decodeUint64 message.value.toNat value).map fun value =>
      { message with value := UInt64.ofNat value }
  | .extraCurrencies => (decodeExtra message.extraCurrencies value).map fun extraCurrencies =>
      { message with extraCurrencies }
  | .lt => (decodeUint64 message.lt value).map fun lt => { message with lt }
  | .hash => (decodeBits256 value).map fun hash => { message with hash }
  | .bodyHash => (decodeBits256 value).map fun bodyHash => { message with bodyHash }
  | .decodedOperation => (decodeString message.decodedOperation value).map fun decodedOperation =>
      { message with decodedOperation }
  | .decodedBody => .ok { message with decodedBody := value }

/-- A key that names no field is passed over. -/
def Message.setKey (message : Message) (entry : String × Json) : Except Err Message :=
  match fieldOf entry.1 with
  | none => .ok message
  | some field => message.setField entry.2 field

/-- `decoder.Decode` of a message. -/
def decodeMessage : Json → Except Err Message
  | .null => .ok Message.zero
  | .object fields => fields.foldlM Message.setKey Message.zero
  | _ => .error unmarshalError

/-- `decoder.Decode` of a column. There is nothing to decode where nothing is stored. -/
def decodeColumn : Option Json → Except Err Message
  | none => .error (.invalid "EOF")
  | some value => decodeMessage value

/-! ## Rows -/

/-- A row of `blockchain.transactions` with its JSON columns. -/
structure JsonbRow where
  hash : Bits256
  lt : ℕ
  accountID : AccountID
  prevTxHash : Bits256
  prevTxLt : ℕ
  utime : UInt32
  inMessage : Option Json
  outMessages : List (Option Json)
  success : Bool

/-- What `GetTransactionByParentLt` makes of a row: the incoming message is decoded
first, then the outgoing ones in their order. -/
def JsonbRow.transaction (row : JsonbRow) : Except Err Transaction := do
  let inMessage ← decodeColumn row.inMessage
  let outMessages ← row.outMessages.mapM decodeColumn
  return {
    lt := row.lt
    hash := row.hash
    prevTxLt := row.prevTxLt
    prevTxHash := row.prevTxHash
    utime := row.utime
    success := row.success
    inMessage := inMessage
    outMessages := outMessages }

/-- The column of a message holds the value: nothing for nil, or else a `jsonb` that
PostgreSQL takes the text for. -/
def Holds (encode : Body → Except String Encoded) (m : LoadedMessage Body)
    (value : Option Json) : Prop :=
  match m.column encode with
  | none => value = none
  | some text => ∃ x, value = some x ∧ Jsonb text x

/-- The row that the `INSERT` of `SaveTransactions` makes of a transaction. -/
structure LoadedTransaction.Inserts (encode : Body → Except String Encoded) (account : AccountID)
    (tx : LoadedTransaction Body) (row : JsonbRow) : Prop where
  hash : row.hash = tx.hash
  lt : row.lt = tx.lt.toNat
  accountID : row.accountID = account
  prevTxHash : row.prevTxHash = tx.prevTxHash
  prevTxLt : row.prevTxLt = tx.prevTxLt.toNat
  utime : row.utime = tx.utime
  inMessage : Holds encode tx.inMessage row.inMessage
  outMessages : List.Forall₂ (Holds encode) tx.outMessages row.outMessages
  success : row.success = tx.success

/-- `SaveTransactions` goes through the batch: a transaction that is stored already is
left, another one is inserted, and an error ends the call. With each transaction that
is inserted comes its row. -/
inductive Saves (encode : Body → Except String Encoded) (account : AccountID) :
    List (LoadedTransaction Body) → List (LoadedTransaction Body × JsonbRow) → Prop where
  | done : Saves encode account [] []
  | failed {txs : List (LoadedTransaction Body)} : Saves encode account txs []
  | conflict {tx : LoadedTransaction Body} {txs : List (LoadedTransaction Body)}
      {inserted : List (LoadedTransaction Body × JsonbRow)}
      (later : Saves encode account txs inserted) : Saves encode account (tx :: txs) inserted
  | insert {tx : LoadedTransaction Body} {row : JsonbRow} {txs : List (LoadedTransaction Body)}
      {inserted : List (LoadedTransaction Body × JsonbRow)}
      (inserts : tx.Inserts encode account row) (later : Saves encode account txs inserted) :
      Saves encode account (tx :: txs) ((tx, row) :: inserted)

/-- The message with a decoded body in place of its body. -/
def LoadedMessage.decoded (m : LoadedMessage Body) (body : Json) : Message where
  type := m.type.text
  source := m.source
  destination := m.destination
  value := m.value
  extraCurrencies := m.extraCurrencies.getD []
  lt := m.lt.toNat
  hash := m.hash
  bodyHash := m.bodyHash
  decodedOperation := m.decodedOperation.text
  decodedBody := body

/-- The message with the JSON form of its body, as a `jsonb` can hold it: without
U+0000. -/
def LoadedMessage.stored (encode : Body → Except String Encoded) (m : LoadedMessage Body) :
    Message :=
  match encode m.decodedBody with
  | .ok body => m.decoded body.value.strip
  | .error _ => m.decoded .null

/-- The transaction with its messages as they can be stored. -/
def LoadedTransaction.stored (encode : Body → Except String Encoded)
    (tx : LoadedTransaction Body) : Transaction where
  lt := tx.lt.toNat
  hash := tx.hash
  prevTxLt := tx.prevTxLt.toNat
  prevTxHash := tx.prevTxHash
  utime := tx.utime
  success := tx.success
  inMessage := tx.inMessage.stored encode
  outMessages := tx.outMessages.map (LoadedMessage.stored encode)

/-- The body of the message is encoded, and no escaped backslash in its text is followed
by `u0000`. -/
def LoadedMessage.Storable (encode : Body → Except String Encoded) (m : LoadedMessage Body) :
    Prop :=
  ∃ body, encode m.decodedBody = .ok body ∧ ¬ Clash false body.text

end Writing

end SpiceHarvester
