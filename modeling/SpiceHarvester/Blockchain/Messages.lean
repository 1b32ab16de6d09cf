import SpiceHarvester.Db.Messages
import Mathlib.Data.List.Nodup

/-!
# Messages and transactions of the blockchain

`convertMessage` and `convertTransaction` of `pkg/blockchain`: what the service keeps of a
transaction that `tongo` has decoded. The error of an address is ignored, so an address that
is no account is none. The value of a message is a sum of 64-bit numbers, which wraps around.
-/

set_option autoImplicit false

namespace SpiceHarvester

open JsonText

/-- What `tongo` makes of an address and of the body of a message. The functions that the
source ignores the error of return a value and an error. -/
class Tongo where
  MsgAddress : Type
  accountIDFromTlb : MsgAddress → Option AccountID × Option String
  Cell : Type
  /-- Neither bits nor references are left to read. -/
  isEmpty : Cell → Bool
  hash : Cell → Except String Bits256
  Body : Type
  /-- The operation and the body that `abi.InternalMessageDecoder` finds. -/
  decode : Cell → Option (PlainText × Body)
  marshalJSON : Body → Except String Encoded

/-- The extra currencies of a message, by their numbers. -/
structure ExtraCurrencies where
  items : List (UInt32 × ℕ)
  distinct : (items.map Prod.fst).Nodup

section Tlb

variable [Tongo]

/-- The part of `IntMsgInfo` that is used. -/
structure IntMsgInfo where
  src : Tongo.MsgAddress
  dest : Tongo.MsgAddress
  grams : UInt64
  ihrFee : UInt64
  other : ExtraCurrencies
  createdLt : UInt64

/-- `tlb.CommonMsgInfo`. -/
inductive CommonMsgInfo where
  | intMsgInfo (info : IntMsgInfo)
  | extInMsgInfo (dest : Tongo.MsgAddress)
  | extOutMsgInfo (src : Tongo.MsgAddress) (createdLt : UInt64)

/-- `tlb.Message`, with its hash. -/
structure TlbMessage where
  info : CommonMsgInfo
  hash : Bits256
  body : Tongo.Cell

/-- `ton.Transaction`, with its hash. -/
structure TonTransaction where
  lt : UInt64
  hash : Bits256
  prevTransHash : Bits256
  prevTransLt : UInt64
  now : UInt32
  isSuccess : Bool
  inMsg : Option TlbMessage
  outMsgs : List TlbMessage

end Tlb

/-! ## Conversion -/

/-- An assignment to a key of a map. -/
def assign (map : List (UInt32 × ℕ)) (item : UInt32 × ℕ) : List (UInt32 × ℕ) :=
  map.filter (fun other => other.1 ≠ item.1) ++ [item]

section Convert

variable [Tongo]

/-- A decoded body of type `any`, which may be nil. -/
abbrev AnyBody := Option Tongo.Body

/-- The `core.Message` that `convertTransaction` leaves where there is no message. -/
def noMessage : LoadedMessage AnyBody :=
  ⟨⟨"", no_backslash rfl⟩, none, none, 0, none, 0, 0, 0, ⟨"", no_backslash rfl⟩, none⟩

/-- The first half of `convertMessage`: the kind of the message and its header. -/
def convertInfo (message : TlbMessage) : LoadedMessage AnyBody :=
  match message.info with
  | .intMsgInfo info => {
      noMessage with
      type := ⟨"Int", no_backslash rfl⟩
      hash := message.hash
      source := (Tongo.accountIDFromTlb info.src).1
      destination := (Tongo.accountIDFromTlb info.dest).1
      value := info.grams + info.ihrFee
      extraCurrencies := some (info.other.items.foldl assign [])
      lt := info.createdLt }
  | .extInMsgInfo dest => {
      noMessage with
      type := ⟨"ExtIn", no_backslash rfl⟩
      hash := message.hash
      destination := (Tongo.accountIDFromTlb dest).1
      extraCurrencies := some [] }
  | .extOutMsgInfo src createdLt => {
      noMessage with
      type := ⟨"ExtOut", no_backslash rfl⟩
      hash := message.hash
      source := (Tongo.accountIDFromTlb src).1
      extraCurrencies := some []
      lt := createdLt }

/-- The second half of `convertMessage`: the body, unless it is empty. -/
def convertBody (converted : LoadedMessage AnyBody) (body : Tongo.Cell) : LoadedMessage AnyBody :=
  if Tongo.isEmpty body then converted
  else
    match Tongo.hash body with
    | .error _ => converted
    | .ok bodyHash =>
        match Tongo.decode body with
        | none => { converted with bodyHash := bodyHash }
        | some (decodedOperation, decodedBody) =>
            { converted with
              bodyHash := bodyHash
              decodedOperation := decodedOperation
              decodedBody := some decodedBody }

/-- `convertMessage`. "skip. nothing interesting" in a message to the outside. -/
def convertMessage (message : TlbMessage) : LoadedMessage AnyBody :=
  match message.info with
  | .extOutMsgInfo _ _ => convertInfo message
  | _ => convertBody (convertInfo message) message.body

/-- `convertTransaction`. -/
def convertTransaction (tx : TonTransaction) : LoadedTransaction AnyBody where
  lt := tx.lt
  hash := tx.hash
  prevTxLt := tx.prevTransLt
  prevTxHash := tx.prevTransHash
  utime := tx.now
  success := tx.isSuccess
  inMessage := (tx.inMsg.map convertMessage).getD noMessage
  outMessages := tx.outMsgs.map convertMessage

/-! ## What a message keeps of its header -/

omit [Tongo] in
/-- Assigning to new keys adds the items in their order. -/
theorem foldl_assign {items map : List (UInt32 × ℕ)}
    (distinct : ((map ++ items).map Prod.fst).Nodup) : items.foldl assign map = map ++ items := by
  induction items generalizing map with
  | nil => rw [List.foldl_nil, List.append_nil]
  | cons item items ih =>
      have new : ∀ other ∈ map, other.1 ≠ item.1 := by
        intro other member same
        rw [List.map_append, List.nodup_append] at distinct
        exact distinct.2.2 _ (List.mem_map_of_mem member) _
          (List.mem_map_of_mem List.mem_cons_self) same
      have added : assign map item = map ++ [item] := by
        rw [assign, List.filter_eq_self.mpr fun other member => decide_eq_true (new other member)]
      have rest : map ++ [item] ++ items = map ++ item :: items := by
        rw [List.append_assoc, List.singleton_append]
      rw [List.foldl_cons, added, ih (rest ▸ distinct), rest]

/-- The header of an internal message, once it is converted. -/
structure LoadedMessage.Heads (message : LoadedMessage AnyBody) (info : IntMsgInfo) : Prop where
  type : message.type.text = "Int"
  source : message.source = (Tongo.accountIDFromTlb info.src).1
  destination : message.destination = (Tongo.accountIDFromTlb info.dest).1
  value : message.value = info.grams + info.ihrFee
  extraCurrencies : message.extraCurrencies = some info.other.items

/-- The body leaves the header. -/
theorem LoadedMessage.Heads.body {message : LoadedMessage AnyBody} {info : IntMsgInfo}
    (heads : message.Heads info) (body : Tongo.Cell) : (convertBody message body).Heads info := by
  unfold convertBody
  split
  · exact heads
  · split
    · exact heads
    · split
      · exact ⟨heads.type, heads.source, heads.destination, heads.value, heads.extraCurrencies⟩
      · exact ⟨heads.type, heads.source, heads.destination, heads.value, heads.extraCurrencies⟩

variable {message : TlbMessage} {info : IntMsgInfo}

theorem heads_of_internal (internal : message.info = .intMsgInfo info) :
    (convertMessage message).Heads info := by
  have heads : (convertInfo message).Heads info := by
    unfold convertInfo
    rw [internal]
    exact ⟨rfl, rfl, rfl, rfl, congrArg some (foldl_assign info.other.distinct)⟩
  unfold convertMessage
  rw [internal]
  exact heads.body message.body

/-- The body leaves the type. -/
theorem type_convertBody (converted : LoadedMessage AnyBody) (body : Tongo.Cell) :
    (convertBody converted body).type = converted.type := by
  unfold convertBody
  split
  · rfl
  · split
    · rfl
    · split <;> rfl

/-- Only what is internal is converted to an internal message. -/
theorem internal_of_type (internal : (convertMessage message).type.text = "Int") :
    ∃ info, message.info = .intMsgInfo info := by
  cases kind : message.info with
  | intMsgInfo info => exact ⟨info, rfl⟩
  | extInMsgInfo dest =>
      have type : (convertMessage message).type.text = "ExtIn" := by
        unfold convertMessage
        rw [kind]
        dsimp only
        rw [type_convertBody]
        unfold convertInfo
        rw [kind]
      rw [type] at internal
      exact absurd internal (by decide)
  | extOutMsgInfo src createdLt =>
      have type : (convertMessage message).type.text = "ExtOut" := by
        unfold convertMessage convertInfo
        rw [kind]
      rw [type] at internal
      exact absurd internal (by decide)

theorem inMessage_of_received {tx : TonTransaction} (received : tx.inMsg = some message) :
    (convertTransaction tx).inMessage = convertMessage message := by
  unfold convertTransaction
  rw [received]
  rfl

/-- An internal message has the operation and the body that its cell is decoded as. -/
theorem decoded_of_internal {decodedOperation : PlainText} {decodedBody : Tongo.Body}
    {bodyHash : Bits256} (internal : message.info = .intMsgInfo info)
    (nonempty : Tongo.isEmpty message.body = false) (hashed : Tongo.hash message.body = .ok bodyHash)
    (decoded : Tongo.decode message.body = some (decodedOperation, decodedBody)) :
    (convertMessage message).decodedOperation = decodedOperation ∧
      (convertMessage message).decodedBody = some decodedBody := by
  unfold convertMessage
  rw [internal]
  dsimp only
  unfold convertBody
  rw [nonempty, hashed, decoded]
  exact ⟨rfl, rfl⟩

end Convert

end SpiceHarvester
