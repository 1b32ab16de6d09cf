import SpiceHarvester.Core.Texts
import SpiceHarvester.Db.Messages
import SpiceHarvester.Indexer.Worker

/-!
# Reading a stored transaction back

What is decoded of the columns that `SaveTransactions` has written. The fields of a
message in front of its body are written without a backslash, so they survive the
removal of `\u0000` and are read back whatever becomes of the body. A body that clashes
with the removal leaves fewer units than its value has: no value decoded in its place is
that value.

So a transaction that PostgreSQL takes is read back exactly if all its messages can be
stored (`readBack_iff`). A message that cannot be encoded leaves an empty column; the
indexer of the account then asks for the same transaction in every round
(`indexerRun_stuck`).
-/

set_option autoImplicit false

namespace SpiceHarvester

open JsonText Interleaving

/-! ## The text of a message -/

/-- In front of the text of a body stands no backslash. -/
theorem bodyText_eq (text : List Char) :
    bodyText text = (marshalText "DecodedBody".toList ++ [':']) ++ (text ++ ['\x7d']) := by
  rw [bodyText, List.append_assoc, List.singleton_append]

theorem noBackslash_bodyKey : NoBackslash (marshalText "DecodedBody".toList ++ [':']) :=
  no_backslash rfl

section Fields

variable [Libraries]

theorem cleanField_extra {key : String} (plain : NoBackslash (marshalText key.toList))
    (extra : Option (List (UInt32 × ℕ))) : CleanField (key, extraJson extra) := by
  cases extra with
  | none => exact cleanField plain trivial (no_backslash rfl)
  | some entries =>
      have clean : ∀ field ∈ entries.map fun entry : UInt32 × ℕ =>
          (toString entry.1.toNat, Json.string (Libraries.varUIntegerText entry.2)),
          CleanField field := by
        intro field member
        obtain ⟨entry, _, rfl⟩ := List.mem_map.mp member
        refine ⟨noBackslash_marshalText_digits _, trivial, noBackslash_marshalText fun c among => ?_⟩
        exact .inl (Libraries.varUIntegerText_alphanum entry.2 c among)
      obtain ⟨encodable, clean⟩ := object_of_clean clean
      exact cleanField plain encodable clean

theorem cleanField_hex {key : String} (plain : NoBackslash (marshalText key.toList))
    (bits : Bits256) : CleanField (key, .string (Libraries.hex bits)) :=
  cleanField plain trivial
    (noBackslash_marshalText fun c member => .inl (Libraries.hex_alphanum bits c member))

end Fields

section Text

variable [Libraries] {Body : Type} {m : LoadedMessage Body} {body : Encoded}
  (plainRaw : ∀ account, NoBackslash (marshalText (Libraries.toRaw account).toList))

include plainRaw

theorem cleanField_account {key : String} (plain : NoBackslash (marshalText key.toList))
    (account : Option AccountID) : CleanField (key, accountJson account) := by
  cases account with
  | none => exact cleanField plain trivial (no_backslash rfl)
  | some account => exact cleanField plain trivial (plainRaw account)

/-- The fields in front of the body are written without a backslash. -/
theorem LoadedMessage.head_clean : ∀ entry ∈ m.head, CleanField entry := by
  intro entry member
  simp only [LoadedMessage.head, List.mem_cons, List.not_mem_nil, or_false] at member
  rcases member with rfl | rfl | rfl | rfl | rfl | rfl | rfl | rfl | rfl
  · exact cleanField (no_backslash rfl) trivial m.type.plain
  · exact cleanField_account plainRaw (no_backslash rfl) m.source
  · exact cleanField_account plainRaw (no_backslash rfl) m.destination
  · exact cleanField_number (no_backslash rfl) m.value.toNat
  · exact cleanField_extra (no_backslash rfl) m.extraCurrencies
  · exact cleanField_number (no_backslash rfl) m.lt.toNat
  · exact cleanField_hex (no_backslash rfl) m.hash
  · exact cleanField_hex (no_backslash rfl) m.bodyHash
  · exact cleanField (no_backslash rfl) trivial m.decodedOperation.plain

/-- The text of a message denotes its JSON form. -/
theorem LoadedMessage.denotes_text : Denotes false (m.text body) (m.json body.value) := by
  have clean := m.head_clean plainRaw
  have value := body.reads ('\x7d' :: []) (ends_cons (by decide))
  have last : Reads false (.fields [("DecodedBody", body.value)]) (bodyText body.text) [] := by
    rw [bodyText, marshalText_append]
    exact .lastField .nil (chars_marshalText _ _) .nil .nil value .nil
  exact ⟨_, [], .nil, .object (reads_headText clean last), .nil⟩

theorem LoadedMessage.clash_text : Clash false (m.text body) ↔ Clash false body.text := by
  have clean := m.head_clean plainRaw
  rw [LoadedMessage.text, clash_cons (by decide), clash_append (noBackslash_headText clean),
    bodyText_eq, clash_append noBackslash_bodyKey, clash_concat (by decide)]

theorem LoadedMessage.dropNul_text :
    dropNul (m.text body) = '\x7b' :: (headText m.head ++ ((marshalText "DecodedBody".toList ++
      [':']) ++ dropNul (body.text ++ ['\x7d']))) := by
  have clean := m.head_clean plainRaw
  rw [LoadedMessage.text, dropNul_cons (by decide), dropNul_append (noBackslash_headText clean),
    bodyText_eq, dropNul_append noBackslash_bodyKey]

/-- The JSON form of a message without U+0000. -/
theorem LoadedMessage.strip_json (value : Json) : (m.json value).strip = m.json value.strip := by
  have clean := m.head_clean plainRaw
  have key : stripString "DecodedBody" = "DecodedBody" := by decide
  rw [LoadedMessage.json, Json.strip, stripFields_append, stripFields_of_clean clean, stripFields,
    stripFields, key, LoadedMessage.json]

end Text

/-! ## Decoding what was written -/

/-- A hash is read back. -/
theorem decodeBits256_hex [Libraries] (bits : Bits256) :
    decodeBits256 (.string (Libraries.hex bits)) = .ok bits := by
  rw [decodeBits256, Libraries.parse_hex]
  rfl

theorem decodeUint64_toString (there : ℕ) (n : UInt64) :
    decodeUint64 there (.number (toString n.toNat)) = .ok n.toNat := by
  rw [decodeUint64, parseDigits_toString]
  exact if_pos n.toNat_lt

theorem mapM_decodeEntry [Libraries] (entries : List (UInt32 × ℕ)) :
    (entries.map fun entry : UInt32 × ℕ =>
      (toString entry.1.toNat, Json.string (Libraries.varUIntegerText entry.2))).mapM decodeEntry =
        .ok entries := by
  induction entries with
  | nil => rfl
  | cons entry rest ih =>
      have first : decodeEntry
          (toString entry.1.toNat, Json.string (Libraries.varUIntegerText entry.2)) = .ok entry := by
        rw [decodeEntry, parseDigits_toString, Libraries.parse_varUIntegerText]
        simp only [UInt32.toNat_lt, if_pos, UInt32.ofNat_toNat]
      rw [List.map_cons, List.mapM_cons, first, ih]
      rfl

theorem decodeExtra_json [Libraries] (extra : Option (List (UInt32 × ℕ))) :
    decodeExtra [] (extraJson extra) = .ok (extra.getD []) := by
  cases extra with
  | none => rfl
  | some entries =>
      rw [extraJson, decodeExtra, mapM_decodeEntry]
      rfl

/-- Each name of a field is found as that field. -/
theorem fieldOf_name : ∀ named ∈ messageFields, fieldOf named.1 = some named.2 := by
  decide +kernel

theorem sizeFields_append (fields fields' : List (String × Json)) :
    sizeFields (fields ++ fields') = sizeFields fields + sizeFields fields' := by
  induction fields with
  | nil => rw [List.nil_append, sizeFields, Nat.zero_add]
  | cons entry rest ih =>
      rw [List.cons_append, sizeFields, sizeFields, ih]
      omega

section ReadBack

variable [Libraries] {Body : Type} {m : LoadedMessage Body}

theorem decodeAccount_json (account : Option AccountID) :
    decodeAccount (accountJson account) = .ok account := by
  cases account with
  | none => rfl
  | some account =>
      rw [accountJson, decodeAccount, Libraries.parse_toRaw]
      rfl

theorem Message.setKey_name (message : Message) {name : String} {field : MessageField}
    (value : Json) (member : (name, field) ∈ messageFields) :
    message.setKey (name, value) = message.setField value field := by
  rw [Message.setKey, fieldOf_name _ member]

/-- The key of the body sets the body. -/
theorem Message.setKey_decodedBody (message : Message) (body : Json) :
    message.setKey ("DecodedBody", body) = .ok { message with decodedBody := body } := by
  have member : ("DecodedBody", MessageField.decodedBody) ∈ messageFields := by
    simp [messageFields]
  exact message.setKey_name body member

/-- The fields in front of the body are read back. -/
theorem foldlM_head : m.head.foldlM Message.setKey Message.zero = .ok (m.decoded .null) := by
  have named := fun (message : Message) (name : String) (field : MessageField) (value : Json)
      (member : (name, field) ∈ messageFields) => message.setKey_name value member
  simp only [LoadedMessage.head, List.foldlM_cons, List.foldlM_nil,
    named _ "Type" .type _ (by simp [messageFields]),
    named _ "Source" .source _ (by simp [messageFields]),
    named _ "Destination" .destination _ (by simp [messageFields]),
    named _ "Value" .value _ (by simp [messageFields]),
    named _ "ExtraCurrencies" .extraCurrencies _ (by simp [messageFields]),
    named _ "Lt" .lt _ (by simp [messageFields]),
    named _ "Hash" .hash _ (by simp [messageFields]),
    named _ "BodyHash" .bodyHash _ (by simp [messageFields]),
    named _ "DecodedOperation" .decodedOperation _ (by simp [messageFields])]
  simp only [Message.setField, Message.zero, decodeString, decodeAccount_json,
    decodeUint64_toString, decodeExtra_json, decodeBits256_hex, Except.map, bind, Except.bind, pure,
    Except.pure, UInt64.ofNat_toNat]
  rfl

/-- **The JSON form of a message is read back.** -/
theorem decodeMessage_json (body : Json) : decodeMessage (m.json body) = .ok (m.decoded body) := by
  have last : (m.decoded .null).setKey ("DecodedBody", body) = .ok (m.decoded body) :=
    (m.decoded .null).setKey_decodedBody body
  rw [LoadedMessage.json, decodeMessage, List.foldlM_append, foldlM_head]
  simp only [bind, Except.bind, List.foldlM_cons, List.foldlM_nil, last, pure, Except.pure]

/-! ## Bodies that clash -/

/-- A key sets the body to its value, or leaves it. -/
theorem Message.setKey_body {message message' : Message} {entry : String × Json}
    (set : message.setKey entry = .ok message') :
    message'.decodedBody = message.decodedBody ∨ message'.decodedBody = entry.2 := by
  unfold Message.setKey at set
  split at set
  · cases set
    exact .inl rfl
  · rename_i field _
    have other : ∀ {α : Type} {result : Except Err α} {f : α → Message},
        result.map f = .ok message' → (∀ a, (f a).decodedBody = message.decodedBody) →
        message'.decodedBody = message.decodedBody := by
      intro α result f mapped same
      cases result with
      | error _ => cases mapped
      | ok a =>
          cases mapped
          exact same a
    cases field with
    | decodedBody =>
        cases set
        exact .inr rfl
    | _ => exact .inl (other set fun _ => rfl)

/-- The body that is decoded is no larger than the fields that are left, or it was there. -/
theorem size_body_le {fields : List (String × Json)} {message message' : Message}
    (decoded : fields.foldlM Message.setKey message = .ok message') :
    message'.decodedBody.size ≤ max message.decodedBody.size (sizeFields fields) := by
  induction fields generalizing message with
  | nil =>
      cases decoded
      exact Nat.le_max_left _ _
  | cons entry rest ih =>
      rw [List.foldlM_cons] at decoded
      cases set : message.setKey entry with
      | error _ =>
          rw [set] at decoded
          cases decoded
      | ok next =>
          rw [set] at decoded
          have le := ih decoded
          rw [sizeFields]
          rcases Message.setKey_body set with same | same <;> rw [same] at le <;> omega

theorem decodedBody_setKey {message message' : Message} {body : Json}
    (set : message.setKey ("DecodedBody", body) = .ok message') :
    message'.decodedBody = body := by
  rw [Message.setKey_decodedBody] at set
  cases set
  rfl

variable {body : Encoded} {encode : Body → Except String Encoded}
  (plainRaw : ∀ account, NoBackslash (marshalText (Libraries.toRaw account).toList))

include plainRaw

/-- What PostgreSQL takes the text of a message for has the fields of the message in
front of a body, whether the body clashes or not. -/
theorem LoadedMessage.fields_of_jsonb {x : Json} (jsonb : Jsonb (dropNul (m.text body)) x) :
    ∃ value later, x = .object (m.head ++ ("DecodedBody", value) :: later) := by
  have clean := m.head_clean plainRaw
  obtain ⟨s, rest, before, reads, _⟩ := jsonb.denotes
  rw [LoadedMessage.dropNul_text plainRaw] at before
  obtain rfl := Space.unique .nil before (starts_cons (by decide)) reads.value_starts
  rcases reads.value_object with ⟨_, close⟩ | ⟨fields, rfl, entries⟩
  · have quote : ∃ t, headText m.head ++ ((marshalText "DecodedBody".toList ++ [':']) ++
        dropNul (body.text ++ ['\x7d'])) = '"' :: t := ⟨_, rfl⟩
    obtain ⟨t, quote⟩ := quote
    rw [quote] at close
    have same := (Space.unique_cons .nil close (starts_cons (by decide))
      (starts_cons (by decide))).1
    exact absurd same (by decide)
  · obtain ⟨later, rfl, behind⟩ := fields_of_headText clean entries
    rw [List.append_assoc, List.singleton_append, marshalText_append] at behind
    have chars := chars_marshalText "DecodedBody".toList (':' :: dropNul (body.text ++ ['\x7d']))
    cases behind with
    | lastField before chars' colon _ _ _ =>
        obtain ⟨rfl, _⟩ := colon_unique .nil chars .nil before chars' colon
        exact ⟨_, [], rfl⟩
    | field before chars' colon _ _ _ _ =>
        obtain ⟨rfl, _⟩ := colon_unique .nil chars .nil before chars' colon
        exact ⟨_, _, rfl⟩

/-- **An encoded message is read back exactly if its body does not clash.** A body that
clashes leaves fewer units than its value has, so that whatever is decoded in its place
is another value. -/
theorem LoadedMessage.decodeMessage_iff {x : Json} (jsonb : Jsonb (dropNul (m.text body)) x) :
    decodeMessage x = .ok (m.decoded body.value.strip) ↔ ¬ Clash false body.text := by
  have denotes : Denotes false (m.text body) (m.json body.value) := m.denotes_text plainRaw
  rw [← LoadedMessage.clash_text plainRaw (m := m)]
  constructor
  · intro decoded clash
    have fewer := denotes.size_lt_of_clash clash jsonb.denotes
    obtain ⟨value, later, rfl⟩ := LoadedMessage.fields_of_jsonb plainRaw jsonb
    rw [decodeMessage, List.foldlM_append, foldlM_head] at decoded
    change List.foldlM _ _ _ = _ at decoded
    rw [List.foldlM_cons] at decoded
    cases set : (m.decoded .null).setKey ("DecodedBody", value) with
    | error _ =>
        rw [set] at decoded
        cases decoded
    | ok next =>
        rw [set] at decoded
        have le := size_body_le decoded
        rw [decodedBody_setKey set] at le
        change body.value.strip.size ≤ _ at le
        rw [LoadedMessage.strip_json plainRaw, LoadedMessage.json, Json.size, Json.size,
          sizeFields_append, sizeFields_append, sizeFields, sizeFields, sizeFields] at fewer
        omega
  · intro clear
    have stripped := (denotes.dropNul clear).spaced
    rw [LoadedMessage.strip_json plainRaw] at stripped
    rw [jsonb.denotes.unique stripped, decodeMessage_json]

/-- A column is read back exactly if its message can be stored. -/
theorem decodeColumn_iff {value : Option Json} (holds : Holds encode m value) :
    decodeColumn value = .ok (m.stored encode) ↔ m.Storable encode := by
  unfold Holds LoadedMessage.column at holds
  unfold LoadedMessage.stored LoadedMessage.Storable
  cases encoded : encode m.decodedBody with
  | error message =>
      rw [encoded] at holds
      obtain rfl : value = none := holds
      refine iff_of_false (fun decoded => by cases decoded) ?_
      rintro ⟨body, found, _⟩
      cases found
  | ok body =>
      rw [encoded] at holds
      obtain ⟨x, rfl, jsonb⟩ := holds
      refine (LoadedMessage.decodeMessage_iff plainRaw jsonb).trans ⟨fun clear => ⟨body, rfl, clear⟩, ?_⟩
      rintro ⟨body', found, clear⟩
      cases found
      exact clear

/-- PostgreSQL takes a message that can be stored. -/
theorem LoadedMessage.Storable.holds (storable : m.Storable encode) :
    ∃ x, Holds encode m (some x) := by
  obtain ⟨body, encoded, clear⟩ := storable
  have denotes : Denotes false (m.text body) (m.json body.value) := m.denotes_text plainRaw
  have taken : Jsonb (dropNul (m.text body)) (m.json body.value).strip := by
    rw [jsonb_dropNul_iff denotes, LoadedMessage.clash_text plainRaw]
    exact clear
  refine ⟨(m.json body.value).strip, ?_⟩
  unfold Holds LoadedMessage.column
  rw [encoded]
  exact ⟨_, rfl, taken⟩

/-- Columns are read back exactly if all their messages can be stored. -/
theorem mapM_decodeColumn_iff {messages : List (LoadedMessage Body)} {values : List (Option Json)}
    (hold : List.Forall₂ (Holds encode) messages values) :
    values.mapM decodeColumn = .ok (messages.map (LoadedMessage.stored encode)) ↔
      ∀ message ∈ messages, message.Storable encode := by
  induction hold with
  | nil => exact iff_of_true rfl (fun message member => by cases member)
  | @cons message value messages values holds _ ih =>
      rw [List.forall_mem_cons, ← ih, ← decodeColumn_iff plainRaw holds, List.mapM_cons, List.map_cons]
      cases decodeColumn value with
      | error _ => exact iff_of_false (fun decoded => by cases decoded) (fun both => by cases both.1)
      | ok first =>
          cases values.mapM decodeColumn with
          | error _ => exact iff_of_false (fun decoded => by cases decoded) (fun both => by cases both.2)
          | ok later =>
              simp only [bind, Except.bind, pure, Except.pure, Except.ok.injEq, List.cons.injEq]

/-- A row is read back exactly if all messages of its transaction can be stored. -/
theorem LoadedTransaction.Inserts.transaction_iff {account : AccountID}
    {tx : LoadedTransaction Body} {row : JsonbRow} (inserts : tx.Inserts encode account row) :
    row.transaction = .ok (tx.stored encode) ↔ ∀ m ∈ tx.messages, m.Storable encode := by
  rw [LoadedTransaction.messages, List.forall_mem_cons, ← decodeColumn_iff plainRaw inserts.inMessage,
    ← mapM_decodeColumn_iff plainRaw inserts.outMessages, JsonbRow.transaction]
  cases decodeColumn row.inMessage with
  | error _ => exact iff_of_false (fun decoded => by cases decoded) (fun both => by cases both.1)
  | ok inMessage =>
      cases row.outMessages.mapM decodeColumn with
      | error _ => exact iff_of_false (fun decoded => by cases decoded) (fun both => by cases both.2)
      | ok outMessages =>
          simp only [bind, Except.bind, pure, Except.pure, Except.ok.injEq,
            LoadedTransaction.stored, inserts.hash, inserts.lt, inserts.prevTxHash,
            inserts.prevTxLt, inserts.utime, inserts.success, Transaction.mk.injEq, true_and]

/-! ## A batch -/

omit plainRaw in
/-- Every row that is inserted is the row of a transaction of the batch. -/
theorem Saves.inserts_of_mem {account : AccountID} {txs : List (LoadedTransaction Body)}
    {inserted : List (LoadedTransaction Body × JsonbRow)} (saves : Saves encode account txs inserted)
    {pair : LoadedTransaction Body × JsonbRow} (member : pair ∈ inserted) :
    pair.1 ∈ txs ∧ pair.1.Inserts encode account pair.2 := by
  induction saves with
  | done => cases member
  | failed => cases member
  | conflict _ ih => exact ⟨List.mem_cons_of_mem _ (ih member).1, (ih member).2⟩
  | insert inserts _ ih =>
      rcases List.mem_cons.mp member with rfl | member
      · exact ⟨List.mem_cons_self, inserts⟩
      · exact ⟨List.mem_cons_of_mem _ (ih member).1, (ih member).2⟩

omit plainRaw in
/-- The transactions before one may be stored already. -/
theorem saves_of_inserts {account : AccountID} {txs : List (LoadedTransaction Body)}
    {tx : LoadedTransaction Body} {row : JsonbRow} (member : tx ∈ txs)
    (inserts : tx.Inserts encode account row) : Saves encode account txs [(tx, row)] := by
  induction txs with
  | nil => cases member
  | cons first rest ih =>
      rcases List.mem_cons.mp member with rfl | member
      · exact .insert inserts .failed
      · exact .conflict (ih member)

variable (encode) in
/-- **Every transaction that a call of `SaveTransactions` inserts is read back as it was
saved, exactly if every message of each transaction of the batch that PostgreSQL takes
can be stored.** -/
theorem readBack_iff (account : AccountID) (txs : List (LoadedTransaction Body)) :
    (∀ inserted, Saves encode account txs inserted → ∀ pair ∈ inserted,
      pair.2.transaction = .ok (pair.1.stored encode)) ↔
      ∀ tx ∈ txs, (∃ row, tx.Inserts encode account row) →
        ∀ m ∈ tx.messages, m.Storable encode := by
  constructor
  · rintro readBack tx member ⟨row, inserts⟩
    have decoded := readBack _ (saves_of_inserts member inserts) _ List.mem_cons_self
    exact (inserts.transaction_iff plainRaw).mp decoded
  · intro storable inserted saves pair member
    obtain ⟨batch, inserts⟩ := saves.inserts_of_mem member
    exact (inserts.transaction_iff plainRaw).mpr (storable pair.1 batch ⟨pair.2, inserts⟩)

/-! ## The rows of the model -/

/-- The row with its columns decoded, as the other modules have it. -/
def JsonbRow.decoded (row : JsonbRow) : TransactionRow where
  hash := row.hash
  lt := row.lt
  accountID := row.accountID
  prevTxHash := row.prevTxHash
  prevTxLt := row.prevTxLt
  utime := row.utime
  inMessage := (decodeColumn row.inMessage).toOption
  outMessages := row.outMessages.map fun column => (decodeColumn column).toOption
  success := row.success
  processingError := none

omit plainRaw in
theorem mapM_toOption (columns : List (Option Json)) :
    (columns.map fun column => (decodeColumn column).toOption).mapM id =
      (columns.mapM decodeColumn).toOption := by
  induction columns with
  | nil => rfl
  | cons column rest ih =>
      rw [List.map_cons, List.mapM_cons, List.mapM_cons, ih]
      cases decodeColumn column with
      | error _ => rfl
      | ok _ => cases rest.mapM decodeColumn <;> rfl

omit plainRaw in
/-- Reading the decoded row and reading the columns agree, up to the text of an error. -/
theorem JsonbRow.transaction_decoded (row : JsonbRow) :
    row.decoded.transaction.toOption = row.transaction.toOption := by
  unfold TransactionRow.transaction JsonbRow.transaction JsonbRow.decoded
  rw [mapM_toOption]
  cases decodeColumn row.inMessage with
  | error _ => rfl
  | ok _ => cases row.outMessages.mapM decodeColumn <;> rfl

/-- A transaction whose messages can be stored makes the row that the other modules insert. -/
theorem LoadedTransaction.Inserts.decoded_eq {account : AccountID} {tx : LoadedTransaction Body}
    {row : JsonbRow} (inserts : tx.Inserts encode account row)
    (storable : ∀ m ∈ tx.messages, m.Storable encode) :
    row.decoded = (tx.stored encode).row account := by
  rw [LoadedTransaction.messages, List.forall_mem_cons] at storable
  have inMessage := (decodeColumn_iff plainRaw inserts.inMessage).mpr storable.1
  have outMessages : (row.outMessages.map fun column => (decodeColumn column).toOption) =
      (tx.outMessages.map (LoadedMessage.stored encode)).map some := by
    have each := storable.2
    have hold := inserts.outMessages
    revert each hold
    generalize tx.outMessages = messages
    generalize row.outMessages = columns
    intro each hold
    induction hold with
    | nil => rfl
    | @cons message column _ _ holds _ ih =>
        rw [List.forall_mem_cons] at each
        rw [List.map_cons, ih each.2, (decodeColumn_iff plainRaw holds).mpr each.1]
        rfl
  unfold JsonbRow.decoded Transaction.row LoadedTransaction.stored
  rw [inMessage, outMessages, inserts.hash, inserts.lt, inserts.accountID, inserts.prevTxHash,
    inserts.prevTxLt, inserts.utime, inserts.success]
  rfl

omit plainRaw in
/-- **An unreadable row stops the indexer of its account.** As long as the query for the
transaction behind `lastIndexed` finds the row, every round asks it again and does
nothing else. -/
theorem indexerRun_stuck {σ : Type} {answer : (op : Stmt) → σ → Option (Except Err op.Val × σ)}
    {account : Account} {lastIndexed : ℕ} {row : TransactionRow} {error : Err} {P : σ → Prop}
    (unreadable : row.transaction = .error error)
    (found : ∀ s, P s → ∃ s', answer (.selectTransactionByParent account.accountID lastIndexed) s =
      some (.ok row, s') ∧ P s') (rounds : ℕ) {s : σ} (holds : P s) :
    ∃ s', (indexerRun account rounds lastIndexed).eval answer s = some (.ok (), s') ∧ P s' := by
  induction rounds generalizing s with
  | zero => exact ⟨s, rfl, holds⟩
  | succ rounds ih =>
      obtain ⟨s₁, answered, holds₁⟩ := found s holds
      obtain ⟨s', ended, holds'⟩ := ih holds₁
      refine ⟨s', ?_, holds'⟩
      simp only [indexerRun, indexerRound, getTransactionByParentLt, queryRow, Prog.bind_eq,
        Prog.bind_call, Prog.attempt_call, Prog.eval, answered]
      change Prog.eval answer (((Prog.ret row.transaction).attempt.bind _).bind _) s₁ = _
      rw [unreadable]
      exact ended

end ReadBack

/-! ## A message that cannot be encoded -/

section Unencodable

attribute [local instance] Texts.libraries

/-- The raw form of an account is written as it is. -/
theorem Texts.plainRaw (account : AccountID) :
    NoBackslash (marshalText (Libraries.toRaw account).toList) := by
  have digits : ∀ n : ℕ, ∀ c ∈ (toString n).toList, c.isAlphanum = true ∨ c = ':' ∨ c = '-' :=
    fun _ _ member => .inl (isDigit_alphanum (isDigit_of_mem_toString member))
  refine noBackslash_marshalText fun c member => ?_
  change c ∈ (toString account.workchain ++ ":" ++
    String.ofList (Texts.hexDigits 64 account.address.toNat)).toList at member
  rw [String.toList_append, String.toList_append,
    String.toList_ofList (l := Texts.hexDigits _ _), List.append_assoc, List.mem_append,
    List.mem_append] at member
  rcases member with member | member | member
  · cases sign : account.workchain with
    | ofNat n =>
        rw [sign] at member
        exact digits n c member
    | negSucc n =>
        rw [sign, Texts.toList_toString_negSucc, List.mem_cons] at member
        rcases member with rfl | member
        · exact .inr (.inr rfl)
        · exact digits _ c member
  · exact .inr (.inl (List.mem_singleton.mp member))
  · exact .inl (Texts.hexDigits_alphanum member)

/-- An internal message with a body of its own. -/
def internalMessage {Body : Type} (body : Body) : LoadedMessage Body where
  type := ⟨"Int", plain_int⟩
  source := none
  destination := none
  value := 5
  extraCurrencies := some []
  lt := 41
  hash := 1
  bodyHash := 2
  decodedOperation := ⟨"TextComment", plain_textComment_op⟩
  decodedBody := body

/-- A transaction of one message. -/
def oneMessage {Body : Type} (body : Body) : LoadedTransaction Body where
  lt := 42
  hash := 3
  prevTxLt := 40
  prevTxHash := 4
  utime := 0
  success := true
  inMessage := internalMessage body
  outMessages := []

/-- The row of that transaction, with a value in the column of the message. -/
def oneMessageRow (column : Option Json) : JsonbRow where
  hash := 3
  lt := 42
  accountID := ⟨0, 5⟩
  prevTxHash := 4
  prevTxLt := 40
  utime := 0
  inMessage := column
  outMessages := []
  success := true

/-- Bodies that are text comments are encoded, others are not. -/
def encodeComment : Option String → Except String Encoded
  | none => .error "json: unsupported type"
  | some text => .ok ⟨(textComment text).marshal, textComment text,
      (textComment text).reads_marshal (textComment_encodable text)⟩

/-- The message with a comment can be stored. -/
theorem storable_thanks : (internalMessage (some "thanks")).Storable encodeComment := by
  refine ⟨_, rfl, ?_⟩
  have clash := (textComment "thanks").clash_marshal (textComment_encodable _) []
  rw [List.append_nil] at clash
  rw [clash, textComment_mentions]
  rintro (mentions | clash)
  · unfold MentionsNul at mentions
    exact absurd mentions (by decide +kernel)
  · cases clash

/-- A transaction with a comment is inserted and read back. -/
theorem comment_read_back :
    ∃ row, Saves encodeComment ⟨0, 5⟩ [oneMessage (some "thanks")] [(oneMessage (some "thanks"), row)] ∧
      row.transaction = .ok ((oneMessage (some "thanks")).stored encodeComment) := by
  obtain ⟨x, holds⟩ := storable_thanks.holds Texts.plainRaw
  have saves : Saves encodeComment ⟨0, 5⟩ [oneMessage (some "thanks")]
      [(oneMessage (some "thanks"), oneMessageRow (some x))] :=
    .insert ⟨rfl, rfl, rfl, rfl, rfl, rfl, holds, .nil, rfl⟩ .done
  refine ⟨_, saves, ?_⟩
  have readBack := (readBack_iff encodeComment Texts.plainRaw ⟨0, 5⟩ [oneMessage (some "thanks")]).mpr
    fun tx member _ m message => by
      obtain rfl := List.mem_singleton.mp member
      obtain rfl := List.mem_singleton.mp message
      exact storable_thanks
  exact readBack _ saves _ List.mem_cons_self

/-- **A message that cannot be encoded is stored as nothing, without an error, and its
transaction cannot be read back.** -/
theorem unencodable_inserted :
    Saves encodeComment ⟨0, 5⟩ [oneMessage none] [(oneMessage none, oneMessageRow none)] ∧
      (oneMessageRow none).transaction = .error (.invalid "EOF") ∧
      ¬ ∀ inserted, Saves encodeComment ⟨0, 5⟩ [oneMessage none] inserted →
        ∀ pair ∈ inserted, pair.2.transaction = .ok (pair.1.stored encodeComment) := by
  have saves : Saves encodeComment ⟨0, 5⟩ [oneMessage none] [(oneMessage none, oneMessageRow none)] :=
    .insert ⟨rfl, rfl, rfl, rfl, rfl, rfl, rfl, .nil, rfl⟩ .done
  refine ⟨saves, rfl, fun readBack => ?_⟩
  cases readBack _ saves _ List.mem_cons_self

end Unencodable

end SpiceHarvester
