import SpiceHarvester.Api.Custody
import SpiceHarvester.Db.Secrets

/-!
# The public endpoints do not tell the private data of invoices

Nobody who calls the public endpoints can tell two databases apart that differ in the
`private_info` and the `metadata` of invoices only, with one exception: who has paid an
invoice may ask for its metadata, and gets them encrypted under the own key.

The programs of the process are twins for somebody who does not see the private data
(`Task.run_given`), so that every run of the process over one database has a twin over the
other, in which the same goroutines do the same and the same requests get the same
responses. What the exception gives out was told to the handler by the database: it is the
metadata of an invoice that is stored as paid, for the accepted key of who has paid it
(`responses_hide`).
-/

set_option autoImplicit false

namespace SpiceHarvester

open Interleaving Interleaving.Likeness

/-! ## Invoices that look alike -/

/-- Two invoices, or two lists of them, that look alike. -/
abbrev Invoice.Alike (invoice invoice' : Invoice) : Prop := invoice.hide = invoice'.hide

/-- Statements without private data in their arguments or answers. -/
def Stmt.plain : Stmt → Bool
  | .insertInvoice _ | .insertNotification _ | .selectInvoice _ | .send .. | .skip _
  | .selectForPayment .. => false
  | _ => true

section Secrecy

variable [Libraries] {τ : Type}

theorem Stmt.eq_of_plain {op : Stmt} {answer answer' : Except Err op.Val} (plain : op.plain = true)
    (alike : (withoutSecrets (τ := τ)).answers ⟨op, answer⟩ ⟨op, answer'⟩) : answer = answer' := by
  change hideCalled ⟨op, answer⟩ = hideCalled ⟨op, answer'⟩ at alike
  have same : ∀ answer : Except Err op.Val, hideCalled ⟨op, answer⟩ = ⟨op, answer⟩ := by
    intro answer
    cases op <;> first | rfl | cases plain
  rw [same, same] at alike
  cases alike
  rfl

/-! ## The programs are twins -/

/-- The programs call alike statements and end with values that match, or with the same error. -/
abbrev Twins (τ : Type) {α : Type} (R : α → α → Prop) (program program' : Action α) : Prop :=
  (withoutSecrets : Likeness Stmt Stmt.Val Err (World τ)).Twin (Matching R) program program'

namespace Twins

variable {α β : Type} {R : α → α → Prop}

theorem ret {value value' : α} (same : R value value') :
    Twins τ R (.ret (.ok value)) (.ret (.ok value')) := Twin.ret same

theorem fail (error : Err) : Twins τ R (.ret (.error error)) (.ret (.error error)) :=
  Twin.ret rfl

theorem bind {P : β → β → Prop} {program program' : Action α} {rest rest' : α → Action β}
    (twins : Twins τ R program program')
    (value : ∀ value value', R value value' → Twins τ P (rest value) (rest' value')) :
    Twins τ P (program >>= rest) (program' >>= rest') :=
  Twin.bind twins (fun _ => rfl) value

/-- What follows an attempt gets the same error, or values that match. -/
theorem attempt_bind {P : β → β → Prop} {program program' : Action α}
    {rest rest' : Except Err α → Action β} (twins : Twins τ R program program')
    (error : ∀ error, Twins τ P (rest (.error error)) (rest' (.error error)))
    (value : ∀ value value', R value value' → Twins τ P (rest (.ok value)) (rest' (.ok value'))) :
    Twins τ P (program.attempt >>= rest) (program'.attempt >>= rest') :=
  Twin.attempt_cases twins error value

/-- A program of statements without private data. -/
theorem of_plain {program : Action α} (calls : program.Calls fun op => op.plain = true) :
    Twins τ Eq program program :=
  Twin.refl_of_calls calls (fun _ => rfl) Stmt.eq_of_plain (Matching.refl fun _ => rfl)

/-- A statement without private data, and what follows it. -/
theorem after {P : β → β → Prop} (op : Stmt) (plain : op.plain = true)
    {rest rest' : op.Val → Action β}
    (value : ∀ value, Twins τ P (rest value) (rest' value)) :
    Twins τ P (perform op >>= rest) (perform op >>= rest') :=
  bind (of_plain (.query plain)) fun found _ same => same ▸ value found

/-- A statement that stores a row. -/
theorem stores {op op' : Stmt} {next : Except Err op.Val → Action α}
    {next' : Except Err op'.Val → Action α}
    (alike : op.hide = op'.hide)
    (later : ∀ answer answer', Stmt.hideCalled ⟨op, answer⟩ = Stmt.hideCalled ⟨op', answer'⟩ →
      Twins τ R (next answer) (next' answer')) : Twins τ R (.call op next) (.call op' next') :=
  .call alike later

/-- One program after the other, for items that match. -/
theorem forM {items items' : List β} {P : β → β → Prop} {body : β → Action PUnit}
    (matching : List.Forall₂ P items items')
    (each : ∀ item item', P item item' → Twins τ (fun _ _ => True) (body item) (body item')) :
    Twins τ (fun _ _ => True) (items.forM body) (items'.forM body) :=
  Twin.forM matching each

theorem weaken {P : α → α → Prop} {program program' : Action α} (twins : Twins τ R program program')
    (weaker : ∀ {value value'}, R value value' → P value value') : Twins τ P program program' := by
  refine Likeness.Twin.weaken twins fun {result result'} same => ?_
  cases result <;> cases result' <;> first | exact weaker same | exact same

end Twins

/-! ### Invoices -/

/-- A program of statements without private data. -/
abbrev Plain {α : Type} (program : Action α) : Prop := program.Calls fun op => op.plain = true

variable [Cryptography]

/-- The answer of `getEncryptedData`, for the key of the payer and the metadata. -/
def sealed (ourEncryptionKey key : List UInt8) (metadata : RawMap) : Outcome :=
  match encryptData key (marshalRawMap metadata) ourEncryptionKey with
  | .error _ => internalServerError
  | .ok encrypted => .wrote ⟨200, [("Content-Type", "application/octet-stream")], .bytes encrypted⟩

/-- What `getEncryptedData` has been told by `G` when it gives out metadata: the row of an
invoice that is paid, and the key of the account that has paid it. -/
structure Purchase (handler : Handler) (G : Called Stmt Stmt.Val Err → Prop) (pathID : String)
    (ourEncryptionKey : List UInt8) (account : AccountID) (key : List UInt8) (row : InvoiceRow) :
    Prop where
  configured : handler.ourEncryptionKey = some ourEncryptionKey
  read : ∃ id, parseInvoiceID pathID = .ok id ∧ G ⟨.selectInvoice id, .ok row⟩
  paid : row.status = .paid
  payer : row.paidBy = some account
  keyed : G ⟨.selectKey account, .ok key⟩

/-- The outcomes are the same, or the metadata of both invoices encrypted under one key. -/
def Outcome.Alike (handler : Handler) (G G' : Called Stmt Stmt.Val Err → Prop)
    (request : PublicRequest) (outcome outcome' : Outcome) : Prop :=
  outcome = outcome' ∨ ∃ pathID ourEncryptionKey account key row row',
    request = .getEncryptedData pathID ∧ row.hide = row'.hide ∧
      Purchase handler G pathID ourEncryptionKey account key row ∧
      Purchase handler G' pathID ourEncryptionKey account key row' ∧
      outcome = sealed ourEncryptionKey key row.metadata ∧
      outcome' = sealed ourEncryptionKey key row'.metadata

section Given

variable {G G' : Called Stmt Stmt.Val Err → Prop}

/-- What two tasks end with. -/
def Served.Alike (handler : Handler) (G G' : Called Stmt Stmt.Val Err → Prop) :
    Served → Served → Prop
  | .done invoice, .done invoice' => invoice.map Invoice.hide = invoice'.map Invoice.hide
  | .responded request response, .responded request' response' => request = request' ∧
      ∃ outcome outcome', response = recoverMiddleware outcome ∧
        response' = recoverMiddleware outcome' ∧ outcome.Alike handler G G' request outcome'
  | .deleted, .deleted => True
  | _, _ => False

end Given

/-- How the results of two tasks match. -/
abbrev Served.Accounts (handler : Handler) : Likeness.Accounts Stmt Stmt.Val Err Served :=
  fun G G' => Matching (Served.Alike handler G G')

variable [DecidableEq τ] [Fintype τ]

variable {handler : Handler} {db db' : Database} {c c' : Process τ}

/-- Two runs of the process that look alike without the private data: their states do, and the
same goroutines run twins. -/
abbrev Process.Alike (handler : Handler) (db db' : Database) (c c' : Process τ) : Prop :=
  Config.Alike withoutSecrets (Served.Accounts handler)
    ((serving handler).Answered (.idle (.idle db)) c)
    ((serving handler).Answered (.idle (.idle db')) c') c c'

/-- An invoice that has been read was stored. -/
theorem invoice_read {id : InvoiceID} {row : InvoiceRow}
    (told : (serving handler).Answered (.idle (.idle db)) c ⟨.selectInvoice id, .ok row⟩) :
    ∃ before : Process τ, Serves handler db before ∧ (serving handler).Reachable before c ∧
      before.state.db.invoices.find id = some row := by
  obtain ⟨t, before, after, first, turn, ⟨fault, choice, runs⟩, rest⟩ := told
  refine ⟨before, first, .head turn rest, ?_⟩
  have ran := congrArg Prod.fst (Option.some.inj (Stmt.run_of_ok runs))
  change orNoRows (before.state.db.invoices.find id) = .ok row at ran
  cases stored : before.state.db.invoices.find id with
  | none =>
      rw [stored] at ran
      cases ran
  | some found =>
      rw [stored] at ran
      cases ran
      rfl

/-- A key that has been read was that of an accepted row. -/
theorem key_read {account : AccountID} {key : List UInt8}
    (told : (serving handler).Answered (.idle (.idle db)) c ⟨.selectKey account, .ok key⟩) :
    ∃ (before : Process τ) (row : KeyRow), Serves handler db before ∧
      (serving handler).Reachable before c ∧
      before.state.db.keys.find account = some row ∧ row.accepted = true ∧
      row.encryptionKey = key := by
  obtain ⟨t, before, after, first, turn, ⟨fault, choice, runs⟩, rest⟩ := told
  have ran := congrArg Prod.fst (Option.some.inj (Stmt.run_of_ok runs))
  change orNoRows (((before.state.db.keys.find account).filter KeyRow.accepted).map
    KeyRow.encryptionKey) = .ok key at ran
  cases found : ((before.state.db.keys.find account).filter KeyRow.accepted) with
  | none =>
      rw [found] at ran
      cases ran
  | some row =>
      rw [found] at ran
      cases ran
      obtain ⟨stored, accepted⟩ := Option.filter_eq_some_iff.mp found
      exact ⟨before, row, first, .head turn rest, stored, accepted, rfl⟩

/-- What an account has bought in a run: the invoice was stored as paid by it. Its key is the
one that it has committed, which is accepted and still stored. -/
structure Purchased (handler : Handler) (db : Database) (c : Process τ) (id : InvoiceID)
    (account : AccountID) (key : List UInt8) (row : InvoiceRow) : Prop where
  stored : ∃ before : Process τ, Serves handler db before ∧ (serving handler).Reachable before c ∧
    before.state.db.invoices.find id = some row
  paid : row.status = .paid
  payer : row.paidBy = some account
  keyed : ∃ keyRow, c.state.db.keys.find account = some keyRow ∧ keyRow.accepted = true ∧
    keyRow.encryptionKey = key

/-- What `getEncryptedData` has been told has been bought. -/
theorem Purchase.purchased {pathID : String} {ourEncryptionKey key : List UInt8} {id : InvoiceID}
    {account : AccountID} {row : InvoiceRow}
    (purchase : Purchase handler ((serving handler).Answered (.idle (.idle db)) c) pathID
      ourEncryptionKey account key row) (parsed : parseInvoiceID pathID = .ok id) :
    Purchased handler db c id account key row := by
  obtain ⟨id', parsed', told⟩ := purchase.read
  obtain rfl : id = id' := Except.ok.inj (parsed.symm.trans parsed')
  obtain ⟨before, keyRow, run, later, stored, accepted, own⟩ := key_read purchase.keyed
  exact ⟨invoice_read told, purchase.paid, purchase.payer,
    keyRow, accepted_lasts run later stored accepted, accepted, own⟩

/-- How the answers to a request over two databases may differ: `getEncryptedData` gives out the
metadata that its own database has for an invoice which is paid, encrypted under the accepted
key of the payer. -/
def Disclosed (handler : Handler) (db db' : Database) (c c' : Process τ) (request : PublicRequest)
    (response response' : Response) : Prop :=
  ∃ pathID ourEncryptionKey id account key row row',
    request = .getEncryptedData pathID ∧ parseInvoiceID pathID = .ok id ∧
    handler.ourEncryptionKey = some ourEncryptionKey ∧
    Purchased handler db c id account key row ∧
    Purchased handler db' c' id account key row' ∧ row.hide = row'.hide ∧
    response = recoverMiddleware (sealed ourEncryptionKey key row.metadata) ∧
    response' = recoverMiddleware (sealed ourEncryptionKey key row'.metadata)

/-- What has been answered has been answered over the other database too. -/
theorem Process.Alike.answered (alike : Process.Alike handler db db' c c') {t : τ}
    {request : PublicRequest} {response : Response}
    (ended : c.pool t = some (.ret (.ok (.responded request response)))) :
    ∃ response', c'.pool t = some (.ret (.ok (.responded request response'))) ∧
      (response = response' ∨ Disclosed handler db db' c c' request response response') := by
  obtain ⟨result, ended', same⟩ := alike.ended ended
  cases result with
  | error error => exact same.elim
  | ok served =>
      cases served with
      | done invoice => exact same.elim
      | deleted => exact same.elim
      | responded request' response' =>
          obtain ⟨rfl, outcome, outcome', rfl, rfl, equal | seals⟩ := same
          · exact ⟨_, ended', .inl (congrArg recoverMiddleware equal)⟩
          · obtain ⟨pathID, ourEncryptionKey, account, key, row, row', rfl, hides, purchase,
              purchase', rfl, rfl⟩ := seals
            obtain ⟨id, parsed, _⟩ := purchase.read
            exact ⟨_, ended', .inr ⟨pathID, ourEncryptionKey, id, account, key, row, row', rfl,
              parsed, purchase.configured, purchase.purchased parsed, purchase'.purchased parsed,
              hides, rfl, rfl⟩⟩

end Secrecy

/-! ## The metadata of a paid invoice -/

namespace Shop

attribute [local instance] Texts.libraries Shop.cryptography

/-- The payer has paid for what the metadata says, under the key that it has certified. -/
def sold (metadata : RawMap) : Database :=
  { database with
    invoices := ⟨[{ invoice with
      id := 0x7 <<< 76, status := .paid, paidAt := some 1, paidBy := some payer
      metadata := metadata }], by simp⟩
    keys := ⟨[⟨payer, List.replicate 32 1, 0, true⟩], by simp⟩ }

/-- The request for the metadata of the invoice. -/
def ordered : PublicRequest := .getEncryptedData "00000000-0000-7000-0000-000000000000"

/-- What is answered to it. -/
def answered (metadata : RawMap) : Response :=
  recoverMiddleware (sealed [3] (List.replicate 32 1) metadata)

/-- The request is answered with the metadata. -/
theorem order_answered (metadata : RawMap) : ∃ c : Process Unit,
    Serves encrypting (sold metadata) c ∧
      c.pool () = some (.ret (.ok (.responded ordered (answered metadata)))) := by
  have runs : ((Task.request ordered).run encrypting).eval (Stmt.run (at' 0) ())
      (World.idle (sold metadata) : World Unit) =
      some (.ok (.responded ordered (answered metadata)), World.idle (sold metadata)) := rfl
  have answers : ∀ op (w : World Unit) answer w', Stmt.run (at' 0) () op w = some (answer, w') →
      (serving encrypting).exec () op w answer w' := fun _ _ _ _ answers => ⟨.none, at' 0, answers⟩
  obtain ⟨log, alone⟩ := Alone.of_eval answers runs
  have starts : (serving encrypting).Reachable (.idle (.idle (sold metadata)))
      ⟨World.idle (sold metadata), Function.update (fun _ => none) () (some _)⟩ :=
    .single (.spawn rfl ⟨.request ordered, rfl, rfl⟩)
  exact ⟨_, starts.trans (alone.reachable (Function.update_self ..)), rfl⟩

end Shop

end SpiceHarvester
