import SpiceHarvester.Api.Secrecy
import SpiceHarvester.Interleaving.Past

/-!
# Who learns the metadata of an invoice

`getEncryptedData` reads the invoice and then the key of the account that has paid it, in two
statements. Between and after them payments go on, keys are committed and deleted, and the
answer may reach the client long after both. Still what it gives out is the metadata of an
invoice that was paid, under a key that the account which paid it has certified, and that is
its key ever after (`metadata_goes_to_payer`).
-/

set_option autoImplicit false

namespace SpiceHarvester

open Interleaving Sql

section Disclosure

variable [Libraries] [Cryptography]

/-! ## What a request has read -/

section Reading

variable {E : Called Stmt Stmt.Val Err → Prop} {log : List (Called Stmt Stmt.Val Err)}

omit [Libraries] [Cryptography] in
/-- A query of one row that succeeds has been told the row. -/
theorem queryRow_told {op : Stmt} {value : op.Val}
    (runs : Alone (Told E) (queryRow op) () log (.ok value) ()) : E ⟨op, .ok value⟩ := by
  obtain ⟨answer, _, _, told, _, ended⟩ := Alone.call_cases runs
  obtain ⟨_, same, _⟩ := Alone.ret_cases ended
  cases answer with
  | ok found =>
      cases same
      exact told
  | error error => cases same

omit [Cryptography] in
theorem getInvoice_told {id : InvoiceID} {invoice : Invoice}
    (runs : Alone (Told E) (getInvoice id) () log (.ok invoice) ()) :
    ∃ row currency, E ⟨.selectInvoice id, .ok row⟩ ∧ invoice = row.invoice currency := by
  obtain ⟨_, _, impossible⟩ | ⟨row, _, _, _, reads, runs, _⟩ := Alone.bind_cases runs
  · cases impossible
  obtain ⟨_, _, impossible⟩ | ⟨currency, _, _, _, _, ends, _⟩ := Alone.bind_cases runs
  · cases impossible
  obtain ⟨_, same, _⟩ := Alone.ret_cases ends
  cases same
  exact ⟨row, currency, queryRow_told reads, rfl⟩

/-- **A response with status 200 gives out the metadata that has been read**, under the key
that has been read. -/
theorem getEncryptedData_told {handler : Handler} {pathID : String} {outcome : Outcome}
    (runs : Alone (Told E) (getEncryptedData handler pathID) () log (.ok outcome) ())
    (success : (recoverMiddleware outcome).status = 200) :
    ∃ ourEncryptionKey id row account key encrypted,
      handler.ourEncryptionKey = some ourEncryptionKey ∧ parseInvoiceID pathID = .ok id ∧
      E ⟨.selectInvoice id, .ok row⟩ ∧ row.status = .paid ∧ row.paidBy = some account ∧
      E ⟨.selectKey account, .ok key⟩ ∧
      encryptData key (marshalRawMap row.metadata) ourEncryptionKey = .ok encrypted ∧
      (recoverMiddleware outcome).body = .bytes encrypted := by
  have fails : ∀ {outcome' : Outcome} {log' : List (Called Stmt Stmt.Val Err)},
      Alone (Told E) (.ret (.ok outcome')) () log' (.ok outcome) () →
      (recoverMiddleware outcome').status ≠ 200 → False := by
    intro outcome' log' ends other
    obtain ⟨_, same, _⟩ := Alone.ret_cases ends
    cases same
    exact other success
  unfold getEncryptedData at runs
  split at runs
  · exact (fails runs (by decide)).elim
  rename_i ourEncryptionKey configured
  split at runs
  · exact (fails runs (by decide)).elim
  rename_i id parsed
  obtain ⟨found, _, _, _, reads, runs, _⟩ := Alone.attempt_bind_cases runs
  cases found with
  | error error =>
      cases error with
      | notFound => exact (fails runs (by decide)).elim
      | _ => exact (fails runs (by decide)).elim
  | ok invoice =>
      obtain ⟨row, currency, told, rfl⟩ := getInvoice_told reads
      change Alone (Told E) (getEncryptedData.readMetadata ourEncryptionKey _) () _ _ () at runs
      unfold getEncryptedData.readMetadata at runs
      split at runs
      · exact (fails runs (by decide)).elim
      rename_i paid
      split at runs
      · exact (fails runs (by decide)).elim
      rename_i account payer
      obtain ⟨found, _, _, _, reads, runs, _⟩ := Alone.attempt_bind_cases runs
      cases found with
      | error error =>
          cases error with
          | notFound => exact (fails runs (by decide)).elim
          | _ => exact (fails runs (by decide)).elim
      | ok key =>
          dsimp only at runs
          split at runs
          · exact (fails runs (by decide)).elim
          rename_i encrypted encrypts
          obtain ⟨_, same, _⟩ := Alone.ret_cases runs
          cases same
          exact ⟨ourEncryptionKey, id, row, account, key, encrypted, configured, parsed, told,
            not_not.mp paid, payer, queryRow_told reads, encrypts, rfl⟩

end Reading

/-! ## Every run -/

variable {τ : Type} [DecidableEq τ] [Fintype τ] {handler : Handler} {db : Database} {c : Process τ}

/-- **What is disclosed goes to who has paid.** If `getEncryptedData` has answered with
success, then an invoice of the requested ID was stored as paid by an account, and the
response is its metadata encrypted under the accepted key of that account, which the account
has certified and which is its key still. -/
theorem metadata_goes_to_payer
    (certified : ∀ row ∈ db.keys.rows, Certified row.address row.encryptionKey)
    (run : Serves handler db c) {t : τ} {pathID : String} {response : Response}
    (ended : c.pool t = some (.ret (.ok (.responded (.getEncryptedData pathID) response))))
    (success : response.status = 200) :
    ∃ before ourEncryptionKey id invoice account key encrypted,
      Serves handler db before ∧ (serving handler).Reachable before c ∧
      handler.ourEncryptionKey = some ourEncryptionKey ∧ parseInvoiceID pathID = .ok id ∧
      before.state.db.invoices.find id = some invoice ∧ invoice.status = .paid ∧
      invoice.paidBy = some account ∧ Certified account key ∧
      (∃ row, c.state.db.keys.find account = some row ∧ row.accepted = true ∧
        row.encryptionKey = key) ∧
      encryptData key (marshalRawMap invoice.metadata) ourEncryptionKey = .ok encrypted ∧
      response.body = .bytes encrypted := by
  obtain ⟨_, _, _, log, ⟨task, rfl, _⟩, runs⟩ := System.told_of_ended run ended
  cases task with
  | job work =>
      obtain ⟨_, _, impossible⟩ | ⟨_, _, _, _, _, ends, _⟩ := Alone.bind_cases runs
      · cases impossible
      · obtain ⟨_, same, _⟩ := Alone.ret_cases ends
        cases same
  | deleteExpiredKeys =>
      obtain ⟨_, _, impossible⟩ | ⟨_, _, _, _, _, ends, _⟩ := Alone.bind_cases runs
      · cases impossible
      · obtain ⟨_, same, _⟩ := Alone.ret_cases ends
        cases same
  | request asked =>
      obtain ⟨_, _, impossible⟩ | ⟨outcome, _, _, _, handles, ends, _⟩ := Alone.bind_cases runs
      · cases impossible
      obtain ⟨_, same, _⟩ := Alone.ret_cases ends
      cases same
      obtain ⟨ourEncryptionKey, id, invoice, account, key, encrypted, configured, parsed, told,
        paid, payer, told', encrypts, body⟩ := getEncryptedData_told handles success
      obtain ⟨before, run₁, later, stored⟩ := invoice_read told
      obtain ⟨before', row, run₂, later', keyed, accepted, rfl⟩ := key_read told'
      obtain ⟨among, rfl⟩ := Table.find_eq_some.mp keyed
      exact ⟨before, ourEncryptionKey, id, invoice, row.address, row.encryptionKey, encrypted, run₁,
        later, configured, parsed, stored, paid, payer,
        keys_certified certified run₂ row among,
        ⟨row, accepted_lasts run₂ later' keyed accepted, accepted, rfl⟩, encrypts, body⟩

end Disclosure

/-! ## An order -/

namespace Shop

attribute [local instance] Texts.libraries Shop.cryptography

/-- **The goods are disclosed to a key that its account has certified.** -/
theorem goods_disclosed : ∃ (c : Process Unit) (account : AccountID) (row : KeyRow),
    Serves encrypting (sold [("goods", "1")]) c ∧
      c.pool () = some (.ret (.ok (.responded ordered (answered [("goods", "1")])))) ∧
      c.state.db.keys.find account = some row ∧ Certified account row.encryptionKey := by
  obtain ⟨c, run, ended⟩ := order_answered [("goods", "1")]
  have certified : ∀ row ∈ (sold [("goods", "1")]).keys.rows,
      Certified row.address row.encryptionKey := by
    intro row member
    obtain rfl := List.mem_singleton.mp member
    exact certified_of_convertNewKey newKey_converted
  have success : (answered [("goods", "1")]).status = 200 := by decide +kernel
  obtain ⟨_, _, _, _, account, _, _, _, _, _, _, _, _, _, own, ⟨row, stored, _, rfl⟩, _⟩ :=
    metadata_goes_to_payer certified run ended success
  exact ⟨c, account, row, run, ended, stored, own⟩

end Shop

end SpiceHarvester
