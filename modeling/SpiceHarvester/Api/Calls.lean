import SpiceHarvester.Api.Keys
import SpiceHarvester.Api.Serving

/-!
# The statements that the notifier, the expiry and the public endpoints call

The notifier reads the outbox and the invoices of its rows, sends them and deletes the rows
(`runNotifier_calls`). `MarkExpired` closes invoices and writes rows of the outbox
(`markExpired_calls`). The public endpoints read invoices and keys, and store only a key that
the request offers (`handle_calls`).
-/

set_option autoImplicit false

namespace SpiceHarvester

open Interleaving

/-- A statement of `runNotifier`. -/
def Stmt.notifies : Stmt → Bool
  | .selectNotifications _ | .selectInvoice _ | .selectCurrency _ => true
  | .send .. | .skip _ | .deleteNotification _ => true
  | _ => false

/-- A statement of `MarkExpired`. -/
def Stmt.expires : Stmt → Bool
  | .now | .markExpired _ => true
  | .selectInvoice _ | .selectCurrency _ | .selectCurrencyID .. | .insertNotification _ => true
  | _ => false

section Statements

variable {P : Stmt → Prop}

theorem queryRow_calls {op : Stmt} (holds : P op) : (queryRow op).Calls P :=
  .call holds fun _ => .ret _

variable [Libraries]

/-- `GetInvoice` reads an invoice and its currency. -/
theorem getInvoice_calls (id : InvoiceID) (invoice : P (.selectInvoice id))
    (currency : ∀ id, P (.selectCurrency id)) : (getInvoice id).Calls P :=
  (queryRow_calls invoice).bind fun row =>
    ((queryRow_calls (currency row.currency)).bind fun _ => .ret _).bind fun _ => .ret _

/-- A row of the outbox is written. -/
theorem announce_calls (invoice : Invoice) (currency : ∀ type info, P (.selectCurrencyID type info))
    (notification : ∀ row, P (.insertNotification row)) : (saveInvoice invoice true).Calls P :=
  (queryRow_calls (currency _ _)).bind fun _ => .query (notification _)

end Statements

section Programs

variable [Libraries]

theorem runNotifier_calls (printing : Printing) (rounds : ℕ) :
    (runNotifier printing rounds).Calls fun op => op.notifies = true := by
  have notifies : ∀ invoice,
      (notifyInvoice printing invoice).Calls fun op => op.notifies = true := by
    intro invoice
    unfold notifyInvoice
    split
    · exact .query rfl
    · exact Prog.Calls.bind (.query rfl) fun _ => .query rfl
  have reads : (getInvoiceNotifications 10).Calls fun op => op.notifies = true :=
    Prog.Calls.bind (.query rfl) fun ids =>
      .mapM (fun id => getInvoice_calls id rfl fun _ => rfl) ids
  induction rounds with
  | zero => exact .ret _
  | succ rounds ih =>
      refine Prog.Calls.bind (reads.attempt.bind fun invoices => ?_) fun _ => ih
      split
      · exact .ret _
      · exact (Prog.Calls.forM notifies _).attempt.bind fun _ => .ret _

theorem markExpired_calls : markExpired.Calls fun op => op.expires = true := by
  refine Prog.Calls.bind (.query rfl) fun _ => Prog.Calls.bind (.query rfl) fun ids => ?_
  have reads : ∀ id, (getInvoice id).Calls fun op => op.expires = true := fun id =>
    getInvoice_calls id rfl fun _ => rfl
  have writes : ∀ invoice, (saveInvoice invoice true).Calls fun op => op.expires = true :=
    fun invoice => announce_calls invoice (fun _ _ => rfl) fun _ => rfl
  exact .forM (fun id => (reads id).bind writes) ids

variable [Cryptography]

/-- The request offers the key for the account. -/
def PublicRequest.Offers (request : PublicRequest) (account : AccountID) (key : List UInt8) : Prop :=
  ∃ pathAccount data, request = .commitKey pathAccount (some (.ok data)) ∧
    Libraries.parseAccountID pathAccount = .ok account ∧ convertNewKey account data = .ok key

theorem PublicRequest.Offers.certified {request : PublicRequest} {account : AccountID}
    {key : List UInt8} (offers : request.Offers account key) : Certified account key := by
  obtain ⟨_, _, _, _, converted⟩ := offers
  exact certified_of_convertNewKey converted

/-- A statement of a public endpoint, which stores keys of which `P` holds only. -/
def Stmt.answers (P : AccountID → List UInt8 → Prop) : Stmt → Prop
  | .now | .selectInvoice _ | .selectCurrency _ | .selectKey _ => True
  | .insertKey address key _ => P address key
  | _ => False

theorem handle_calls (handler : Handler) (request : PublicRequest) :
    (request.handle handler).Calls (Stmt.answers request.Offers) := by
  have reads : ∀ id, (getInvoice id).Calls (Stmt.answers request.Offers) := fun id =>
    getInvoice_calls id trivial fun _ => trivial
  cases request with
  | commitKey pathAccount body =>
      change (commitKey pathAccount body).Calls _
      unfold commitKey
      split
      · exact .ret _
      · exact .ret _
      · rename_i data
        split
        · exact .ret _
        · rename_i account parsed
          split
          · exact .ret _
          · rename_i key converted
            have offers : (PublicRequest.commitKey pathAccount (some (.ok data))).Offers account key :=
              ⟨pathAccount, data, rfl, parsed, converted⟩
            have saves : (saveEncryptionKey account key).Calls (Stmt.answers
                (PublicRequest.commitKey pathAccount (some (.ok data))).Offers) :=
              Prog.Calls.bind (.query trivial) fun _ => .query offers
            refine saves.attempt.bind fun saved => ?_
            split <;> exact .ret _
  | getEncryptedData pathID =>
      change (getEncryptedData handler pathID).Calls _
      unfold getEncryptedData
      split
      · exact .ret _
      split
      · exact .ret _
      refine (reads _).attempt.bind fun found => ?_
      split
      · exact .ret _
      · exact .ret _
      unfold getEncryptedData.readMetadata
      split
      · exact .ret _
      split
      · exact .ret _
      have asks : ∀ paidBy, (getEncryptionKey paidBy).Calls
          (Stmt.answers (PublicRequest.getEncryptedData pathID).Offers) := fun _ =>
        queryRow_calls trivial
      refine (asks _).attempt.bind fun found => ?_
      split
      · exact .ret _
      · exact .ret _
      split <;> exact .ret _
  | getInvoicePublic pathID =>
      change (getInvoicePublic handler pathID).Calls _
      unfold getInvoicePublic
      split
      · exact .ret _
      refine (reads _).attempt.bind fun found => ?_
      split
      · exact .ret _
      · exact .ret _
      split <;> exact .ret _
  | getManifest => exact .ret _
  | static path => exact .ret _
  | getInvoiceRender pathID => exact .ret _

end Programs

end SpiceHarvester
