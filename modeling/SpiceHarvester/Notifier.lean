import SpiceHarvester.Db.Invoices

/-!
# The notifier

`runNotifier` and `notify` of `pkg/notifier`: a batch of the outbox is read, each
invoice of it is sent, and its rows are deleted.
-/

set_option autoImplicit false

namespace SpiceHarvester

open Interleaving

variable [Libraries]

/-- The body of the loop of `notify`. An invoice that cannot be printed is
skipped. -/
def notifyInvoice (printing : Printing) (invoice : Invoice) : Action Unit :=
  match convertInvoiceToPrintablePrivate printing invoice with
  | .error _ => perform (.skip invoice)
  | .ok printable => do
      perform (.send invoice printable)
      deleteInvoiceNotification invoice.id

/-- `notify`. -/
def notify (printing : Printing) (invoices : List Invoice) : Action Unit :=
  invoices.forM (notifyInvoice printing)

/-- One round of `runNotifier`. Its errors are only logged. -/
def notifierRound (printing : Printing) : Action Unit := do
  match ← (getInvoiceNotifications 10).attempt with
  | .error _ => return ()
  | .ok invoices => do
      let _ ← (notify printing invoices).attempt
      return ()

/-- `runNotifier`, for a number of rounds. -/
def runNotifier (printing : Printing) : ℕ → Action Unit
  | 0 => return ()
  | rounds + 1 => do
      notifierRound printing
      runNotifier printing rounds

end SpiceHarvester
