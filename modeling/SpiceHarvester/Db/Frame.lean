import SpiceHarvester.Db.Currencies

/-!
# What every statement leaves as it is

No statement changes the currencies, removes an invoice or touches the columns
of an invoice that no `UPDATE` names (`InvoiceRow.terms`); no statement touches
what belongs to another thread (`World.Kept`). In return, every invoice names a
stored currency and every row version that a transaction has written is a
version of a stored row (`World.Sane`).
-/

set_option autoImplicit false

namespace SpiceHarvester

open Sql

/-! ## The columns that no `UPDATE` names -/

/-- An invoice without the columns that are updated. -/
def InvoiceRow.terms (row : InvoiceRow) : InvoiceRow :=
  { row with
    updatedAt := 0
    paidAt := none
    overpayment := 0
    status := .waiting
    paidBy := none
    txHash := none
    version := 0 }

@[simp] theorem InvoiceRow.terms_close (status : InvoiceStatus) (now : Time) (row : InvoiceRow) :
    (row.close status now).terms = row.terms := rfl

@[simp] theorem InvoiceRow.terms_credit (overpayment : ℤ) (now : Time) (row : InvoiceRow) :
    (row.credit overpayment now).terms = row.terms := rfl

@[simp] theorem InvoiceRow.terms_pay (now : Time) (paidBy : AccountID) (overpayment : ℤ)
    (txHash : Bits256) (row : InvoiceRow) :
    (row.pay now paidBy overpayment txHash).terms = row.terms := rfl

section Terms

variable {row row' : InvoiceRow}

theorem InvoiceRow.id_of_terms (same : row.terms = row'.terms) : row.id = row'.id :=
  show row.terms.id = row'.terms.id from same ▸ rfl

theorem InvoiceRow.currency_of_terms (same : row.terms = row'.terms) :
    row.currency = row'.currency :=
  show row.terms.currency = row'.terms.currency from same ▸ rfl

theorem InvoiceRow.recipient_of_terms (same : row.terms = row'.terms) :
    row.recipient = row'.recipient :=
  show row.terms.recipient = row'.terms.recipient from same ▸ rfl

theorem InvoiceRow.amount_of_terms (same : row.terms = row'.terms) : row.amount = row'.amount :=
  show row.terms.amount = row'.terms.amount from same ▸ rfl

theorem InvoiceRow.expireAt_of_terms (same : row.terms = row'.terms) :
    row.expireAt = row'.expireAt :=
  show row.terms.expireAt = row'.terms.expireAt from same ▸ rfl

/-- Whether a payment is for an invoice depends on the terms only. -/
theorem Payment.pays_congr [Libraries] {currencies : Currencies} {payment : Payment}
    (same : row'.terms = row.terms) :
    payment.Pays currencies row' ↔ payment.Pays currencies row := by
  rw [Pays, Pays, InvoiceRow.id_of_terms same, InvoiceRow.currency_of_terms same,
    InvoiceRow.recipient_of_terms same]

end Terms

namespace World

variable [Libraries] {τ : Type}

/-! ## What only grows -/

/-- What a later state keeps of an earlier one. -/
structure Grows (w w' : World τ) : Prop where
  currencies : w'.db.currencies = w.db.currencies
  invoices : ∀ {id row}, w.db.invoices.find id = some row →
    ∃ row', w'.db.invoices.find id = some row' ∧ row'.terms = row.terms
  changes : w.history.changes ⊆ w'.history.changes
  delivered : w.history.delivered ⊆ w'.history.delivered

theorem Grows.refl (w : World τ) : w.Grows w where
  currencies := rfl
  invoices := fun {_} {row} found => ⟨row, found, rfl⟩
  changes := List.Subset.refl _
  delivered := List.Subset.refl _

theorem Grows.trans {w w' w'' : World τ} (first : w.Grows w') (second : w'.Grows w'') :
    w.Grows w'' where
  currencies := second.currencies.trans first.currencies
  invoices := by
    intro id row found
    obtain ⟨row', found', same⟩ := first.invoices found
    obtain ⟨row'', found'', same'⟩ := second.invoices found'
    exact ⟨row'', found'', same'.trans same⟩
  changes := List.Subset.trans first.changes second.changes
  delivered := List.Subset.trans first.delivered second.delivered

/-- Every invoice names a stored currency, and every version written by an open
transaction is a version of a stored invoice. -/
structure Sane (w : World τ) : Prop where
  stored : ∀ {id row}, w.db.invoices.find id = some row →
    (w.db.currencies.table.find row.currency).isSome
  written : ∀ {t tx version}, w.tx t = some tx → version ∈ tx.invoices →
    ∃ row, w.db.invoices.find version.id = some row ∧ version.terms = row.terms

/-- The version of an invoice that a transaction reads differs from the stored
row in updated columns only. -/
theorem Sane.terms_latest {w : World τ} (sane : w.Sane) {t : τ} {tx : Tx} (opened : w.tx t = some tx)
    {row : InvoiceRow} (found : w.db.invoices.find row.id = some row) :
    (Table.latest InvoiceRow.id tx.invoices row).terms = row.terms := by
  by_cases held : Table.owns InvoiceRow.id tx.invoices row.id = true
  · obtain ⟨row', found', same⟩ := sane.written opened (Table.latest_mem_of_owns held)
    rw [Table.key_latest InvoiceRow.id, found, Option.some.injEq] at found'
    exact same.trans (found' ▸ rfl)
  · rw [Table.latest_of_not_owns (by simpa using held)]

/-- What the transaction of a thread sees of an invoice. -/
theorem Sane.find_view {w : World τ} (sane : w.Sane) {t : τ} {tx : Tx} (opened : w.tx t = some tx)
    {id : InvoiceID} {seen : InvoiceRow}
    (found : (w.db.invoices.view tx.invoices).find id = some seen) :
    ∃ row, w.db.invoices.find id = some row ∧ seen.terms = row.terms := by
  rw [Table.find_view, Option.map_eq_some_iff] at found
  obtain ⟨row, stored, rfl⟩ := found
  have key := Table.key_of_find stored
  exact ⟨row, stored, sane.terms_latest opened (key ▸ stored)⟩

theorem Sane.idle {db : Database}
    (stored : ∀ {id row}, db.invoices.find id = some row →
      (db.currencies.table.find row.currency).isSome) : (World.idle db : World τ).Sane where
  stored := stored
  written := fun opened => by cases opened

/-! ## What one thread leaves to the others -/

/-- A change of the state by one thread. -/
structure Kept (t : τ) (w w' : World τ) : Prop where
  grows : w.Sane → w.Grows w'
  sane : w.Sane → w'.Sane
  others : ∀ {u}, u ≠ t → w'.threads u = w.threads u

theorem tx_congr {w w' : World τ} {t : τ} (same : w'.threads t = w.threads t) :
    w'.tx t = w.tx t :=
  congrArg (fun thread : Option Thread => thread.bind Thread.tx) same

theorem tx_eq {w : World τ} {t : τ} {thread : Thread} (held : w.threads t = some thread) :
    w.tx t = thread.tx := by
  rw [tx, held, Option.bind_some]

theorem tx_eq_some {w : World τ} {t : τ} {opened : Tx} :
    w.tx t = some opened ↔ ∃ thread, w.threads t = some thread ∧ thread.tx = some opened :=
  Option.bind_eq_some_iff

namespace Kept

theorem refl (t : τ) (w : World τ) : w.Kept t w where
  grows := fun _ => .refl w
  sane := id
  others := fun _ => rfl

theorem trans {t : τ} {w w' w'' : World τ} (first : w.Kept t w') (second : w'.Kept t w'') :
    w.Kept t w'' where
  grows := fun sane => (first.grows sane).trans (second.grows (first.sane sane))
  sane := second.sane ∘ first.sane
  others := fun other => (second.others other).trans (first.others other)

/-- A change that leaves the stored invoices alone, and writes only versions of
stored invoices in the thread's own transaction. -/
theorem of_stored {t : τ} {w w' : World τ} (currencies : w'.db.currencies = w.db.currencies)
    (invoices : w'.db.invoices = w.db.invoices) (changes : w.history.changes ⊆ w'.history.changes)
    (delivered : w.history.delivered ⊆ w'.history.delivered)
    (others : ∀ {u}, u ≠ t → w'.threads u = w.threads u)
    (own : w.Sane → ∀ {tx version}, w'.tx t = some tx → version ∈ tx.invoices →
      ∃ row, w.db.invoices.find version.id = some row ∧ version.terms = row.terms) :
    w.Kept t w' where
  grows := fun _ => {
    currencies := currencies
    invoices := fun {_} {row} found => ⟨row, invoices ▸ found, rfl⟩
    changes := changes
    delivered := delivered }
  sane := fun sane => {
    stored := by
      intro id row found
      rw [invoices] at found
      rw [currencies]
      exact sane.stored found
    written := by
      intro u tx version opened member
      rw [invoices]
      by_cases same : u = t
      · subst same
        exact own sane opened member
      · rw [tx_congr (others same)] at opened
        exact sane.written opened member }
  others := others

/-- A change of the stored invoices that keeps the columns that no `UPDATE`
names, where the thread has no open transaction after it. -/
theorem of_closed {t : τ} {w w' : World τ} (currencies : w'.db.currencies = w.db.currencies)
    (before : w.Sane → ∀ {id row}, w.db.invoices.find id = some row →
      ∃ row', w'.db.invoices.find id = some row' ∧ row'.terms = row.terms)
    (after : w.Sane → ∀ {id row'}, w'.db.invoices.find id = some row' →
      (w.db.currencies.table.find row'.currency).isSome)
    (changes : w.history.changes ⊆ w'.history.changes)
    (delivered : w.history.delivered ⊆ w'.history.delivered)
    (others : ∀ {u}, u ≠ t → w'.threads u = w.threads u)
    (own : ∀ {tx}, w'.tx t = some tx → w.tx t = some tx) : w.Kept t w' where
  grows := fun sane => {
    currencies := currencies
    invoices := before sane
    changes := changes
    delivered := delivered }
  sane := fun sane => {
    stored := by
      intro id row found
      rw [currencies]
      exact after sane found
    written := by
      intro u tx version opened member
      have opened' : w.tx u = some tx := by
        by_cases same : u = t
        · subst same
          exact own opened
        · rwa [tx_congr (others same)] at opened
      obtain ⟨row, found, same⟩ := sane.written opened' member
      obtain ⟨row', found', same'⟩ := before sane found
      exact ⟨row', found', same.trans same'.symm⟩ }
  others := others

/-- A change of nothing but other tables than the invoices and the currencies. -/
theorem of_tables {w w' : World τ} {t : τ} (threads : w'.threads = w.threads)
    (history : w'.history = w.history) (currencies : w'.db.currencies = w.db.currencies)
    (invoices : w'.db.invoices = w.db.invoices) : w.Kept t w' :=
  .of_stored currencies invoices (history ▸ List.Subset.refl _) (history ▸ List.Subset.refl _)
    (fun {u} _ => congrFun threads u)
    fun sane _ _ opened member => sane.written ((tx_congr (congrFun threads t)).symm.trans opened) member

end Kept

variable [DecidableEq τ]

theorem grows_setThread (w : World τ) (t : τ) (f : Thread → Thread) : w.Grows (w.setThread t f) :=
  { Grows.refl w with }

theorem tx_setThread {w : World τ} {t : τ} {f : Thread → Thread}
    (keeps : ∀ thread, (f thread).tx = thread.tx) : (w.setThread t f).tx t = w.tx t := by
  unfold tx
  rw [threads_setThread, Option.bind_map]
  exact congrArg _ (funext keeps)

theorem tx_setTx {w : World τ} {t : τ} {tx tx' : Tx} (opened : w.tx t = some tx) :
    (w.setTx t tx').tx t = some tx' := by
  obtain ⟨thread, held, _⟩ := tx_eq_some.mp opened
  unfold World.tx setTx
  rw [threads_setThread, held]
  rfl

/-- A change that leaves the stored invoices and all open transactions alone. -/
theorem Kept.of_quiet {w w' : World τ} {t : τ} {f : Thread → Thread}
    (keeps : ∀ thread, (f thread).tx = thread.tx)
    (threads : w'.threads = (w.setThread t f).threads)
    (currencies : w'.db.currencies = w.db.currencies) (invoices : w'.db.invoices = w.db.invoices)
    (changes : w.history.changes ⊆ w'.history.changes)
    (delivered : w.history.delivered ⊆ w'.history.delivered) : w.Kept t w' :=
  .of_stored currencies invoices changes delivered
    (fun other => by rw [threads, threads_setThread_of_ne other])
    fun sane _ _ opened member => by
      have same : w'.tx t = (w.setThread t f).tx t := tx_congr (congrFun threads t)
      rw [same, tx_setThread keeps] at opened
      exact sane.written opened member

/-- A change of the thread's own fields, its transaction apart. -/
theorem Kept.setThread (w : World τ) (t : τ) {f : Thread → Thread}
    (keeps : ∀ thread, (f thread).tx = thread.tx) : w.Kept t (w.setThread t f) :=
  .of_stored rfl rfl (List.Subset.refl _) (List.Subset.refl _)
    (fun other => threads_setThread_of_ne other)
    fun sane _ _ opened member => sane.written ((tx_setThread keeps).symm.trans opened) member

/-- A change of the thread's own transaction that writes no invoice. -/
theorem Kept.setTx {w : World τ} {t : τ} {tx tx' : Tx} (opened : w.tx t = some tx)
    (same : tx'.invoices = tx.invoices) : w.Kept t (w.setTx t tx') :=
  .of_stored rfl rfl (List.Subset.refl _) (List.Subset.refl _)
    (fun other => threads_setThread_of_ne other)
    fun sane _ _ opened' member => by
      rw [tx_setTx opened, Option.some.injEq] at opened'
      subst opened'
      exact sane.written opened (same ▸ member)

/-- An `UPDATE payments.invoices` of the thread's own transaction. -/
theorem Kept.rewrite {w : World τ} {t : τ} {tx tx' : Tx} (opened : w.tx t = some tx)
    {condition : InvoiceRow → Bool} {f : InvoiceRow → InvoiceRow}
    (keeps : ∀ row, (f row).terms = row.terms)
    (same : tx'.invoices = w.db.invoices.rewrite tx.invoices condition f) :
    w.Kept t (w.setTx t tx') :=
  .of_stored rfl rfl (List.Subset.refl _) (List.Subset.refl _)
    (fun other => threads_setThread_of_ne other)
    fun sane _ version opened' member => by
      rw [tx_setTx opened, Option.some.injEq] at opened'
      subst opened'
      rw [same, Table.rewrite, List.mem_append, List.mem_map] at member
      obtain ⟨seen, hit, rfl⟩ | written := member
      · rw [List.mem_filter] at hit
        obtain ⟨row, found, terms⟩ := sane.find_view opened (Table.find_of_mem hit.1)
        have key := InvoiceRow.id_of_terms (keeps seen)
        exact ⟨row, key ▸ found, (keeps seen).trans terms⟩
      · exact sane.written opened written

/-! ## The statements that write invoices -/

/-- A change of the thread's fields and of its open transaction, which it ends or
has just begun. -/
theorem Kept.setThread_of_empty (w : World τ) (t : τ) {f : Thread → Thread}
    (empty : ∀ {thread tx}, (f thread).tx = some tx → tx.invoices = []) :
    w.Kept t (w.setThread t f) :=
  .of_stored rfl rfl (List.Subset.refl _) (List.Subset.refl _)
    (fun other => threads_setThread_of_ne other)
    fun _ tx version opened member => by
      obtain ⟨thread', held, opened⟩ := tx_eq_some.mp opened
      rw [threads_setThread, Option.map_eq_some_iff] at held
      obtain ⟨thread, _, rfl⟩ := held
      rw [empty opened] at member
      cases member

theorem create_kept {w : World τ} {row : InvoiceRow} {currency : CurrencyRow}
    {invoices : Table InvoiceRow.id} (t : τ)
    (stored : w.db.currencies.table.find row.currency = some currency)
    (inserted : w.db.invoices.insert? row = some invoices) : w.Kept t (w.create t row invoices) := by
  refine .of_closed rfl (fun sane {id stored'} found => ?_) (fun sane {id row'} found => ?_)
    (List.subset_append_left _ _) (List.Subset.refl _)
    (fun other => threads_setThread_of_ne other)
    fun {tx} opened =>
      (tx_setThread (f := Thread.owe [row.snapshot]) fun _ => rfl).symm.trans opened
  · refine ⟨stored', ?_, rfl⟩
    change invoices.find id = some stored'
    rw [Table.find_insert? inserted]
    have free : row.id ≠ id := by
      rintro rfl
      have taken : w.db.invoices.insert? row = none := Table.insert?_eq_none.mpr (by simp [found])
      rw [inserted] at taken
      cases taken
    rw [if_neg free, found]
  · change invoices.find id = some row' at found
    rw [Table.find_insert? inserted] at found
    split at found
    · cases found
      rw [stored]
      rfl
    · exact sane.stored found

theorem announce_kept (w : World τ) (t : τ) (row : InvoiceRow) : w.Kept t (w.announce t row) :=
  .of_quiet (f := Thread.announce row.id) (fun _ => rfl) rfl rfl rfl (List.Subset.refl _)
    (List.Subset.refl _)

theorem find_closeInvoices (w : World τ) (t : τ) (status : InvoiceStatus) (now : Time)
    (condition : InvoiceRow → Bool) (id : InvoiceID) :
    (w.closeInvoices t status now condition).db.invoices.find id =
      (w.db.invoices.find id).map fun row => if condition row then row.close status now else row :=
  Table.find_update _ _ (InvoiceRow.id_close status now) id

theorem closeInvoices_kept (w : World τ) (t : τ) (status : InvoiceStatus) (now : Time)
    (condition : InvoiceRow → Bool) : w.Kept t (w.closeInvoices t status now condition) := by
  have same : ∀ row : InvoiceRow,
      (if condition row then row.close status now else row).terms = row.terms := by
    intro row
    split <;> rfl
  refine .of_closed rfl (fun sane {id row} found => ?_) (fun sane {id row'} found => ?_)
    (List.subset_append_left _ _) (List.Subset.refl _)
    (fun other => threads_setThread_of_ne other)
    fun opened =>
      (tx_setThread (f := Thread.owe (w.closed status condition)) fun _ => rfl).symm.trans opened
  · rw [find_closeInvoices, found]
    exact ⟨_, rfl, same row⟩
  · rw [find_closeInvoices, Option.map_eq_some_iff] at found
    obtain ⟨row, stored, rfl⟩ := found
    rw [InvoiceRow.currency_of_terms (same row)]
    exact sane.stored stored

theorem commit_kept {w : World τ} {t : τ} {tx : Tx} (opened : w.tx t = some tx) :
    w.Kept t (w.commit t tx) := by
  have find : ∀ id, (w.commit t tx).db.invoices.find id =
      (w.db.invoices.view tx.invoices).find id := fun _ => rfl
  refine .of_closed rfl (fun sane {id row} found => ?_) (fun sane {id row'} found => ?_)
    (List.subset_append_left _ _) (List.Subset.refl _)
    (fun other => threads_setThread_of_ne other) fun {tx'} opened' => ?_
  · rw [find, Table.find_view, found]
    exact ⟨_, rfl, sane.terms_latest opened (Table.key_of_find found ▸ found)⟩
  · rw [find] at found
    obtain ⟨row, stored, same⟩ := sane.find_view opened found
    rw [InvoiceRow.currency_of_terms same]
    exact sane.stored stored
  · obtain ⟨thread, held, _⟩ := tx_eq_some.mp opened
    obtain ⟨thread', held', closed⟩ := tx_eq_some.mp opened'
    change (w.setThread t _).threads t = some thread' at held'
    rw [threads_setThread, held, Option.map_some, Option.some.injEq] at held'
    subst held'
    cases closed

end World

/-! ## Every statement -/

namespace Stmt

variable [Libraries] {τ : Type} [DecidableEq τ] [Fintype τ]

/-- **A statement changes what belongs to its own thread only, and keeps every
invoice.** -/
theorem run_kept {choice : Choice} {t : τ} {op : Stmt} {w w' : World τ}
    {answer : Except Err op.Val} (runs : op.run choice t w = some (answer, w')) : w.Kept t w' := by
  have same : ∀ {w' : World τ}, w = w' → w.Kept t w' := fun same => same ▸ .refl t w
  cases op with
  | insertInvoice row =>
      obtain ⟨_, _, stored, inserted, _, rfl⟩ | ⟨_, rfl⟩ := run_insertInvoice runs
      · exact World.create_kept t stored inserted
      · exact .refl t w'
  | cancelInvoice time id =>
      obtain ⟨_, _, rfl⟩ := run_cancelInvoice runs
      exact w.closeInvoices_kept t _ _ _
  | markExpired time =>
      obtain ⟨_, _, rfl⟩ := run_markExpired runs
      exact w.closeInvoices_kept t _ _ _
  | setOverpayment overpayment time id =>
      obtain ⟨tx, opened, _, _, rfl⟩ := run_setOverpayment runs
      exact .rewrite opened (InvoiceRow.terms_credit _ _) rfl
  | setPaid time paidBy overpayment txHash id =>
      obtain ⟨tx, opened, _, _, rfl⟩ := run_setPaid runs
      exact .rewrite opened (InvoiceRow.terms_pay _ _ _ _) rfl
  | commit =>
      obtain ⟨tx, opened, _, rfl⟩ := run_commit runs
      exact World.commit_kept opened
  | begin call =>
      cases runs
      exact .setThread_of_empty w t fun opened => by
        cases opened
        rfl
  | rollback =>
      cases runs
      exact .setThread_of_empty w t fun opened => by cases opened
  | selectForPayment currency payment time =>
      obtain ⟨tx, opened, _, rfl⟩ := run_selectForPayment runs
      exact .setTx opened rfl
  | acceptKey address =>
      obtain ⟨tx, opened, _, _, rfl⟩ := run_acceptKey runs
      exact .setTx opened rfl
  | setProcessingError error account lt =>
      obtain ⟨tx, opened, _, rfl⟩ := run_setProcessingError runs
      exact .setTx opened rfl
  | setLastProcessed lt account =>
      obtain ⟨tx, opened, _, _, rfl⟩ := run_setLastProcessed runs
      exact .setTx opened rfl
  | insertNotification row =>
      obtain ⟨_, _, _, rfl⟩ | ⟨_, _, rfl⟩ := run_insertNotification runs
      · exact w.announce_kept t row
      · exact .refl t w'
  | selectNotifications limit =>
      obtain ⟨_, _, _, _, rfl⟩ := run_selectNotifications runs
      exact .setThread w t fun _ => rfl
  | deleteNotification id =>
      cases runs
      exact .of_quiet (f := fun thread => { thread with held := thread.held.tail }) (fun _ => rfl)
        rfl rfl rfl (List.Subset.refl _) (List.Subset.refl _)
  | send invoice printable =>
      simp only [run] at runs
      split at runs <;> cases runs
      · exact .of_stored rfl rfl (List.Subset.refl _) (List.subset_append_left _ _) (fun _ => rfl)
          fun sane _ _ opened member => sane.written opened member
      · exact .setThread w t fun _ => rfl
  | deleteExpiredKeys before =>
      obtain ⟨_, rfl⟩ := run_deleteExpiredKeys runs
      exact .of_tables rfl rfl rfl rfl
  | updateAccount last block time account =>
      obtain ⟨_, _, rfl⟩ := run_updateAccount runs
      exact .of_tables rfl rfl rfl rfl
  | insertKey address key time =>
      cases runs
      split
      · exact .of_tables rfl rfl rfl rfl
      · exact .refl t w
  | insertTransaction row =>
      cases runs
      split
      · exact .of_tables rfl rfl rfl rfl
      · exact .refl t w
  | selectGaps account => exact same (run_selectGaps runs).1.symm
  | selectInvoice id =>
      cases runs
      exact .setThread w t fun _ => rfl
  | skip invoice =>
      cases runs
      exact .setThread w t fun _ => rfl
  | selectLastProcessed account =>
      cases runs
      exact .setThread w t fun _ => rfl
  | selectTransactionByParent account lt =>
      cases runs
      exact .setThread w t fun _ => rfl
  | getTransactions account lt hash =>
      cases runs
      exact .setThread w t fun _ => rfl
  | setLastLt lt =>
      cases runs
      exact .setThread w t fun _ => rfl
  | now => exact same (congrArg Prod.snd (Option.some.inj runs))
  | selectCurrencyID type info => exact same (congrArg Prod.snd (Option.some.inj runs))
  | selectCurrency id => exact same (congrArg Prod.snd (Option.some.inj runs))
  | selectKey address => exact same (congrArg Prod.snd (Option.some.inj runs))
  | selectLtBelow account lt => exact same (congrArg Prod.snd (Option.some.inj runs))
  | selectLastLt account => exact same (congrArg Prod.snd (Option.some.inj runs))
  | getAccountState account => exact same (congrArg Prod.snd (Option.some.inj runs))
  | getLastLt => exact same (congrArg Prod.snd (Option.some.inj runs))

/-- The same under a fault. -/
theorem runUnder_kept {fault : Fault} {choice : Choice} {t : τ} {op : Stmt} {w w' : World τ}
    {answer : Except Err op.Val} (runs : op.runUnder fault choice t w = some (answer, w')) :
    w.Kept t w' := by
  obtain ⟨_, ran⟩ | ⟨_, _, _, rfl⟩ | ⟨_, _, _, _, w₀, ran, rfl⟩ := runUnder_cases runs
  · exact run_kept ran
  · exact .setThread w t fun _ => rfl
  · exact (run_kept ran).trans (.setThread w₀ t fun _ => rfl)

end Stmt

/-! ## Jobs -/

namespace World

variable [Libraries] {τ : Type}

/-- The job of a thread. -/
def job (w : World τ) (t : τ) : Option Job := (w.threads t).map Thread.job

variable [DecidableEq τ] {w : World τ} {t : τ}

theorem job_setThread {f : Thread → Thread} (keeps : ∀ thread, (f thread).job = thread.job) :
    (w.setThread t f).job = w.job := by
  funext u
  unfold job
  by_cases same : u = t
  · subst same
    rw [threads_setThread, Option.map_map]
    exact congrArg (fun f => (w.threads u).map f) (funext keeps)
  · rw [threads_setThread_of_ne same]

end World

namespace Stmt

variable [Libraries] {τ : Type} [DecidableEq τ] [Fintype τ]

/-- **No statement changes the job of a thread.** -/
theorem run_job {choice : Choice} {t : τ} {op : Stmt} {w w' : World τ}
    {answer : Except Err op.Val} (runs : op.run choice t w = some (answer, w')) :
    w'.job = w.job := by
  have same : ∀ {w' : World τ}, w = w' → w'.job = w.job := fun same => same ▸ rfl
  have setThread : ∀ f : Thread → Thread, (∀ thread, (f thread).job = thread.job) →
      (w.setThread t f).job = w.job := fun f keeps => World.job_setThread keeps
  cases op with
  | insertInvoice row =>
      obtain ⟨_, _, _, _, _, rfl⟩ | ⟨_, rfl⟩ := run_insertInvoice runs
      · exact setThread _ fun _ => rfl
      · rfl
  | insertNotification row =>
      obtain ⟨_, _, _, rfl⟩ | ⟨_, _, rfl⟩ := run_insertNotification runs
      · exact setThread _ fun _ => rfl
      · rfl
  | cancelInvoice time id =>
      obtain ⟨_, _, rfl⟩ := run_cancelInvoice runs
      exact setThread _ fun _ => rfl
  | markExpired time =>
      obtain ⟨_, _, rfl⟩ := run_markExpired runs
      exact setThread _ fun _ => rfl
  | commit =>
      obtain ⟨tx, _, _, rfl⟩ := run_commit runs
      exact setThread _ fun _ => rfl
  | selectForPayment currency payment time =>
      obtain ⟨tx, _, _, rfl⟩ := run_selectForPayment runs
      exact setThread _ fun _ => rfl
  | acceptKey address =>
      obtain ⟨tx, _, _, _, rfl⟩ := run_acceptKey runs
      exact setThread _ fun _ => rfl
  | setOverpayment overpayment time id =>
      obtain ⟨tx, _, _, _, rfl⟩ := run_setOverpayment runs
      exact setThread _ fun _ => rfl
  | setPaid time paidBy overpayment txHash id =>
      obtain ⟨tx, _, _, _, rfl⟩ := run_setPaid runs
      exact setThread _ fun _ => rfl
  | setProcessingError error account lt =>
      obtain ⟨tx, _, _, rfl⟩ := run_setProcessingError runs
      exact setThread _ fun _ => rfl
  | setLastProcessed lt account =>
      obtain ⟨tx, _, _, _, rfl⟩ := run_setLastProcessed runs
      exact setThread _ fun _ => rfl
  | selectNotifications limit =>
      obtain ⟨_, _, _, _, rfl⟩ := run_selectNotifications runs
      exact setThread _ fun _ => rfl
  | send invoice printable =>
      simp only [run] at runs
      split at runs <;> cases runs
      · rfl
      · exact setThread _ fun _ => rfl
  | deleteExpiredKeys before =>
      obtain ⟨_, rfl⟩ := run_deleteExpiredKeys runs
      rfl
  | updateAccount last block time account =>
      obtain ⟨_, _, rfl⟩ := run_updateAccount runs
      rfl
  | insertKey address key time =>
      cases runs
      split <;> rfl
  | insertTransaction row =>
      cases runs
      split <;> rfl
  | selectGaps account => exact same (run_selectGaps runs).1.symm
  | begin call => cases runs; exact setThread _ fun _ => rfl
  | rollback => cases runs; exact setThread _ fun _ => rfl
  | deleteNotification id => cases runs; exact setThread _ fun _ => rfl
  | selectInvoice id => cases runs; exact setThread _ fun _ => rfl
  | skip invoice => cases runs; exact setThread _ fun _ => rfl
  | selectLastProcessed account => cases runs; exact setThread _ fun _ => rfl
  | selectTransactionByParent account lt => cases runs; exact setThread _ fun _ => rfl
  | getTransactions account lt hash => cases runs; exact setThread _ fun _ => rfl
  | setLastLt lt => cases runs; exact setThread _ fun _ => rfl
  | now => exact same (congrArg Prod.snd (Option.some.inj runs))
  | selectCurrencyID type info => exact same (congrArg Prod.snd (Option.some.inj runs))
  | selectCurrency id => exact same (congrArg Prod.snd (Option.some.inj runs))
  | selectKey address => exact same (congrArg Prod.snd (Option.some.inj runs))
  | selectLtBelow account lt => exact same (congrArg Prod.snd (Option.some.inj runs))
  | selectLastLt account => exact same (congrArg Prod.snd (Option.some.inj runs))
  | getAccountState account => exact same (congrArg Prod.snd (Option.some.inj runs))
  | getLastLt => exact same (congrArg Prod.snd (Option.some.inj runs))

theorem runUnder_job {fault : Fault} {choice : Choice} {t : τ} {op : Stmt} {w w' : World τ}
    {answer : Except Err op.Val} (runs : op.runUnder fault choice t w = some (answer, w')) :
    w'.job = w.job := by
  obtain ⟨_, ran⟩ | ⟨_, _, _, rfl⟩ | ⟨_, _, _, _, w₀, ran, rfl⟩ := runUnder_cases runs
  · exact run_job ran
  · exact World.job_setThread fun _ => rfl
  · exact (World.job_setThread (f := Thread.fail) fun _ => rfl).trans (run_job ran)

end Stmt

end SpiceHarvester
