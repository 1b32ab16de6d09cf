import SpiceHarvester.Ledger.Books
import SpiceHarvester.Protocol.Soundness

/-!
# The service keeps the books

Every step of the service is a step of the books, or leaves them as they are
(`Moves.books`). The steps of the books are taken in the situations that the
discipline describes, so that what holds of the books in every run holds of the
invoices in every run of the service.
-/

set_option autoImplicit false

namespace SpiceHarvester

open Interleaving Sql

/-! ## The books of a state -/

/-- The version of an invoice that a transaction has written last. -/
def Tx.mine (tx : Tx) (id : InvoiceID) : Option InvoiceRow :=
  tx.invoices.find? fun row => decide (row.id = id)

def Tx.book (tx : Tx) : Book := ⟨tx.call, tx.looked, tx.reading, tx.paid⟩

variable [Libraries] {τ : Type}

namespace World

/-- The invoices and their open versions. -/
def versions (w : World τ) : Versions τ InvoiceID InvoiceRow where
  row := w.db.invoices.find
  mine t := (w.tx t).elim (fun _ => none) Tx.mine

/-- The books of a state. -/
def books (w : World τ) : Books τ where
  currencies := w.db.currencies
  rows := w.versions
  books t := (w.tx t).map Tx.book
  calls := w.history.calls
  changes := w.history.changes

section Reading

variable {w w' : World τ} {t : τ} {tx : Tx}

theorem mine_of_tx (opened : w.tx t = some tx) : w.versions.mine t = tx.mine := by
  change (w.tx t).elim (fun _ => none) Tx.mine = tx.mine
  rw [opened]
  rfl

theorem free_of_idle (idle : w.tx t = none) (id : InvoiceID) : w.versions.mine t id = none := by
  change (w.tx t).elim (fun _ => none) Tx.mine id = none
  rw [idle]
  rfl

theorem book_of_tx (opened : w.tx t = some tx) : w.books.books t = some tx.book := by
  change (w.tx t).map Tx.book = some tx.book
  rw [opened, Option.map_some]

/-- Only versions of stored invoices are written. -/
theorem Sane.stored_of_mine (sane : w.Sane) (opened : w.tx t = some tx) {id : InvoiceID}
    {version : InvoiceRow} (held : tx.mine id = some version) :
    ∃ row, w.db.invoices.find id = some row := by
  have same : version.id = id := by simpa using List.find?_some held
  obtain ⟨row, found, _⟩ := sane.written opened (List.mem_of_find?_eq_some held)
  exact ⟨row, same ▸ found⟩

/-- **A transaction reads the books.** -/
theorem Sane.seen (sane : w.Sane) (opened : w.tx t = some tx) (id : InvoiceID) :
    w.versions.seen t id = (w.db.invoices.view tx.invoices).find id := by
  rw [Versions.seen, mine_of_tx opened, Table.find_view]
  change (tx.mine id).or (w.db.invoices.find id) = _
  cases found : w.db.invoices.find id with
  | none =>
      cases held : tx.mine id with
      | none => rfl
      | some version =>
          obtain ⟨row, found'⟩ := sane.stored_of_mine opened held
          rw [found] at found'
          cases found'
  | some row =>
      rw [Option.map_some, Table.latest, Table.key_of_find found]
      change _ = some ((tx.mine id).getD row)
      cases tx.mine id with
      | none => rfl
      | some version => rfl

/-- The books depend on the invoices, the open transactions and the history. -/
theorem books_congr (currencies : w'.db.currencies = w.db.currencies)
    (invoices : w'.db.invoices = w.db.invoices) (opened : w'.tx = w.tx)
    (calls : w'.history.calls = w.history.calls)
    (changes : w'.history.changes = w.history.changes) : w'.books = w.books := by
  unfold books versions
  rw [currencies, invoices, opened, calls, changes]

end Reading

variable [DecidableEq τ]

section Threads

variable {w : World τ} {t : τ} {tx tx' : Tx}

theorem tx_setThread_eq {f : Thread → Thread} (keeps : ∀ thread, (f thread).tx = thread.tx) :
    (w.setThread t f).tx = w.tx := by
  funext u
  by_cases same : u = t
  · subst same
    exact tx_setThread keeps
  · exact tx_congr (threads_setThread_of_ne same)

/-- A change of the own transaction in the books. -/
theorem tx_update {w' : World τ} {opened : Option Tx} (own : w'.tx t = opened)
    (others : ∀ {u}, u ≠ t → w'.threads u = w.threads u) :
    w'.tx = Function.update w.tx t opened := by
  funext u
  by_cases same : u = t
  · subst same
    rw [Function.update_self, own]
  · rw [Function.update_of_ne same]
    exact tx_congr (others same)

/-- The books after a change of one open transaction. -/
theorem books_update {w' : World τ} {opened : Option Tx}
    (own : w'.tx = Function.update w.tx t opened)
    (currencies : w'.db.currencies = w.db.currencies)
    (invoices : w'.db.invoices = w.db.invoices)
    (calls : w'.history.calls = w.history.calls)
    (changes : w'.history.changes = w.history.changes) :
    w'.books = { w.books.setBook t (opened.map Tx.book) with
      rows := ⟨w.versions.row,
        Function.update w.versions.mine t (opened.elim (fun _ => none) Tx.mine)⟩ } := by
  have updated : ∀ {α : Type} (f : Option Tx → α), (fun u => f (Function.update w.tx t opened u)) =
      Function.update (fun u => f (w.tx u)) t (f opened) := fun f => by
    funext u
    exact Function.apply_update (fun _ => f) w.tx t opened u
  unfold books versions Books.setBook
  rw [currencies, invoices, own, calls, changes, updated (Option.map Tx.book),
    updated fun tx => tx.elim (fun _ => none) Tx.mine]

/-- A transaction that has ended, or has not begun. -/
theorem books_closed {w' : World τ} (own : w'.tx t = none)
    (others : ∀ {u}, u ≠ t → w'.threads u = w.threads u)
    (currencies : w'.db.currencies = w.db.currencies)
    (invoices : w'.db.invoices = w.db.invoices) (calls : w'.history.calls = w.history.calls)
    (changes : w'.history.changes = w.history.changes) :
    w'.books = { w.books.setBook t none with rows := w.books.rows.release t } :=
  books_update (tx_update own others) currencies invoices calls changes

theorem books_setTx (opened : w.tx t = some tx) (same : tx'.invoices = tx.invoices) :
    (w.setTx t tx').books = w.books.setBook t (some tx'.book) := by
  rw [books_update (tx_update (tx_setTx opened) threads_setThread_of_ne) rfl rfl rfl rfl]
  have mine : tx'.mine = w.versions.mine t := by
    rw [mine_of_tx opened]
    unfold Tx.mine
    rw [same]
  change { w.books.setBook t (some tx'.book) with
    rows := ⟨w.versions.row, Function.update w.versions.mine t tx'.mine⟩ } = _
  rw [mine, Function.update_eq_self]
  rfl

theorem books_setTx_quiet (opened : w.tx t = some tx) (same : tx'.invoices = tx.invoices)
    (book : tx'.book = tx.book) : (w.setTx t tx').books = w.books := by
  rw [books_setTx opened same, book, Books.setBook, ← book_of_tx opened, Function.update_eq_self]

/-- An `UPDATE` of one invoice in the transaction. -/
theorem books_rewrite (sane : w.Sane) (opened : w.tx t = some tx) {id : InvoiceID}
    {f : InvoiceRow → InvoiceRow} (keeps : ∀ row, (f row).id = row.id)
    (same : tx'.invoices =
      w.db.invoices.rewrite tx.invoices (fun row => decide (row.id = id)) f) :
    (w.setTx t tx').books = { w.books.setBook t (some tx'.book) with
      rows := w.books.rows.rewrite t id f } := by
  rw [books_update (tx_update (tx_setTx opened) threads_setThread_of_ne) rfl rfl rfl rfl]
  have mine : tx'.mine = Function.update (w.versions.mine t) id ((w.versions.seen t id).map f) := by
    funext k
    unfold Tx.mine
    rw [same, Table.find?_rewrite _ _ _ _ keeps, sane.seen opened, mine_of_tx opened]
    by_cases here : k = id
    · subst here
      rw [if_pos rfl, Function.update_self]
      cases found : (w.db.invoices.view tx.invoices).find k with
      | some row => rfl
      | none =>
          rw [Option.map_none, Option.none_or]
          by_contra held
          obtain ⟨version, held⟩ := Option.ne_none_iff_exists'.mp held
          obtain ⟨row, stored⟩ := sane.stored_of_mine opened held
          rw [Table.find_view, stored] at found
          cases found
    · rw [if_neg here, Function.update_of_ne here, Option.none_or]
      rfl
  change { w.books.setBook t (some tx'.book) with
    rows := ⟨w.versions.row, Function.update w.versions.mine t tx'.mine⟩ } = _
  rw [mine]
  rfl

end Threads

end World

/-! ## Steps -/

/-- The condition of a statement that closes invoices outside a transaction. -/
def Stmt.closes : Stmt → Option (InvoiceRow → Bool)
  | .cancelInvoice time id => some (cancellable time id)
  | .markExpired time => some (expirable time)
  | _ => none

variable [DecidableEq τ]

/-- The rules of a run respect a guard of the books, in a state: invoices are
created as the guard allows, and where the outside lets a statement take effect
that closes invoices or begins a payment transaction, so does the guard. -/
structure Guarded (rules : Rules τ) (G : Guard τ) (w : World τ) : Prop where
  creates : ∀ {t thread invoice currencyID}, w.threads t = some thread →
    thread.job = .createInvoice invoice → G.creates (invoice.row currencyID)
  closes : ∀ {t op fault choice condition}, rules.exec w t op fault choice → fault ≠ .refused →
    op.closes = some condition → G.closes w.books condition
  begins : ∀ {t call fault choice}, rules.exec w t (.begin call) fault choice → fault ≠ .refused →
    G.begins w.books t call

namespace World

variable {w : World τ} {t : τ} {G : Guard τ}

/-- **`COMMIT`, in the books.** -/
theorem Sane.commit_step {tx : Tx} (sane : w.Sane) (opened : w.tx t = some tx)
    (complete : tx.Complete w.db.currencies) : Books.Step G w.books (w.commit t tx).books := by
  have step := Books.Step.commit (G := G) (book_of_tx opened) complete.2 complete.1
  have own : (w.commit t tx).tx = Function.update w.tx t none := by
    refine tx_update ?_ threads_setThread_of_ne
    obtain ⟨thread, held, _⟩ := tx_eq_some.mp opened
    have closed : (w.commit t tx).threads t = some (thread.close _ _) :=
      (threads_setThread _ _ _).trans (by rw [held]; rfl)
    rw [tx_eq closed]
    rfl
  have seen : (w.db.invoices.view tx.invoices).find = w.versions.seen t :=
    funext fun id => (sane.seen opened id).symm
  have changes : tx.changes (w.db.invoices.view tx.invoices) = w.books.settles t tx.paid := by
    unfold Tx.changes Books.settles
    rw [seen]
    rfl
  have same : (w.commit t tx).books = { w.books.setBook t none with
      rows := w.books.rows.commit t
      calls := w.books.calls ++ [⟨tx.call, tx.looked⟩]
      changes := w.books.changes ++ w.books.settles t tx.paid } := by
    have moved := books_update (w := { w with
        db := { w.db with invoices := w.db.invoices.view tx.invoices }
        history := (w.commit t tx).history }) own rfl rfl rfl rfl
    rw [moved]
    change Books.mk w.db.currencies ⟨(w.db.invoices.view tx.invoices).find,
      Function.update w.versions.mine t fun _ => none⟩ _ _ (w.history.changes ++ _) = _
    rw [seen, changes]
    rfl
  rw [same]
  exact step

variable [Fintype τ]

/-- A row that an `UPDATE` of the invoices hits is not locked. -/
theorem free_of_unblocked {condition : InvoiceRow → Bool} {tx : Tx} {row : InvoiceRow} {u : τ}
    (seen : Table InvoiceRow.id) (free : w.blocked t Tx.invoices seen condition = false)
    (other : u ≠ t) (opened : w.tx u = some tx) (found : seen.find row.id = some row)
    (hit : condition row = true) : w.versions.mine u row.id = none := by
  have unlocked := free_of_not_blocked free other opened (Table.find_eq_some.mp found).1 hit
  rw [mine_of_tx opened, Tx.mine, List.find?_eq_none]
  intro version member same
  have held : Table.owns InvoiceRow.id tx.invoices row.id = true :=
    Table.owns_iff.mpr ⟨version, member, by simpa using same⟩
  rw [unlocked] at held
  cases held

/-- A statement of the transaction that hits one row finds it unlocked. -/
theorem Sane.free_of_unblocked {tx : Tx} (sane : w.Sane) (opened : w.tx t = some tx) {id : InvoiceID}
    (free : w.blocked t Tx.invoices (w.db.invoices.view tx.invoices)
      (fun row => decide (row.id = id)) = false)
    (found : (w.versions.seen t id).isSome) {u : τ} (other : u ≠ t) :
    w.versions.mine u id = none := by
  rw [sane.seen opened] at found
  obtain ⟨row, found⟩ := Option.isSome_iff_exists.mp found
  obtain rfl := Table.key_of_find found
  cases opened' : w.tx u with
  | none => exact free_of_idle opened' _
  | some tx' => exact World.free_of_unblocked _ free other opened' found (by simp)

/-- **An `UPDATE` that closes invoices, in the books.** -/
theorem closeInvoices_step {status : InvoiceStatus} {time : Time} {condition : InvoiceRow → Bool}
    (idle : w.tx t = none) (terminal : status = .cancelled ∨ status = .expired)
    (waiting : ∀ row, condition row = true → row.status = .waiting)
    (free : w.blocked t Tx.invoices w.db.invoices condition = false)
    (allowed : G.closes w.books condition) :
    Books.Step G w.books (w.closeInvoices t status time condition).books := by
  have unlocked : ∀ u id row, w.db.invoices.find id = some row → condition row = true →
      w.versions.mine u id = none := by
    intro u id row found hit
    obtain rfl := Table.key_of_find found
    cases opened : w.tx u with
    | none => exact free_of_idle opened _
    | some tx =>
        have other : u ≠ t := by
          rintro rfl
          rw [idle] at opened
          cases opened
        exact free_of_unblocked _ free other opened found hit
  have hit : ∀ change, change ∈ w.closed status condition ↔
      ∃ row, w.db.invoices.find change.id = some row ∧ condition row = true ∧
        change = ⟨row.id, status, row.version + 1⟩ := by
    intro change
    simp only [closed, List.mem_map, List.mem_filter]
    constructor
    · rintro ⟨row, ⟨member, holds⟩, rfl⟩
      exact ⟨row, Table.find_of_mem member, holds, rfl⟩
    · rintro ⟨row, found, holds, same⟩
      exact ⟨row, ⟨(Table.find_eq_some.mp found).1, holds⟩, same.symm⟩
  have step := @Books.Step.close _ _ _ G w.books status time condition _ terminal waiting unlocked
    hit allowed
  have threads : (w.closeInvoices t status time condition).tx = w.tx :=
    tx_setThread_eq (f := Thread.owe (w.closed status condition)) fun _ => rfl
  have find : (w.closeInvoices t status time condition).db.invoices.find = fun id =>
      (w.db.invoices.find id).map fun row => if condition row then row.close status time else row :=
    funext (w.find_closeInvoices t status time condition)
  have same : (w.closeInvoices t status time condition).books = { w.books with
      rows := w.books.rows.update fun row => if condition row then row.close status time else row
      changes := w.books.changes ++ w.closed status condition } := by
    unfold books versions
    rw [threads, find]
    rfl
  rw [same]
  exact step

end World

section Steps

variable [Fintype τ] {rules : Rules τ} {G : Guard τ} {w w' : World τ} {t : τ}

/-- **A statement called in its situation is a step of the books**, or leaves
them as they are. -/
theorem Stmt.run_books {op : Stmt} {fault : Fault} {choice : Choice} {answer : Except Err op.Val}
    {thread : Thread} (sane : w.Sane) (guarded : Guarded rules G w)
    (allowed : rules.exec w t op fault choice) (effective : fault ≠ .refused)
    (held : w.threads t = some thread)
    (may : thread.may w.db.currencies w.history.delivered op)
    (runs : op.run choice t w = some (answer, w')) :
    w'.books = w.books ∨ Books.Step G w.books w'.books := by
  have quiet : ∀ {f : Thread → Thread}, (∀ thread, (f thread).tx = thread.tx) →
      (w.setThread t f).books = w.books := fun keeps =>
    World.books_congr rfl rfl (World.tx_setThread_eq keeps) rfl rfl
  have same : ∀ {w' : World τ}, w = w' →
      w'.books = w.books ∨ Books.Step G w.books w'.books := fun same => .inl (same ▸ rfl)
  have own : ∀ {tx : Tx}, thread.tx = some tx → w.tx t = some tx := fun opened =>
    (World.tx_eq held).trans opened
  cases op with
  | insertInvoice row =>
      obtain ⟨fresh, invoice, currencyID, job, rfl⟩ := may
      obtain ⟨_, invoices, _, inserted, _, rfl⟩ | ⟨_, rfl⟩ := run_insertInvoice runs
      · right
        have new : w.db.invoices.find (invoice.row currencyID).id = none := by
          by_contra found
          have taken := Table.insert?_eq_none.mpr (Option.isSome_iff_ne_none.mpr found)
          rw [inserted] at taken
          cases taken
        have step := Books.Step.create (b := w.books) new
          (guarded.creates held job : G.creates (invoice.row currencyID))
        have find : invoices.find = Function.update w.db.invoices.find (invoice.row currencyID).id
            (some (invoice.row currencyID)) := by
          funext id
          rw [Table.find_insert? inserted, Function.update_apply]
          by_cases here : id = (invoice.row currencyID).id
          · rw [if_pos here, if_pos here.symm]
          · rw [if_neg here, if_neg (Ne.symm here)]
        have threads : (w.create t (invoice.row currencyID) invoices).tx = w.tx :=
          World.tx_setThread_eq (f := Thread.owe [(invoice.row currencyID).snapshot]) fun _ => rfl
        have equal : (w.create t (invoice.row currencyID) invoices).books = { w.books with
            rows := w.books.rows.insert (invoice.row currencyID).id (invoice.row currencyID)
            changes := w.books.changes ++ [(invoice.row currencyID).snapshot] } := by
          unfold World.books World.versions
          rw [threads]
          change Books.mk _ ⟨invoices.find, _⟩ _ _ _ = _
          rw [find]
          rfl
        rw [equal]
        exact step
      · exact .inl rfl
  | cancelInvoice time id =>
      obtain ⟨free, _, rfl⟩ := run_cancelInvoice runs
      refine .inr (World.closeInvoices_step ((World.tx_eq held).trans may.1.tx) (.inl rfl) ?_ free
        (guarded.closes allowed effective rfl))
      intro row holds
      simp only [cancellable, Bool.and_eq_true, decide_eq_true_eq] at holds
      exact holds.1.2
  | markExpired time =>
      obtain ⟨free, _, rfl⟩ := run_markExpired runs
      refine .inr (World.closeInvoices_step ((World.tx_eq held).trans may.1.tx) (.inr rfl) ?_ free
        (guarded.closes allowed effective rfl))
      intro row holds
      simp only [expirable, Bool.and_eq_true, decide_eq_true_eq] at holds
      exact holds.1
  | begin call =>
      cases runs
      right
      have idle : w.tx t = none := (World.tx_eq held).trans may.1
      have closed : w.books.books t = none := by
        change (w.tx t).map Tx.book = none
        rw [idle, Option.map_none]
      have began : (w.setThread t fun thread =>
          { thread with tx := some (.begun call), credited := false }).tx t = some (.begun call) :=
        World.tx_eq ((World.threads_setThread _ _ _).trans (by rw [held]; rfl))
      have mine : w.versions.mine t = fun _ => none := funext (World.free_of_idle idle)
      rw [World.books_update (World.tx_update began World.threads_setThread_of_ne) rfl rfl rfl rfl]
      change Books.Step G w.books { w.books.setBook t (some (.begun call)) with
        rows := ⟨w.versions.row, Function.update w.versions.mine t fun _ => none⟩ }
      rw [← mine, Function.update_eq_self]
      exact .begin closed (guarded.begins allowed effective)
  | selectForPayment currency payment time =>
      obtain ⟨tx, opened, settled, _, next, found⟩ := may
      obtain ⟨tx', opened', _, rfl⟩ := run_selectForPayment runs
      rw [own opened, Option.some.injEq] at opened'
      subst opened'
      right
      have step := @Books.Step.look _ _ _ G w.books t tx.book payment time
        (World.book_of_tx (own opened)) settled next
      have seen : w.books.rows.seen t payment.invoiceID =
          (w.db.invoices.view tx.invoices).find payment.invoiceID := sane.seen (own opened) _
      have payable : w.books.payable t payment =
          SpiceHarvester.payable (w.db.invoices.view tx.invoices) currency payment := by
        unfold Books.payable SpiceHarvester.payable
        rw [seen]
        congr 1
        funext row
        change (decide (w.db.currencies.of payment.currency = some row.currency) && _) = _
        rw [found]
        congr 1
        exact decide_eq_decide.mpr
          ⟨fun same => (Option.some.inj same).symm, fun same => congrArg some same.symm⟩
      rw [payable, seen] at step
      rw [World.books_setTx (own opened)]
      · exact step
      · rfl
  | setOverpayment overpayment time id =>
      obtain ⟨tx, reading, opened, _, current, fresh, rfl, rfl, rfl⟩ := may
      obtain ⟨tx', opened', _, free, rfl⟩ := run_setOverpayment runs
      rw [own opened, Option.some.injEq] at opened'
      subst opened'
      right
      rw [World.books_rewrite sane (own opened) (InvoiceRow.id_credit _ _) rfl]
      have step := Books.Step.credit (G := G) (World.book_of_tx (own opened)) current fresh
        fun found u other => sane.free_of_unblocked (own opened) free found other
      have book : Tx.book { tx with
          invoices := w.db.invoices.rewrite tx.invoices
            (fun row => decide (row.id = reading.payment.invoiceID))
            (.credit (reading.row.overpayment + reading.payment.amount) reading.now)
          reading := tx.reading.map fun reading => { reading with credited := true } } =
          { tx.book with reading := some { reading with credited := true } } := by
        unfold Tx.book
        rw [current]
        rfl
      rw [book]
      exact step
  | setPaid time paidBy overpayment txHash id =>
      obtain ⟨tx, reading, opened, _, current, credited, pays, rfl, rfl, rfl, rfl, rfl⟩ := may
      obtain ⟨tx', opened', _, free, rfl⟩ := run_setPaid runs
      rw [own opened, Option.some.injEq] at opened'
      subst opened'
      right
      rw [World.books_rewrite sane (own opened) (InvoiceRow.id_pay _ _ _ _) rfl]
      exact Books.Step.pay (World.book_of_tx (own opened)) current credited pays
        fun found u other => sane.free_of_unblocked (own opened) free found other
  | commit =>
      obtain ⟨tx, opened, complete, _⟩ := may
      obtain ⟨tx', opened', _, rfl⟩ := run_commit runs
      rw [own opened, Option.some.injEq] at opened'
      subst opened'
      exact .inr (sane.commit_step (own opened) complete)
  | rollback =>
      cases runs
      right
      have ended : (w.setThread t fun thread => { thread with tx := none }).tx t = none :=
        World.tx_eq ((World.threads_setThread _ _ _).trans (by rw [held]; rfl))
      rw [World.books_closed ended World.threads_setThread_of_ne rfl rfl rfl rfl]
      exact .drop t
  | acceptKey address =>
      obtain ⟨tx, opened, _, _, rfl⟩ := run_acceptKey runs
      exact .inl (World.books_setTx_quiet opened rfl rfl)
  | setProcessingError error account lt =>
      obtain ⟨tx, opened, _, rfl⟩ := run_setProcessingError runs
      exact .inl (World.books_setTx_quiet opened rfl rfl)
  | setLastProcessed lt account =>
      obtain ⟨tx, opened, _, _, rfl⟩ := run_setLastProcessed runs
      exact .inl (World.books_setTx_quiet opened rfl rfl)
  | insertNotification row =>
      obtain ⟨_, _, _, rfl⟩ | ⟨_, _, rfl⟩ := run_insertNotification runs
      · exact .inl (World.books_congr rfl rfl
          (World.tx_setThread_eq (f := Thread.announce row.id) fun _ => rfl) rfl rfl)
      · exact .inl rfl
  | selectNotifications limit =>
      obtain ⟨_, _, _, _, rfl⟩ := run_selectNotifications runs
      exact .inl (quiet fun _ => rfl)
  | deleteNotification id =>
      cases runs
      exact .inl (World.books_congr rfl rfl
        (World.tx_setThread_eq (f := fun thread => { thread with held := thread.held.tail })
          fun _ => rfl) rfl rfl)
  | send invoice printable =>
      simp only [run] at runs
      split at runs <;> cases runs
      · exact .inl rfl
      · exact .inl (quiet fun _ => rfl)
  | deleteExpiredKeys before =>
      obtain ⟨_, rfl⟩ := run_deleteExpiredKeys runs
      exact .inl rfl
  | updateAccount last block time account =>
      obtain ⟨_, _, rfl⟩ := run_updateAccount runs
      exact .inl rfl
  | insertKey address key time =>
      cases runs
      split <;> exact .inl rfl
  | insertTransaction row =>
      cases runs
      split <;> exact .inl rfl
  | selectGaps account => exact same (run_selectGaps runs).1.symm
  | selectInvoice id =>
      cases runs
      exact .inl (quiet fun _ => rfl)
  | skip invoice =>
      cases runs
      exact .inl (quiet fun _ => rfl)
  | selectLastProcessed account =>
      cases runs
      exact .inl (quiet fun _ => rfl)
  | selectTransactionByParent account lt =>
      cases runs
      exact .inl (quiet fun _ => rfl)
  | getTransactions account lt hash =>
      cases runs
      exact .inl (quiet fun _ => rfl)
  | setLastLt lt =>
      cases runs
      exact .inl (quiet fun _ => rfl)
  | now => exact same (congrArg Prod.snd (Option.some.inj runs))
  | selectCurrencyID type info => exact same (congrArg Prod.snd (Option.some.inj runs))
  | selectCurrency id => exact same (congrArg Prod.snd (Option.some.inj runs))
  | selectKey address => exact same (congrArg Prod.snd (Option.some.inj runs))
  | selectLtBelow account lt => exact same (congrArg Prod.snd (Option.some.inj runs))
  | selectLastLt account => exact same (congrArg Prod.snd (Option.some.inj runs))
  | getAccountState account => exact same (congrArg Prod.snd (Option.some.inj runs))
  | getLastLt => exact same (congrArg Prod.snd (Option.some.inj runs))

/-- **Every step of the service is a step of the books**, or leaves them as they
are. -/
theorem Moves.books (sane : w.Sane) (guarded : Guarded rules G w) (move : Moves rules w w') :
    w'.books = w.books ∨ Books.Step G w.books w'.books := by
  cases move with
  | @spawn t job allowed =>
      right
      rw [World.books_closed (World.tx_eq (w.threads_start t job)) World.threads_start_of_ne
        rfl rfl rfl rfl]
      exact .drop t
  | @retire t thread result held ended =>
      right
      have ended : (w.leave t).tx t = none := by
        rw [World.tx, World.threads_leave]
        rfl
      rw [World.books_closed ended World.threads_leave_of_ne rfl rfl rfl rfl]
      exact .drop t
  | crash allowed => exact .inr .stop
  | @exec t op fault choice answer thread w' allowed held may runs =>
      have failed : ∀ w : World τ, (w.setThread t Thread.fail).books = w.books := fun w =>
        World.books_congr rfl rfl (World.tx_setThread_eq fun _ => rfl) rfl rfl
      obtain ⟨rfl, ran⟩ | ⟨_, _, _, rfl⟩ | ⟨rfl, _, _, lost, w₀, ran, rfl⟩ :=
        Stmt.runUnder_cases runs
      · exact Stmt.run_books sane guarded allowed (by decide) held may ran
      · exact .inl (failed w)
      · rw [failed]
        exact Stmt.run_books sane guarded allowed (by decide) held may ran

end Steps

end SpiceHarvester
