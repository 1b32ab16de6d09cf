import SpiceHarvester.Protocol.Queries

/-!
# `SavePayments` keeps the discipline

The situations of a thread inside `SavePayments`: before its commit it owns an
open transaction whose progress is a property of the transaction (`Inside`),
after it some outbox rows remain to be written (`Announcing`). Where a statement
fails, only what the deferred rollback needs is left (`Saving`, `Saved`).
-/

set_option autoImplicit false

namespace SpiceHarvester

open Interleaving Sql

/-! ## The thread apart from its transaction -/

/-- The fields of a thread that `SavePayments` leaves alone. -/
def Thread.worker (thread : Thread) : Thread :=
  { thread with
    tx := none
    owed := []
    failed := false
    changed := false
    saved := false
    credited := false
    unsure := false }

/-- The thread has not committed since its last query for a transaction. -/
structure Saving (base thread : Thread) : Prop where
  worker : thread.worker = base.worker
  clear : thread.Clear
  saved : thread.saved = false

section Worker

variable {thread base : Thread}

theorem Thread.job_of_worker (same : thread.worker = base.worker) : thread.job = base.job := by
  change thread.worker.job = base.worker.job
  rw [same]

theorem Thread.fetched_of_worker (same : thread.worker = base.worker) :
    thread.fetched = base.fetched := by
  change thread.worker.fetched = base.worker.fetched
  rw [same]

theorem Thread.cursor_of_worker (same : thread.worker = base.worker) :
    thread.cursor = base.cursor := by
  change thread.worker.cursor = base.worker.cursor
  rw [same]

theorem Thread.lastRead_of_worker (same : thread.worker = base.worker) :
    thread.lastRead = base.lastRead := by
  change thread.worker.lastRead = base.worker.lastRead
  rw [same]

end Worker

theorem Thread.clear_fail (thread : Thread) : thread.fail.Clear := by
  unfold Clear fail
  cases thread.owed with
  | nil => exact .inl rfl
  | cons change rest => exact .inr (by simp)

theorem Saving.fail {base thread : Thread} (saving : Saving base thread) :
    Saving base thread.fail :=
  ⟨saving.worker, thread.clear_fail, saving.saved⟩

theorem Saving.setTx {base thread : Thread} (saving : Saving base thread) (tx : Option Tx) :
    Saving base { thread with tx := tx } :=
  ⟨saving.worker, saving.clear, saving.saved⟩

/-- `SavePayments` has ended, with or without a commit. -/
structure Saved (base : Thread) {α : Type} (result : Except Err α) (thread : Thread) : Prop where
  worker : thread.worker = base.worker
  clear : thread.Clear
  saved :
    match result with
    | .ok _ => thread.saved = true
    | .error _ => thread.saved = false ∨ thread.credited = false ∨ thread.unsure = true

theorem Saving.ended {base thread : Thread} (saving : Saving base thread) {α : Type}
    (error : Err) : Saved base (.error error : Except Err α) thread :=
  ⟨saving.worker, saving.clear, .inl saving.saved⟩

theorem Saved.fail {base thread : Thread} {α β : Type} {error : Err}
    (ended : Saved base (.error error : Except Err α) thread) (error' : Err) :
    Saved base (.error error' : Except Err β) thread.fail where
  worker := ended.worker
  clear := thread.clear_fail
  saved := ended.saved.imp id fun known => known.imp id fun unsure => by
    rw [Thread.fail, unsure, Bool.true_or]

/-! ## Situations -/

section Situations

variable [Libraries] {τ : Type}

/-- The thread owns the open transaction of a call, and `Φ` says how far it is. -/
def Inside (base : Thread) (call : PaymentCall) (Φ : Currencies → Tx → Prop) (thread : Thread)
    (w : World τ) : Prop :=
  Saving base thread ∧ ∃ tx, thread.tx = some tx ∧ tx.call = call ∧ Φ w.db.currencies tx

theorem lasting_inside (base : Thread) (call : PaymentCall) (Φ : Currencies → Tx → Prop) :
    Lasting (Inside base call Φ : Thread → World τ → Prop) := by
  rintro thread w w' grows ⟨saving, tx, opened, same, holds⟩
  exact ⟨saving, tx, opened, same, grows.currencies ▸ holds⟩

/-- What a statement inside the transaction leads to: `Ψ` unless it failed. -/
def InsideAfter {α : Type} (base : Thread) (call : PaymentCall)
    (Ψ : Except Err α → Currencies → Tx → Prop) (answer : Except Err α) (thread : Thread)
    (w : World τ) : Prop :=
  Saving base thread ∧ (answer = .error .failed ∨
    ∃ tx, thread.tx = some tx ∧ tx.call = call ∧ Ψ answer w.db.currencies tx)

theorem lasting_insideAfter {α : Type} (base : Thread) (call : PaymentCall)
    (Ψ : Except Err α → Currencies → Tx → Prop) (answer : Except Err α) :
    Lasting (InsideAfter base call Ψ answer : Thread → World τ → Prop) := by
  rintro thread w w' grows ⟨saving, failed | ⟨tx, opened, same, holds⟩⟩
  · exact ⟨saving, .inl failed⟩
  · exact ⟨saving, .inr ⟨tx, opened, same, grows.currencies ▸ holds⟩⟩

theorem inside_of_ok {α : Type} {base : Thread} {call : PaymentCall}
    {Ψ : Except Err α → Currencies → Tx → Prop} {value : α} {thread : Thread} {w : World τ}
    (after : InsideAfter base call Ψ (.ok value) thread w) :
    Inside base call (Ψ (.ok value)) thread w :=
  ⟨after.1, after.2.resolve_left fun failed => by cases failed⟩

/-! ### Before the commit -/

/-- Between two payments: the payments that remain, and the invoices made paid. -/
structure Between (rest : List Payment) (paid : List InvoiceID) (currencies : Currencies) (tx : Tx) :
    Prop where
  settled : tx.Settled
  processed : tx.processed = false
  parsed : tx.call.parsingError = none
  tracked : tx.call.tracked currencies = tx.looked.map Prod.fst ++
    rest.filter fun payment => (currencies.of payment.currency).isSome
  paid : tx.paid = paid

/-- A payment is in progress: its invoice has been read. -/
structure Reads (rest : List Payment) (paid : List InvoiceID) (reading : Reading)
    (currencies : Currencies) (tx : Tx) : Prop where
  current : tx.reading = some reading
  known : (currencies.of reading.payment.currency).isSome
  processed : tx.processed = false
  parsed : tx.call.parsingError = none
  tracked : tx.call.tracked currencies = tx.looked.map Prod.fst ++
    rest.filter fun payment => (currencies.of payment.currency).isSome
  paid : tx.paid = paid

theorem Reads.between {rest : List Payment} {paid : List InvoiceID} {reading : Reading}
    {currencies : Currencies} {tx : Tx} (reads : Reads rest paid reading currencies tx)
    (credited : reading.credited = true) (unpaid : reading.pays = false) :
    Between rest paid currencies tx where
  settled := by
    intro found same
    rw [reads.current, Option.some.injEq] at same
    exact same ▸ ⟨credited, unpaid⟩
  processed := reads.processed
  parsed := reads.parsed
  tracked := reads.tracked
  paid := reads.paid

/-- Invoices for the outbox: each is paid, and its currency is tracked. -/
def Announceable (invoices : List Invoice) (currencies : Currencies) : Prop :=
  ∀ invoice ∈ invoices, invoice.status = .paid ∧ (currencies.of invoice.currency).isSome

/-- What a loop over payments leads to: the invoices for the outbox are those
made paid. -/
def Paid (base : Thread) (call : PaymentCall) (rest : List Payment) (paid : List InvoiceID)
    (result : Except Err (List Invoice)) (thread : Thread) (w : World τ) : Prop :=
  match result with
  | .ok invoices =>
      Announceable invoices w.db.currencies ∧
        Inside base call (Between rest (paid ++ invoices.map Invoice.id)) thread w
  | .error _ => Saving base thread

theorem lasting_paid (base : Thread) (call : PaymentCall) (rest : List Payment)
    (paid : List InvoiceID) (result : Except Err (List Invoice)) :
    Lasting (Paid base call rest paid result : Thread → World τ → Prop) := by
  intro thread w w' grows holds
  cases result with
  | error error => exact holds
  | ok invoices =>
      exact ⟨grows.currencies ▸ holds.1, lasting_inside _ _ _ _ _ _ grows holds.2⟩

/-- What the `SELECT` of a payment leads to. -/
def Selected (base : Thread) (call : PaymentCall) (payment : Payment) (now : Time)
    (rest : List Payment) (paid : List InvoiceID) :
    Except Err InvoiceRow → Thread → World τ → Prop :=
  InsideAfter base call fun answer currencies tx =>
    match answer with
    | .ok row => Reads rest paid ⟨payment, row, now, false⟩ currencies tx
    | .error _ => Between rest paid currencies tx

/-- All payments of the call have been dealt with, or its parsing error has been
written; `paid` are the invoices made paid. -/
structure Dealt (paid : List InvoiceID) (currencies : Currencies) (tx : Tx) : Prop where
  complete : tx.Complete currencies
  marked : tx.Marked
  paid : tx.paid = paid

/-- What the payments or the parsing error lead to. -/
def Recorded (base : Thread) (call : PaymentCall) (result : Except Err (List Invoice))
    (thread : Thread) (w : World τ) : Prop :=
  match result with
  | .ok invoices =>
      Announceable invoices w.db.currencies ∧
        Inside base call (Dealt (invoices.map Invoice.id)) thread w
  | .error _ => Saving base thread

/-- What the transaction leads to before its commit. -/
def Written (base : Thread) (call : PaymentCall) (result : Except Err (List Invoice))
    (thread : Thread) (w : World τ) : Prop :=
  match result with
  | .ok invoices =>
      Announceable invoices w.db.currencies ∧
        Inside base call (fun currencies tx =>
          tx.processed = true ∧ Dealt (invoices.map Invoice.id) currencies tx) thread w
  | .error _ => Saving base thread

/-! ### After the commit -/

/-- The transaction has committed; the outbox rows of some invoices remain to be
written. -/
structure Announcing (base : Thread) (rest : List Invoice) (thread : Thread) (w : World τ) :
    Prop where
  worker : thread.worker = base.worker
  tx : thread.tx = none
  saved : thread.saved = true
  owed : thread.failed = true ∨
    ∀ change ∈ thread.owed, change.status = .paid ∧ change.id ∈ rest.map Invoice.id
  announceable : Announceable rest w.db.currencies

namespace Announcing

variable {base : Thread} {rest : List Invoice} {thread : Thread} {w : World τ}

theorem lasting (base : Thread) (rest : List Invoice) :
    Lasting (Announcing base rest : Thread → World τ → Prop) :=
  fun _ _ _ grows holds => { holds with announceable := grows.currencies ▸ holds.announceable }

/-- A failure after the commit. -/
theorem fail (announcing : Announcing base rest thread w) {α : Type} (error : Err) :
    Saved base (.error error : Except Err α) thread.fail where
  worker := announcing.worker
  clear := thread.clear_fail
  saved := by
    unfold Thread.fail
    cases credited : thread.credited with
    | false => exact .inr (.inl rfl)
    | true => exact .inr (.inr (by simp))

theorem ended (announcing : Announcing base [] thread w) {α : Type} (value : α) :
    Saved base (.ok value : Except Err α) thread where
  worker := announcing.worker
  clear := by
    obtain failed | owed := announcing.owed
    · exact .inr failed
    · refine .inl (List.eq_nil_iff_forall_not_mem.mpr fun change member => ?_)
      exact absurd (owed change member).2 List.not_mem_nil
  saved := announcing.saved

theorem mayAnnounce {invoice : Invoice} (announcing : Announcing base (invoice :: rest) thread w)
    (currencyID : UUID) : thread.MayAnnounce (invoice.row currencyID) := by
  intro change member _
  obtain failed | owed := announcing.owed
  · exact .inl failed
  · refine .inr (.inl ?_)
    rw [(owed change member).1]
    exact (announcing.announceable invoice List.mem_cons_self).1

theorem announce {invoice : Invoice} (announcing : Announcing base (invoice :: rest) thread w)
    {w' : World τ} (same : w'.db.currencies = w.db.currencies) :
    Announcing base rest (thread.announce invoice.id) w' where
  worker := announcing.worker
  tx := announcing.tx
  saved := announcing.saved
  owed := by
    refine announcing.owed.imp id fun owed change member => ?_
    rw [Thread.announce, List.mem_filter, Bool.not_eq_true', decide_eq_false_iff_not] at member
    obtain ⟨paid, among⟩ := owed change member.1
    rw [List.map_cons, List.mem_cons] at among
    exact ⟨paid, among.resolve_left member.2⟩
  announceable := by
    rw [same]
    exact fun other member => announcing.announceable other (List.mem_cons_of_mem _ member)

end Announcing

end Situations

variable [Libraries] {τ : Type} [DecidableEq τ] [Fintype τ]
  {printing : Printing} {rules : Rules τ} {t : τ}

/-! ## Inside the transaction -/

/-- The rule of a statement of the transaction. -/
theorem inside_keeps {base : Thread} {call : PaymentCall} {op : Stmt}
    {Φ : Currencies → Tx → Prop} {Ψ : Except Err op.Val → Currencies → Tx → Prop}
    (may : ∀ {thread : Thread} {currencies delivered tx}, thread.tx = some tx → tx.call = call →
      Φ currencies tx → thread.may currencies delivered op)
    (ran : ∀ {w : World τ} {choice answer w' tx}, w.tx t = some tx → tx.call = call →
      Φ w.db.currencies tx → op.run choice t w = some (answer, w') →
      ∃ tx', w' = w.setTx t tx' ∧ tx'.call = call ∧ Ψ answer w.db.currencies tx') :
    Keeps printing rules t (Inside base call Φ) (perform op) (InsideAfter base call Ψ) := by
  refine .perform (lasting_inside base call Φ) (lasting_insideAfter base call Ψ) ?_ ?_
    (fun _ {_ _} holds => ⟨holds.1.fail, .inl rfl⟩) fun _ {_ _ _} holds => ⟨holds.1.fail, .inl rfl⟩
  · rintro thread w _ ⟨_, tx, opened, same, holds⟩
    exact may opened same holds
  · rintro thread w choice answer w' _ held ⟨saving, tx, opened, same, holds⟩ runs
    obtain ⟨tx', rfl, same', holds'⟩ := ran ((World.tx_eq held).trans opened) same holds runs
    exact own_setThread held ⟨saving.setTx _, .inr ⟨tx', rfl, same', holds'⟩⟩

/-! ### One payment -/

theorem selectForPayment_keeps {base : Thread} {call : PaymentCall} {payment : Payment}
    {rest : List Payment} {paid : List InvoiceID} {currency : UUID} {now : Time} :
    Keeps printing rules t
      (Inside (τ := τ) base call fun currencies tx =>
        currencies.of payment.currency = some currency ∧
          Between (payment :: rest) paid currencies tx)
      (perform (.selectForPayment currency payment now))
      (Selected base call payment now rest paid) := by
  have front : ∀ {currencies : Currencies}, currencies.of payment.currency = some currency →
      (payment :: rest).filter (fun payment => (currencies.of payment.currency).isSome) =
        payment :: rest.filter fun payment => (currencies.of payment.currency).isSome := by
    intro currencies found
    rw [List.filter_cons_of_pos (by rw [found]; rfl)]
  refine inside_keeps ?_ ?_
  · rintro thread currencies delivered tx opened _ ⟨found, between⟩
    exact ⟨tx, opened, between.settled, between.processed,
      ⟨_, between.tracked.trans (by rw [front found])⟩, found⟩
  · rintro w choice answer w' tx opened same ⟨found, between⟩ runs
    obtain ⟨tx', opened', rfl, rfl⟩ := Stmt.run_selectForPayment runs
    rw [opened, Option.some.injEq] at opened'
    subst opened'
    have tracked := between.tracked
    rw [front found] at tracked
    refine ⟨_, rfl, same, ?_⟩
    cases payable (w.db.invoices.view tx.invoices) currency payment with
    | none =>
        exact {
          settled := fun _ none => by cases none
          processed := between.processed
          parsed := between.parsed
          tracked := by simpa using tracked
          paid := between.paid }
    | some row =>
        exact {
          current := rfl
          known := by rw [found]; rfl
          processed := between.processed
          parsed := between.parsed
          tracked := by simpa using tracked
          paid := between.paid }

theorem acceptKey_keeps {base : Thread} {call : PaymentCall} {rest : List Payment}
    {paid : List InvoiceID} (reading : Reading)
    (fresh : reading.credited = false) :
    Keeps printing rules t (Inside (τ := τ) base call (Reads rest paid reading))
      (perform (.acceptKey reading.payment.paidBy))
      (InsideAfter base call fun _ => Reads rest paid reading) := by
  refine inside_keeps ?_ ?_
  · rintro thread currencies delivered tx opened _ reads
    exact ⟨tx, reading, opened, reads.parsed, reads.current, fresh, rfl⟩
  · rintro w choice answer w' tx opened same reads runs
    obtain ⟨tx', opened', _, _, rfl⟩ := Stmt.run_acceptKey runs
    rw [opened, Option.some.injEq] at opened'
    subst opened'
    exact ⟨_, rfl, same, { reads with }⟩

theorem setOverpayment_keeps {base : Thread} {call : PaymentCall} {rest : List Payment}
    {paid : List InvoiceID} (reading : Reading)
    (fresh : reading.credited = false) :
    Keeps printing rules t (Inside (τ := τ) base call (Reads rest paid reading))
      (perform (.setOverpayment (reading.row.overpayment + reading.payment.amount) reading.now
        reading.payment.invoiceID))
      (InsideAfter base call fun _ => Reads rest paid { reading with credited := true }) := by
  refine inside_keeps ?_ ?_
  · rintro thread currencies delivered tx opened _ reads
    exact ⟨tx, reading, opened, reads.parsed, reads.current, fresh, rfl, rfl, rfl⟩
  · rintro w choice answer w' tx opened same reads runs
    obtain ⟨tx', opened', _, _, rfl⟩ := Stmt.run_setOverpayment runs
    rw [opened, Option.some.injEq] at opened'
    subst opened'
    exact ⟨_, rfl, same, { reads with current := by rw [reads.current]; rfl }⟩

theorem setPaid_keeps {base : Thread} {call : PaymentCall} {rest : List Payment}
    {paid : List InvoiceID} (reading : Reading)
    (credited : reading.credited = true)
    (pays : reading.pays = true) :
    Keeps printing rules t (Inside (τ := τ) base call (Reads rest paid reading))
      (perform (.setPaid reading.now reading.payment.paidBy
        (reading.row.overpayment + reading.payment.amount - reading.row.amount)
        reading.payment.txHash reading.payment.invoiceID))
      (InsideAfter base call fun _ currencies tx =>
        (currencies.of reading.payment.currency).isSome ∧
          Between rest (paid ++ [reading.payment.invoiceID]) currencies tx) := by
  refine inside_keeps ?_ ?_
  · rintro thread currencies delivered tx opened _ reads
    exact ⟨tx, reading, opened, reads.parsed, reads.current, credited, pays, rfl, rfl, rfl, rfl, rfl⟩
  · rintro w choice answer w' tx opened same reads runs
    obtain ⟨tx', opened', _, _, rfl⟩ := Stmt.run_setPaid runs
    rw [opened, Option.some.injEq] at opened'
    subst opened'
    refine ⟨_, rfl, same, reads.known, ?_⟩
    exact {
      settled := fun _ none => by cases none
      processed := reads.processed
      parsed := reads.parsed
      tracked := reads.tracked
      paid := by rw [reads.paid] }

/-! ### The loop over the payments -/

theorem creditPayment_keeps {base : Thread} {call : PaymentCall} {payment : Payment} {now : Time}
    {row : InvoiceRow} {rest : List Payment} {paid : List InvoiceID} :
    Keeps printing rules t
      (Inside (τ := τ) base call (Reads rest paid ⟨payment, row, now, false⟩))
      (creditPayment payment now row) (Paid base call rest paid) := by
  refine .bind (acceptKey_keeps _ rfl) (fun _ => ?_) fun holds => holds.1
  refine .bind (.strengthen (setOverpayment_keeps ⟨payment, row, now, false⟩ rfl)
    fun _ holds => inside_of_ok holds) (fun _ => ?_) fun holds => holds.1
  -- The branches of the source are those on `Reading.pays`.
  have pays : (⟨payment, row, now, true⟩ : Reading).pays = true ↔
      ¬ (row.status ≠ .waiting ∨ row.expireAt < now) ∧
        ¬ row.overpayment + payment.amount < row.amount := by
    simp only [Reading.pays, Bool.and_eq_true, decide_eq_true_eq, Bool.not_eq_true',
      decide_eq_false_iff_not, not_or, not_not]
  have done : ∀ {thread : Thread} {w : World τ}, (⟨payment, row, now, true⟩ : Reading).pays = false →
      InsideAfter base call (fun _ : Except Err Unit => Reads rest paid ⟨payment, row, now, true⟩)
        (.ok ()) thread w → Paid base call rest paid (.ok []) thread w := by
    intro thread w unpaid holds
    obtain ⟨saving, tx, opened, same, reads⟩ := inside_of_ok holds
    refine ⟨fun _ member => (by cases member), saving, tx, opened, same, ?_⟩
    rw [List.map_nil, List.append_nil]
    exact reads.between rfl unpaid
  split
  · rename_i closed
    exact Keeps.ret (lasting_insideAfter _ _ _ _) fun _ holds =>
      done (Bool.eq_false_iff.mpr fun found => (pays.mp found).1 closed) holds
  split
  · rename_i _ less
    exact Keeps.ret (lasting_insideAfter _ _ _ _) fun _ holds =>
      done (Bool.eq_false_iff.mpr fun found => (pays.mp found).2 less) holds
  · rename_i open' enough
    refine .bind (.strengthen (setPaid_keeps ⟨payment, row, now, true⟩ rfl
      (pays.mpr ⟨open', enough⟩)) fun _ holds => inside_of_ok holds) (fun _ => ?_)
      fun holds => holds.1
    refine Keeps.ret (lasting_insideAfter _ _ _ _) fun _ holds => ?_
    obtain ⟨saving, tx, opened, same, known, between⟩ := inside_of_ok holds
    refine ⟨fun invoice member => ?_, saving, tx, opened, same, between⟩
    rw [List.mem_singleton] at member
    subst member
    exact ⟨rfl, known⟩

theorem processPayment_keeps {base : Thread} {call : PaymentCall} {payment : Payment}
    {rest : List Payment} {paid : List InvoiceID} :
    Keeps printing rules t (Inside (τ := τ) base call (Between (payment :: rest) paid))
      (processPayment payment) (Paid base call rest paid) := by
  refine .attempt_bind (getCurrencyID_keeps (E := fun thread _ => Saving base thread)
    (lasting_inside _ _ _) (lasting_const _) (fun holds => holds.1.fail) Saving.fail
    payment.currency) (fun result => ?_)
  have lasting := lasting_answers (lasting_inside base call (Between (payment :: rest) paid))
    (lasting_const (τ := τ) (Saving base)) payment.currency result
  rcases result with (_ | _ | _ | message) | currencyID
  · -- The currency is not tracked.
    refine Keeps.ret lasting fun _ ⟨unknown, saving, tx, opened, same, between⟩ => ?_
    refine ⟨fun _ member => (by cases member), saving, tx, opened, same, ?_⟩
    have tracked := between.tracked
    rw [List.filter_cons_of_neg (by rw [unknown]; simp)] at tracked
    rw [List.map_nil, List.append_nil]
    exact { between with tracked := tracked }
  · exact Keeps.ret lasting fun _ holds => by cases holds
  · exact Keeps.ret lasting fun _ holds => holds
  · exact Keeps.ret lasting fun _ holds => by cases holds
  refine .bind (now_keeps lasting) (fun now => ?_) fun ⟨⟨_, failed⟩, _⟩ => by cases failed
  have selected : Keeps printing rules t
      (fun thread w => (∃ time, (.ok now : Except Err Time) = .ok time) ∧
        Answers (Inside (τ := τ) base call (Between (payment :: rest) paid))
          (fun thread _ => Saving base thread) payment.currency (.ok currencyID) thread w)
      (perform (.selectForPayment currencyID payment now))
      (Selected base call payment now rest paid) :=
    selectForPayment_keeps.strengthen fun _ ⟨_, found, saving, tx, opened, same, between⟩ =>
      ⟨saving, tx, opened, same, found, between⟩
  refine .attempt_bind selected fun result => ?_
  have lasting' : Lasting (Selected (τ := τ) base call payment now rest paid result) :=
    lasting_insideAfter _ _ _ _
  rcases result with (_ | _ | _ | message) | row
  · exact Keeps.ret lasting' fun _ holds => holds.1
  · -- No invoice is found.
    refine Keeps.ret lasting' fun _ ⟨saving, found⟩ => ?_
    obtain ⟨tx, opened, same, between⟩ := found.resolve_left fun failed => by cases failed
    refine ⟨fun _ member => (by cases member), saving, tx, opened, same, ?_⟩
    rw [List.map_nil, List.append_nil]
    exact between
  · exact Keeps.ret lasting' fun _ holds => holds.1
  · exact Keeps.ret lasting' fun _ holds => holds.1
  · exact creditPayment_keeps.strengthen fun _ holds => inside_of_ok holds

/-- **The loop over the payments keeps the discipline.** -/
theorem processPayments_keeps (base : Thread) (call : PaymentCall) (rest : List Payment)
    (paid : List InvoiceID) :
    Keeps printing rules t (Inside (τ := τ) base call (Between rest paid)) (processPayments rest)
      (Paid base call [] paid) := by
  induction rest generalizing paid with
  | nil =>
      refine Keeps.ret (lasting_inside _ _ _) fun _ ⟨saving, tx, opened, same, between⟩ => ?_
      refine ⟨fun _ member => (by cases member), saving, tx, opened, same, ?_⟩
      rw [List.map_nil, List.append_nil]
      exact between
  | cons payment rest ih =>
      refine .bind processPayment_keeps (fun first => ?_) fun holds => holds
      refine .bind (.frame (ih (paid ++ first.map Invoice.id))
        (lasting_currencies (Announceable first))) (fun others => ?_) fun holds => holds.2
      refine Keeps.ret ?_ fun _ ⟨announced, announced', inside⟩ => ⟨fun invoice member => ?_, ?_⟩
      · exact (lasting_currencies _).and (lasting_paid _ _ _ _ _)
      · exact (List.mem_append.mp member).elim (announced invoice) (announced' invoice)
      · rw [List.map_append, ← List.append_assoc]
        exact inside

/-! ### From `BEGIN` to `COMMIT` -/

theorem begin_keeps {base : Thread} {call : PaymentCall} (mayBegin : base.MayBegin call)
    (unread : base.lastRead = none) :
    Keeps printing rules t (fun thread (_ : World τ) => Saving base thread ∧ thread.tx = none)
      (perform (.begin call)) (InsideAfter base call fun _ _ tx => tx = .begun call) := by
  refine .perform (lasting_const _) (lasting_insideAfter _ _ _) ?_ ?_
    (fun _ {_ _} holds => ⟨holds.1.fail, .inl rfl⟩) fun _ {_ _ _} holds => ⟨holds.1.fail, .inl rfl⟩
  · rintro thread w _ ⟨saving, closed⟩
    refine ⟨closed, (Thread.lastRead_of_worker saving.worker).trans unread, saving.clear,
      saving.saved, ?_⟩
    unfold Thread.MayBegin
    rw [Thread.job_of_worker saving.worker, Thread.fetched_of_worker saving.worker]
    exact mayBegin
  · rintro thread w choice answer w' _ held ⟨saving, _⟩ runs
    cases runs
    exact own_setThread held
      ⟨⟨saving.worker, saving.clear, saving.saved⟩, .inr ⟨_, rfl, rfl, rfl⟩⟩

theorem setProcessingError_keeps {base : Thread} {call : PaymentCall} {error : String}
    (fails : call.parsingError = some error) :
    Keeps printing rules t (Inside (τ := τ) base call fun _ tx => tx = .begun call)
      (perform (.setProcessingError error call.account call.txLt))
      (InsideAfter base call fun _ => Dealt []) := by
  refine inside_keeps ?_ ?_
  · rintro thread currencies delivered tx opened _ rfl
    exact ⟨_, opened, fails, rfl, rfl⟩
  · rintro w choice answer w' tx opened _ rfl runs
    obtain ⟨tx', opened', _, rfl⟩ := Stmt.run_setProcessingError runs
    rw [opened, Option.some.injEq] at opened'
    subst opened'
    refine ⟨_, rfl, rfl, ⟨?_, fun _ none => by cases none⟩, fun _ _ => rfl, rfl⟩
    simp only [Tx.begun, PaymentCall.tracked, fails, List.map_nil]

theorem setLastProcessed_keeps {base : Thread} {call : PaymentCall} {paid : List InvoiceID} :
    Keeps printing rules t (Inside (τ := τ) base call (Dealt paid))
      (perform (.setLastProcessed call.txLt call.account))
      (InsideAfter base call fun _ currencies tx => tx.processed = true ∧ Dealt paid currencies tx) := by
  refine inside_keeps ?_ ?_
  · rintro thread currencies delivered tx opened rfl dealt
    exact ⟨tx, opened, dealt.complete, rfl, rfl⟩
  · rintro w choice answer w' tx opened same dealt runs
    obtain ⟨tx', opened', _, _, rfl⟩ := Stmt.run_setLastProcessed runs
    rw [opened, Option.some.injEq] at opened'
    subst opened'
    exact ⟨_, rfl, same, rfl, dealt.complete, dealt.marked, dealt.paid⟩

theorem recordPayments_keeps {base : Thread} {call : PaymentCall} :
    Keeps printing rules t (Inside (τ := τ) base call fun _ tx => tx = .begun call)
      (recordPayments call) (Recorded base call) := by
  unfold recordPayments
  cases fails : call.parsingError with
  | some error =>
      refine .bind (setProcessingError_keeps fails) (fun _ => ?_) fun holds => holds.1
      exact Keeps.ret (lasting_insideAfter _ _ _ _) fun _ holds =>
        ⟨fun _ member => (by cases member), inside_of_ok holds⟩
  | none =>
      refine (processPayments_keeps base call call.payments []).weaken ?_ ?_
      · rintro thread w _ ⟨saving, tx, opened, same, rfl⟩
        exact ⟨saving, _, opened, same, {
          settled := fun _ none => by cases none
          processed := rfl
          parsed := fails
          tracked := by
            simp only [Tx.begun, PaymentCall.tracked, fails, List.map_nil, List.nil_append]
          paid := rfl }⟩
      · rintro (error | invoices) thread w _ holds
        · exact holds
        · obtain ⟨announceable, saving, tx, opened, same, between⟩ := holds
          have unmarked : tx.Marked := fun error found => by
            rw [between.parsed] at found
            cases found
          refine ⟨announceable, saving, tx, opened, same, ⟨?_, between.settled⟩, unmarked, between.paid⟩
          simpa using between.tracked.symm

theorem writePayments_keeps {base : Thread} {call : PaymentCall} :
    Keeps printing rules t (Inside (τ := τ) base call fun _ tx => tx = .begun call)
      (writePayments call) (Written base call) := by
  refine .bind recordPayments_keeps (fun invoices => ?_) fun holds => holds
  refine .bind (.frame setLastProcessed_keeps (lasting_currencies (Announceable invoices)))
    (fun _ => ?_) fun holds => holds.2.1
  exact Keeps.ret ((lasting_currencies _).and (lasting_insideAfter _ _ _ _))
    fun _ holds => ⟨holds.1, inside_of_ok holds.2⟩

/-! ### After `COMMIT` -/

theorem commit_keeps {base : Thread} {call : PaymentCall} {invoices : List Invoice} :
    Keeps printing rules t (Written (τ := τ) base call (.ok invoices)) (perform .commit)
      fun result thread w =>
        match result with
        | .ok _ => Announcing base invoices thread w
        | .error error => Saved base (.error error : Except Err Unit) thread := by
  refine .perform ?_ ?_ ?_ ?_ (fun _ {_ _} holds => holds.2.1.fail.ended _) ?_
  · exact fun _ _ _ grows holds => ⟨grows.currencies ▸ holds.1, lasting_inside _ _ _ _ _ _ grows holds.2⟩
  · rintro (error | _) thread w w' grows holds
    · exact holds
    · exact Announcing.lasting _ _ _ _ _ grows holds
  · rintro thread w _ ⟨_, _, tx, opened, _, processed, dealt⟩
    exact ⟨tx, opened, dealt.complete, processed, dealt.marked⟩
  · rintro thread w choice answer w' _ held ⟨announceable, saving, tx, opened, _, _, dealt⟩ runs
    obtain ⟨tx', opened', rfl, rfl⟩ := Stmt.run_commit runs
    rw [World.tx_eq held, opened, Option.some.injEq] at opened'
    subst opened'
    refine ⟨thread.close _ _, (World.threads_setThread _ _ _).trans (by rw [held]; rfl), ?_⟩
    exact {
      worker := saving.worker
      tx := rfl
      saved := rfl
      owed := by
        refine saving.clear.symm.imp id fun owed change member => ?_
        change change ∈ thread.owed ++ _ at member
        rw [owed, List.nil_append, Tx.changes, List.mem_map] at member
        obtain ⟨id, among, rfl⟩ := member
        exact ⟨rfl, dealt.paid ▸ among⟩
      announceable := announceable }
  · rintro _ (error | _) thread w holds
    · exact holds.fail _
    · exact holds.fail _

/-- The outbox row of one invoice. -/
theorem announce_keeps {base : Thread} {invoice : Invoice} {rest : List Invoice} :
    Keeps printing rules t (Announcing (τ := τ) base (invoice :: rest)) (saveInvoice invoice true)
      (Ends (fun _ => Announcing base rest) fun thread _ =>
        Saved base (.error .failed : Except Err Unit) thread) :=
  saveInvoice_keeps (Announcing.lasting _ _) (Announcing.lasting _ _) (lasting_const _)
    (fun holds => holds.fail _) (fun holds => holds.fail _) (fun holds => holds.fail _)
    (fun holds => (holds.announceable invoice List.mem_cons_self).2)
    (fun holds => ⟨holds.tx, holds.mayAnnounce⟩) fun holds => holds.announce rfl

theorem commitPayments_keeps {base : Thread} {call : PaymentCall} (mayBegin : base.MayBegin call)
    (unread : base.lastRead = none) :
    Keeps printing rules t (fun thread (_ : World τ) => Saving base thread ∧ thread.tx = none)
      (commitPayments call) fun result thread _ => Saved base result thread := by
  refine .bind (begin_keeps mayBegin unread) (fun _ => ?_) fun holds => holds.1.ended _
  refine .bind (.strengthen writePayments_keeps fun _ holds => inside_of_ok holds) (fun invoices => ?_)
    fun holds => holds.ended _
  refine .bind commit_keeps (fun _ => ?_) fun holds => holds
  refine (Keeps.forM (P := Announcing base) (Announcing.lasting base [])
    (fun _ _ => announce_keeps) invoices).weaken (fun _ holds => holds) ?_
  rintro (error | _) thread w _ holds
  · exact ⟨holds.worker, holds.clear, holds.saved⟩
  · exact holds.ended _

/-- **`SavePayments` keeps the discipline**, and leaves no transaction open. -/
theorem savePayments_keeps {base : Thread} {call : PaymentCall} (mayBegin : base.MayBegin call)
    (unread : base.lastRead = none) :
    Keeps printing rules t (fun thread (_ : World τ) => Saving base thread ∧ thread.tx = none)
      (savePayments call) fun result thread _ => Saved base result thread ∧ thread.tx = none := by
  refine .attempt_bind (commitPayments_keeps mayBegin unread) fun result => ?_
  refine .bind (R := fun answer thread _ =>
    (∃ value, answer = .ok value) ∧ Saved base result thread ∧ thread.tx = none) ?_ (fun _ => ?_) ?_
  · refine .perform (lasting_const _) (fun _ => lasting_const _) (fun _ _ => trivial) ?_
      (fun may => by cases may) fun may => by cases may
    rintro thread w choice answer w' _ held ended runs
    cases runs
    exact own_setThread held ⟨⟨(), rfl⟩, ⟨ended.worker, ended.clear, ended.saved⟩, rfl⟩
  · exact Keeps.ret (lasting_const _) fun _ holds => holds.2
  · rintro error thread w ⟨⟨_, same⟩, _⟩
    cases same

end SpiceHarvester
