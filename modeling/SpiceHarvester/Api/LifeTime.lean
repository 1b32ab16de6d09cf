import SpiceHarvester.Api.NewInvoice
import SpiceHarvester.Schedule

/-!
# How long an invoice lives

An invoice is meant to live for the seconds that its request asks for. The time it
expires at is stored once and never changes, so that what `MarkExpired` and
`processPayment` compare with the clock is known from the request: in every run, at
every row of the invoice that one of them may find.

The product of the request's seconds and the nanoseconds of a second is exact up to
9223372036 seconds, and wraps around from there on (`lives_iff`). A request for 18446744073
seconds makes an invoice that has expired before it was created
(`born_expired`).
-/

set_option autoImplicit false

namespace SpiceHarvester

open Interleaving Sql

/-! ## Rows and what is found of them -/

/-- Microseconds keep whole seconds. -/
theorem timestamptz_add_seconds (time : Time) (seconds : ℤ) :
    timestamptz (time + seconds * 1000000000) = timestamptz time + seconds * 1000000000 := by
  have parts : seconds * 1000000000 = seconds * 1000000 * 1000 := by
    rw [Int.mul_assoc]
    rfl
  unfold timestamptz
  rw [parts, Int.add_mul_ediv_right _ _ (by decide), Int.add_mul]

namespace InvoiceRow

theorem createdAt_of_terms {row row' : InvoiceRow} (same : row.terms = row'.terms) :
    row.createdAt = row'.createdAt :=
  show row.terms.createdAt = row'.terms.createdAt from same ▸ rfl

/-- At a time, `MarkExpired` leaves the invoice as it is, and `processPayment` does not
refuse a covering payment: unless one of its statements fails, the invoice is paid. -/
structure OpenAt (row : InvoiceRow) (time : Time) : Prop where
  unexpired : expirable time row = false
  accepts : ∀ payment answers paid, row.status = .waiting →
    row.amount ≤ row.overpayment + payment.amount →
    Prog.Ends answers (creditPayment payment time row) (.ok paid) →
    paid = [paidInvoice row payment time]

/-- An invoice is open until it expires. -/
theorem openAt_of_le {row : InvoiceRow} {time : Time} (stored : timestamptz row.expireAt = row.expireAt)
    (early : time ≤ row.expireAt) : row.OpenAt time where
  unexpired := by
    have late : ¬ row.expireAt < timestamptz time := by
      rw [← stored]
      exact not_lt.mpr (timestamptz_mono early)
    unfold expirable
    rw [decide_eq_false late, Bool.and_false]
  accepts := by
    intro payment answers paid waiting covers ends
    unfold creditPayment at ends
    obtain ⟨_, _, same⟩ | ⟨_, _, ends⟩ := ends.bind_cases
    · cases same
    obtain ⟨_, _, same⟩ | ⟨_, _, ends⟩ := ends.bind_cases
    · cases same
    rw [if_neg (by rw [not_or, not_not]; exact ⟨waiting, not_lt.mpr early⟩),
      if_neg (not_lt.mpr covers)] at ends
    obtain ⟨_, _, same⟩ | ⟨_, _, ends⟩ := ends.bind_cases
    · cases same
    cases ends
    rfl

end InvoiceRow

section Runs

variable [Libraries] {τ : Type}

/-- The rows of an invoice that a statement may find: the stored one, and the version
that an open payment transaction sees. -/
def World.Finds (w : World τ) (id : InvoiceID) (row : InvoiceRow) : Prop :=
  w.db.invoices.find id = some row ∨
    ∃ t tx, w.tx t = some tx ∧ (w.db.invoices.view tx.invoices).find id = some row

/-- All of them have the terms of the stored row. -/
theorem World.Finds.terms {w : World τ} {id : InvoiceID} {row stored : InvoiceRow} (sane : w.Sane)
    (finds : w.Finds id row) (found : w.db.invoices.find id = some stored) :
    row.terms = stored.terms := by
  obtain same | ⟨t, tx, opened, seen⟩ := finds
  · rw [found, Option.some.injEq] at same
    rw [same]
  · obtain ⟨row', found', same⟩ := sane.find_view opened seen
    rw [found, Option.some.injEq] at found'
    rw [same, found']

/-! ## The time of life -/

/-- The invoice lives for the given seconds. It expires that long after its creation,
and not before it. In every run that has stored it, every row of it that is found
later is open up to that many seconds after its creation. -/
structure Invoice.LivesFor (invoice : Invoice) (seconds : ℤ) : Prop where
  exact : invoice.expireAt = invoice.createdAt + seconds * 1000000000
  born : invoice.createdAt < invoice.expireAt
  runs : ∀ {τ : Type} [DecidableEq τ] [Fintype τ] (printing : Printing) (rules : Rules τ)
    (db : Database) (c c' : Running τ) (currencyID : UUID) (row : InvoiceRow) (time : Time),
    db.Sane → Runs printing rules db c →
    c.state.db.invoices.find invoice.id = some (invoice.row currencyID) →
    (system printing rules).Reachable c c' → c'.state.Finds invoice.id row →
    time ≤ row.createdAt + seconds * 1000000000 → row.OpenAt time

/-- What is known at the creation of an invoice is known of it in every run. -/
theorem Invoice.livesFor_of_exact {invoice : Invoice} {seconds : ℤ} (positive : 0 < seconds)
    (exact : invoice.expireAt = invoice.createdAt + seconds * 1000000000) :
    invoice.LivesFor seconds where
  exact := exact
  born := by
    rw [exact]
    exact lt_add_of_pos_right _ (Int.mul_pos positive (by decide))
  runs := by
    intro τ _ _ printing rules db c c' currencyID row time sane run stored later finds early
    obtain ⟨kept, found, terms⟩ := (grows_run sane run later).invoices stored
    have same : row.terms = (invoice.row currencyID).terms :=
      (finds.terms (disciplined sane (run.trans later)).inv found).trans terms
    have expireAt : row.expireAt = timestamptz invoice.expireAt :=
      InvoiceRow.expireAt_of_terms same
    have createdAt : row.createdAt = timestamptz invoice.createdAt :=
      InvoiceRow.createdAt_of_terms same
    refine InvoiceRow.openAt_of_le ?_ ?_
    · rw [expireAt, timestamptz_idem]
    · rw [expireAt, exact, timestamptz_add_seconds, ← createdAt]
      exact early

/-- **An accepted invoice lives for the seconds asked for exactly if these are at most
9223372036.** -/
theorem lives_iff {handler : Handler} {newInvoice : NewInvoice} {recipient : AccountID}
    {id : InvoiceID} {now : Time} {invoice : Invoice}
    (converted : convertNewInvoice handler newInvoice recipient id now = .ok invoice) :
    invoice.LivesFor newInvoice.lifeTime.toInt ↔ newInvoice.lifeTime.toInt ≤ 9223372036 := by
  have accepted := accepted_of_convertNewInvoice converted
  rw [← NewInvoice.duration_exact accepted.lifeTime]
  constructor
  · intro lives
    have exact := lives.exact
    rw [accepted.expireAt, accepted.createdAt] at exact
    exact add_left_cancel exact
  · intro exact
    refine Invoice.livesFor_of_exact (Int64.lt_iff_toInt_lt.mp accepted.lifeTime) ?_
    rw [accepted.expireAt, accepted.createdAt, exact]

end Runs

/-! ## A minute and six centuries -/

section Shop

attribute [local instance] Texts.libraries Shop.cryptography

open Shop

/-- The shop takes requests for invoices in TON. -/
def Shop.handler : Handler := ⟨printing, some (List.replicate 32 1), "shop", ""⟩

/-- A request for an invoice over 10 TON. -/
def Shop.request (lifeTime : Int64) : NewInvoice :=
  ⟨"10", "TON", lifeTime, none, ⟨"shop", "", "", none, 0⟩⟩

/-- Every positive time of life is accepted. -/
theorem Shop.request_accepted {lifeTime : Int64} (positive : 0 < lifeTime) :
    ∃ invoice, convertNewInvoice handler (request lifeTime) merchant 7 0 = .ok invoice := by
  have parsed : parseDecimal "10" = some 10 := by decide +kernel
  have checked : (request lifeTime).checked = .ok 10 := by
    unfold NewInvoice.checked request
    rw [parsed]
    change (do ensure (0 < lifeTime) "life time must be positive integer"; return (10 : ℤ)) = _
    rw [ensure, if_pos positive]
    rfl
  have listed : handler.printing.currencies.lookup "TON" = some ⟨.ton, 9⟩ := rfl
  exact convertNewInvoice_accepts checked listed rfl merchant 7 0

/-- An invoice for a minute lives for a minute. -/
theorem lives_for_a_minute :
    ∃ invoice, convertNewInvoice handler (request 60) merchant 7 0 = .ok invoice ∧
      invoice.LivesFor 60 := by
  obtain ⟨invoice, converted⟩ := request_accepted (by decide : (0 : Int64) < 60)
  exact ⟨invoice, converted, (lives_iff converted).mpr (by decide)⟩

/-- A request for 18446744073 seconds is accepted, and its invoice has expired 709
milliseconds before it was created. `MarkExpired` expires it at once, and it does not live
for the seconds asked for. -/
theorem born_expired :
    ∃ invoice, convertNewInvoice handler (request 18446744073) merchant 7 0 = .ok invoice ∧
      invoice.expireAt = invoice.createdAt - 709551616 ∧
      expirable invoice.createdAt (invoice.row 1) = true ∧
      ¬ invoice.LivesFor (request 18446744073).lifeTime.toInt := by
  obtain ⟨invoice, converted⟩ := request_accepted (by decide : (0 : Int64) < 18446744073)
  have accepted := accepted_of_convertNewInvoice converted
  have product : (request 18446744073).duration.toInt = -709551616 := by decide
  have early : invoice.expireAt = invoice.createdAt - 709551616 := by
    rw [accepted.expireAt, accepted.createdAt, product]
    rfl
  refine ⟨invoice, converted, early, ?_, fun lives => ?_⟩
  · change (decide (invoice.status = .waiting) &&
      decide (timestamptz invoice.expireAt < timestamptz invoice.createdAt)) = true
    rw [early, accepted.status, accepted.createdAt]
    decide
  · exact absurd ((lives_iff converted).mp lives) (by decide)

end Shop

end SpiceHarvester
