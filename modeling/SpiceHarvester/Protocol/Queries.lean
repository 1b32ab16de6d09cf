import SpiceHarvester.Protocol.Discipline

/-!
# The queries that several functions share

Triples of `time.Now`, `getCurrencyID`, `getCurrencyByID`, `GetInvoice` and of
`saveInvoice` into the outbox, for any assertion about the own thread. Beside the
assertion `A` that a query keeps, each triple takes the assertion `E` that a
failed statement leaves.
-/

set_option autoImplicit false

namespace SpiceHarvester

open Interleaving Sql

section Situations

variable [Libraries] {τ : Type}

/-- What the query of a currency answers. `E` is what a failure leaves. -/
def Answers (A : Thread → World τ → Prop) (E : Thread → World τ → Prop) (currency : Currency) :
    Except Err UUID → Thread → World τ → Prop
  | .ok id, thread, w => w.db.currencies.of currency = some id ∧ A thread w
  | .error .notFound, thread, w => w.db.currencies.of currency = none ∧ A thread w
  | .error .failed, thread, w => E thread w
  | .error _, _, _ => False

theorem lasting_answers {A E : Thread → World τ → Prop} (lasting : Lasting A)
    (lastingE : Lasting E) (currency : Currency) (answer : Except Err UUID) :
    Lasting (Answers A E currency answer) := by
  rcases answer with (_ | _ | _ | _) | id
  · exact fun _ _ _ grows holds => ⟨grows.currencies ▸ holds.1, lasting _ _ _ grows holds.2⟩
  · exact fun _ _ _ _ holds => holds
  · exact fun _ _ _ grows holds => lastingE _ _ _ grows holds
  · exact fun _ _ _ _ holds => holds
  · exact fun _ _ _ grows holds => ⟨grows.currencies ▸ holds.1, lasting _ _ _ grows holds.2⟩

/-- The thread has read the stored row of an invoice. -/
def HasRead (A : Thread → World τ → Prop) (id : InvoiceID) (row : InvoiceRow) (thread : Thread)
    (w : World τ) : Prop :=
  (w.db.currencies.table.find row.currency).isSome ∧ row.id = id ∧
    ∃ before : Thread, A before w ∧ thread = before.read (some row)

/-- `GetInvoice` has returned an invoice. Its currency is found again. -/
def HasGot (A : Thread → World τ → Prop) (id : InvoiceID) (invoice : Invoice) (thread : Thread)
    (w : World τ) : Prop :=
  ∃ row currency, invoice = row.invoice currency ∧
    (w.db.currencies.of currency).isSome ∧ HasRead A id row thread w

theorem lasting_hasRead {A : Thread → World τ → Prop} (lasting : Lasting A) (id : InvoiceID)
    (row : InvoiceRow) : Lasting (HasRead A id row) := by
  rintro thread w w' grows ⟨stored, same, before, holds, read⟩
  exact ⟨grows.currencies ▸ stored, same, before, lasting _ _ _ grows holds, read⟩

theorem lasting_hasGot {A : Thread → World τ → Prop} (lasting : Lasting A) (id : InvoiceID)
    (invoice : Invoice) : Lasting (HasGot A id invoice) := by
  rintro thread w w' grows ⟨row, currency, same, found, read⟩
  exact ⟨row, currency, same, grows.currencies ▸ found, lasting_hasRead lasting id row _ _ _ grows read⟩

end Situations

variable [Libraries] {τ : Type} [DecidableEq τ] [Fintype τ]
  {printing : Printing} {rules : Rules τ} {t : τ}

/-- `time.Now` changes nothing and answers. -/
theorem now_keeps {A : Thread → World τ → Prop} (lasting : Lasting A) :
    Keeps printing rules t A (perform .now) fun answer thread w =>
      (∃ now, answer = .ok now) ∧ A thread w := by
  refine .perform lasting (fun _ thread w w' grows holds => ⟨holds.1, lasting _ _ _ grows holds.2⟩)
    (fun _ _ => trivial) ?_ (fun may => by cases may) (fun may => by cases may)
  rintro thread w choice answer w' _ held holds runs
  cases runs
  exact ⟨thread, held, ⟨choice.clock, rfl⟩, holds⟩

theorem getCurrencyID_keeps {A E : Thread → World τ → Prop} (lasting : Lasting A)
    (lastingE : Lasting E) (fails : ∀ {thread w}, A thread w → E thread.fail w)
    (failsAgain : ∀ {thread w}, E thread w → E thread.fail w) (currency : Currency) :
    Keeps printing rules t A (getCurrencyID currency) (Answers A E currency) := by
  refine .queryRow (.weaken (B := fun answer => Answers A E currency (orNotFound answer))
    (.perform lasting (fun _ => lasting_answers lasting lastingE currency _) (fun _ _ => trivial) ?_
      (fun _ {_ _} holds => fails holds) ?_)
    (fun _ holds => holds) fun _ holds => holds)
  · rintro thread w choice answer w' _ held holds runs
    cases runs
    refine ⟨thread, held, ?_⟩
    change Answers A E currency (orNotFound (orNoRows (w.db.currencies.of currency))) thread w
    cases found : w.db.currencies.of currency with
    | none => exact ⟨found, holds⟩
    | some id => exact ⟨found, holds⟩
  · rintro _ ((_ | _ | _ | _) | id) thread w holds
    · exact fails holds.2
    · exact fails holds.2
    · exact failsAgain holds
    · cases holds
    · exact fails holds.2

/-- `getCurrencyByID` of a stored currency. -/
theorem getCurrencyByID_keeps {A E : Thread → World τ → Prop} {id : UUID} (lasting : Lasting A)
    (lastingE : Lasting E) (fails : ∀ {thread w}, A thread w → E thread.fail w)
    (failsAgain : ∀ {thread w}, E thread w → E thread.fail w)
    (stored : ∀ {thread w}, A thread w → (w.db.currencies.table.find id).isSome)
    (unreadable : ∀ {thread w}, A thread w → ¬ w.db.currencies.Legible id → E thread w) :
    Keeps printing rules t A (getCurrencyByID id) (Ends (fun currency thread w =>
      (w.db.currencies.of currency).isSome ∧ A thread w) E) := by
  have lasting' : ∀ row : CurrencyRow, Lasting fun thread (w : World τ) =>
      w.db.currencies.table.find id = some row ∧ A thread w :=
    fun row _ _ _ grows holds => ⟨grows.currencies ▸ holds.1, lasting _ _ _ grows holds.2⟩
  have query : Keeps printing rules t A (perform (.selectCurrency id))
      (Ends (fun row thread w => w.db.currencies.table.find id = some row ∧ A thread w) E) := by
    refine .perform lasting (fun _ => lasting_ends lasting' lastingE _) (fun _ _ => trivial) ?_
      (fun _ {_ _} holds => fails holds) ?_
    · rintro thread w choice answer w' _ held holds runs
      cases runs
      obtain ⟨row, found⟩ := Option.isSome_iff_exists.mp (stored holds)
      refine ⟨thread, held, ?_⟩
      rw [found]
      exact ⟨found, holds⟩
    · rintro _ (error | row) thread w holds
      · exact failsAgain holds
      · exact fails holds.2
  refine .bind (.queryRow_ends query) (fun row => ?_) fun holds => holds
  cases decoded : row.decode with
  | ok currency =>
      refine Keeps.ret (lasting' row) fun _ ⟨found, holds⟩ => ⟨?_, holds⟩
      rw [Currencies.of_decode found decoded]
      rfl
  | error error =>
      refine Keeps.ret (lasting' row) fun _ ⟨found, holds⟩ => unreadable holds fun legible => ?_
      obtain ⟨currency', decoded'⟩ := legible row found
      cases decoded.symm.trans decoded'

/-- `GetInvoice`, where the invoice may be missing and its currency unreadable. -/
theorem getInvoice_keeps {A E : Thread → World τ → Prop} {id : InvoiceID} (lasting : Lasting A)
    (lastingE : Lasting E) (fails : ∀ {thread w}, A thread w → E thread.fail w)
    (failsRead : ∀ {thread w} (row : InvoiceRow), A thread w → E (thread.read (some row)).fail w)
    (failsAgain : ∀ {thread w}, E thread w → E thread.fail w)
    (missing : ∀ {thread w}, A thread w → w.db.invoices.find id = none → E (thread.read none) w)
    (unreadable : ∀ {thread w} (row : InvoiceRow), A thread w →
      ¬ w.db.currencies.Legible row.currency → E (thread.read (some row)) w) :
    Keeps printing rules t A (getInvoice id) (Ends (HasGot A id) E) := by
  have query : Keeps printing rules t A (perform (.selectInvoice id)) (Ends (HasRead A id) E) := by
    refine .perform lasting (fun _ => lasting_ends (lasting_hasRead lasting id) lastingE _)
      (fun _ _ => trivial) ?_ (fun _ {_ _} holds => fails holds) ?_
    · rintro thread w choice answer w' sane held holds runs
      cases runs
      cases found : w.db.invoices.find id with
      | none => exact own_setThread held (lastingE _ _ _ (w.grows_setThread t _) (missing holds found))
      | some row =>
          exact own_setThread held ⟨sane.stored found, Table.key_of_find found, thread,
            lasting _ _ _ (w.grows_setThread t _) holds, rfl⟩
    · rintro _ (error | row) thread w holds
      · exact failsAgain holds
      · obtain ⟨_, _, before, holds, rfl⟩ := holds
        exact failsRead row holds
  refine .bind (.queryRow_ends query) (fun row => ?_) fun holds => holds
  refine .bind (getCurrencyByID_keeps (E := E) (lasting_hasRead lasting id row) lastingE ?_ failsAgain
    (fun holds => holds.1) ?_) (fun currency => ?_) fun holds => holds
  · rintro thread w ⟨_, _, before, holds, rfl⟩
    exact failsRead row holds
  · rintro thread w ⟨_, _, before, holds, rfl⟩ illegible
    exact unreadable row holds illegible
  · refine Keeps.ret (fun _ _ _ grows holds => ⟨grows.currencies ▸ holds.1,
      lasting_hasRead lasting id row _ _ _ grows holds.2⟩) fun _ holds => ?_
    exact ⟨row, currency, rfl, holds.1, holds.2⟩

/-- The outbox row of an invoice whose currency is tracked. -/
theorem saveInvoice_keeps {A B E : Thread → World τ → Prop} {invoice : Invoice}
    (lasting : Lasting A) (lastingB : Lasting B) (lastingE : Lasting E)
    (fails : ∀ {thread w}, A thread w → E thread.fail w)
    (failsAfter : ∀ {thread w}, B thread w → E thread.fail w)
    (failsAgain : ∀ {thread w}, E thread w → E thread.fail w)
    (tracked : ∀ {thread w}, A thread w → (w.db.currencies.of invoice.currency).isSome)
    (may : ∀ {thread w}, A thread w → thread.tx = none ∧
      ∀ currencyID, thread.MayAnnounce (invoice.row currencyID))
    (announces : ∀ {thread w}, A thread w → B (thread.announce invoice.id) w) :
    Keeps printing rules t A (saveInvoice invoice true) (Ends (fun _ => B) E) := by
  refine .bind (getCurrencyID_keeps lasting lastingE fails failsAgain invoice.currency)
    (fun currencyID => ?_) ?_
  · refine .perform (lasting_answers lasting lastingE _ _)
      (fun _ => lasting_ends (fun _ => lastingB) lastingE _) ?_ ?_
      (fun _ {_ _} holds => fails holds.2) ?_
    · rintro thread w _ ⟨_, holds⟩
      exact ⟨(may holds).1, (may holds).2 currencyID⟩
    · rintro thread w choice answer w' sane held ⟨found, holds⟩ runs
      have grows := (Stmt.run_kept runs).grows sane
      obtain ⟨stored, isStored⟩ := Option.isSome_iff_exists.mp (Currencies.isSome_of found)
      obtain ⟨_, _, rfl, rfl⟩ | ⟨none, _, _⟩ := Stmt.run_insertNotification runs
      · exact ⟨thread.announce invoice.id,
          (World.threads_setThread _ _ _).trans (by rw [held]; rfl),
          announces (lasting _ _ _ grows holds)⟩
      · cases isStored.symm.trans none
    · rintro _ (error | _) thread w holds
      · exact failsAgain holds
      · exact failsAfter holds
  · rintro (_ | _ | _ | _) thread w holds
    · have known := tracked holds.2
      rw [holds.1] at known
      cases known
    · cases holds
    · exact holds
    · cases holds

end SpiceHarvester
