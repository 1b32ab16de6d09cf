import SpiceHarvester.Ledger.Refinement

/-!
# The status of an invoice

`CancelInvoice` and `MarkExpired` close waiting invoices only, in one statement.
A payment is made in four statements, and the last of them makes an invoice paid
whatever its status is by then. So a status is final as long as no invoice is
closed that a payment transaction has read as one to be paid and has not written
yet (`Books.Undisturbed`). In such runs statuses move along the edges of the
state diagram only (`Legal.edge`), and what a change has once set stays
(`Legal.final`).
-/

set_option autoImplicit false

namespace SpiceHarvester

open Interleaving Sql

/-! ## The state diagram -/

/-- The edges of the state diagram. -/
inductive InvoiceStatus.Edge : InvoiceStatus → InvoiceStatus → Prop where
  | pay : Edge .waiting .paid
  | cancel : Edge .waiting .cancelled
  | expire : Edge .waiting .expired

/-- The status stays, or moves along one edge. -/
def InvoiceStatus.Leads (status status' : InvoiceStatus) : Prop :=
  status' = status ∨ status.Edge status'

/-- A status that a payment may turn into `paid`, or already has. -/
def InvoiceStatus.Payable (status : InvoiceStatus) : Prop := status = .waiting ∨ status = .paid

namespace InvoiceStatus

variable {status status' status'' : InvoiceStatus}

theorem Leads.refl (status : InvoiceStatus) : status.Leads status := .inl rfl

theorem Leads.of_waiting (waiting : status = .waiting) (status' : InvoiceStatus) :
    status.Leads status' := by
  subst waiting
  cases status' with
  | waiting => exact .inl rfl
  | paid => exact .inr .pay
  | cancelled => exact .inr .cancel
  | expired => exact .inr .expire

/-- No edge leaves a status other than `waiting`. -/
theorem Leads.final (leads : status.Leads status') (final : status ≠ .waiting) :
    status' = status := by
  obtain same | edge := leads
  · exact same
  · cases edge <;> exact absurd rfl final

theorem Leads.trans (first : status.Leads status') (second : status'.Leads status'') :
    status.Leads status'' := by
  by_cases waiting : status = .waiting
  · exact .of_waiting waiting _
  · have same := first.final waiting
    subst same
    exact second

theorem Payable.leads (payable : status.Payable) : status.Leads .paid := by
  obtain waiting | paid := payable
  · exact .of_waiting waiting _
  · exact .inl paid.symm

theorem Payable.of_leads (payable : status.Payable) (same : status' = status ∨ status' = .paid) :
    status'.Payable := by
  obtain rfl | paid := same
  · exact payable
  · exact .inr paid

end InvoiceStatus

/-! ## The invariant -/

variable [Libraries] {τ : Type}

namespace Books

/-- The condition closes no invoice that a payment transaction has read as one
that its payment makes paid, and has not written yet. -/
def Undisturbed (b : Books τ) (condition : InvoiceRow → Bool) : Prop :=
  ∀ t book reading row, b.books t = some book → book.reading = some reading →
    reading.pays = true → reading.credited = false →
    b.rows.row reading.payment.invoiceID = some row → condition row = false

/-- Invoices are closed undisturbed. -/
def undisturbed : Guard τ where
  creates _ := True
  closes := Undisturbed
  begins _ _ _ := True

/-- What holds of the statuses throughout. -/
structure Legal (b : Books τ) : Prop where
  locked : b.rows.Locked
  /-- A version that is written has the status of the row, or makes it paid. -/
  versions : ∀ {t id version}, b.rows.mine t id = some version →
    ∃ row, b.rows.row id = some row ∧
      (version.status = row.status ∨ version.status = .paid ∧ row.status.Payable)
  /-- An invoice about to be paid can be paid, and is locked from its credit on. -/
  window : ∀ {t book reading}, b.books t = some book → book.reading = some reading →
    reading.pays = true →
    (∃ row, b.rows.row reading.payment.invoiceID = some row ∧ row.status.Payable) ∧
      (reading.credited = true → (b.rows.mine t reading.payment.invoiceID).isSome)
  paid : ∀ {t book id}, b.books t = some book → id ∈ book.paid →
    ∃ version, b.rows.mine t id = some version ∧ version.status = .paid
  /-- A status set by a change stays, unless it is `waiting`. -/
  final : ∀ {change}, change ∈ b.changes → change.status ≠ .waiting →
    ∃ row, b.rows.row change.id = some row ∧ row.status = change.status

/-- The statuses lead from one state of the books to another. -/
def Leads (b b' : Books τ) : Prop :=
  ∀ id row, b.rows.row id = some row →
    ∃ row', b'.rows.row id = some row' ∧ row.status.Leads row'.status

section Facts

variable {b : Books τ} {t : τ} {id : InvoiceID}

/-- What a transaction reads leads on from the committed status. -/
theorem Legal.seen (legal : b.Legal) {version : InvoiceRow}
    (found : b.rows.seen t id = some version) :
    ∃ row, b.rows.row id = some row ∧
      (version.status = row.status ∨ version.status = .paid ∧ row.status.Payable) := by
  cases held : b.rows.mine t id with
  | none => exact ⟨version, (Versions.seen_of_not_held held).symm.trans found, .inl rfl⟩
  | some own =>
      rw [Versions.seen_of_held held, Option.some.injEq] at found
      exact found ▸ legal.versions held

/-- The row that a transaction reads of a stored invoice. -/
theorem Legal.seen_of_row (legal : b.Legal) {row : InvoiceRow} (stored : b.rows.row id = some row)
    (t : τ) : ∃ version, b.rows.seen t id = some version ∧
      (version.status = row.status ∨ version.status = .paid ∧ row.status.Payable) := by
  obtain ⟨version, found⟩ :=
    Option.isSome_iff_exists.mp (Versions.isSome_seen (t := t) (by rw [stored]; rfl))
  obtain ⟨row', stored', status⟩ := legal.seen found
  rw [stored, Option.some.injEq] at stored'
  exact ⟨version, found, stored' ▸ status⟩

theorem Leads.refl (b : Books τ) : b.Leads b := fun _ row found => ⟨row, found, .refl _⟩

theorem Leads.trans {b b' b'' : Books τ} (first : b.Leads b') (second : b'.Leads b'') :
    b.Leads b'' := by
  intro id row found
  obtain ⟨row', found', leads⟩ := first id row found
  obtain ⟨row'', found'', leads'⟩ := second id row' found'
  exact ⟨row'', found'', leads.trans leads'⟩

end Facts

/-! ## One step -/

section Stored

variable {b : Books τ}

/-- A row is created. -/
theorem Legal.create (legal : b.Legal) {row : InvoiceRow} (new : b.rows.row row.id = none) :
    Books.Legal { b with
      rows := b.rows.insert row.id row
      changes := b.changes ++ [row.snapshot] } := by
  have kept : ∀ {id before}, b.rows.row id = some before →
      (b.rows.insert row.id row).row id = some before := by
    intro id before found
    rw [Versions.row_insert_of_ne, found]
    rintro rfl
    rw [new] at found
    cases found
  exact {
    locked := legal.locked.insert _ _
    versions := by
      intro u id version held
      obtain ⟨before, found, status⟩ := legal.versions held
      exact ⟨before, kept found, status⟩
    window := by
      intro u book reading opened current pays
      obtain ⟨⟨before, found, payable⟩, written⟩ := legal.window opened current pays
      exact ⟨⟨before, kept found, payable⟩, written⟩
    paid := legal.paid
    final := by
      intro change member final
      obtain member | member := List.mem_append.mp member
      · obtain ⟨before, found, same⟩ := legal.final member final
        exact ⟨before, kept found, same⟩
      · rw [List.mem_singleton] at member
        subst member
        exact ⟨row, Versions.row_insert_self, rfl⟩ }

/-- Invoices are closed. -/
theorem Legal.close (legal : b.Legal) {status : InvoiceStatus} {time : Time}
    {condition : InvoiceRow → Bool} {closed : List Snapshot}
    (waiting : ∀ row, condition row = true → row.status = .waiting)
    (free : ∀ t id row, b.rows.row id = some row → condition row = true → b.rows.mine t id = none)
    (hit : ∀ change, change ∈ closed ↔ ∃ row, b.rows.row change.id = some row ∧
      condition row = true ∧ change = ⟨row.id, status, row.version + 1⟩)
    (undisturbed : b.Undisturbed condition) :
    Books.Legal { b with
      rows := b.rows.update fun row => if condition row then row.close status time else row
      changes := b.changes ++ closed } := by
  have after : ∀ {id row}, b.rows.row id = some row →
      (b.rows.update fun row => if condition row then row.close status time else row).row id =
        some (if condition row then row.close status time else row) := by
    intro id row found
    change (b.rows.row id).map _ = _
    rw [found, Option.map_some]
  have missed : ∀ {id row}, b.rows.row id = some row → condition row = false →
      (b.rows.update fun row => if condition row then row.close status time else row).row id =
        some row := by
    intro id row found misses
    rw [after found, misses]
    rfl
  have unlocked : ∀ {u id row}, b.rows.row id = some row → (b.rows.mine u id).isSome →
      condition row = false := by
    intro u id row found held
    by_contra hits
    rw [free u id row found (by simpa using hits)] at held
    cases held
  exact {
    locked := legal.locked.update _
    versions := by
      intro u id version (held : b.rows.mine u id = some version)
      obtain ⟨row, found, same⟩ := legal.versions held
      exact ⟨row, missed found (unlocked (u := u) found (by rw [held]; rfl)), same⟩
    window := by
      intro u book reading opened current pays
      obtain ⟨⟨row, found, payable⟩, written⟩ := legal.window opened current pays
      refine ⟨⟨row, missed found ?_, payable⟩, written⟩
      cases credited : reading.credited with
      | false => exact undisturbed u book reading row opened current pays credited found
      | true => exact unlocked found (written credited)
    paid := legal.paid
    final := by
      intro change member final
      obtain member | member := List.mem_append.mp member
      · obtain ⟨row, found, same⟩ := legal.final member final
        refine ⟨row, missed found ?_, same⟩
        by_contra hits
        exact final (same ▸ waiting row (by simpa using hits))
      · obtain ⟨row, found, hits, rfl⟩ := (hit change).mp member
        exact ⟨row.close status time, by rw [after found, hits]; rfl, rfl⟩ }

end Stored

variable [DecidableEq τ]

/-- The books of the other transactions are as before. -/
theorem books_setBook {b : Books τ} {t u : τ} {opened : Option Book} {book : Book}
    (found : (b.setBook t opened).books u = some book) :
    (u = t ∧ opened = some book) ∨ (u ≠ t ∧ b.books u = some book) := by
  change Function.update b.books t opened u = some book at found
  by_cases same : u = t
  · subst same
    rw [Function.update_self] at found
    exact .inl ⟨rfl, found⟩
  · rw [Function.update_of_ne same] at found
    exact .inr ⟨same, found⟩

namespace Legal

variable {b : Books τ} {t : τ}

/-- A step of one transaction that writes no row. -/
theorem setBook (legal : b.Legal) {opened : Option Book}
    (window : ∀ {book reading}, opened = some book → book.reading = some reading →
      reading.pays = true →
      (∃ row, b.rows.row reading.payment.invoiceID = some row ∧ row.status.Payable) ∧
        (reading.credited = true → (b.rows.mine t reading.payment.invoiceID).isSome))
    (paid : ∀ {book id}, opened = some book → id ∈ book.paid →
      ∃ version, b.rows.mine t id = some version ∧ version.status = .paid) :
    (b.setBook t opened).Legal where
  locked := legal.locked
  versions := legal.versions
  window := by
    intro u book reading found
    obtain ⟨rfl, same⟩ | ⟨_, before⟩ := books_setBook found
    · exact window same
    · exact legal.window before
  paid := by
    intro u book id found
    obtain ⟨rfl, same⟩ | ⟨_, before⟩ := books_setBook found
    · exact paid same
    · exact legal.paid before
  final := legal.final

/-- A transaction writes one row, whose new version has the status it has read,
or is paid. -/
theorem rewrite (legal : b.Legal) {id : InvoiceID} {f : InvoiceRow → InvoiceRow} {book : Book}
    (free : (b.rows.seen t id).isSome → ∀ u, u ≠ t → b.rows.mine u id = none)
    (status : ∀ {version row}, b.rows.seen t id = some version → b.rows.row id = some row →
      (f version).status = version.status ∨ (f version).status = .paid ∧ row.status.Payable)
    (window : ∀ {reading}, book.reading = some reading → reading.pays = true →
      (∃ row, b.rows.row reading.payment.invoiceID = some row ∧ row.status.Payable) ∧
        (reading.credited = true → reading.payment.invoiceID = id))
    (paid : ∀ {other}, other ∈ book.paid →
      (∃ version, b.rows.mine t other = some version ∧ version.status = .paid) ∨
        other = id ∧ ∃ version, b.rows.seen t id = some version ∧ (f version).status = .paid) :
    Books.Legal { b.setBook t (some book) with rows := b.rows.rewrite t id f } := by
  have kept : ∀ {u other}, (b.rows.mine u other).isSome →
      ((b.rows.rewrite t id f).mine u other).isSome := by
    intro u other held
    by_cases same : u = t
    · subst same
      by_cases here : other = id
      · subst here
        rw [Versions.mine_rewrite_self, Option.isSome_map]
        exact Versions.isSome_seen (legal.locked.stored held)
      · rwa [Versions.mine_rewrite_of_key here]
    · rwa [Versions.mine_rewrite_of_ne same]
  exact {
    locked := legal.locked.rewrite f free
    versions := by
      intro u other version held
      obtain before | ⟨rfl, rfl, before, found, rfl⟩ := Versions.mine_rewrite_cases held
      · exact legal.versions before
      · obtain ⟨row, stored, same⟩ := legal.seen found
        refine ⟨row, stored, ?_⟩
        obtain kept | ⟨paid, payable⟩ := status found stored
        · rw [kept]
          exact same
        · exact .inr ⟨paid, payable⟩
    window := by
      intro u book' reading found current pays
      obtain ⟨rfl, same⟩ | ⟨_, before⟩ := books_setBook found
      · cases same
        obtain ⟨stored, here⟩ := window current pays
        refine ⟨stored, fun credited => ?_⟩
        obtain ⟨row, found, _⟩ := stored
        rw [here credited] at found ⊢
        rw [Versions.mine_rewrite_self, Option.isSome_map]
        exact Versions.isSome_seen (by rw [found]; rfl)
      · obtain ⟨stored, written⟩ := legal.window before current pays
        exact ⟨stored, fun credited => kept (written credited)⟩
    paid := by
      intro u book' other found member
      obtain ⟨rfl, same⟩ | ⟨unlike, before⟩ := books_setBook found
      · cases same
        obtain ⟨version, held, isPaid⟩ | ⟨rfl, version, seen, isPaid⟩ := paid member
        · by_cases here : other = id
          · subst here
            refine ⟨f version, ?_, ?_⟩
            · rw [Versions.mine_rewrite_self, Versions.seen_of_held held]
              rfl
            · obtain ⟨row, stored, _⟩ := legal.versions held
              obtain kept | ⟨paid, _⟩ := status (Versions.seen_of_held held) stored
              · rw [kept, isPaid]
              · exact paid
          · exact ⟨version, by rw [Versions.mine_rewrite_of_key here, held], isPaid⟩
        · exact ⟨f version, by rw [Versions.mine_rewrite_self, seen]; rfl, isPaid⟩
      · obtain ⟨version, held, isPaid⟩ := legal.paid before member
        exact ⟨version, by rw [Versions.mine_rewrite_of_ne unlike, held], isPaid⟩
    final := legal.final }

/-- A transaction commits. -/
theorem commit (legal : b.Legal) {book : Book} (opened : b.books t = some book) :
    Books.Legal { b.setBook t none with
      rows := b.rows.commit t
      calls := b.calls ++ [⟨book.call, book.looked⟩]
      changes := b.changes ++ b.settles t book.paid } := by
  have payable : ∀ {id row}, b.rows.row id = some row → row.status.Payable →
      ∃ row', (b.rows.commit t).row id = some row' ∧ row'.status.Payable := by
    intro id row found payable
    obtain ⟨version, seen, status⟩ := legal.seen_of_row found t
    exact ⟨version, seen, payable.of_leads (status.imp_right And.left)⟩
  exact {
    locked := legal.locked.commit t
    versions := by
      intro u id version held
      have other : u ≠ t := by
        rintro rfl
        rw [Versions.mine_commit_self] at held
        cases held
      rw [Versions.mine_commit_of_ne other] at held
      obtain ⟨row, found, same⟩ := legal.versions held
      exact ⟨row, (legal.locked.row_commit_of_held other (by rw [held]; rfl)).trans found, same⟩
    window := by
      intro u book' reading found current pays
      obtain ⟨_, none⟩ | ⟨other, before⟩ := books_setBook found
      · cases none
      · obtain ⟨⟨row, stored, may⟩, written⟩ := legal.window before current pays
        refine ⟨payable stored may, fun credited => ?_⟩
        change ((b.rows.commit t).mine u _).isSome
        rw [Versions.mine_commit_of_ne other]
        exact written credited
    paid := by
      intro u book' id found member
      obtain ⟨_, none⟩ | ⟨other, before⟩ := books_setBook found
      · cases none
      · obtain ⟨version, held, isPaid⟩ := legal.paid before member
        exact ⟨version, (congrFun (Versions.mine_commit_of_ne other) id).trans held, isPaid⟩
    final := by
      intro change member final
      obtain member | member := List.mem_append.mp member
      · obtain ⟨row, found, same⟩ := legal.final member final
        obtain ⟨version, seen, kept | ⟨isPaid, may⟩⟩ := legal.seen_of_row found t
        · exact ⟨version, seen, kept.trans same⟩
        · refine ⟨version, seen, ?_⟩
          obtain waiting | paid := may
          · exact absurd (same ▸ waiting) final
          · rw [isPaid, ← same, paid]
      · obtain ⟨id, among, rfl⟩ := List.mem_map.mp member
        obtain ⟨version, held, isPaid⟩ := legal.paid opened among
        exact ⟨version, Versions.seen_of_held held, isPaid⟩ }

/-- A transaction is dropped. -/
theorem drop (legal : b.Legal) (t : τ) :
    Books.Legal { b.setBook t none with rows := b.rows.release t } where
  locked := legal.locked.release t
  versions := by
    intro u id version held
    have other : u ≠ t := by
      rintro rfl
      rw [Versions.mine_release_self] at held
      cases held
    rw [Versions.mine_release_of_ne other] at held
    exact legal.versions held
  window := by
    intro u book reading found current pays
    obtain ⟨_, none⟩ | ⟨other, before⟩ := books_setBook found
    · cases none
    · obtain ⟨stored, written⟩ := legal.window before current pays
      refine ⟨stored, fun credited => ?_⟩
      change ((b.rows.release t).mine u _).isSome
      rw [Versions.mine_release_of_ne other]
      exact written credited
  paid := by
    intro u book id found member
    obtain ⟨_, none⟩ | ⟨other, before⟩ := books_setBook found
    · cases none
    · obtain ⟨version, held, isPaid⟩ := legal.paid before member
      exact ⟨version, (congrFun (Versions.mine_release_of_ne other) id).trans held, isPaid⟩
  final := legal.final

/-- **Every step that closes invoices undisturbed keeps the statuses legal.** -/
theorem step {b' : Books τ} (legal : b.Legal) (step : Step undisturbed b b') : b'.Legal := by
  cases step with
  | create new _ => exact legal.create new
  | close _ waiting free hit allowed => exact legal.close waiting free hit allowed
  | begin closed _ =>
      exact legal.setBook (fun same current => by cases same; cases current)
        fun same member => by cases same; cases member
  | @look t book payment time opened settled next =>
      refine legal.setBook ?_ ?_
      · rintro _ reading same current pays
        cases same
        obtain ⟨row, found, rfl⟩ := Option.map_eq_some_iff.mp current
        obtain ⟨seen, _⟩ := Option.filter_eq_some_iff.mp found
        simp only [Reading.pays, Bool.and_eq_true, decide_eq_true_eq] at pays
        obtain ⟨stored, stored', same | ⟨paid, _⟩⟩ := legal.seen seen
        · exact ⟨⟨stored, stored', .inl (same ▸ pays.1.1)⟩, fun credited => by cases credited⟩
        · rw [pays.1.1] at paid
          cases paid
      · rintro _ id same member
        cases same
        exact legal.paid opened member
  | @credit t book reading opened current fresh free =>
      refine legal.rewrite free (fun _ _ => .inl rfl) ?_ fun member => .inl (legal.paid opened member)
      rintro _ same pays
      cases same
      exact ⟨(legal.window opened current pays).1, fun _ => rfl⟩
  | @pay t book reading opened current credited pays free =>
      obtain ⟨⟨row, stored, payable⟩, _⟩ := legal.window opened current pays
      refine legal.rewrite free (fun _ found => .inr ⟨rfl, ?_⟩) (fun none => by cases none) ?_
      · rw [stored, Option.some.injEq] at found
        exact found ▸ payable
      · intro other member
        obtain member | member := List.mem_append.mp member
        · exact .inl (legal.paid opened member)
        · obtain ⟨version, seen, _⟩ := legal.seen_of_row stored t
          exact .inr ⟨List.mem_singleton.mp member, version, seen, rfl⟩
  | commit opened _ _ => exact legal.commit opened
  | drop t => exact legal.drop t
  | stop =>
      exact {
        locked := .idle _
        versions := fun held => by cases held
        window := fun opened => by cases opened
        paid := fun opened => by cases opened
        final := legal.final }

/-- **The statuses lead from each state to the next.** -/
theorem leads {b' : Books τ} {G : Guard τ} (legal : b.Legal) (step : Step G b b') : b.Leads b' := by
  cases step with
  | @create row new _ =>
      intro id before found
      refine ⟨before, ?_, .refl _⟩
      change (b.rows.insert row.id row).row id = some before
      rw [Versions.row_insert_of_ne, found]
      rintro rfl
      rw [new] at found
      cases found
  | @close status time condition closed terminal waiting _ _ _ =>
      intro id row found
      refine ⟨if condition row then row.close status time else row, ?_, ?_⟩
      · change (b.rows.row id).map _ = _
        rw [found, Option.map_some]
      · split
        · rename_i hits
          exact .of_waiting (waiting row hits) _
        · exact .refl _
  | @commit t _ _ _ _ =>
      intro id row found
      obtain ⟨version, seen, status⟩ := legal.seen_of_row found t
      refine ⟨version, seen, ?_⟩
      obtain same | ⟨paid, payable⟩ := status
      · exact .inl same
      · rw [paid]
        exact payable.leads
  | begin _ _ => exact .refl b
  | look _ _ _ => exact .refl b
  | credit _ _ _ _ => exact .refl b
  | pay _ _ _ _ _ => exact .refl b
  | drop _ => exact .refl b
  | stop => exact .refl b

end Legal

end Books

end SpiceHarvester
