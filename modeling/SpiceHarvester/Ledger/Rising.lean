import SpiceHarvester.Ledger.Refinement
import SpiceHarvester.Sql.Rising

/-!
# The versions of an invoice

Every `UPDATE` of an invoice counts its version up, whatever else may happen: so the
version of a stored invoice never goes down. Its status changes only together with a
change that is committed under the new version (`Books.Evolves`).
-/

set_option autoImplicit false

namespace SpiceHarvester

open Interleaving Sql

variable [Libraries] {τ : Type} [DecidableEq τ]

namespace Books

/-- Everything is allowed. -/
def anything : Guard τ := ⟨fun _ => True, fun _ _ => True, fun _ _ _ => True⟩

/-- **Each step of the books raises the versions of the invoices.** -/
theorem Step.rising {G : Guard τ} {b b' : Books τ} (step : Step G b b')
    (rising : b.rows.Rising InvoiceRow.version) :
    b'.rows.Rising InvoiceRow.version ∧ b.rows.Rises InvoiceRow.version b'.rows := by
  cases step with
  | create new _ => exact rising.insert new
  | @close status time condition _ _ _ free _ _ =>
      refine rising.update (fun row => ?_) fun {t id row} found held => ?_
      · split
        · exact Nat.le_succ _
        · exact le_refl _
      · split
        · rename_i hit
          rw [free t id row found hit] at held
          cases held
        · rfl
  | begin _ _ => exact ⟨rising, .refl _⟩
  | look _ _ _ => exact ⟨rising, .refl _⟩
  | credit _ _ _ free => exact ⟨rising.rewrite (fun _ => Nat.le_succ _) free, .of_eq rfl⟩
  | pay _ _ _ _ free => exact ⟨rising.rewrite (fun _ => Nat.le_succ _) free, .of_eq rfl⟩
  | @commit t _ _ _ _ => exact rising.commit t
  | drop t => exact ⟨rising.release t, .of_eq rfl⟩
  | stop => exact ⟨.idle _, .of_eq rfl⟩

end Books

/-! ## Statuses change with versions -/

namespace Books

/-- A version that a transaction has written is newer than the row, and has its status
unless the transaction has made the invoice paid. -/
structure Dated (b : Books τ) : Prop where
  locked : b.rows.Locked
  mine : ∀ {t id version}, b.rows.mine t id = some version →
    ∃ row, b.rows.row id = some row ∧ row.version < version.version ∧
      (version.status = row.status ∨ ∃ book, b.books t = some book ∧ id ∈ book.paid)

/-- A row keeps its status, unless a change of the invoice has been committed under a newer
version. -/
def Evolves (b b' : Books τ) : Prop :=
  b.changes ⊆ b'.changes ∧ ∀ id row, b.rows.row id = some row →
    ∃ row', b'.rows.row id = some row' ∧ row.version ≤ row'.version ∧
      (row'.status = row.status ∨ ∃ change ∈ b'.changes, change.id = id ∧ row.version < change.version)

omit [DecidableEq τ] in
theorem Evolves.of_rows {b b' : Books τ} (rows : b'.rows.row = b.rows.row)
    (changes : b'.changes = b.changes) : b.Evolves b' := by
  refine ⟨changes ▸ List.Subset.refl _, fun id row found => ⟨row, ?_, le_refl _, .inl rfl⟩⟩
  rw [rows, found]

omit [DecidableEq τ] in
/-- What a transaction reads of a stored invoice. -/
theorem Dated.seen {b : Books τ} {t : τ} {id : InvoiceID} {row : InvoiceRow} (dated : b.Dated)
    (found : b.rows.row id = some row) :
    ∃ version, b.rows.seen t id = some version ∧ row.version ≤ version.version ∧
      (version.status = row.status ∨
        (∃ book, b.books t = some book ∧ id ∈ book.paid) ∧ row.version < version.version) := by
  cases held : b.rows.mine t id with
  | none => exact ⟨row, (Versions.seen_of_not_held held).trans found, le_refl _, .inl rfl⟩
  | some version =>
      obtain ⟨row', found', newer, status⟩ := dated.mine held
      rw [found, Option.some.injEq] at found'
      subst found'
      refine ⟨version, Versions.seen_of_held held, newer.le, ?_⟩
      obtain same | paid := status
      · exact .inl same
      · exact .inr ⟨paid, newer⟩

/-- A transaction writes one row, and keeps its status or makes it paid. -/
theorem Dated.rewrite {b : Books τ} {t : τ} {book book' : Book} {id : InvoiceID}
    {f : InvoiceRow → InvoiceRow} (dated : b.Dated) (opened : b.books t = some book)
    (free : (b.rows.seen t id).isSome → ∀ u, u ≠ t → b.rows.mine u id = none)
    (newer : ∀ row, row.version < (f row).version)
    (status : (∀ row, (f row).status = row.status) ∨ id ∈ book'.paid)
    (paid : book.paid ⊆ book'.paid) :
    Dated { b.setBook t (some book') with rows := b.rows.rewrite t id f } where
  locked := dated.locked.rewrite f free
  mine {u other version} held := by
    have own : ∀ {u}, u = t → (b.setBook t (some book')).books u = some book' := by
      rintro u rfl
      exact Function.update_self ..
    have carried : ∀ {u book}, b.books u = some book → ∀ {other}, other ∈ book.paid →
        ∃ book, (b.setBook t (some book')).books u = some book ∧ other ∈ book.paid := by
      intro u found opens other member
      by_cases same : u = t
      · subst same
        rw [opened, Option.some.injEq] at opens
        exact ⟨book', own rfl, paid (opens ▸ member)⟩
      · exact ⟨found, (Function.update_of_ne same ..).trans opens, member⟩
    obtain before | ⟨rfl, rfl, before, seen, rfl⟩ := Versions.mine_rewrite_cases held
    · obtain ⟨row, found, above, same | ⟨found', opens, member⟩⟩ := dated.mine before
      · exact ⟨row, found, above, .inl same⟩
      · exact ⟨row, found, above, .inr (carried opens member)⟩
    · obtain ⟨row, found⟩ := dated.locked.stored_of_seen seen
      obtain ⟨version, seen', above, same⟩ := dated.seen (t := u) found
      rw [seen, Option.some.injEq] at seen'
      subst seen'
      refine ⟨row, found, above.trans_lt (newer before), ?_⟩
      obtain keeps | member := status
      · obtain same | ⟨⟨found', opens, member⟩, _⟩ := same
        · exact .inl ((keeps before).trans same)
        · exact .inr (carried opens member)
      · exact .inr ⟨book', own rfl, member⟩

/-- The rest of the books of a transaction changes, and no row. -/
theorem Dated.setBook {b : Books τ} {t : τ} {opened : Option Book} (dated : b.Dated)
    (paid : ∀ book id, b.books t = some book → id ∈ book.paid →
      ∃ book', opened = some book' ∧ id ∈ book'.paid) : (b.setBook t opened).Dated where
  locked := dated.locked
  mine {u id version} held := by
    obtain ⟨row, found, newer, same | ⟨book, opens, member⟩⟩ := dated.mine held
    · exact ⟨row, found, newer, .inl same⟩
    · refine ⟨row, found, newer, .inr ?_⟩
      by_cases own : u = t
      · subst own
        obtain ⟨book', rfl, member'⟩ := paid book id opens member
        exact ⟨book', Function.update_self .., member'⟩
      · exact ⟨book, (Function.update_of_ne own ..).trans opens, member⟩

/-- **Each step of the books keeps the statuses of the rows, but for the changes it
commits.** -/
theorem Dated.step {G : Guard τ} {b b' : Books τ} (dated : b.Dated)
    (keyed : ∀ id row, b.rows.row id = some row → row.id = id) (step : Step G b b') :
    b'.Dated ∧ b.Evolves b' := by
  cases step with
  | @create row new _ =>
      have kept : ∀ {id before}, b.rows.row id = some before →
          (b.rows.insert row.id row).row id = some before := by
        intro id before found
        rw [Versions.row_insert_of_ne, found]
        rintro rfl
        rw [new] at found
        cases found
      refine ⟨⟨dated.locked.insert _ _, fun held => ?_⟩, List.subset_append_left _ _,
        fun id before found => ⟨before, kept found, le_refl _, .inl rfl⟩⟩
      obtain ⟨before, found, newer, status⟩ := dated.mine held
      exact ⟨before, kept found, newer, status⟩
  | @close status time condition closed _ _ free hit _ =>
      have after : ∀ {id row}, b.rows.row id = some row →
          (b.rows.update fun row => if condition row then row.close status time else row).row id =
            some (if condition row then row.close status time else row) := by
        intro id row found
        change (b.rows.row id).map _ = _
        rw [found, Option.map_some]
      refine ⟨⟨dated.locked.update _, fun {t id version} held => ?_⟩, List.subset_append_left _ _,
        fun id row found => ?_⟩
      · obtain ⟨row, found, newer, status⟩ := dated.mine held
        have missed : ¬ condition row = true := by
          intro hits
          have unheld := free t id row found hits
          rw [show b.rows.mine t id = some version from held] at unheld
          cases unheld
        exact ⟨row, by rw [after found, if_neg missed], newer, status⟩
      · refine ⟨_, after found, ?_⟩
        by_cases hits : condition row = true
        · rw [if_pos hits]
          refine ⟨Nat.le_succ _, .inr ⟨⟨id, status, row.version + 1⟩, ?_, rfl, Nat.lt_succ_self _⟩⟩
          refine List.mem_append_right _ ((hit _).mpr ⟨row, found, hits, ?_⟩)
          rw [keyed id row found]
        · rw [if_neg hits]
          exact ⟨le_refl _, .inl rfl⟩
  | begin closed _ =>
      refine ⟨dated.setBook fun book id opens => ?_, .of_rows rfl rfl⟩
      rw [closed] at opens
      cases opens
  | @look t book payment time opened _ _ =>
      refine ⟨dated.setBook fun book' id opens member => ⟨_, rfl, ?_⟩, .of_rows rfl rfl⟩
      rw [opened, Option.some.injEq] at opens
      subst opens
      exact member
  | credit opened _ _ free =>
      exact ⟨dated.rewrite opened free (fun _ => Nat.lt_succ_self _) (.inl fun _ => rfl)
        (List.Subset.refl _), .of_rows rfl rfl⟩
  | pay opened _ _ _ free =>
      exact ⟨dated.rewrite opened free (fun _ => Nat.lt_succ_self _)
        (.inr (List.mem_append_right _ List.mem_cons_self)) (List.subset_append_left _ _),
        .of_rows rfl rfl⟩
  | @commit t book opened _ _ =>
      refine ⟨⟨dated.locked.commit t, fun {u id version} held => ?_⟩, List.subset_append_left _ _,
        fun id row found => ?_⟩
      · have other : u ≠ t := by
          rintro rfl
          rw [Versions.mine_commit_self] at held
          cases held
        rw [Versions.mine_commit_of_ne other] at held
        obtain ⟨row, found, newer, status⟩ := dated.mine held
        refine ⟨row, ?_, newer, status.imp_right fun ⟨book', opens, member⟩ => ⟨book', ?_, member⟩⟩
        · exact (dated.locked.row_commit_of_held other (by rw [held]; rfl)).trans found
        · exact (Function.update_of_ne other ..).trans opens
      · obtain ⟨version, seen, newer, same | ⟨⟨book', opens, member⟩, above⟩⟩ := dated.seen (t := t) found
        · exact ⟨version, seen, newer, .inl same⟩
        · rw [opened, Option.some.injEq] at opens
          subst opens
          refine ⟨version, seen, newer, .inr ⟨⟨id, .paid, version.version⟩, ?_, rfl, above⟩⟩
          refine List.mem_append_right _ (List.mem_map.mpr ⟨id, member, ?_⟩)
          rw [seen]
          rfl
  | drop t =>
      refine ⟨⟨dated.locked.release t, fun {u id version} held => ?_⟩, .of_rows rfl rfl⟩
      have other : u ≠ t := by
        rintro rfl
        rw [Versions.mine_release_self] at held
        cases held
      rw [Versions.mine_release_of_ne other] at held
      obtain ⟨row, found, newer, status⟩ := dated.mine held
      exact ⟨row, found, newer, status.imp_right fun ⟨book, opens, member⟩ =>
        ⟨book, (Function.update_of_ne other ..).trans opens, member⟩⟩
  | stop =>
      exact ⟨⟨.idle _, fun held => by cases held⟩, .of_rows rfl rfl⟩

end Books

variable [Fintype τ] {rules : Rules τ} {w w' : World τ}

/-- A step of the service raises the versions of the invoices. -/
theorem Moves.rising (sane : w.Sane) (move : Moves rules w w')
    (rising : w.books.rows.Rising InvoiceRow.version) :
    w'.books.rows.Rising InvoiceRow.version ∧ w.books.rows.Rises InvoiceRow.version w'.books.rows := by
  have guarded : Guarded rules Books.anything w :=
    ⟨fun _ _ => trivial, fun _ _ _ => trivial, fun _ _ => trivial⟩
  rcases move.books sane guarded with same | step
  · rw [same]
    exact ⟨rising, .refl _⟩
  · exact step.rising rising

/-- The statuses of the rows, for a step of the service. -/
theorem Moves.dated (sane : w.Sane) (move : Moves rules w w') (dated : w.books.Dated) :
    w'.books.Dated ∧ w.books.Evolves w'.books := by
  have guarded : Guarded rules Books.anything w :=
    ⟨fun _ _ => trivial, fun _ _ _ => trivial, fun _ _ => trivial⟩
  rcases move.books sane guarded with same | step
  · rw [same]
    exact ⟨dated, .of_rows rfl rfl⟩
  · exact dated.step (fun _ _ found => Table.key_of_find found) step

end SpiceHarvester
