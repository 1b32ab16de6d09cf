import SpiceHarvester.Sql.Versions
import Mathlib.Order.Defs.PartialOrder

/-!
# Rows that only rise

Where every `UPDATE` raises a row in some rank, the versions that a transaction has
written rank above the committed rows they replace (`Versions.Rising`), because the rows
are locked meanwhile. So a commit raises the committed rows too, and every row rises
through all that is done to the table (`Versions.Rises`).
-/

set_option autoImplicit false

namespace Sql

namespace Versions

variable {τ κ ρ R : Type} [Preorder R] (rank : ρ → R)

/-- What a transaction has written ranks above the committed row. -/
structure Rising (V : Versions τ κ ρ) : Prop where
  locked : V.Locked
  above : ∀ {t k version}, V.mine t k = some version →
    ∃ row, V.row k = some row ∧ rank row ≤ rank version

/-- The committed rows rise from one state to another. -/
def Rises (V V' : Versions τ κ ρ) : Prop :=
  ∀ k row, V.row k = some row → ∃ row', V'.row k = some row' ∧ rank row ≤ rank row'

variable {rank} {V V' V'' : Versions τ κ ρ} {t : τ} {k : κ}

theorem Rises.refl (V : Versions τ κ ρ) : V.Rises rank V := fun _ row found => ⟨row, found, le_refl _⟩

theorem Rises.of_eq (same : V'.row = V.row) : V.Rises rank V' := by
  intro k row found
  exact ⟨row, by rw [same, found], le_refl _⟩

theorem Rises.trans (first : V.Rises rank V') (later : V'.Rises rank V'') : V.Rises rank V'' := by
  intro k row found
  obtain ⟨row', found', le⟩ := first k row found
  obtain ⟨row'', found'', le'⟩ := later k row' found'
  exact ⟨row'', found'', le_trans le le'⟩

theorem Rising.idle (row : κ → Option ρ) : (Versions.idle row : Versions τ κ ρ).Rising rank where
  locked := .idle row
  above := fun held => by cases held

/-- What a transaction reads ranks above the committed row. -/
theorem Rising.seen (rising : V.Rising rank) {row : ρ} (found : V.row k = some row) (t : τ) :
    ∃ version, V.seen t k = some version ∧ rank row ≤ rank version := by
  cases held : V.mine t k with
  | none => exact ⟨row, (seen_of_not_held held).trans found, le_refl _⟩
  | some version =>
      obtain ⟨row', found', le⟩ := rising.above held
      rw [found, Option.some.injEq] at found'
      exact ⟨version, seen_of_held held, found' ▸ le⟩

/-- An `UPDATE` outside a transaction leaves the rows that are locked. -/
theorem Rising.update (rising : V.Rising rank) {f : ρ → ρ} (raises : ∀ row, rank row ≤ rank (f row))
    (free : ∀ {t k row}, V.row k = some row → (V.mine t k).isSome → f row = row) :
    (V.update f).Rising rank ∧ V.Rises rank (V.update f) := by
  refine ⟨⟨rising.locked.update f, fun {t k version} held => ?_⟩, fun k row found => ?_⟩
  · change V.mine t k = some version at held
    obtain ⟨row, found, le⟩ := rising.above held
    refine ⟨row, ?_, le⟩
    change (V.row k).map f = some row
    rw [found, Option.map_some, free found (by rw [held]; rfl)]
  · refine ⟨f row, ?_, raises row⟩
    change (V.row k).map f = _
    rw [found, Option.map_some]

section Insert

variable [DecidableEq κ]

theorem Rising.insert (rising : V.Rising rank) {row : ρ} (new : V.row k = none) :
    (V.insert k row).Rising rank ∧ V.Rises rank (V.insert k row) := by
  have stays : ∀ {k' before}, V.row k' = some before → (V.insert k row).row k' = some before := by
    intro k' before found
    rw [row_insert_of_ne, found]
    rintro rfl
    rw [new] at found
    cases found
  refine ⟨⟨rising.locked.insert k row, fun held => ?_⟩, fun k' before found => ?_⟩
  · obtain ⟨before, found, le⟩ := rising.above held
    exact ⟨before, stays found, le⟩
  · exact ⟨before, stays found, le_refl _⟩

end Insert

variable [DecidableEq τ]

theorem Rising.release (rising : V.Rising rank) (t : τ) : (V.release t).Rising rank where
  locked := rising.locked.release t
  above := by
    intro u k version held
    by_cases same : u = t
    · subst same
      rw [mine_release_self] at held
      cases held
    · rw [mine_release_of_ne same] at held
      exact rising.above held

theorem Rising.commit (rising : V.Rising rank) (t : τ) :
    (V.commit t).Rising rank ∧ V.Rises rank (V.commit t) := by
  refine ⟨⟨rising.locked.commit t, fun {u k version} held => ?_⟩, fun k row found => ?_⟩
  · by_cases same : u = t
    · subst same
      rw [mine_commit_self] at held
      cases held
    · rw [mine_commit_of_ne same] at held
      obtain ⟨row, found, le⟩ := rising.above held
      refine ⟨row, ?_, le⟩
      rw [rising.locked.row_commit_of_held same (by rw [held]; rfl), found]
  · exact rising.seen found t

variable [DecidableEq κ]

/-- An `UPDATE` of a row that no other transaction has locked. -/
theorem Rising.rewrite (rising : V.Rising rank) {f : ρ → ρ} (raises : ∀ row, rank row ≤ rank (f row))
    (free : (V.seen t k).isSome → ∀ u, u ≠ t → V.mine u k = none) :
    (V.rewrite t k f).Rising rank where
  locked := rising.locked.rewrite f free
  above := by
    intro u k' version held
    obtain before | ⟨rfl, rfl, before, found, rfl⟩ := mine_rewrite_cases held
    · exact rising.above before
    · obtain ⟨row, stored⟩ := rising.locked.stored_of_seen found
      obtain ⟨seen, same, le⟩ := rising.seen stored u
      rw [found, Option.some.injEq] at same
      subst same
      exact ⟨row, stored, le_trans le (raises _)⟩

end Versions

end Sql
