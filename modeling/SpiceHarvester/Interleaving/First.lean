import Mathlib.Data.List.Basic

/-!
# The first time that something happens

What has happened is a list, from the oldest on. Whether a happening counts may depend
on what has happened before it. Either nothing has counted (`Never`), or there is
exactly one place in the list where it counts for the first time (`First.unique`).
-/

set_option autoImplicit false

namespace Interleaving

variable {α : Type} {E : List α → α → Prop} {l before before' after after' : List α} {e e' : α}

/-- Nothing in the list counts. -/
def Never (E : List α → α → Prop) (l : List α) : Prop :=
  ∀ before e after, l = before ++ e :: after → ¬ E before e

/-- After the happenings before, this one counts, and is the first that does. -/
structure First (E : List α → α → Prop) (before : List α) (e : α) : Prop where
  counts : E before e
  never : Never E before

theorem Never.nil : Never E [] := by
  intro before e after same
  cases before <;> cases same

/-- A place in a list with one more happening is that of the happening, or an earlier
one. -/
theorem place_append_singleton (same : l ++ [e] = before ++ e' :: after) :
    (before = l ∧ e' = e ∧ after = []) ∨ ∃ after', after = after' ++ [e] ∧ l = before ++ e' :: after' := by
  rcases List.eq_nil_or_concat after with rfl | ⟨after', last, rfl⟩
  · obtain ⟨here, last⟩ := List.append_inj' same rfl
    obtain rfl := List.singleton_inj.mp last
    exact .inl ⟨here.symm, rfl, rfl⟩
  · rw [List.concat_eq_append, ← List.cons_append, ← List.append_assoc] at same
    obtain ⟨earlier, last⟩ := List.append_inj' same rfl
    obtain rfl := List.singleton_inj.mp last
    exact .inr ⟨after', List.concat_eq_append, earlier⟩

theorem never_append_singleton : Never E (l ++ [e]) ↔ Never E l ∧ ¬ E l e := by
  constructor
  · intro never
    refine ⟨fun before e' after same => ?_, never l e [] rfl⟩
    exact never before e' (after ++ [e]) (by rw [same, List.append_assoc, List.cons_append])
  · rintro ⟨never, last⟩ before e' after same
    rcases place_append_singleton same with ⟨rfl, rfl, _⟩ | ⟨after', _, earlier⟩
    · exact last
    · exact never before e' after' earlier

/-- Once something counts, it has counted ever after. -/
theorem First.not_never (first : First E before e) : ¬ Never E (before ++ e :: after) :=
  fun never => never before e after rfl first.counts

/-- **There is one first time.** -/
theorem First.unique (first : First E before e) (first' : First E before' e')
    (same : before ++ e :: after = before' ++ e' :: after') :
    before = before' ∧ e = e' ∧ after = after' := by
  rcases List.append_eq_append_iff.mp same with ⟨between, rfl, later⟩ | ⟨between, rfl, later⟩
  · cases between with
    | nil =>
        obtain ⟨rfl, rfl⟩ := List.cons.inj later
        exact ⟨(List.append_nil before).symm, rfl, rfl⟩
    | cons next rest =>
        obtain ⟨rfl, rfl⟩ := List.cons.inj later
        exact absurd first'.never first.not_never
  · cases between with
    | nil =>
        obtain ⟨rfl, rfl⟩ := List.cons.inj later
        exact ⟨List.append_nil before', rfl, rfl⟩
    | cons next rest =>
        obtain ⟨rfl, rfl⟩ := List.cons.inj later
        exact absurd first.never first'.not_never

end Interleaving
