import Mathlib.Logic.Function.Basic

/-!
# Rows under locks

The rows of a table by their keys, and for each transaction the versions of rows
that it has written and not yet committed. A row that a transaction has written
is locked by it: no other transaction writes it (`Locked`).

A transaction reads its own versions in place of the committed rows (`seen`).
What the others do therefore reaches it through the rows that it has not
written, and nothing else: `seen_commit_of_held` and `seen_update_of_held` say
that a written row is out of reach, `seen_of_not_held` that any other row is read
as it was committed last.
-/

set_option autoImplicit false

namespace Sql

/-- Committed rows, and the versions that each transaction has written. -/
structure Versions (τ κ ρ : Type) where
  row : κ → Option ρ
  mine : τ → κ → Option ρ

namespace Versions

variable {τ κ ρ : Type}

/-- The row as a transaction reads it. -/
def seen (V : Versions τ κ ρ) (t : τ) (k : κ) : Option ρ := (V.mine t k).or (V.row k)

/-- Rows are locked by one transaction at most, and stored. -/
structure Locked (V : Versions τ κ ρ) : Prop where
  exclusive : ∀ {t u k}, t ≠ u → (V.mine t k).isSome → V.mine u k = none
  stored : ∀ {t k}, (V.mine t k).isSome → (V.row k).isSome

/-- No version is written yet. -/
def idle (row : κ → Option ρ) : Versions τ κ ρ := ⟨row, fun _ _ => none⟩

/-- An `UPDATE` outside a transaction. -/
def update (V : Versions τ κ ρ) (f : ρ → ρ) : Versions τ κ ρ :=
  { V with row := fun k => (V.row k).map f }

theorem Locked.idle (row : κ → Option ρ) : (idle row : Versions τ κ ρ).Locked where
  exclusive := fun _ held => by cases held
  stored := fun held => by cases held

theorem Locked.update {V : Versions τ κ ρ} (locked : V.Locked) (f : ρ → ρ) :
    (V.update f).Locked where
  exclusive := locked.exclusive
  stored := fun {t k} held => by
    change ((V.row k).map f).isSome
    rw [Option.isSome_map]
    exact locked.stored held

section Reading

variable {V : Versions τ κ ρ} {t : τ} {k : κ} {version : ρ}

theorem seen_of_held (held : V.mine t k = some version) : V.seen t k = some version := by
  rw [seen, held, Option.some_or]

theorem seen_of_not_held (free : V.mine t k = none) : V.seen t k = V.row k := by
  rw [seen, free, Option.none_or]

/-- What a transaction reads is stored. -/
theorem Locked.stored_of_seen (locked : V.Locked) (found : V.seen t k = some version) :
    ∃ row, V.row k = some row := by
  cases held : V.mine t k with
  | none => exact ⟨version, (seen_of_not_held held).symm.trans found⟩
  | some own => exact Option.isSome_iff_exists.mp (locked.stored (by rw [held]; rfl))

theorem seen_update_of_held (f : ρ → ρ) (held : V.mine t k = some version) :
    (V.update f).seen t k = some version :=
  seen_of_held (V := V.update f) held

theorem seen_update_of_not_held (f : ρ → ρ) (free : V.mine t k = none) :
    (V.update f).seen t k = (V.seen t k).map f := by
  rw [seen_of_not_held free]
  exact seen_of_not_held (V := V.update f) free

end Reading

/-- What is stored is seen. -/
theorem isSome_seen {V : Versions τ κ ρ} {t : τ} {k : κ} (found : (V.row k).isSome) :
    (V.seen t k).isSome := by
  rw [seen]
  cases V.mine t k with
  | none => exact found
  | some version => rfl

/-! ## `INSERT` -/

section Insert

variable [DecidableEq κ] {V : Versions τ κ ρ} {k k' : κ} {row : ρ}

/-- `INSERT` of a row. -/
def insert (V : Versions τ κ ρ) (k : κ) (row : ρ) : Versions τ κ ρ :=
  { V with row := Function.update V.row k (some row) }

@[simp] theorem row_insert_self : (V.insert k row).row k = some row := Function.update_self ..

theorem row_insert_of_ne (other : k' ≠ k) : (V.insert k row).row k' = V.row k' :=
  Function.update_of_ne other ..

@[simp] theorem mine_insert : (V.insert k row).mine = V.mine := rfl

theorem Locked.insert (locked : V.Locked) (k : κ) (row : ρ) : (V.insert k row).Locked where
  exclusive := locked.exclusive
  stored := fun {t k'} held => by
    by_cases same : k' = k
    · rw [same, row_insert_self]
      rfl
    · rw [row_insert_of_ne same]
      exact locked.stored held

end Insert

/-! ## `ROLLBACK` and `COMMIT` -/

section Commit

variable [DecidableEq τ] {V : Versions τ κ ρ} {t u : τ} {k : κ}

/-- `ROLLBACK`. -/
def release (V : Versions τ κ ρ) (t : τ) : Versions τ κ ρ :=
  { V with mine := Function.update V.mine t fun _ => none }

/-- `COMMIT`. -/
def commit (V : Versions τ κ ρ) (t : τ) : Versions τ κ ρ :=
  { row := V.seen t, mine := Function.update V.mine t fun _ => none }

@[simp] theorem row_release : (V.release t).row = V.row := rfl

@[simp] theorem mine_release_self : (V.release t).mine t = fun _ => none :=
  Function.update_self ..

theorem mine_release_of_ne (other : u ≠ t) : (V.release t).mine u = V.mine u :=
  Function.update_of_ne other ..

@[simp] theorem row_commit : (V.commit t).row = V.seen t := rfl

@[simp] theorem mine_commit_self : (V.commit t).mine t = fun _ => none :=
  Function.update_self ..

theorem mine_commit_of_ne (other : u ≠ t) : (V.commit t).mine u = V.mine u :=
  Function.update_of_ne other ..

/-- A written row is out of reach of the commit of another transaction. -/
theorem Locked.row_commit_of_held (locked : V.Locked) (other : u ≠ t)
    (held : (V.mine u k).isSome) : (V.commit t).row k = V.row k := by
  rw [row_commit, seen_of_not_held (locked.exclusive other held)]

/-- Any other row is read as the transaction has committed it. -/
theorem seen_commit_of_not_held (other : u ≠ t) (free : V.mine u k = none) :
    (V.commit t).seen u k = V.seen t k :=
  seen_of_not_held (V := V.commit t) ((congrFun (mine_commit_of_ne other) k).trans free)

theorem Locked.release (locked : V.Locked) (t : τ) : (V.release t).Locked where
  exclusive := by
    intro u v k' other held
    by_cases own : v = t
    · rw [own, mine_release_self]
    · rw [mine_release_of_ne own]
      by_cases same : u = t
      · rw [same, mine_release_self] at held
        cases held
      · rw [mine_release_of_ne same] at held
        exact locked.exclusive other held
  stored := by
    intro u k' held
    by_cases same : u = t
    · rw [same, mine_release_self] at held
      cases held
    · rw [mine_release_of_ne same] at held
      exact locked.stored held

theorem Locked.commit (locked : V.Locked) (t : τ) : (V.commit t).Locked where
  exclusive := (locked.release t).exclusive
  stored := fun held => isSome_seen ((locked.release t).stored held)

end Commit

/-! ## `UPDATE` inside a transaction -/

section Rewrite

variable [DecidableEq τ] [DecidableEq κ] {V : Versions τ κ ρ} {t u : τ} {k k' : κ} {f : ρ → ρ}

/-- An `UPDATE` of one row inside a transaction. -/
def rewrite (V : Versions τ κ ρ) (t : τ) (k : κ) (f : ρ → ρ) : Versions τ κ ρ :=
  { V with mine := Function.update V.mine t (Function.update (V.mine t) k ((V.seen t k).map f)) }

@[simp] theorem row_rewrite : (V.rewrite t k f).row = V.row := rfl

@[simp] theorem mine_rewrite_self : (V.rewrite t k f).mine t k = (V.seen t k).map f := by
  simp only [rewrite, Function.update_self]

theorem mine_rewrite_of_key (other : k' ≠ k) : (V.rewrite t k f).mine t k' = V.mine t k' := by
  simp only [rewrite, Function.update_self, Function.update_of_ne other]

theorem mine_rewrite_of_ne (other : u ≠ t) : (V.rewrite t k f).mine u = V.mine u :=
  Function.update_of_ne other ..

theorem seen_rewrite_of_key (other : k' ≠ k) : (V.rewrite t k f).seen t k' = V.seen t k' := by
  rw [seen, mine_rewrite_of_key other]
  rfl

/-- A version comes from before, or is the one just written. -/
theorem mine_rewrite_cases {version : ρ} (held : (V.rewrite t k f).mine u k' = some version) :
    V.mine u k' = some version ∨
      u = t ∧ k' = k ∧ ∃ before, V.seen t k = some before ∧ version = f before := by
  by_cases same : u = t
  · subst same
    by_cases here : k' = k
    · subst here
      rw [mine_rewrite_self, Option.map_eq_some_iff] at held
      obtain ⟨before, found, rfl⟩ := held
      exact .inr ⟨rfl, rfl, before, found, rfl⟩
    · rw [mine_rewrite_of_key here] at held
      exact .inl held
  · rw [mine_rewrite_of_ne same] at held
    exact .inl held

theorem Locked.rewrite (locked : V.Locked) (f : ρ → ρ)
    (free : (V.seen t k).isSome → ∀ u, u ≠ t → V.mine u k = none) : (V.rewrite t k f).Locked where
  exclusive := by
    intro u v k' other held
    by_contra taken
    obtain ⟨version, held⟩ := Option.isSome_iff_exists.mp held
    obtain ⟨version', held'⟩ := Option.ne_none_iff_exists'.mp taken
    obtain before | ⟨rfl, rfl, _, found, _⟩ := mine_rewrite_cases held
    · obtain before' | ⟨rfl, rfl, _, found, _⟩ := mine_rewrite_cases held'
      · rw [locked.exclusive other (by rw [before]; rfl)] at before'
        cases before'
      · rw [free (by rw [found]; rfl) u other] at before
        cases before
    · obtain before' | ⟨rfl, _⟩ := mine_rewrite_cases held'
      · rw [free (by rw [found]; rfl) v other.symm] at before'
        cases before'
      · exact other rfl
  stored := by
    intro u k' held
    obtain ⟨version, held⟩ := Option.isSome_iff_exists.mp held
    obtain before | ⟨_, rfl, _, found, _⟩ := mine_rewrite_cases held
    · exact locked.stored (by rw [before]; rfl)
    · obtain ⟨row, stored⟩ := locked.stored_of_seen found
      rw [row_rewrite, stored]
      rfl

end Rewrite

end Versions

end Sql
