import SpiceHarvester.Sql.Table
import Mathlib.Logic.Function.Basic

/-!
# Rows that are promoted once

A row is pending when it is inserted. A transaction may promote it, for good: it holds the
lock of the row until it ends, and its commit makes the promoted version the row. Pending
rows may be deleted, and their keys used again.

The versions that open transactions hold are promotions of pending rows, and no two of them
are of the same row (`Drafts.Sound`). Hence nothing replaces or removes a row that has been
promoted (`Step.lasts`), and every row comes from an insertion (`Step.origin`).
-/

set_option autoImplicit false

namespace Sql

/-- How rows are promoted. -/
structure Promotion {ρ κ : Type} (key : ρ → κ) where
  pending : ρ → Bool
  promote : ρ → ρ
  keeps : ∀ row, key (promote row) = key row
  ends : ∀ row, pending (promote row) = false

/-- The committed rows, and the versions that each transaction has written. -/
structure Drafts (τ : Type) {ρ κ : Type} (key : ρ → κ) where
  table : Table key
  written : τ → List ρ

namespace Drafts

variable {τ ρ κ : Type} {key : ρ → κ} [DecidableEq κ]

/-- The versions are promotions of pending rows, each of another row. -/
structure Sound (P : Promotion key) (D : Drafts τ key) : Prop where
  promoted : ∀ {t version}, version ∈ D.written t →
    ∃ row, D.table.find (key version) = some row ∧ P.pending row = true ∧ version = P.promote row
  exclusive : ∀ {t u version version'}, t ≠ u → version ∈ D.written t → version' ∈ D.written u →
    key version ≠ key version'

variable [DecidableEq τ]

/-- What transactions and statements outside of them do. -/
inductive Step (P : Promotion key) (allowed : ρ → Prop) (D : Drafts τ key) :
    Drafts τ key → Prop where
  | insert {row : ρ} {table : Table key} (inserted : D.table.insert? row = some table)
      (may : allowed row) : Step P allowed D { D with table := table }
  | promote {t : τ} {k : κ}
      (free : ∀ row, (D.table.view (D.written t)).find k = some row → P.pending row = true →
        ∀ u, u ≠ t → Table.owns key (D.written u) k = false) :
      Step P allowed D { D with
        written := Function.update D.written t (D.table.rewrite (D.written t)
          (fun row => decide (key row = k) && P.pending row) P.promote) }
  | commit {t : τ} :
      Step P allowed D ⟨D.table.view (D.written t), Function.update D.written t []⟩
  | drop {t : τ} : Step P allowed D { D with written := Function.update D.written t [] }
  | delete {condition : ρ → Bool} (only : ∀ row, condition row = true → P.pending row = true)
      (free : ∀ row ∈ D.table.rows, condition row = true →
        ∀ t, Table.owns key (D.written t) (key row) = false) :
      Step P allowed D { D with table := D.table.delete condition }
  | stop : Step P allowed D { D with written := fun _ => [] }

variable {P : Promotion key} {allowed : ρ → Prop} {D D' : Drafts τ key} {t : τ} {k : κ} {row : ρ}

omit [DecidableEq τ] in
theorem Sound.idle (table : Table key) : Sound P (⟨table, fun _ => []⟩ : Drafts τ key) where
  promoted member := by cases member
  exclusive _ member := by cases member

/-! ## What a transaction reads -/

omit [DecidableEq τ] in
/-- A pending row that a transaction reads is stored. -/
theorem Sound.stored (sound : D.Sound P) (seen : (D.table.view (D.written t)).find k = some row)
    (pending : P.pending row = true) : D.table.find k = some row := by
  obtain ⟨member, rfl⟩ := Table.find_eq_some.mp seen
  obtain stored | written := Table.mem_view member
  · exact Table.find_of_mem stored
  · obtain ⟨before, _, _, rfl⟩ := sound.promoted written
    rw [P.ends] at pending
    cases pending

omit [DecidableEq τ] in
/-- A promoted row is read as it is stored. -/
theorem Sound.seen (sound : D.Sound P) (stored : D.table.find k = some row)
    (promoted : P.pending row = false) (t : τ) :
    (D.table.view (D.written t)).find k = some row := by
  obtain rfl := Table.key_of_find stored
  rw [Table.find_view, stored, Option.map_some, Table.latest_of_not_owns]
  by_contra held
  rw [Bool.not_eq_false, Table.owns_iff] at held
  obtain ⟨version, member, same⟩ := held
  obtain ⟨before, found, pending, _⟩ := sound.promoted member
  rw [same, stored, Option.some.injEq] at found
  rw [← found, promoted] at pending
  cases pending

/-! ## One step -/

omit [DecidableEq κ] in
/-- What is left when the versions of a transaction are gone. -/
theorem mem_dropped {written : τ → List ρ} {u : τ} {version : ρ}
    (member : version ∈ Function.update written t [] u) : u ≠ t ∧ version ∈ written u := by
  by_cases own : u = t
  · subst own
    rw [Function.update_self] at member
    cases member
  · rw [Function.update_of_ne own] at member
    exact ⟨own, member⟩

/-- A version of a transaction that promotes a row is from before, or the promoted row. -/
theorem Sound.mem_promoted (sound : D.Sound P) {u : τ} {version : ρ}
    (member : version ∈ Function.update D.written t (D.table.rewrite (D.written t)
      (fun row => decide (key row = k) && P.pending row) P.promote) u) :
    version ∈ D.written u ∨ u = t ∧ key version = k ∧ ∃ row, D.table.find k = some row ∧
      (D.table.view (D.written t)).find k = some row ∧ P.pending row = true ∧
      version = P.promote row := by
  by_cases own : u = t
  · subst own
    rw [Function.update_self, Table.rewrite, List.mem_append, List.mem_map] at member
    obtain ⟨row, hit, rfl⟩ | before := member
    · rw [List.mem_filter, Bool.and_eq_true, decide_eq_true_eq] at hit
      obtain ⟨among, rfl, pending⟩ := hit
      have seen := Table.find_of_mem among
      exact .inr ⟨rfl, P.keeps row, row, sound.stored seen pending, seen, pending, rfl⟩
    · exact .inl before
  · rw [Function.update_of_ne own] at member
    exact .inl member

/-- **Versions stay promotions of pending rows, each of another row.** -/
theorem Sound.step (sound : D.Sound P) (step : Step P allowed D D') : D'.Sound P := by
  cases step with
  | @insert new table inserted may =>
      refine ⟨fun {u version} member => ?_, sound.exclusive⟩
      obtain ⟨row, found, pending, same⟩ := sound.promoted member
      have other : key new ≠ key version := by
        intro taken
        have refused : D.table.insert? new = none :=
          Table.insert?_eq_none.mpr (by rw [taken, found]; rfl)
        rw [inserted] at refused
        cases refused
      exact ⟨row, by rw [Table.find_insert? inserted, if_neg other, found], pending, same⟩
  | @promote t k free =>
      have unlocked : ∀ {u row version}, u ≠ t →
          (D.table.view (D.written t)).find k = some row → P.pending row = true →
          version ∈ D.written u → key version ≠ k := by
        intro u row version other seen pending member same
        have held : Table.owns key (D.written u) k = true :=
          Table.owns_iff.mpr ⟨version, member, same⟩
        rw [free row seen pending u other] at held
        cases held
      refine ⟨fun {u version} member => ?_, fun {u v version version'} other member member' => ?_⟩
      · obtain before | ⟨_, rfl, row, found, _, pending, same⟩ := sound.mem_promoted member
        · exact sound.promoted before
        · exact ⟨row, found, pending, same⟩
      · obtain before | ⟨rfl, here, row, _, seen, pending, _⟩ := sound.mem_promoted member
        · obtain before' | ⟨rfl, here, row, _, seen, pending, _⟩ := sound.mem_promoted member'
          · exact sound.exclusive other before before'
          · exact here ▸ unlocked other seen pending before
        · obtain before' | ⟨rfl, _⟩ := sound.mem_promoted member'
          · exact here ▸ (unlocked other.symm seen pending before').symm
          · exact absurd rfl other
  | @commit t =>
      refine ⟨fun {u version} member => ?_, fun {u v version version'} other member member' => ?_⟩
      · obtain ⟨other, before⟩ := mem_dropped member
        obtain ⟨row, found, pending, same⟩ := sound.promoted before
        refine ⟨row, ?_, pending, same⟩
        rw [Table.find_view, found, Option.map_some, Table.latest_of_not_owns]
        by_contra held
        rw [Bool.not_eq_false, Table.owns_iff, Table.key_of_find found] at held
        obtain ⟨version', member', here⟩ := held
        exact sound.exclusive other before member' here.symm
      · exact sound.exclusive other (mem_dropped member).2 (mem_dropped member').2
  | @drop t =>
      exact ⟨fun member => sound.promoted (mem_dropped member).2,
        fun other member member' =>
          sound.exclusive other (mem_dropped member).2 (mem_dropped member').2⟩
  | @delete condition only free =>
      refine ⟨fun {u version} member => ?_, sound.exclusive⟩
      obtain ⟨row, found, pending, same⟩ := sound.promoted member
      obtain ⟨stored, here⟩ := Table.find_eq_some.mp found
      refine ⟨row, ?_, pending, same⟩
      rw [Table.find_delete, found, Option.filter_some, if_pos]
      by_contra hit
      rw [Bool.not_eq_true, Bool.not_eq_false'] at hit
      have held : Table.owns key (D.written u) (key row) = true :=
        Table.owns_iff.mpr ⟨version, member, here.symm⟩
      rw [free row stored hit u] at held
      cases held
  | stop => exact .idle D.table

/-- **A promoted row stays as it is.** -/
theorem Step.lasts (step : Step P allowed D D') (sound : D.Sound P)
    (stored : D.table.find k = some row) (promoted : P.pending row = false) :
    D'.table.find k = some row := by
  cases step with
  | @insert new table inserted may =>
      have other : key new ≠ k := by
        intro taken
        have refused : D.table.insert? new = none :=
          Table.insert?_eq_none.mpr (by rw [taken, stored]; rfl)
        rw [inserted] at refused
        cases refused
      exact (Table.find_insert? inserted k).trans ((if_neg other).trans stored)
  | promote free => exact stored
  | @commit t => exact sound.seen stored promoted t
  | drop => exact stored
  | @delete condition only free =>
      rw [Table.find_delete, stored, Option.filter_some, if_pos]
      by_contra hit
      rw [Bool.not_eq_true, Bool.not_eq_false'] at hit
      rw [only row hit] at promoted
      cases promoted
  | stop => exact stored

/-- **Every row has been inserted**: a property of what may be inserted that promotion keeps
is one of every row. -/
theorem Step.origin {holds : ρ → Prop} (step : Step P allowed D D') (sound : D.Sound P)
    (enters : ∀ row, allowed row → holds row) (keeps : ∀ row, holds row → holds (P.promote row))
    (all : ∀ row ∈ D.table.rows, holds row) : ∀ row ∈ D'.table.rows, holds row := by
  intro row member
  cases step with
  | @insert new table inserted may =>
      have found := Table.find_of_mem member
      rw [Table.find_insert? inserted] at found
      split at found
      · cases found
        exact enters _ may
      · exact all row (Table.find_eq_some.mp found).1
  | promote free => exact all row member
  | @commit t =>
      obtain stored | written := Table.mem_view member
      · exact all row stored
      · obtain ⟨before, found, _, rfl⟩ := sound.promoted written
        exact keeps before (all before (Table.find_eq_some.mp found).1)
  | drop => exact all row member
  | delete only free => exact all row (List.mem_of_mem_filter member)
  | stop => exact all row member

end Drafts

end Sql
