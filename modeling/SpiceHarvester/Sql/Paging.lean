import Mathlib.Data.List.Nodup
import Mathlib.Data.Set.Defs
import Mathlib.Order.Lattice

/-!
# Reading a growing table page by page

A reader asks for the keys beyond the last one it has received, the lowest first, a page
at a time (`page`). Meanwhile keys are added. What the reader receives rises, and no key
comes twice (`Cursor.pairwise_append`).

A key that is behind the last one received, and has not been received itself, is skipped
for good (`Skipped.receive`). Nothing is skipped as long as keys are added ahead of the
reader only (`Complete.add`, `Complete.receive`). An empty page then tells it that it has
received everything (`Complete.mem_of_empty`).
-/

set_option autoImplicit false

namespace Sql

variable {κ : Type} [LinearOrder κ]

/-- `SELECT key ... WHERE key > $1 ORDER BY key`. -/
def ahead (keys : List κ) (after : κ) : List κ :=
  (keys.filter fun key => decide (after < key)).mergeSort fun key later => decide (key ≤ later)

/-- The same with `LIMIT $2`. -/
def page (keys : List κ) (after : κ) (limit : ℕ) : List κ := (ahead keys after).take limit

/-! ## Pages -/

section Page

variable {keys : List κ} {after key last : κ} {limit : ℕ}

theorem mem_ahead : key ∈ ahead keys after ↔ key ∈ keys ∧ after < key := by
  rw [ahead, List.mem_mergeSort, List.mem_filter, decide_eq_true_eq]

theorem ahead_sorted (keys : List κ) (after : κ) : (ahead keys after).Pairwise (· ≤ ·) := by
  have sorted : (ahead keys after).Pairwise fun key later => decide (key ≤ later) = true :=
    List.pairwise_mergeSort
      (fun a b c first second => by
        rw [decide_eq_true_eq] at *
        exact le_trans first second)
      (fun a b => by
        rw [Bool.or_eq_true, decide_eq_true_eq, decide_eq_true_eq]
        exact le_total a b)
      (keys.filter fun key => decide (after < key))
  exact sorted.imp fun le => of_decide_eq_true le

theorem mem_of_mem_page (member : key ∈ page keys after limit) : key ∈ keys ∧ after < key :=
  mem_ahead.mp (List.mem_of_mem_take member)

/-- The keys of a page rise. -/
theorem page_pairwise (distinct : keys.Nodup) : (page keys after limit).Pairwise (· < ·) := by
  have once : (ahead keys after).Nodup :=
    (List.mergeSort_perm _ _).nodup_iff.mpr (distinct.filter _)
  have rises : (ahead keys after).Pairwise (· < ·) :=
    ((ahead_sorted keys after).and once).imp fun both => lt_of_le_of_ne both.1 both.2
  exact rises.sublist (List.take_sublist _ _)

/-- A page has every key up to its last one. -/
theorem mem_page_of_le (stored : key ∈ keys) (beyond : after < key)
    (member : last ∈ page keys after limit) (le : key ≤ last) : key ∈ page keys after limit := by
  have found : key ∈ ahead keys after := mem_ahead.mpr ⟨stored, beyond⟩
  have sorted := ahead_sorted keys after
  rw [← List.take_append_drop limit (ahead keys after)] at found sorted
  rcases List.mem_append.mp found with found | later
  · exact found
  · have ge : last ≤ key := (List.pairwise_append.mp sorted).2.2 last member key later
    exact le_antisymm le ge ▸ member

/-- A page is empty only where no key is ahead. -/
theorem le_of_page_eq_nil (asks : 0 < limit) (empty : page keys after limit = [])
    (stored : key ∈ keys) : key ≤ after := by
  by_contra beyond
  have found : key ∈ ahead keys after := mem_ahead.mpr ⟨stored, not_le.mp beyond⟩
  rw [page, List.take_eq_nil_iff] at empty
  rcases empty with none | none
  · exact absurd none (Nat.pos_iff_ne_zero.mp asks)
  · rw [none] at found
    cases found

end Page

/-! ## The reader -/

/-- The reader goes on after the last key it has received, or from the bottom. -/
structure Cursor (bottom : κ) (received : List κ) (after : κ) : Prop where
  le : ∀ key ∈ received, key ≤ after
  received : after = bottom ∨ after ∈ received

/-- Everything up to the last key received has been received. -/
def Complete (stored : Set κ) (received : List κ) : Prop :=
  ∀ key ∈ stored, ∀ last ∈ received, key ≤ last → key ∈ received

/-- A stored key that the reader has passed over. -/
structure Skipped (stored : Set κ) (received : List κ) (key : κ) : Prop where
  stored : key ∈ stored
  missed : key ∉ received
  behind : ∃ last ∈ received, key ≤ last

section Reader

variable {bottom after key last : κ} {received keys : List κ} {limit : ℕ} {stored stored' : Set κ}

theorem Cursor.start (bottom : κ) : Cursor bottom [] bottom where
  le := fun _ member => by cases member
  received := .inl rfl

/-- What is received goes on rising. -/
theorem Cursor.pairwise_append (cursor : Cursor bottom received after)
    (rises : received.Pairwise (· < ·)) (distinct : keys.Nodup) :
    (received ++ page keys after limit).Pairwise (· < ·) := by
  refine List.pairwise_append.mpr ⟨rises, page_pairwise distinct, ?_⟩
  intro key member later member'
  exact lt_of_le_of_lt (cursor.le key member) (mem_of_mem_page member').2

/-- The last key of a page is the next cursor. -/
theorem Cursor.append (cursor : Cursor bottom received after) (distinct : keys.Nodup)
    (final : (page keys after limit).getLast? = some last) :
    Cursor bottom (received ++ page keys after limit) last := by
  have member : last ∈ page keys after limit := List.mem_of_getLast? final
  refine ⟨fun key found => ?_, .inr (List.mem_append_right _ member)⟩
  rcases List.mem_append.mp found with before | found
  · exact le_of_lt (lt_of_le_of_lt (cursor.le key before) (mem_of_mem_page member).2)
  · obtain ⟨rest, same⟩ := List.getLast?_eq_some_iff.mp final
    have rises : (page keys after limit).Pairwise (· < ·) := page_pairwise distinct
    rw [same] at found rises
    rcases List.mem_append.mp found with before | found
    · exact le_of_lt ((List.pairwise_append.mp rises).2.2 key before last (List.mem_singleton_self _))
    · exact le_of_eq (List.mem_singleton.mp found)

/-- **A key that has been passed over is never received.** -/
theorem Skipped.receive (skipped : Skipped stored received key)
    (cursor : Cursor bottom received after) :
    Skipped stored (received ++ page keys after limit) key := by
  obtain ⟨last, member, le⟩ := skipped.behind
  refine ⟨skipped.stored, fun found => ?_, last, List.mem_append_left _ member, le⟩
  rcases List.mem_append.mp found with found | found
  · exact skipped.missed found
  · have behind : key ≤ after := le_trans le (cursor.le last member)
    exact absurd (mem_of_mem_page found).2 (not_lt.mpr behind)

theorem Skipped.add (skipped : Skipped stored received key) (kept : stored ⊆ stored') :
    Skipped stored' received key := ⟨kept skipped.stored, skipped.missed, skipped.behind⟩

/-- Keys that are added ahead of the reader are not skipped. -/
theorem Complete.add (complete : Complete stored received)
    (beyond : ∀ key ∈ stored', key ∉ stored → ∀ last ∈ received, last < key) :
    Complete stored' received := by
  intro key member last member' le
  by_cases before : key ∈ stored
  · exact complete key before last member' le
  · exact absurd (beyond key member before last member') (not_lt.mpr le)

/-- A page is complete, but for what has been added behind it since. -/
theorem Complete.receive (complete : Complete stored received) (cursor : Cursor bottom received after)
    (above : ∀ key ∈ stored, bottom < key)
    (beyond : ∀ key ∈ stored, key ∉ keys → ∀ last ∈ page keys after limit, last < key) :
    Complete stored (received ++ page keys after limit) := by
  intro key member last found le
  rcases List.mem_append.mp found with before | found
  · exact List.mem_append_left _ (complete key member last before le)
  · by_cases listed : key ∈ keys
    · by_cases passed : after < key
      · exact List.mem_append_right _ (mem_page_of_le listed passed found le)
      · rcases cursor.received with start | before
        · exact absurd (above key member) (start ▸ passed)
        · exact List.mem_append_left _ (complete key member after before (not_lt.mp passed))
    · exact absurd (beyond key member listed last found) (not_lt.mpr le)

/-- **An empty page tells that everything has been received.** -/
theorem Complete.mem_of_empty (complete : Complete stored received)
    (cursor : Cursor bottom received after) (above : ∀ key ∈ stored, bottom < key) (asks : 0 < limit)
    (empty : page keys after limit = []) (listed : key ∈ keys) (member : key ∈ stored) :
    key ∈ received := by
  have behind : key ≤ after := le_of_page_eq_nil asks empty listed
  rcases cursor.received with start | before
  · exact absurd (above key member) (not_lt.mpr (start ▸ behind))
  · exact complete key member after before behind

end Reader

end Sql
