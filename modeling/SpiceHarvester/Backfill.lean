import Mathlib.Order.WellFounded
import Mathlib.Order.Lattice
import Mathlib.Data.Set.Basic

/-!
# Filling the gaps of a set

Items of a linear order are to be held, all above a start. Each item has one before it. Who
finds the set with gaps looks up, for each item held whose predecessor is not, how far down
the gap may reach, and fills it from the predecessor on down to there (`Filled`). When all
the gaps that were there at the beginning have been filled, in any order, no gap is left up
to the highest item held (`whole_of_gaps`). Filling from a new item down to the last known
keeps it so (`Whole.fill`).
-/

set_option autoImplicit false

namespace Backfill

variable {α : Type} [LinearOrder α]

/-- Going down step by step passes over no item. -/
def Stepwise (items : Set α) (before : α → α → Prop) : Prop :=
  ∀ x ∈ items, ∀ y ∈ items, x < y → ∃ z ∈ items, before z y ∧ x ≤ z ∧ z < y

/-- Above the start every item is held up to what is last, and up to everything held. -/
def Whole (items : Set α) (start : α) (held : Set α) (last : α) : Prop :=
  ∀ x ∈ items, start < x → (x ≤ last ∨ ∃ y ∈ held, x ≤ y) → x ∈ held

/-- Items have been added up to a top: all of them above a bound. -/
structure Filled (items held held' : Set α) (bound top : α) : Prop where
  keeps : held ⊆ held'
  new : ∀ x ∈ held', x ∈ held ∨ x ≤ top
  all : ∀ x ∈ items, bound < x → x ≤ top → x ∈ held'

variable {items held held' later : Set α} {start last bound middle top : α}
  {before : α → α → Prop}

/-- Nothing is above the bound. -/
theorem Filled.none (le : top ≤ bound) : Filled items held held bound top where
  keeps := Set.Subset.rfl
  new _ member := .inl member
  all _ _ above below := absurd (below.trans le) (not_le.mpr above)

theorem Filled.mono {bound' : α} (filled : Filled items held held' bound top)
    (le : bound ≤ bound') : Filled items held held' bound' top :=
  { filled with all := fun x item above below => filled.all x item (le.trans_lt above) below }

/-- Filling goes on where it has stopped. -/
theorem Filled.trans (first : Filled items held held' middle top)
    (second : Filled items held' later bound middle) (le : middle ≤ top) :
    Filled items held later bound top where
  keeps := first.keeps.trans second.keeps
  new x member := by
    obtain old | low := second.new x member
    · exact first.new x old
    · exact .inr (low.trans le)
  all x item above below := by
    obtain low | high := le_or_gt x middle
    · exact second.all x item above low
    · exact second.keeps (first.all x item high below)

/-- **Filling down to what was known last leaves no gap.** -/
theorem Whole.fill (whole : Whole items start held last)
    (filled : Filled items held held' (max last start) top) {now : α} (at' : now = last ∨ now = top) :
    Whole items start held' now := by
  have below : ∀ x ∈ items, start < x → (x ≤ last ∨ ∃ y ∈ held, x ≤ y) → x ∈ held' :=
    fun x item above known => filled.keeps (whole x item above known)
  have upTo : ∀ x ∈ items, start < x → x ≤ top → x ∈ held' := by
    intro x item above le
    obtain known | new := le_or_gt x last
    · exact below x item above (.inl known)
    · exact filled.all x item (max_lt new above) le
  rintro x item above (le | ⟨y, member, le⟩)
  · obtain rfl | rfl := at'
    · exact below x item above (.inl le)
    · exact upTo x item above le
  · obtain old | low := filled.new y member
    · exact below x item above (.inr ⟨y, old, le⟩)
    · exact upTo x item above (le.trans low)

/-- Of the items held that are not below an item, one is the lowest. -/
theorem exists_lowest [WellFoundedLT α] {x y : α} (member : y ∈ held) (le : x ≤ y) :
    ∃ low ∈ held, x ≤ low ∧ ∀ other ∈ held, x ≤ other → low ≤ other := by
  let candidates : Set α := {z | z ∈ held ∧ x ≤ z}
  have some : candidates.Nonempty := ⟨y, member, le⟩
  obtain ⟨among, above⟩ := wellFounded_lt.min_mem candidates some
  exact ⟨_, among, above, fun other held' le' =>
    not_lt.mp (wellFounded_lt.not_lt_min candidates ⟨held', le'⟩)⟩

/-- **When each gap has been filled there is none.** A gap is looked up before anything is
filled: from the predecessor that is missing down to an item held, or to the start. -/
theorem whole_of_gaps [WellFoundedLT α] (stepwise : Stepwise items before) (among : held ⊆ items)
    (filled : ∀ y ∈ held, ∀ z ∈ items, before z y → z ∉ held → start < z →
      ∃ low, (low ≤ start ∨ low ∈ held ∧ low < z) ∧
        ∀ x ∈ items, max low start < x → x ≤ z → x ∈ held')
    (keeps : held ⊆ held') (new : ∀ x ∈ held', ∃ y ∈ held, x ≤ y)
    (known : last ≤ start ∨ ∃ y ∈ held, last ≤ y) : Whole items start held' last := by
  have upTo : ∀ x ∈ items, start < x → ∀ y ∈ held, x ≤ y → x ∈ held' := by
    intro x item above y member le
    by_cases old : x ∈ held
    · exact keeps old
    obtain ⟨low, lowest, high, least⟩ := exists_lowest member le
    have apart : x < low := lt_of_le_of_ne high fun same => old (same ▸ lowest)
    -- The predecessor of the lowest item above is missing: it would be lower still.
    obtain ⟨z, predecessor, next, reaches, below⟩ := stepwise x item low (among lowest) apart
    have missing : z ∉ held := fun there => not_le.mpr below (least z there reaches)
    obtain ⟨bound, deep, all⟩ :=
      filled low lowest z predecessor next missing (above.trans_le reaches)
    refine all x item (max_lt ?_ above) reaches
    obtain start' | ⟨there, lower⟩ := deep
    · exact start'.trans_lt above
    · refine not_le.mp fun reaches' => ?_
      exact absurd (lower.trans below) (not_lt.mpr (least bound there reaches'))
  rintro x item above (le | ⟨y, member, le⟩)
  · obtain low | ⟨y, member, high⟩ := known
    · exact absurd (le.trans low) (not_le.mpr above)
    · exact upTo x item above y member (le.trans high)
  · obtain ⟨y', member', le'⟩ := new y member
    exact upTo x item above y' member' (le.trans le')

end Backfill
