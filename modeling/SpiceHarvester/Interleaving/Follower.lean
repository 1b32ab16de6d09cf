import Mathlib.Data.List.Chain
import Mathlib.Data.List.Destutter

/-!
# A consumer that follows a feed

In a feed each item names the one before it. A consumer takes the item that follows its
cursor, commits it, and with it writes down where it is. Then it moves its cursor on, unless
it has not learned that it has committed: then it takes the same item again. A consumer that
starts anew goes on from where it has written down.

The cursor is therefore at most one item behind what is written down (`Near`), and each
commit goes on with the feed or repeats its last item (`Followed.commit`). Repetitions
apart, what has been committed is the feed from the start on, without a gap
(`Followed.prefix_feed`).
-/

set_option autoImplicit false

namespace Interleaving

variable {κ : Type} [DecidableEq κ]

/-- A log in which immediate repetitions of an item count once. -/
def collapse (log : List κ) : List κ := log.destutter (· ≠ ·)

/-- An item that is repeated counts no more, any other item is added. -/
theorem collapse_concat (log : List κ) (item : κ) :
    collapse (log ++ [item]) =
      if (collapse log).getLast? = some item then collapse log else collapse log ++ [item] := by
  have run : ∀ (rest : List κ) (first : κ), (rest ++ [item]).destutter' (· ≠ ·) first =
      if (rest.destutter' (· ≠ ·) first).getLast? = some item then rest.destutter' (· ≠ ·) first
      else rest.destutter' (· ≠ ·) first ++ [item] := by
    intro rest
    induction rest with
    | nil =>
        intro first
        by_cases same : first = item
        · rw [List.nil_append, List.destutter'_cons_neg [] (not_not.mpr same), List.destutter'_nil,
            if_pos (by rw [same]; rfl)]
        · rw [List.nil_append, List.destutter'_cons_pos [] same, List.destutter'_nil,
            List.destutter'_nil, List.getLast?_singleton,
            if_neg fun impossible => same (Option.some.inj impossible)]
          rfl
    | cons next rest ih =>
        intro first
        by_cases same : first = next
        · rw [List.cons_append, List.destutter'_cons_neg _ (not_not.mpr same),
            List.destutter'_cons_neg _ (not_not.mpr same)]
          exact ih first
        · rw [List.cons_append, List.destutter'_cons_pos _ same, List.destutter'_cons_pos _ same,
            ih next, List.getLast?_cons_of_ne_nil (List.destutter'_ne_nil _ _)]
          split <;> rfl
  cases log with
  | nil => rfl
  | cons first rest => exact run rest first

theorem collapse_concat_of_last {log : List κ} {item : κ}
    (last : (collapse log).getLast? = some item) : collapse (log ++ [item]) = collapse log := by
  rw [collapse_concat, if_pos last]

theorem collapse_concat_of_ne {log : List κ} {item : κ}
    (other : (collapse log).getLast? ≠ some item) :
    collapse (log ++ [item]) = collapse log ++ [item] := by
  rw [collapse_concat, if_neg other]

theorem mem_collapse {log : List κ} {item : κ} : item ∈ collapse log ↔ item ∈ log := by
  refine ⟨fun member => (List.destutter_sublist (· ≠ ·) log).subset member, fun member => ?_⟩
  induction log using List.reverseRecOn with
  | nil => cases member
  | append_singleton log last ih =>
      rw [collapse_concat]
      split
      · rename_i repeated
        obtain before | same := List.mem_append.mp member
        · exact ih before
        · exact List.mem_singleton.mp same ▸ List.mem_of_getLast? repeated
      · exact List.mem_append.mpr ((List.mem_append.mp member).imp_left ih)

/-- Where a consumer is that has committed a log. -/
def lastOf (start : κ) (log : List κ) : κ := (collapse log).getLast?.getD start

/-- Each item of the log follows the one before it, or repeats it. -/
def Followed (next : κ → κ → Prop) (start : κ) (log : List κ) : Prop :=
  (start :: collapse log).IsChain next

/-- A cursor is where the consumer is, or one item behind. -/
def Near (next : κ → κ → Prop) (start : κ) (log : List κ) (cursor : κ) : Prop :=
  cursor = lastOf start log ∨ log ≠ [] ∧ next cursor (lastOf start log)

/-- What names an item as the one before it, is not this item, and no other item names it. -/
structure Feed (next : κ → κ → Prop) : Prop where
  moves : ∀ {k k'}, next k k' → k ≠ k'
  unique : ∀ {k k' k''}, next k k' → next k k'' → k' = k''

variable {next : κ → κ → Prop} {start item cursor : κ} {log : List κ}

@[simp] theorem lastOf_nil (start : κ) : lastOf start [] = start := rfl

/-- After a commit the consumer is at its item. -/
@[simp] theorem lastOf_concat (start : κ) (log : List κ) (item : κ) :
    lastOf start (log ++ [item]) = item := by
  rw [lastOf]
  by_cases last : (collapse log).getLast? = some item
  · rw [collapse_concat_of_last last, last, Option.getD_some]
  · rw [collapse_concat_of_ne last, List.getLast?_concat, Option.getD_some]

theorem Followed.nil (next : κ → κ → Prop) (start : κ) : Followed next start [] :=
  List.isChain_singleton start

theorem Near.last (next : κ → κ → Prop) (start : κ) (log : List κ) :
    Near next start log (lastOf start log) := .inl rfl

/-- The log ends with the item where the consumer is. -/
theorem getLast?_collapse (start : κ) (some' : log ≠ []) :
    (collapse log).getLast? = some (lastOf start log) := by
  have filled : collapse log ≠ [] := fun empty => some' ((List.destutter_eq_nil _).mp empty)
  rw [lastOf, List.getLast?_eq_some_getLast filled, Option.getD_some]

/-- **A commit goes on with the feed, or repeats its last item.** -/
theorem Followed.commit (feed : Feed next) (followed : Followed next start log)
    (near : Near next start log cursor) (takes : next cursor item) :
    Followed next start (log ++ [item]) ∧ Near next start (log ++ [item]) cursor := by
  refine ⟨?_, .inr ⟨List.concat_ne_nil item log, by rw [lastOf_concat]; exact takes⟩⟩
  unfold Followed
  obtain rfl | ⟨some', before⟩ := near
  · by_cases empty : log = []
    · subst empty
      exact List.isChain_pair.mpr takes
    · have last := getLast?_collapse start empty
      rw [collapse_concat_of_ne (by rw [last]; exact fun same => feed.moves takes (Option.some.inj same)),
        ← List.cons_append]
      refine List.IsChain.append followed (List.isChain_singleton item) fun k at' k' here => ?_
      obtain rfl : item = k' := Option.some.inj here
      rw [List.getLast?_cons, last] at at'
      obtain rfl : lastOf start log = k := Option.some.inj at'
      exact takes
  · -- The cursor is behind, so the item that follows it is the one committed last.
    have same : item = lastOf start log := feed.unique takes before
    rw [collapse_concat_of_last (by rw [same]; exact getLast?_collapse _ some')]
    exact followed

/-- **What has been committed is the feed from the start on.** -/
theorem Followed.prefix_feed {feed : κ → List κ} (goes : ∀ {k k'}, next k k' → feed k = k' :: feed k')
    (followed : Followed next start log) : collapse log <+: feed start := by
  have run : ∀ (items : List κ) (k : κ), (k :: items).IsChain next → items <+: feed k := by
    intro items
    induction items with
    | nil => exact fun _ _ => List.nil_prefix
    | cons first rest ih =>
        intro k chain
        obtain ⟨follows, chain⟩ := List.isChain_cons_cons.mp chain
        rw [goes follows]
        exact List.cons_prefix_cons.mpr ⟨rfl, ih first chain⟩
  exact run _ start followed

end Interleaving
