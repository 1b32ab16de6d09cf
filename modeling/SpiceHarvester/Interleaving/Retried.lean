import Mathlib.Algebra.BigOperators.Group.List.Basic
import SpiceHarvester.Interleaving.Follower

/-!
# A log of attempts

A consumer that has not learned that its commit succeeded takes the same item again. Its log
then holds several attempts at an item, one directly after the other. Where every attempt that
was repeated had no effect (`Retried`), the effect of the whole log is that of the last
attempts (`Retried.sum_lastTries`), of which there is one for each item
(`map_lastTries`).
-/

set_option autoImplicit false

namespace Interleaving

variable {α κ : Type} [DecidableEq κ] {item : α → κ} {spent spent' : α → Prop}

/-- The last of several attempts at an item that follow each other. -/
def lastTries (item : α → κ) : List α → List α
  | [] => []
  | [last] => [last]
  | first :: next :: rest =>
      if item first = item next then lastTries item (next :: rest)
      else first :: lastTries item (next :: rest)

theorem lastTries_sublist (item : α → κ) (log : List α) : (lastTries item log).Sublist log := by
  fun_induction lastTries item log with
  | case1 => exact .slnil
  | case2 last => exact .refl _
  | case3 first next rest same ih => exact ih.cons first
  | case4 first next rest other ih => exact ih.cons_cons first

/-- **There is one last attempt for each item of the log.** -/
theorem map_lastTries (item : α → κ) (log : List α) :
    (lastTries item log).map item = collapse (log.map item) := by
  unfold collapse
  fun_induction lastTries item log with
  | case1 => rfl
  | case2 last => rfl
  | case3 first next rest same ih =>
      rw [ih, List.map_cons, List.map_cons, List.map_cons, List.destutter_cons', List.destutter_cons',
        List.destutter'_cons_neg _ (not_not.mpr same), same]
  | case4 first next rest other ih =>
      rw [List.map_cons, ih, List.map_cons, List.map_cons, List.map_cons, List.destutter_cons',
        List.destutter_cons', List.destutter'_cons_pos _ other]

/-- An attempt that is repeated had no effect. -/
def Retried (item : α → κ) (spent : α → Prop) (log : List α) : Prop :=
  log.IsChain fun first next => item next = item first → spent first

omit [DecidableEq κ] in
theorem Retried.nil : Retried item spent [] := List.IsChain.nil

omit [DecidableEq κ] in
theorem Retried.mono {log : List α} (retried : Retried item spent log)
    (weaker : ∀ attempt ∈ log, spent attempt → spent' attempt) : Retried item spent' log := by
  induction log with
  | nil => exact List.IsChain.nil
  | cons first rest ih =>
      cases rest with
      | nil => exact List.isChain_singleton first
      | cons next rest =>
          obtain ⟨here, later⟩ := List.isChain_cons_cons.mp retried
          refine List.isChain_cons_cons.mpr ⟨fun same => weaker first List.mem_cons_self (here same), ?_⟩
          exact ih later fun attempt member => weaker attempt (List.mem_cons_of_mem first member)

omit [DecidableEq κ] in
/-- One more attempt. -/
theorem Retried.concat {log : List α} {attempt : α} (retried : Retried item spent log)
    (repeats : ∀ last, log.getLast? = some last → item attempt = item last → spent last) :
    Retried item spent (log ++ [attempt]) := by
  refine List.IsChain.append retried (.singleton attempt) fun last at' first here => ?_
  obtain rfl : attempt = first := Option.some.inj here
  exact repeats last at'

/-- **Only the last attempts count.** -/
theorem Retried.sum_lastTries {M : Type} [AddMonoid M] {effect : α → M} {log : List α}
    (retried : Retried item spent log) (nothing : ∀ attempt ∈ log, spent attempt → effect attempt = 0) :
    (log.map effect).sum = ((lastTries item log).map effect).sum := by
  fun_induction lastTries item log with
  | case1 => rfl
  | case2 last => rfl
  | case3 first next rest same ih =>
      obtain ⟨here, later⟩ := List.isChain_cons_cons.mp retried
      rw [List.map_cons, List.sum_cons, nothing first List.mem_cons_self (here same.symm), zero_add]
      exact ih later fun attempt member => nothing attempt (List.mem_cons_of_mem first member)
  | case4 first next rest other ih =>
      obtain ⟨_, later⟩ := List.isChain_cons_cons.mp retried
      rw [List.map_cons, List.sum_cons, List.map_cons, List.sum_cons]
      exact congrArg _ (ih later fun attempt member =>
        nothing attempt (List.mem_cons_of_mem first member))

end Interleaving
