import Mathlib.Logic.Function.Basic
import Mathlib.Order.Lattice

/-!
# Offers that expire unless they are taken up

A key may have an offer, from the time it was made. An offer that is there already is
not replaced. What is offered is taken up at some time, and then stays for ever. Until
then it is purged once it is older than some time.

So an offer is still there when it is taken up, if purges reach only up to a bound and
the key had no older offer open when it was made (`Ready.offer`, `Lasts.step`). An older
offer that was open is purged in place of the new one (`purged_of_not_ready`).
-/

set_option autoImplicit false

namespace Sql

/-- An offer: since when it is there, and whether it has been taken up. -/
structure Lease (T : Type) where
  since : T
  taken : Bool

/-- The offers of all keys. -/
abbrev Leases (κ T : Type) : Type := κ → Option (Lease T)

namespace Leases

variable {κ T : Type} [LinearOrder T]

/-- The offers of the keys are taken up. -/
def take (L : Leases κ T) (keys : κ → Bool) : Leases κ T :=
  fun k => (L k).map fun lease => { lease with taken := lease.taken || keys k }

/-- The open offers from before a time are dropped. -/
def purge (L : Leases κ T) (before : T) : Leases κ T :=
  fun k => (L k).filter fun lease => !(decide (lease.since < before) && !lease.taken)

section Offer

variable [DecidableEq κ]

/-- An offer is made, unless there is one. -/
def offer (L : Leases κ T) (k : κ) (since : T) : Leases κ T :=
  Function.update L k ((L k).or (some ⟨since, false⟩))

/-- What may happen to the offers: purges reach up to a bound. -/
inductive Step (bound : T) (L : Leases κ T) : Leases κ T → Prop where
  | same : Step bound L L
  | offer (k : κ) (since : T) : Step bound L (L.offer k since)
  | take (keys : κ → Bool) : Step bound L (L.take keys)
  | purge {before : T} (le : before ≤ bound) : Step bound L (L.purge before)

end Offer

/-- The key has no open offer from before the bound. -/
def Ready (L : Leases κ T) (k : κ) (bound : T) : Prop :=
  ∀ lease, L k = some lease → lease.taken = true ∨ bound ≤ lease.since

/-- The key has an offer that purges up to the bound leave. -/
def Lasts (L : Leases κ T) (k : κ) (bound : T) : Prop :=
  ∃ lease, L k = some lease ∧ (lease.taken = true ∨ bound ≤ lease.since)

/-- The offer of the key has been taken up. -/
def Taken (L : Leases κ T) (k : κ) : Prop := ∃ lease, L k = some lease ∧ lease.taken = true

variable {L L' : Leases κ T} {k : κ} {bound since : T}

theorem Lasts.take (lasts : L.Lasts k bound) (keys : κ → Bool) : (L.take keys).Lasts k bound := by
  obtain ⟨lease, found, holds⟩ := lasts
  refine ⟨{ lease with taken := lease.taken || keys k }, ?_, ?_⟩
  · rw [Leases.take, found]
    rfl
  · apply holds.imp_left
    intro taken
    rw [taken, Bool.true_or]

theorem Lasts.purge (lasts : L.Lasts k bound) {before : T} (le : before ≤ bound) :
    (L.purge before).Lasts k bound := by
  obtain ⟨lease, found, holds⟩ := lasts
  refine ⟨lease, ?_, holds⟩
  have stays : (!(decide (lease.since < before) && !lease.taken)) = true := by
    rcases holds with taken | young
    · simp [taken]
    · simp [not_lt.mpr (le_trans le young)]
  rw [Leases.purge, found, Option.filter_some, if_pos stays]

/-- What lasts is taken up. -/
theorem Lasts.taken (lasts : L.Lasts k bound) {keys : κ → Bool} (holds : keys k = true) :
    (L.take keys).Taken k := by
  obtain ⟨lease, found, _⟩ := lasts
  refine ⟨{ lease with taken := true }, ?_, rfl⟩
  rw [Leases.take, found, holds, Option.map_some, Bool.or_true]

theorem Taken.lasts (taken : L.Taken k) : L.Lasts k bound := by
  obtain ⟨lease, found, taken⟩ := taken
  exact ⟨lease, found, .inl taken⟩

/-- What has been taken up stays. -/
theorem Taken.purge (taken : L.Taken k) (before : T) : (L.purge before).Taken k := by
  obtain ⟨lease, found, taken⟩ := taken
  refine ⟨lease, ?_, taken⟩
  have stays : (!(decide (lease.since < before) && !lease.taken)) = true := by simp [taken]
  rw [Leases.purge, found, Option.filter_some, if_pos stays]

omit [LinearOrder T] in
theorem Taken.take (taken : L.Taken k) (keys : κ → Bool) : (L.take keys).Taken k := by
  obtain ⟨lease, found, taken⟩ := taken
  refine ⟨{ lease with taken := lease.taken || keys k }, ?_, ?_⟩
  · rw [Leases.take, found]
    rfl
  · rw [taken, Bool.true_or]

variable [DecidableEq κ]

omit [LinearOrder T] in
theorem offer_of_some {lease : Lease T} (found : L k = some lease) (k' : κ) (since : T) :
    L.offer k' since k = some lease := by
  by_cases same : k = k'
  · subst same
    rw [offer, Function.update_self, found, Option.some_or]
  · rw [offer, Function.update_of_ne same, found]

theorem Lasts.offer (lasts : L.Lasts k bound) (k' : κ) (since : T) :
    (L.offer k' since).Lasts k bound := by
  obtain ⟨lease, found, holds⟩ := lasts
  exact ⟨lease, offer_of_some found k' since, holds⟩

omit [LinearOrder T] in
theorem Taken.offer (taken : L.Taken k) (k' : κ) (since : T) : (L.offer k' since).Taken k := by
  obtain ⟨lease, found, taken⟩ := taken
  exact ⟨lease, offer_of_some found k' since, taken⟩

/-- An offer lasts if the key has no older one open. -/
theorem Ready.offer (ready : L.Ready k bound) (le : bound ≤ since) :
    (L.offer k since).Lasts k bound := by
  cases found : L k with
  | none =>
      refine ⟨⟨since, false⟩, ?_, .inr le⟩
      rw [Leases.offer, Function.update_self, found, Option.none_or]
  | some lease => exact ⟨lease, offer_of_some found k since, ready lease found⟩

/-- Where the key has an older offer open, a purge leaves it without any. -/
theorem purged_of_not_ready (open' : ¬ L.Ready k bound) (since : T) :
    ((L.offer k since).purge bound) k = none := by
  obtain ⟨lease, some⟩ := not_forall.mp open'
  obtain ⟨found, neither⟩ := Classical.not_imp.mp some
  obtain ⟨free, old⟩ := not_or.mp neither
  rw [Bool.not_eq_true] at free
  rw [purge, offer_of_some found, Option.filter_some, free, decide_eq_true (not_le.mp old)]
  rfl

/-- What lasts is left by each step. -/
theorem Lasts.step (lasts : L.Lasts k bound) (step : Step bound L L') : L'.Lasts k bound := by
  cases step with
  | same => exact lasts
  | offer k' since => exact lasts.offer k' since
  | take keys => exact lasts.take keys
  | purge le => exact lasts.purge le

/-- What has been taken up is left by each step, however far purges reach. -/
theorem Taken.step (taken : L.Taken k) (step : Step bound L L') : L'.Taken k := by
  cases step with
  | same => exact taken
  | offer k' since => exact taken.offer k' since
  | take keys => exact taken.take keys
  | purge _ => exact taken.purge _

end Leases

end Sql
