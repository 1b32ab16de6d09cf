import SpiceHarvester.Interleaving.Contract

/-!
# A contract beside another

A contract that is known to be sound says when its statements are called. A second one
over the same system may take this for granted: it need not be sound alone, but beside the
first (`Contract.SoundBeside`). The two together are a sound contract
(`Contract.Sound.beside`), and a program that is safe under each is safe under both
(`Contract.Safe.beside`).
-/

set_option autoImplicit false

namespace Interleaving

namespace Contract

variable {τ Op : Type} {Val : Op → Type} {ε ρ σ : Type} {S : System τ Op Val ε ρ σ} {α β : Type}

/-- What both contracts say. -/
def beside (K L : Contract S) : Contract S where
  rely t s s' := K.rely t s s' ∧ L.rely t s s'
  inv s := K.inv s ∧ L.inv s
  pre t op s := K.pre t op s ∧ L.pre t op s
  post t result s := K.post t result s ∧ L.post t result s

variable {K L : Contract S}

theorem Closed.beside (closed : K.Closed) (closed' : L.Closed) : (K.beside L).Closed where
  rely_refl t s := ⟨closed.rely_refl t s, closed'.rely_refl t s⟩
  rely_trans first later :=
    ⟨closed.rely_trans first.1 later.1, closed'.rely_trans first.2 later.2⟩

/-- A program that is safe under each contract is safe under both. -/
theorem Safe.beside {t : τ} {Q R : Except ε α → σ → Prop} {program : Prog Op Val ε α} {s : σ}
    (first : K.Safe t Q program s) (second : L.Safe t R program s) :
    (K.beside L).Safe t (fun result s' => Q result s' ∧ R result s') program s := by
  induction program generalizing s with
  | ret result =>
      exact fun s' others kept => ⟨first s' others.1 kept.1, second s' others.2 kept.2⟩
  | call op next ih =>
      intro s' others kept
      obtain ⟨pre, after⟩ := first s' others.1 kept.1
      obtain ⟨pre', after'⟩ := second s' others.2 kept.2
      exact ⟨⟨pre, pre'⟩, fun answer s'' answers =>
        ih answer (after answer s'' answers) (after' answer s'' answers)⟩

/-- The contract is sound where the statements are called as the other one says. -/
structure SoundBeside (L K : Contract S) : Prop extends L.Closed where
  exec : ∀ {t op s answer s'}, K.inv s → K.pre t op s → L.inv s → L.pre t op s →
    S.exec t op s answer s' → L.inv s' ∧ ∀ u, u ≠ t → L.rely u s s'
  spawn : ∀ {t s program s'}, K.inv s → L.inv s → S.spawn t s program s' →
    L.inv s' ∧ (∀ u, u ≠ t → L.rely u s s') ∧ L.Safe t (L.post t) program s'
  retire : ∀ {t result s s'}, K.inv s → L.inv s → L.post t result s → S.retire t result s s' →
    L.inv s' ∧ ∀ u, u ≠ t → L.rely u s s'
  crash : ∀ {s s'}, K.inv s → L.inv s → S.crash s s' → L.inv s'

/-- **A sound contract and one that is sound beside it are sound together.** -/
theorem Sound.beside (sound : K.Sound) (other : L.SoundBeside K) : (K.beside L).Sound where
  toClosed := sound.toClosed.beside other.toClosed
  exec := by
    rintro t op s answer s' ⟨inv, inv'⟩ ⟨pre, pre'⟩ answers
    obtain ⟨kept, relied⟩ := sound.exec inv pre answers
    obtain ⟨kept', relied'⟩ := other.exec inv pre inv' pre' answers
    exact ⟨⟨kept, kept'⟩, fun u apart => ⟨relied u apart, relied' u apart⟩⟩
  spawn := by
    rintro t s program s' ⟨inv, inv'⟩ starts
    obtain ⟨kept, relied, safe⟩ := sound.spawn inv starts
    obtain ⟨kept', relied', safe'⟩ := other.spawn inv inv' starts
    exact ⟨⟨kept, kept'⟩, fun u apart => ⟨relied u apart, relied' u apart⟩, safe.beside safe'⟩
  retire := by
    rintro t result s s' ⟨inv, inv'⟩ ⟨post, post'⟩ leaves
    obtain ⟨kept, relied⟩ := sound.retire inv post leaves
    obtain ⟨kept', relied'⟩ := other.retire inv inv' post' leaves
    exact ⟨⟨kept, kept'⟩, fun u apart => ⟨relied u apart, relied' u apart⟩⟩
  crash := by
    rintro s s' ⟨inv, inv'⟩ stops
    exact ⟨sound.crash inv stops, other.crash inv inv' stops⟩

end Contract

end Interleaving
