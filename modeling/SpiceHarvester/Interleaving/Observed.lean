import SpiceHarvester.Interleaving.Contract

/-!
# Runs that are observed

An observer watches the statements of a run and keeps what it has seen. It sees which
thread has called a statement, in which state, and the answer. The observed system is the
system beside its observer (`System.observed`). An observer that can always follow does
not change what may happen: every run is a run that is observed (`observed_of_reachable`).

A system may be held to a condition on the statements that it calls (`System.under`).
-/

set_option autoImplicit false

namespace Interleaving

variable {τ Op : Type} {Val : Op → Type} {ε ρ σ μ : Type}

/-- What an observer makes of the start of a thread and of a statement. -/
structure Observer (τ Op : Type) (Val : Op → Type) (ε σ μ : Type) where
  begins : τ → μ → μ
  sees : τ → (op : Op) → σ → Except ε (Val op) → μ → μ → Prop

namespace System

/-- The system beside its observer. -/
def observed (S : System τ Op Val ε ρ σ) (O : Observer τ Op Val ε σ μ) :
    System τ Op Val ε ρ (σ × μ) where
  spawn t s program s' := S.spawn t s.1 program s'.1 ∧ s'.2 = O.begins t s.2
  exec t op s answer s' := S.exec t op s.1 answer s'.1 ∧ O.sees t op s.1 answer s.2 s'.2
  retire t result s s' := S.retire t result s.1 s'.1 ∧ s'.2 = s.2
  crash s s' := S.crash s.1 s'.1 ∧ s'.2 = s.2

/-- The system, where every statement meets a condition. -/
def under (S : System τ Op Val ε ρ σ) (condition : τ → Op → σ → Prop) :
    System τ Op Val ε ρ σ :=
  { S with exec := fun t op s answer s' => condition t op s ∧ S.exec t op s answer s' }

variable [DecidableEq τ] {S : System τ Op Val ε ρ σ} {O : Observer τ Op Val ε σ μ}

/-- **Every run is observed.** -/
theorem observed_of_reachable
    (follows : ∀ {t op s answer s'} (m : μ), S.exec t op s answer s' → ∃ m', O.sees t op s answer m m')
    {start c : Config τ Op Val ε ρ σ} (m : μ) (run : S.Reachable start c) :
    ∃ m', (S.observed O).Reachable ⟨(start.state, m), start.pool⟩ ⟨(c.state, m'), c.pool⟩ := by
  induction run with
  | refl => exact ⟨m, .refl⟩
  | tail _ step ih =>
      obtain ⟨m₁, before⟩ := ih
      cases step with
      | @spawn s s' pool t program free starts =>
          have step : (S.observed O).Step ⟨(s, m₁), pool⟩
              ⟨(s', O.begins t m₁), Function.update pool t (some program)⟩ :=
            .spawn free ⟨starts, rfl⟩
          exact ⟨_, before.tail step⟩
      | @exec s s' pool t op next answer calls answers =>
          obtain ⟨m₂, sees⟩ := follows m₁ answers
          have step : (S.observed O).Step ⟨(s, m₁), pool⟩
              ⟨(s', m₂), Function.update pool t (some (next answer))⟩ :=
            .exec calls ⟨answers, sees⟩
          exact ⟨_, before.tail step⟩
      | @retire s s' pool t result ended leaves =>
          have step : (S.observed O).Step ⟨(s, m₁), pool⟩ ⟨(s', m₁), Function.update pool t none⟩ :=
            .retire ended ⟨leaves, rfl⟩
          exact ⟨_, before.tail step⟩
      | @crash s s' pool stops =>
          have step : (S.observed O).Step ⟨(s, m₁), pool⟩ (.idle (s', m₁)) := .crash ⟨stops, rfl⟩
          exact ⟨_, before.tail step⟩

/-- A run under a condition is a run. -/
theorem reachable_of_under {condition : τ → Op → σ → Prop} {start c : Config τ Op Val ε ρ σ}
    (run : (S.under condition).Reachable start c) : S.Reachable start c := by
  induction run with
  | refl => exact .refl
  | tail _ step ih =>
      cases step with
      | spawn free starts => exact ih.tail (.spawn free starts)
      | exec calls answers => exact ih.tail (.exec calls answers.2)
      | retire ended leaves => exact ih.tail (.retire ended leaves)
      | crash stops => exact ih.tail (.crash stops)

end System

end Interleaving
