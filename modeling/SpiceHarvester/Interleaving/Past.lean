import SpiceHarvester.Interleaving.Log

/-!
# What a program has been told

A program that has ended has been started, and every answer that led it to its end has been
given by a statement earlier in the run (`System.told_of_ended`). What the program returns
is therefore explained by states that the run has passed, however far they have moved since.
-/

set_option autoImplicit false

namespace Interleaving

variable {τ Op : Type} {Val : Op → Type} {ε ρ σ α : Type}

/-- Answers, without the states that give them. -/
def Told (E : Called Op Val ε → Prop) (op : Op) (_ : Unit) (answer : Except ε (Val op))
    (_ : Unit) : Prop := E ⟨op, answer⟩

namespace System

variable [DecidableEq τ] (S : System τ Op Val ε ρ σ) {start c : Config τ Op Val ε ρ σ}

/-- The answer has been given between the start of a run and its end. -/
def Answered (start c : Config τ Op Val ε ρ σ) (called : Called Op Val ε) : Prop :=
  ∃ t before after, S.Reachable start before ∧ S.Step before after ∧
    S.exec t called.op before.state called.answer after.state ∧ S.Reachable after c

variable {S} {c' : Config τ Op Val ε ρ σ} {called : Called Op Val ε}

theorem Answered.later (answered : S.Answered start c called) (step : S.Step c c') :
    S.Answered start c' called := by
  obtain ⟨t, before, after, first, turn, answers, rest⟩ := answered
  exact ⟨t, before, after, first, turn, answers, rest.tail step⟩

/-- What a thread still has to run is left of what it has been started with. -/
theorem left_of_started {s : σ} (run : S.Reachable (.idle s) c) {E : Called Op Val ε → Prop}
    (told : ∀ called, S.Answered (.idle s) c called → E called) {t : τ} {program : Prog Op Val ε ρ}
    (held : c.pool t = some program) :
    ∃ first s₀ s₁, S.spawn t s₀ first s₁ ∧ ∀ {log result},
      Alone (Told E) program () log result () → ∃ log', Alone (Told E) first () log' result () := by
  induction run generalizing t program with
  | refl => cases held
  | @tail b c before step ih =>
      have told' : ∀ called, S.Answered (.idle s) b called → E called :=
        fun called answered => told called (answered.later step)
      cases step with
      | @spawn s₀ s₁ pool u started free starts =>
          change Function.update pool u (some started) t = some program at held
          by_cases own : t = u
          · subst own
            rw [Function.update_self, Option.some.injEq] at held
            subst held
            exact ⟨started, s₀, s₁, starts, fun rest => ⟨_, rest⟩⟩
          · rw [Function.update_of_ne own] at held
            exact ih told' held
      | @exec s₀ s₁ pool u op next answer calls answers =>
          change Function.update pool u (some (next answer)) t = some program at held
          by_cases own : t = u
          · subst own
            rw [Function.update_self, Option.some.injEq] at held
            subst held
            obtain ⟨first, s₂, s₃, starts, continues⟩ := ih told' calls
            have given : E ⟨op, answer⟩ :=
              told _ ⟨t, ⟨s₀, pool⟩, _, before, .exec calls answers, answers, .refl⟩
            exact ⟨first, s₂, s₃, starts, fun rest => continues (.call given rest)⟩
          · rw [Function.update_of_ne own] at held
            exact ih told' held
      | @retire s₀ s₁ pool u result ended leaves =>
          change Function.update pool u none t = some program at held
          by_cases own : t = u
          · subst own
            rw [Function.update_self] at held
            cases held
          · rw [Function.update_of_ne own] at held
            exact ih told' held
      | crash stops => cases held

/-- **A program that has ended has been told what led it there.** -/
theorem told_of_ended {s : σ} (run : S.Reachable (.idle s) c) {t : τ} {result : Except ε ρ}
    (ended : c.pool t = some (.ret result)) :
    ∃ first s₀ s₁ log, S.spawn t s₀ first s₁ ∧
      Alone (Told (S.Answered (.idle s) c)) first () log result () := by
  obtain ⟨first, s₀, s₁, starts, continues⟩ := left_of_started run (fun _ answered => answered)
    ended
  obtain ⟨log, told⟩ := continues .ret
  exact ⟨first, s₀, s₁, log, starts, told⟩

end System

end Interleaving
