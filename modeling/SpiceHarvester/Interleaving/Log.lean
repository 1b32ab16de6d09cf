import SpiceHarvester.Interleaving.Alone
import SpiceHarvester.Interleaving.Contract

/-!
# Runs with what they have executed

A run of a system together with the statements that it has executed so far, in their
order, and the answers they were given. What a run observes is a function of this log.

Under a sound contract a property of the log and the state is proved by cases over one
step, like an invariant of the state (`Contract.Sound.logged`).
-/

set_option autoImplicit false

namespace Interleaving

variable {τ Op : Type} {Val : Op → Type} {ε ρ σ : Type} [DecidableEq τ]

/-- A run from `start`, with the statements it has executed. -/
inductive Logged (S : System τ Op Val ε ρ σ) (start : Config τ Op Val ε ρ σ) :
    List (Called Op Val ε) → Config τ Op Val ε ρ σ → Prop where
  | start : Logged S start [] start
  | spawn {log : List (Called Op Val ε)} {s s' : σ} {pool : τ → Option (Prog Op Val ε ρ)} {t : τ}
      {program : Prog Op Val ε ρ} (before : Logged S start log ⟨s, pool⟩) (free : pool t = none)
      (starts : S.spawn t s program s') :
      Logged S start log ⟨s', Function.update pool t (some program)⟩
  | exec {log : List (Called Op Val ε)} {s s' : σ} {pool : τ → Option (Prog Op Val ε ρ)} {t : τ}
      {op : Op} {next : Except ε (Val op) → Prog Op Val ε ρ} {answer : Except ε (Val op)}
      (before : Logged S start log ⟨s, pool⟩) (calls : pool t = some (.call op next))
      (answers : S.exec t op s answer s') :
      Logged S start (log ++ [⟨op, answer⟩]) ⟨s', Function.update pool t (some (next answer))⟩
  | retire {log : List (Called Op Val ε)} {s s' : σ} {pool : τ → Option (Prog Op Val ε ρ)} {t : τ}
      {result : Except ε ρ} (before : Logged S start log ⟨s, pool⟩)
      (ended : pool t = some (.ret result)) (leaves : S.retire t result s s') :
      Logged S start log ⟨s', Function.update pool t none⟩
  | crash {log : List (Called Op Val ε)} {s s' : σ} {pool : τ → Option (Prog Op Val ε ρ)}
      (before : Logged S start log ⟨s, pool⟩) (stops : S.crash s s') : Logged S start log (.idle s')

variable {S : System τ Op Val ε ρ σ} {start c : Config τ Op Val ε ρ σ}
  {log : List (Called Op Val ε)}

theorem Logged.reachable (run : Logged S start log c) : S.Reachable start c := by
  induction run with
  | start => exact .refl
  | spawn _ free starts ih => exact ih.tail (.spawn free starts)
  | exec _ calls answers ih => exact ih.tail (.exec calls answers)
  | retire _ ended leaves ih => exact ih.tail (.retire ended leaves)
  | crash _ stops ih => exact ih.tail (.crash stops)

/-- A program that one thread runs alone is part of a run. -/
theorem Alone.reachable {t : τ} {program : Prog Op Val ε ρ} {s s' : σ} {result : Except ε ρ}
    {pool : τ → Option (Prog Op Val ε ρ)} (runs : Alone (S.exec t) program s log result s')
    (held : pool t = some program) :
    S.Reachable ⟨s, pool⟩ ⟨s', Function.update pool t (some (.ret result))⟩ := by
  induction runs generalizing pool with
  | ret =>
      rw [Function.update_eq_self_iff.mpr held.symm]
  | @call op next s s₁ s' answer log result answers later ih =>
      have held' : Function.update pool t (some (next answer)) t = some (next answer) :=
        Function.update_self ..
      have after := ih held'
      rw [Function.update_idem] at after
      exact .head (.exec held answers) after

/-- A thread starts a program, runs it alone, and is taken away. -/
theorem Alone.round {t : τ} {program : Prog Op Val ε ρ} {s s₁ s₂ s' : σ} {result : Except ε ρ}
    (starts : S.spawn t s program s₁) (runs : Alone (S.exec t) program s₁ log result s₂)
    (leaves : S.retire t result s₂ s') : S.Reachable (.idle s) (.idle s') := by
  have spawned : S.Step (.idle s) ⟨s₁, Function.update (fun _ => none) t (some program)⟩ :=
    .spawn rfl starts
  have ended : S.Reachable ⟨s₁, Function.update (fun _ => none) t (some program)⟩
      ⟨s₂, Function.update (fun _ => none) t (some (.ret result))⟩ := by
    have ended := runs.reachable (S := S) (Function.update_self t (some program) fun _ => none)
    rwa [Function.update_idem] at ended
  have idle : Function.update (Function.update (fun _ => none) t (some (.ret result))) t none =
      (fun _ => none : τ → Option (Prog Op Val ε ρ)) := by
    rw [Function.update_idem, Function.update_eq_self_iff]
  have retired : S.Step ⟨s₂, Function.update (fun _ => none) t (some (.ret result))⟩
      ⟨s', Function.update (Function.update (fun _ => none) t (some (.ret result))) t none⟩ :=
    .retire (Function.update_self ..) leaves
  rw [idle] at retired
  exact (Relation.ReflTransGen.head spawned ended).tail retired

/-- **A property of the log and the state that every step keeps, with each statement
called under its precondition, holds of every run.** -/
theorem Contract.Sound.logged {K : Contract S} (sound : K.Sound)
    {J : List (Called Op Val ε) → σ → Prop} (kept : K.Kept start) (init : J [] start.state)
    (spawn : ∀ {log t s program s'}, K.inv s → S.spawn t s program s' → J log s → J log s')
    (exec : ∀ {log t op s answer s'}, K.inv s → K.pre t op s → S.exec t op s answer s' → J log s →
      J (log ++ [⟨op, answer⟩]) s')
    (retire : ∀ {log t result s s'}, K.inv s → K.post t result s → S.retire t result s s' →
      J log s → J log s')
    (crash : ∀ {log s s'}, K.inv s → S.crash s s' → J log s → J log s')
    (run : Logged S start log c) : J log c.state := by
  induction run with
  | start => exact init
  | spawn before _ starts ih => exact spawn (sound.reachable kept before.reachable).inv starts ih
  | exec before calls answers ih =>
      have held := sound.reachable kept before.reachable
      exact exec held.inv (held.pre sound calls) answers ih
  | retire before ended leaves ih =>
      have held := sound.reachable kept before.reachable
      exact retire held.inv (held.post sound ended) leaves ih
  | crash before stops ih => exact crash (sound.reachable kept before.reachable).inv stops ih

end Interleaving
