import SpiceHarvester.Interleaving.Alone
import SpiceHarvester.Interleaving.Contract

/-!
# Programs that are stopped

A program that no other thread disturbs may be stopped at any point: then a part of it is
left, and the state is the one that its statements have led to up to there. A program that
has come to its end has only its result left.

A program that keeps a contract has kept it wherever it is stopped, and what is left of it
is safe (`Contract.Safe.partly`).
-/

set_option autoImplicit false

namespace Interleaving

variable {Op : Type} {Val : Op → Type} {ε α σ σ' : Type}

/-- The program has run up to a point: what is left of it, and the state there. -/
inductive Partly (exec : (op : Op) → σ → Except ε (Val op) → σ → Prop) :
    Prog Op Val ε α → σ → Prog Op Val ε α → σ → Prop where
  | here {program : Prog Op Val ε α} {s : σ} : Partly exec program s program s
  | call {op : Op} {next : Except ε (Val op) → Prog Op Val ε α} {rest : Prog Op Val ε α}
      {s s₁ s' : σ} {answer : Except ε (Val op)} (answers : exec op s answer s₁)
      (later : Partly exec (next answer) s₁ rest s') : Partly exec (.call op next) s rest s'

namespace Partly

variable {exec : (op : Op) → σ → Except ε (Val op) → σ → Prop} {program rest : Prog Op Val ε α}
  {s s' : σ}

/-- What every statement keeps holds at every point. -/
theorem keeps {J : σ → Prop} (runs : Partly exec program s rest s')
    (step : ∀ {op s answer s'}, exec op s answer s' → J s → J s') (holds : J s) : J s' := by
  induction runs with
  | here => exact holds
  | call answers _ ih => exact ih (step answers holds)

/-- A program that runs over a state has run over what the state shows. -/
theorem map {exec' : (op : Op) → σ' → Except ε (Val op) → σ' → Prop} (shows : σ → σ')
    (maps : ∀ {op s answer s'}, exec op s answer s' → exec' op (shows s) answer (shows s'))
    (runs : Partly exec program s rest s') : Partly exec' program (shows s) rest (shows s') := by
  induction runs with
  | here => exact .here
  | call answers _ ih => exact .call (maps answers) ih

end Partly

/-- A program that has ended has only its result left. -/
theorem Alone.partly {exec : (op : Op) → σ → Except ε (Val op) → σ → Prop}
    {program : Prog Op Val ε α} {s s' : σ} {log : List (Called Op Val ε)} {result : Except ε α}
    (runs : Alone exec program s log result s') : Partly exec program s (.ret result) s' := by
  induction runs with
  | ret => exact .here
  | call answers _ ih => exact .call answers ih

/-- **A program that keeps a contract has kept it wherever it is stopped.** -/
theorem Contract.Safe.partly {τ ρ : Type} {S : System τ Op Val ε ρ σ} {K : Contract S} {t : τ}
    {Q : Except ε α → σ → Prop} {program rest : Prog Op Val ε α} {s s' : σ} (closed : K.Closed)
    (exec : ∀ {op s answer s'}, K.inv s → K.pre t op s → S.exec t op s answer s' → K.inv s')
    (runs : Partly (S.exec t) program s rest s') (safe : K.Safe t Q program s) (inv : K.inv s) :
    K.inv s' ∧ K.Safe t Q rest s' := by
  induction runs with
  | here => exact ⟨inv, safe⟩
  | call answers _ ih =>
      obtain ⟨pre, after⟩ := safe _ (closed.rely_refl t _) inv
      exact ih (after _ _ answers) (exec inv pre answers)

end Interleaving
