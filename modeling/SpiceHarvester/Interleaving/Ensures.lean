import SpiceHarvester.Interleaving.Alone

/-!
# What a program ensures, whatever it is answered

A program that runs alone may be answered in many ways. It ensures a postcondition when
every statement that it comes to can be answered and every answer leads on to an end where
the postcondition holds (`Ensures`). The postcondition is about the log, the result and the
last state.

So a program that ensures something cannot get stuck on the way, and it has an execution,
which is as it says (`Ensures.exists_alone`). The rules below follow the structure of
programs.
-/

set_option autoImplicit false

namespace Interleaving

variable {Op : Type} {Val : Op → Type} {ε α β σ : Type}

/-- Every statement can be answered, and after every answer the program goes on to an end
of which `Q` holds. -/
def Ensures (exec : (op : Op) → σ → Except ε (Val op) → σ → Prop) :
    Prog Op Val ε α → σ → (List (Called Op Val ε) → Except ε α → σ → Prop) → Prop
  | .ret result, s, Q => Q [] result s
  | .call op next, s, Q => (∃ answer s', exec op s answer s') ∧
      ∀ answer s', exec op s answer s' →
        Ensures exec (next answer) s' fun log => Q (⟨op, answer⟩ :: log)

namespace Ensures

variable {exec : (op : Op) → σ → Except ε (Val op) → σ → Prop} {s : σ}

/-! ## Executions -/

/-- There is an execution. -/
theorem exists_alone {program : Prog Op Val ε α}
    {Q : List (Called Op Val ε) → Except ε α → σ → Prop} (ensures : Ensures exec program s Q) :
    ∃ log result s', Alone exec program s log result s' ∧ Q log result s' := by
  induction program generalizing s Q with
  | ret result => exact ⟨[], result, s, .ret, ensures⟩
  | call op next ih =>
      obtain ⟨⟨answer, s₁, answers⟩, after⟩ := ensures
      obtain ⟨log, result, s', runs, holds⟩ := ih answer (after answer s₁ answers)
      exact ⟨_, result, s', .call answers runs, holds⟩

/-! ## Rules -/

theorem weaken {program : Prog Op Val ε α}
    {Q R : List (Called Op Val ε) → Except ε α → σ → Prop} (ensures : Ensures exec program s Q)
    (weaker : ∀ log result s', Q log result s' → R log result s') : Ensures exec program s R := by
  induction program generalizing s Q R with
  | ret result => exact weaker [] result s ensures
  | call op next ih =>
      refine ⟨ensures.1, fun answer s' answers => ?_⟩
      exact ih answer (ensures.2 answer s' answers) fun log result s'' => weaker _ result s''

theorem query {op : Op} {Q : List (Called Op Val ε) → Except ε (Val op) → σ → Prop}
    (answered : ∃ answer s', exec op s answer s')
    (ends : ∀ answer s', exec op s answer s' → Q [⟨op, answer⟩] answer s') :
    Ensures exec (.query op) s Q := ⟨answered, ends⟩

/-- A program in two parts: what it ensures is known when the first part has returned
a value, and the second part ensures the rest. -/
theorem bind {program : Prog Op Val ε α} {rest : α → Prog Op Val ε β}
    {R : List (Called Op Val ε) → α → σ → Prop}
    {Q : List (Called Op Val ε) → Except ε β → σ → Prop}
    (first : Ensures exec program s fun log result s' => ∃ value, result = .ok value ∧ R log value s')
    (later : ∀ log value s', R log value s' →
      Ensures exec (rest value) s' fun log' => Q (log ++ log')) :
    Ensures exec (program >>= rest) s Q := by
  induction program generalizing s R Q with
  | ret result =>
      obtain ⟨value, rfl, holds⟩ := first
      exact later [] value s holds
  | call op next ih =>
      refine ⟨first.1, fun answer s' answers => ?_⟩
      exact ih answer (first.2 answer s' answers) fun log value s'' => later _ value s''

theorem attempt {program : Prog Op Val ε α}
    {Q : List (Called Op Val ε) → Except ε α → σ → Prop} (ensures : Ensures exec program s Q) :
    Ensures exec program.attempt s fun log result s' => ∃ found, result = .ok found ∧ Q log found s' := by
  induction program generalizing s Q with
  | ret result => exact ⟨result, rfl, ensures⟩
  | call op next ih =>
      exact ⟨ensures.1, fun answer s' answers => ih answer (ensures.2 answer s' answers)⟩

end Ensures

end Interleaving
