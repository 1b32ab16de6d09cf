import SpiceHarvester.Interleaving.Program

/-!
# Programs that run alone

A program that no other thread disturbs goes from a state to a state, and leaves
behind which statements it has called and how they were answered. The answers are
not determined: a statement may fail, and what comes from outside is arbitrary.

An execution of a program in two parts falls into executions of the parts
(`Alone.bind_cases`), and so do an attempt (`Alone.attempt_cases`) and a loop.
-/

set_option autoImplicit false

namespace Interleaving

/-- A statement that was called, and its answer. -/
structure Called (Op : Type) (Val : Op → Type) (ε : Type) where
  op : Op
  answer : Except ε (Val op)

variable {Op : Type} {Val : Op → Type} {ε α β σ : Type}

/-- The program runs alone: it calls the statements of the log and ends with the
result. -/
inductive Alone (exec : (op : Op) → σ → Except ε (Val op) → σ → Prop) :
    Prog Op Val ε α → σ → List (Called Op Val ε) → Except ε α → σ → Prop where
  | ret {result : Except ε α} {s : σ} : Alone exec (.ret result) s [] result s
  | call {op : Op} {next : Except ε (Val op) → Prog Op Val ε α} {s s₁ s' : σ}
      {answer : Except ε (Val op)} {log : List (Called Op Val ε)} {result : Except ε α}
      (answers : exec op s answer s₁) (later : Alone exec (next answer) s₁ log result s') :
      Alone exec (.call op next) s (⟨op, answer⟩ :: log) result s'

namespace Alone

variable {exec : (op : Op) → σ → Except ε (Val op) → σ → Prop} {s s' s₁ : σ}
  {log log' : List (Called Op Val ε)}

/-! ## Taking an execution apart -/

theorem ret_cases {result result' : Except ε α}
    (runs : Alone exec (.ret result') s log result s') : log = [] ∧ result = result' ∧ s' = s := by
  cases runs
  exact ⟨rfl, rfl, rfl⟩

theorem call_cases {op : Op} {next : Except ε (Val op) → Prog Op Val ε α} {result : Except ε α}
    (runs : Alone exec (.call op next) s log result s') :
    ∃ answer s₁ later, exec op s answer s₁ ∧ log = ⟨op, answer⟩ :: later ∧
      Alone exec (next answer) s₁ later result s' := by
  cases runs with
  | call answers later => exact ⟨_, _, _, answers, rfl, later⟩

theorem query_cases {op : Op} {result : Except ε (Val op)}
    (runs : Alone exec (.query op) s log result s') :
    exec op s result s' ∧ log = [⟨op, result⟩] := by
  obtain ⟨answer, s₁, later, answers, rfl, ended⟩ := call_cases runs
  obtain ⟨rfl, rfl, rfl⟩ := ret_cases ended
  exact ⟨answers, rfl⟩

/-- A program in two parts ends with an error of the first part, or runs both. -/
theorem bind_cases {program : Prog Op Val ε α} {rest : α → Prog Op Val ε β} {result : Except ε β}
    (runs : Alone exec (program >>= rest) s log result s') :
    (∃ error, Alone exec program s log (.error error) s' ∧ result = .error error) ∨
      ∃ value s₁ first later, Alone exec program s first (.ok value) s₁ ∧
        Alone exec (rest value) s₁ later result s' ∧ log = first ++ later := by
  induction program generalizing s log with
  | ret found =>
      cases found with
      | ok value => exact .inr ⟨value, s, [], log, .ret, runs, rfl⟩
      | error error =>
          obtain ⟨rfl, rfl, rfl⟩ := ret_cases runs
          exact .inl ⟨error, .ret, rfl⟩
  | call op next ih =>
      obtain ⟨answer, s₁, later, answers, rfl, continues⟩ := call_cases runs
      rcases ih answer continues with ⟨error, first, same⟩ | ⟨value, s₂, first, last, begins, ends, rfl⟩
      · exact .inl ⟨error, .call answers first, same⟩
      · exact .inr ⟨value, s₂, _, last, .call answers begins, ends, rfl⟩

/-- An attempt ends with the result of the program. -/
theorem attempt_cases {program : Prog Op Val ε α} {result : Except ε (Except ε α)}
    (runs : Alone exec program.attempt s log result s') :
    ∃ found, Alone exec program s log found s' ∧ result = .ok found := by
  induction program generalizing s log with
  | ret found =>
      obtain ⟨rfl, rfl, rfl⟩ := ret_cases runs
      exact ⟨found, .ret, rfl⟩
  | call op next ih =>
      obtain ⟨answer, s₁, later, answers, rfl, continues⟩ := call_cases runs
      obtain ⟨found, ended, same⟩ := ih answer continues
      exact ⟨found, .call answers ended, same⟩

/-- What follows an attempt gets the result of the program. -/
theorem attempt_bind_cases {program : Prog Op Val ε α} {rest : Except ε α → Prog Op Val ε β}
    {result : Except ε β} (runs : Alone exec (program.attempt >>= rest) s log result s') :
    ∃ found s₁ first later, Alone exec program s first found s₁ ∧
      Alone exec (rest found) s₁ later result s' ∧ log = first ++ later := by
  rcases bind_cases runs with ⟨error, first, _⟩ | ⟨value, s₁, first, later, begins, ends, same⟩
  · obtain ⟨_, _, impossible⟩ := attempt_cases first
    cases impossible
  · obtain ⟨found, begun, equal⟩ := attempt_cases begins
    cases equal
    exact ⟨value, s₁, first, later, begun, ends, same⟩

/-! ## Putting executions together -/

theorem query {op : Op} {answer : Except ε (Val op)} (answers : exec op s answer s') :
    Alone exec (.query op) s [⟨op, answer⟩] answer s' := .call answers .ret

theorem bind {program : Prog Op Val ε α} {rest : α → Prog Op Val ε β} {value : α}
    {result : Except ε β} (first : Alone exec program s log (.ok value) s₁)
    (later : Alone exec (rest value) s₁ log' result s') :
    Alone exec (program >>= rest) s (log ++ log') result s' := by
  induction program generalizing s log with
  | ret found =>
      obtain ⟨rfl, rfl, rfl⟩ := ret_cases first
      exact later
  | call op next ih =>
      obtain ⟨answer, s₂, between, answers, rfl, runs⟩ := call_cases first
      exact .call answers (ih answer runs)

theorem bind_error {program : Prog Op Val ε α} {rest : α → Prog Op Val ε β} {error : ε}
    (first : Alone exec program s log (.error error) s') :
    Alone exec (program >>= rest) s log (.error error) s' := by
  induction program generalizing s log with
  | ret found =>
      obtain ⟨rfl, rfl, rfl⟩ := ret_cases first
      exact .ret
  | call op next ih =>
      obtain ⟨answer, s₂, between, answers, rfl, runs⟩ := call_cases first
      exact .call answers (ih answer runs)

theorem attempt {program : Prog Op Val ε α} {result : Except ε α}
    (runs : Alone exec program s log result s') :
    Alone exec program.attempt s log (.ok result) s' := by
  induction program generalizing s log with
  | ret found =>
      obtain ⟨rfl, rfl, rfl⟩ := ret_cases runs
      exact .ret
  | call op next ih =>
      obtain ⟨answer, s₂, between, answers, rfl, continues⟩ := call_cases runs
      exact .call answers (ih answer continues)

/-- An execution by fewer answers is one by more. -/
theorem mono {exec' : (op : Op) → σ → Except ε (Val op) → σ → Prop}
    (more : ∀ {op s answer s'}, exec op s answer s' → exec' op s answer s')
    {program : Prog Op Val ε α} {result : Except ε α} (runs : Alone exec program s log result s') :
    Alone exec' program s log result s' := by
  induction runs with
  | ret => exact .ret
  | call answers _ ih => exact .call (more answers) ih

/-- What a deterministic run computes is an execution. -/
theorem of_eval {answer : (op : Op) → σ → Option (Except ε (Val op) × σ)}
    (answers : ∀ op s a s', answer op s = some (a, s') → exec op s a s')
    {program : Prog Op Val ε α} {result : Except ε α}
    (ended : program.eval answer s = some (result, s')) :
    ∃ log, Alone exec program s log result s' := by
  induction program generalizing s with
  | ret found =>
      simp only [Prog.eval_ret, Option.some.injEq, Prod.mk.injEq] at ended
      obtain ⟨rfl, rfl⟩ := ended
      exact ⟨[], .ret⟩
  | call op next ih =>
      simp only [Prog.eval] at ended
      split at ended
      · cases ended
      · rename_i a s₁ answered
        obtain ⟨log, later⟩ := ih a ended
        exact ⟨_, .call (answers _ _ _ _ answered) later⟩

theorem attempt_bind {program : Prog Op Val ε α} {rest : Except ε α → Prog Op Val ε β}
    {found : Except ε α} {result : Except ε β} (first : Alone exec program s log found s₁)
    (later : Alone exec (rest found) s₁ log' result s') :
    Alone exec (program.attempt >>= rest) s (log ++ log') result s' := first.attempt.bind later

end Alone

/-! ## Programs that always end -/

/-- From every state the program has an execution. -/
def Total (exec : (op : Op) → σ → Except ε (Val op) → σ → Prop) (program : Prog Op Val ε α) : Prop :=
  ∀ s, ∃ log result s', Alone exec program s log result s'

namespace Total

variable {exec : (op : Op) → σ → Except ε (Val op) → σ → Prop}

theorem ret (result : Except ε α) : Total exec (.ret result) := fun s => ⟨[], result, s, .ret⟩

theorem call {op : Op} {next : Except ε (Val op) → Prog Op Val ε α}
    (answers : ∀ s, ∃ answer s', exec op s answer s') (rest : ∀ answer, Total exec (next answer)) :
    Total exec (.call op next) := by
  intro s
  obtain ⟨answer, s₁, answered⟩ := answers s
  obtain ⟨log, result, s', later⟩ := rest answer s₁
  exact ⟨_, result, s', .call answered later⟩

theorem bind {program : Prog Op Val ε α} {rest : α → Prog Op Val ε β} (first : Total exec program)
    (later : ∀ value, Total exec (rest value)) : Total exec (program >>= rest) := by
  intro s
  obtain ⟨log, result, s₁, begins⟩ := first s
  cases result with
  | error error => exact ⟨log, .error error, s₁, begins.bind_error⟩
  | ok value =>
      obtain ⟨log', result, s', ends⟩ := later value s₁
      exact ⟨log ++ log', result, s', begins.bind ends⟩

theorem attempt_bind {program : Prog Op Val ε α} {rest : Except ε α → Prog Op Val ε β}
    (first : Total exec program) (later : ∀ result, Total exec (rest result)) :
    Total exec (program.attempt >>= rest) := by
  intro s
  obtain ⟨log, result, s₁, begins⟩ := first s
  obtain ⟨log', result', s', ends⟩ := later result s₁
  exact ⟨log ++ log', result', s', begins.attempt_bind ends⟩

end Total

end Interleaving
