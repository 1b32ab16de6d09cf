import Mathlib.Logic.Function.Basic

/-!
# Programs that call statements

A program calls one statement after another and ends with a value or an error,
like a function that returns a value and an error. What a statement does is
not part of the program: a program is the tree of the statements it calls and
of how it goes on after each answer. The same program can therefore be run
alone, statement after statement, or interleaved with other programs at the
granularity of its statements.

A statement of `Op` answers with a value of type `Val op` or with an error.
The monad propagates an error to the end of the program, and `attempt` hands
it to the program instead.
-/

set_option autoImplicit false

namespace Interleaving

/-- A program that calls statements of `Op` and may fail with an error of `ε`. -/
inductive Prog (Op : Type) (Val : Op → Type) (ε α : Type) where
  | ret (result : Except ε α)
  | call (op : Op) (next : Except ε (Val op) → Prog Op Val ε α)

variable {Op : Type} {Val : Op → Type} {ε α β γ : Type}

namespace Prog

/-- Run a program and go on with its value. An error ends the whole program. -/
def bind : Prog Op Val ε α → (α → Prog Op Val ε β) → Prog Op Val ε β
  | .ret (.ok value), rest => rest value
  | .ret (.error error), _ => .ret (.error error)
  | .call op next, rest => .call op fun answer => (next answer).bind rest

/-- Run a program and hand its value or its error to what follows. -/
def attempt : Prog Op Val ε α → Prog Op Val ε (Except ε α)
  | .ret result => .ret (.ok result)
  | .call op next => .call op fun answer => (next answer).attempt

instance : Monad (Prog Op Val ε) where
  pure value := .ret (.ok value)
  bind := bind

/-- Call one statement. -/
def query (op : Op) : Prog Op Val ε (Val op) := .call op .ret

/-- End with an error. -/
def fail (error : ε) : Prog Op Val ε α := .ret (.error error)

theorem bind_eq (program : Prog Op Val ε α) (rest : α → Prog Op Val ε β) :
    (program >>= rest) = program.bind rest := rfl

@[simp] theorem bind_ok (value : α) (rest : α → Prog Op Val ε β) :
    (Prog.ret (.ok value) : Prog Op Val ε α).bind rest = rest value := rfl

@[simp] theorem bind_error (error : ε) (rest : α → Prog Op Val ε β) :
    (Prog.ret (.error error) : Prog Op Val ε α).bind rest = .ret (.error error) := rfl

@[simp] theorem bind_call (op : Op) (next : Except ε (Val op) → Prog Op Val ε α)
    (rest : α → Prog Op Val ε β) :
    (Prog.call op next).bind rest = .call op fun answer => (next answer).bind rest := rfl

theorem bind_pure (program : Prog Op Val ε α) : (program.bind fun value => .ret (.ok value)) = program := by
  induction program with
  | ret result => cases result <;> rfl
  | call op next ih => simp only [bind_call, ih]

theorem bind_assoc (program : Prog Op Val ε α) (rest : α → Prog Op Val ε β)
    (last : β → Prog Op Val ε γ) :
    (program.bind rest).bind last = program.bind fun value => (rest value).bind last := by
  induction program with
  | ret result => cases result <;> rfl
  | call op next ih => simp only [bind_call, ih]

instance : LawfulMonad (Prog Op Val ε) :=
  LawfulMonad.mk' _ bind_pure (fun _ _ => rfl) bind_assoc

@[simp] theorem attempt_ret (result : Except ε α) :
    (Prog.ret result : Prog Op Val ε α).attempt = .ret (.ok result) := rfl

@[simp] theorem attempt_call (op : Op) (next : Except ε (Val op) → Prog Op Val ε α) :
    (Prog.call op next).attempt = .call op fun answer => (next answer).attempt := rfl

/-! ## Running a program alone -/

section Alone

variable {σ : Type} (answer : (op : Op) → σ → Option (Except ε (Val op) × σ))

/-- Run a program alone, every statement answered by `answer`. There is no
result when a statement has no answer. -/
def eval : Prog Op Val ε α → σ → Option (Except ε α × σ)
  | .ret result, s => some (result, s)
  | .call op next, s =>
      match answer op s with
      | none => none
      | some (a, s') => (next a).eval s'

variable {answer}

@[simp] theorem eval_ret (result : Except ε α) (s : σ) :
    (Prog.ret result : Prog Op Val ε α).eval answer s = some (result, s) := rfl

/-- After a value the rest runs. -/
theorem eval_bind {program : Prog Op Val ε α} {rest : α → Prog Op Val ε β} {s s₁ : σ} {value : α}
    (first : program.eval answer s = some (.ok value, s₁)) :
    (program >>= rest).eval answer s = (rest value).eval answer s₁ := by
  induction program generalizing s with
  | ret found =>
      simp only [eval_ret, Option.some.injEq, Prod.mk.injEq] at first
      obtain ⟨rfl, rfl⟩ := first
      rfl
  | call op next ih =>
      rw [bind_eq, bind_call]
      simp only [eval] at first ⊢
      split at first
      · cases first
      · exact ih _ first

end Alone

/-! ## What a program may end with -/

/-- A result that a program may end with when its statements are answered as
`answers` allows. -/
inductive Ends (answers : (op : Op) → Except ε (Val op) → Prop) :
    Prog Op Val ε α → Except ε α → Prop where
  | ret (result : Except ε α) : Ends answers (.ret result) result
  | call {op : Op} {next : Except ε (Val op) → Prog Op Val ε α} {answer : Except ε (Val op)}
      {result : Except ε α} (answered : answers op answer) (rest : Ends answers (next answer) result) :
      Ends answers (.call op next) result

section Ends

variable {answers : (op : Op) → Except ε (Val op) → Prop}

theorem Ends.bind_cases {program : Prog Op Val ε α} {rest : α → Prog Op Val ε β}
    {result : Except ε β} (ends : Ends answers (program.bind rest) result) :
    (∃ error, Ends answers program (.error error) ∧ result = .error error) ∨
      ∃ value, Ends answers program (.ok value) ∧ Ends answers (rest value) result := by
  induction program with
  | ret found =>
      cases found with
      | error error =>
          cases ends
          exact .inl ⟨error, .ret _, rfl⟩
      | ok value => exact .inr ⟨value, .ret _, ends⟩
  | call op next ih =>
      cases ends with
      | call answered ends =>
          obtain ⟨error, before, same⟩ | ⟨value, before, after⟩ := ih _ ends
          · exact .inl ⟨error, .call answered before, same⟩
          · exact .inr ⟨value, .call answered before, after⟩

theorem Ends.attempt_cases {program : Prog Op Val ε α} {result : Except ε (Except ε α)}
    (ends : Ends answers program.attempt result) :
    ∃ found, Ends answers program found ∧ result = .ok found := by
  induction program with
  | ret found =>
      cases ends
      exact ⟨found, .ret _, rfl⟩
  | call op next ih =>
      cases ends with
      | call answered ends =>
          obtain ⟨found, before, same⟩ := ih _ ends
          exact ⟨found, .call answered before, same⟩

/-- What follows an attempt gets a result of the program. -/
theorem Ends.attempt_bind_cases {program : Prog Op Val ε α}
    {rest : Except ε α → Prog Op Val ε β} {result : Except ε β}
    (ends : Ends answers (program.attempt >>= rest) result) :
    ∃ found, Ends answers program found ∧ Ends answers (rest found) result := by
  obtain ⟨error, attempted, _⟩ | ⟨found, attempted, after⟩ := ends.bind_cases
  · obtain ⟨_, _, same⟩ := attempted.attempt_cases
    cases same
  · obtain ⟨found', before, same⟩ := attempted.attempt_cases
    cases same
    exact ⟨found, before, after⟩

end Ends

/-! ## Which statements a program calls -/

/-- Whatever the answers, the program calls only statements of which `P` holds. -/
inductive Calls (P : Op → Prop) : Prog Op Val ε α → Prop where
  | ret (result : Except ε α) : Calls P (.ret result)
  | call {op : Op} {next : Except ε (Val op) → Prog Op Val ε α} (holds : P op)
      (rest : ∀ answer, Calls P (next answer)) : Calls P (.call op next)

section Calls

variable {P : Op → Prop}

theorem Calls.query {op : Op} (holds : P op) : Calls P (query op : Prog Op Val ε (Val op)) :=
  .call holds fun answer => .ret answer

theorem Calls.any (program : Prog Op Val ε α) : Calls (fun _ => True) program := by
  induction program with
  | ret result => exact .ret result
  | call op next ih => exact .call trivial ih

theorem Calls.mono {Q : Op → Prop} {program : Prog Op Val ε α} (calls : Calls P program)
    (weaker : ∀ {op}, P op → Q op) : Calls Q program := by
  induction calls with
  | ret result => exact .ret result
  | call holds _ ih => exact .call (weaker holds) ih

theorem Calls.bind {program : Prog Op Val ε α} {rest : α → Prog Op Val ε β}
    (first : Calls P program) (later : ∀ value, Calls P (rest value)) :
    Calls P (program >>= rest) := by
  induction first with
  | ret result =>
      cases result with
      | ok value => exact later value
      | error error => exact .ret _
  | call holds _ ih => exact .call holds ih

theorem Calls.attempt {program : Prog Op Val ε α} (calls : Calls P program) :
    Calls P program.attempt := by
  induction calls with
  | ret result => exact .ret _
  | call holds _ ih => exact .call holds ih

/-- A loop over a list. -/
theorem Calls.forM {body : β → Prog Op Val ε PUnit} (each : ∀ item, Calls P (body item))
    (items : List β) : Calls P (items.forM body) := by
  induction items with
  | nil => exact .ret _
  | cons item rest ih => exact (each item).bind fun _ => ih

/-- A loop over a list that collects what it computes. -/
theorem Calls.mapM {body : β → Prog Op Val ε α} (each : ∀ item, Calls P (body item))
    (items : List β) : Calls P (items.mapM body) := by
  induction items with
  | nil => exact .ret _
  | cons item rest ih =>
      rw [List.mapM_cons]
      exact (each item).bind fun _ => ih.bind fun _ => .ret _

end Calls

end Prog

end Interleaving
