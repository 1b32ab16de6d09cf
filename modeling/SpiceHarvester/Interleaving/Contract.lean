import SpiceHarvester.Interleaving.Program
import Mathlib.Logic.Relation

/-!
# Interleaved programs and contracts between them

A system runs one program on each thread, over a state they share. A step of
the system starts a program on a free thread, runs the next statement of one
thread, takes away a thread whose program has ended, or stops the process, at
which all threads are lost. The order of the steps is arbitrary.

A contract says what a thread may rely on while other threads run, and what
must hold whenever it calls a statement (`pre`) and when it ends (`post`).
A program is safe in a state when it keeps the contract from there on,
whatever happens between its statements (`Contract.Safe`). Safety is proved
for one program alone, statement after statement.

When every program that starts is safe and no statement called under its
precondition breaks what another thread relies on (`Contract.Sound`), every
reachable configuration keeps the contract (`Contract.Sound.reachable`). Its
states then move only by statements called under their precondition
(`Contract.Sound.moves`), so that an invariant of the state is proved by cases
over one statement, with no program in sight (`Contract.Sound.invariant`).
-/

set_option autoImplicit false

namespace Interleaving

/-- Programs over a shared state. `spawn` says which program may start on a
thread, `exec` what a statement may answer and how it changes the state,
`retire` and `crash` how the state follows the end of a thread and of the
process. -/
structure System (τ Op : Type) (Val : Op → Type) (ε ρ σ : Type) where
  spawn : τ → σ → Prog Op Val ε ρ → σ → Prop
  exec : τ → (op : Op) → σ → Except ε (Val op) → σ → Prop
  retire : τ → Except ε ρ → σ → σ → Prop
  crash : σ → σ → Prop

/-- The shared state and what each thread still has to run. -/
structure Config (τ Op : Type) (Val : Op → Type) (ε ρ σ : Type) where
  state : σ
  pool : τ → Option (Prog Op Val ε ρ)

variable {τ Op : Type} {Val : Op → Type} {ε ρ σ : Type}

/-- The process just after it started: no thread runs. -/
def Config.idle (s : σ) : Config τ Op Val ε ρ σ := ⟨s, fun _ => none⟩

namespace System

variable [DecidableEq τ] (S : System τ Op Val ε ρ σ)

/-- One step of one thread, or of the whole process. -/
inductive Step : Config τ Op Val ε ρ σ → Config τ Op Val ε ρ σ → Prop where
  | spawn {s s' : σ} {pool : τ → Option (Prog Op Val ε ρ)} {t : τ} {program : Prog Op Val ε ρ}
      (free : pool t = none) (starts : S.spawn t s program s') :
      Step ⟨s, pool⟩ ⟨s', Function.update pool t (some program)⟩
  | exec {s s' : σ} {pool : τ → Option (Prog Op Val ε ρ)} {t : τ} {op : Op}
      {next : Except ε (Val op) → Prog Op Val ε ρ} {answer : Except ε (Val op)}
      (calls : pool t = some (.call op next)) (answers : S.exec t op s answer s') :
      Step ⟨s, pool⟩ ⟨s', Function.update pool t (some (next answer))⟩
  | retire {s s' : σ} {pool : τ → Option (Prog Op Val ε ρ)} {t : τ} {result : Except ε ρ}
      (ended : pool t = some (.ret result)) (leaves : S.retire t result s s') :
      Step ⟨s, pool⟩ ⟨s', Function.update pool t none⟩
  | crash {s s' : σ} {pool : τ → Option (Prog Op Val ε ρ)} (stops : S.crash s s') :
      Step ⟨s, pool⟩ (.idle s')

/-- The configurations a run from `start` can reach. -/
abbrev Reachable (start : Config τ Op Val ε ρ σ) : Config τ Op Val ε ρ σ → Prop :=
  Relation.ReflTransGen S.Step start

end System

/-- What a thread may rely on, and what it owes. -/
structure Contract (S : System τ Op Val ε ρ σ) where
  rely : τ → σ → σ → Prop
  inv : σ → Prop
  pre : τ → Op → σ → Prop
  post : τ → Except ε ρ → σ → Prop

namespace Contract

variable {S : System τ Op Val ε ρ σ} (K : Contract S) {α β : Type}

/-- A program keeps the contract from a state on: whatever the other threads
do before its next statement, the precondition of the statement holds there,
and the rest of the program is safe after every answer. At its end `Q` holds. -/
def Safe (t : τ) (Q : Except ε α → σ → Prop) : Prog Op Val ε α → σ → Prop
  | .ret result, s => ∀ s', K.rely t s s' → K.inv s' → Q result s'
  | .call op next, s => ∀ s', K.rely t s s' → K.inv s' →
      K.pre t op s' ∧ ∀ answer s'', S.exec t op s' answer s'' → Safe t Q (next answer) s''

/-- What other threads do, any number of times, is again what they may do. -/
structure Closed : Prop where
  rely_refl : ∀ t s, K.rely t s s
  rely_trans : ∀ {t s s' s''}, K.rely t s s' → K.rely t s' s'' → K.rely t s s''

/-- Every program that starts is safe, and no thread breaks what another
relies on. -/
structure Sound : Prop extends K.Closed where
  exec : ∀ {t op s answer s'}, K.inv s → K.pre t op s → S.exec t op s answer s' →
    K.inv s' ∧ ∀ u, u ≠ t → K.rely u s s'
  spawn : ∀ {t s program s'}, K.inv s → S.spawn t s program s' →
    K.inv s' ∧ (∀ u, u ≠ t → K.rely u s s') ∧ K.Safe t (K.post t) program s'
  retire : ∀ {t result s s'}, K.inv s → K.post t result s → S.retire t result s s' →
    K.inv s' ∧ ∀ u, u ≠ t → K.rely u s s'
  crash : ∀ {s s'}, K.inv s → S.crash s s' → K.inv s'

/-- A change of the state that the contract allows. -/
inductive Move : σ → σ → Prop where
  | spawn {t : τ} {s s' : σ} {program : Prog Op Val ε ρ} (kept : K.inv s)
      (starts : S.spawn t s program s') : Move s s'
  | exec {t : τ} {op : Op} {s s' : σ} {answer : Except ε (Val op)} (kept : K.inv s)
      (holds : K.pre t op s) (answers : S.exec t op s answer s') : Move s s'
  | retire {t : τ} {s s' : σ} {result : Except ε ρ} (kept : K.inv s)
      (holds : K.post t result s) (leaves : S.retire t result s s') : Move s s'
  | crash {s s' : σ} (kept : K.inv s) (stops : S.crash s s') : Move s s'

/-- Every thread of a configuration keeps the contract. -/
structure Kept (c : Config τ Op Val ε ρ σ) : Prop where
  inv : K.inv c.state
  safe : ∀ t program, c.pool t = some program → K.Safe t (K.post t) program c.state

variable {K}

/-! ## Proving a program safe -/

theorem Safe.rely {t : τ} {Q : Except ε α → σ → Prop} {program : Prog Op Val ε α} {s s' : σ}
    (closed : K.Closed) (safe : K.Safe t Q program s) (others : K.rely t s s') :
    K.Safe t Q program s' := by
  cases program with
  | ret result => exact fun s'' later => safe s'' (closed.rely_trans others later)
  | call op next => exact fun s'' later => safe s'' (closed.rely_trans others later)

/-- A program is safe when it is safe wherever the other threads may leave
the state. -/
theorem Safe.of_rely {t : τ} {Q : Except ε α → σ → Prop} {program : Prog Op Val ε α} {s : σ}
    (closed : K.Closed)
    (safe : ∀ s', K.rely t s s' → K.inv s' → K.Safe t Q program s') : K.Safe t Q program s := by
  cases program with
  | ret result =>
      exact fun s' others kept => safe s' others kept s' (closed.rely_refl t s') kept
  | call op next =>
      exact fun s' others kept => safe s' others kept s' (closed.rely_refl t s') kept

theorem Safe.bind {t : τ} {Q : Except ε β → σ → Prop} {R : Except ε α → σ → Prop}
    {program : Prog Op Val ε α} {rest : α → Prog Op Val ε β} {s : σ} (closed : K.Closed)
    (safe : K.Safe t R program s)
    (value : ∀ a s', K.inv s' → R (.ok a) s' → K.Safe t Q (rest a) s')
    (error : ∀ e s', K.inv s' → R (.error e) s' → Q (.error e) s') :
    K.Safe t Q (program.bind rest) s := by
  induction program generalizing s with
  | ret result =>
      cases result with
      | ok a =>
          exact Safe.of_rely closed fun s' others kept => value a s' kept (safe s' others kept)
      | error e => exact fun s' others kept => error e s' kept (safe s' others kept)
  | call op next ih =>
      intro s' others kept
      exact ⟨(safe s' others kept).1, fun answer s'' answers =>
        ih answer ((safe s' others kept).2 answer s'' answers)⟩

theorem Safe.attempt {t : τ} {Q : Except ε α → σ → Prop} {program : Prog Op Val ε α} {s : σ}
    (safe : K.Safe t Q program s) :
    K.Safe t (fun result s' => ∃ found, result = .ok found ∧ Q found s') program.attempt s := by
  induction program generalizing s with
  | ret result => exact fun s' others kept => ⟨result, rfl, safe s' others kept⟩
  | call op next ih =>
      intro s' others kept
      exact ⟨(safe s' others kept).1, fun answer s'' answers =>
        ih answer ((safe s' others kept).2 answer s'' answers)⟩

theorem Safe.weaken {t : τ} {Q R : Except ε α → σ → Prop} {program : Prog Op Val ε α} {s : σ}
    (safe : K.Safe t Q program s) (weaker : ∀ result s', K.inv s' → Q result s' → R result s') :
    K.Safe t R program s := by
  induction program generalizing s with
  | ret result => exact fun s' others kept => weaker result s' kept (safe s' others kept)
  | call op next ih =>
      intro s' others kept
      exact ⟨(safe s' others kept).1, fun answer s'' answers =>
        ih answer ((safe s' others kept).2 answer s'' answers)⟩

theorem Safe.and {t : τ} {Q R : Except ε α → σ → Prop} {program : Prog Op Val ε α} {s : σ}
    (first : K.Safe t Q program s) (second : K.Safe t R program s) :
    K.Safe t (fun result s' => Q result s' ∧ R result s') program s := by
  induction program generalizing s with
  | ret result => exact fun s' others kept => ⟨first s' others kept, second s' others kept⟩
  | call op next ih =>
      intro s' others kept
      exact ⟨(first s' others kept).1, fun answer s'' answers =>
        ih answer ((first s' others kept).2 answer s'' answers)
          ((second s' others kept).2 answer s'' answers)⟩

/-! ## Configurations that keep the contract -/

theorem Kept.idle {s : σ} (inv : K.inv s) : K.Kept (.idle s) :=
  ⟨inv, fun _ _ held => by cases held⟩

/-- The precondition of every statement about to be called holds. -/
theorem Kept.pre (sound : K.Sound) {c : Config τ Op Val ε ρ σ} (kept : K.Kept c) {t : τ} {op : Op}
    {next : Except ε (Val op) → Prog Op Val ε ρ} (calls : c.pool t = some (.call op next)) :
    K.pre t op c.state :=
  (kept.safe t _ calls c.state (sound.rely_refl t _) kept.inv).1

/-- The postcondition of every ended program holds. -/
theorem Kept.post (sound : K.Sound) {c : Config τ Op Val ε ρ σ} (kept : K.Kept c) {t : τ}
    {result : Except ε ρ} (ended : c.pool t = some (.ret result)) : K.post t result c.state :=
  kept.safe t _ ended c.state (sound.rely_refl t _) kept.inv

/-- A property that every allowed move keeps survives any number of them. -/
theorem Move.keeps {J : σ → Prop} (keeps : ∀ {s s'}, K.Move s s' → J s → J s') {s s' : σ}
    (moves : Relation.ReflTransGen K.Move s s') (holds : J s) : J s' := by
  induction moves with
  | refl => exact holds
  | tail _ move ih => exact keeps move ih

/-! ## Runs keep the contract -/

section Runs

variable [DecidableEq τ]

/-- One step keeps the contract, and moves the state as the contract allows. -/
theorem Sound.step (sound : K.Sound) {c c' : Config τ Op Val ε ρ σ} (kept : K.Kept c)
    (step : S.Step c c') : K.Kept c' ∧ K.Move c.state c'.state := by
  obtain ⟨inv, safe⟩ := kept
  cases step with
  | @spawn s s' pool t program free starts =>
      obtain ⟨inv', others, fresh⟩ := sound.spawn inv starts
      refine ⟨⟨inv', fun u found held => ?_⟩, .spawn inv starts⟩
      change Function.update pool t (some program) u = some found at held
      by_cases same : u = t
      · subst same
        rw [Function.update_self, Option.some.injEq] at held
        exact held ▸ fresh
      · rw [Function.update_of_ne same] at held
        exact (safe u found held).rely sound.toClosed (others u same)
  | @exec s s' pool t op next answer calls answers =>
      have called := safe t _ calls s (sound.rely_refl t s) inv
      obtain ⟨inv', others⟩ := sound.exec inv called.1 answers
      refine ⟨⟨inv', fun u found held => ?_⟩, .exec inv called.1 answers⟩
      change Function.update pool t (some (next answer)) u = some found at held
      by_cases same : u = t
      · subst same
        rw [Function.update_self, Option.some.injEq] at held
        exact held ▸ called.2 answer s' answers
      · rw [Function.update_of_ne same] at held
        exact (safe u found held).rely sound.toClosed (others u same)
  | @retire s s' pool t result ended leaves =>
      have done := safe t _ ended s (sound.rely_refl t s) inv
      obtain ⟨inv', others⟩ := sound.retire inv done leaves
      refine ⟨⟨inv', fun u found held => ?_⟩, .retire inv done leaves⟩
      change Function.update pool t none u = some found at held
      by_cases same : u = t
      · subst same
        rw [Function.update_self] at held
        cases held
      · rw [Function.update_of_ne same] at held
        exact (safe u found held).rely sound.toClosed (others u same)
  | crash stops =>
      exact ⟨⟨sound.crash inv stops, fun _ _ held => by cases held⟩, .crash inv stops⟩

/-- **Every reachable configuration keeps the contract.** -/
theorem Sound.reachable (sound : K.Sound) {c c' : Config τ Op Val ε ρ σ} (kept : K.Kept c)
    (run : S.Reachable c c') : K.Kept c' := by
  induction run with
  | refl => exact kept
  | tail _ step ih => exact (sound.step ih step).1

/-- **The states of a run move only as the contract allows.** -/
theorem Sound.moves (sound : K.Sound) {c c' : Config τ Op Val ε ρ σ} (kept : K.Kept c)
    (run : S.Reachable c c') : Relation.ReflTransGen K.Move c.state c'.state := by
  induction run with
  | refl => exact .refl
  | tail before step ih => exact ih.tail (sound.step (sound.reachable kept before) step).2

/-- **A property of the state that every allowed move keeps holds in every
reachable configuration.** -/
theorem Sound.invariant (sound : K.Sound) {J : σ → Prop}
    (keeps : ∀ {s s'}, K.Move s s' → J s → J s') {c c' : Config τ Op Val ε ρ σ}
    (kept : K.Kept c) (holds : J c.state) (run : S.Reachable c c') : J c'.state :=
  Move.keeps keeps (sound.moves kept run) holds

end Runs

end Contract

end Interleaving
