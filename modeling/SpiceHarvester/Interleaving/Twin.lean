import SpiceHarvester.Interleaving.Past
import Mathlib.Data.List.Forall2

/-!
# Two runs that look alike

Somebody who sees only a part of the state cannot tell two states apart. A `Likeness` says
which states look alike, which statements do, and which answers. Two programs are twins
when they call statements that look alike, however alike the answers are, and end with
results that match (`Likeness.Twin`). How the results match may depend on what the two
programs have been told (`Likeness.given`).

A system mirrors a likeness when each of its steps can be taken in a state that looks alike
too, with an answer that looks alike (`System.Mirrors`). Then every run has a twin from
every start that looks like its own: the same threads are running, and what they have ended
with matches, by the answers that the two runs have given (`System.Mirrors.run`).
-/

set_option autoImplicit false

namespace Interleaving

/-- What looks alike to somebody who sees a part of the state. -/
structure Likeness (Op : Type) (Val : Op → Type) (ε σ : Type) where
  states : σ → σ → Prop
  calls : Op → Op → Prop
  answers : Called Op Val ε → Called Op Val ε → Prop

namespace Likeness

variable {Op : Type} {Val : Op → Type} {ε σ α β : Type}

/-- The programs call statements that look alike, and their results match. -/
inductive Twin (L : Likeness Op Val ε σ) (Q : Except ε α → Except ε α → Prop) :
    Prog Op Val ε α → Prog Op Val ε α → Prop where
  | ret {result result' : Except ε α} (same : Q result result') :
      Twin L Q (.ret result) (.ret result')
  | call {op op' : Op} {next : Except ε (Val op) → Prog Op Val ε α}
      {next' : Except ε (Val op') → Prog Op Val ε α} (alike : L.calls op op')
      (later : ∀ answer answer', L.answers ⟨op, answer⟩ ⟨op', answer'⟩ →
        Twin L Q (next answer) (next' answer')) :
      Twin L Q (.call op next) (.call op' next')

/-- Two errors are the same, or two values match. -/
def Matching {α : Type} (R : α → α → Prop) : Except ε α → Except ε α → Prop
  | .ok value, .ok value' => R value value'
  | .error error, .error error' => error = error'
  | _, _ => False

/-- The same, for programs that are given answers of `G` and of `G'` only. -/
def given (L : Likeness Op Val ε σ) (G G' : Called Op Val ε → Prop) : Likeness Op Val ε σ :=
  { L with answers := fun called called' => L.answers called called' ∧ G called ∧ G' called' }

variable {L : Likeness Op Val ε σ} {Q Q' : Except ε α → Except ε α → Prop}
  {program program' : Prog Op Val ε α}

theorem Matching.refl {R : α → α → Prop} (same : ∀ value, R value value) (result : Except ε α) :
    Matching R result result := by
  cases result with
  | ok value => exact same value
  | error error => rfl

/-- Results whose values have the same image. -/
theorem Matching.of_map {β : Type} {f : α → β} {result result' : Except ε α}
    (same : result.map f = result'.map f) :
    Matching (fun value value' => f value = f value') result result' := by
  cases result with
  | ok value =>
      cases result' with
      | ok value' => exact Except.ok.inj same
      | error _ => cases same
  | error error =>
      cases result' with
      | ok _ => cases same
      | error error' => exact Except.error.inj same

namespace Twin

theorem weaken (twin : L.Twin Q program program')
    (weaker : ∀ {result result'}, Q result result' → Q' result result') :
    L.Twin Q' program program' := by
  induction twin with
  | ret same => exact .ret (weaker same)
  | call alike _ ih => exact .call alike ih

/-- Twins of any answers are twins of those that are given. -/
theorem given {G G' : Called Op Val ε → Prop} (twin : L.Twin Q program program') :
    (L.given G G').Twin Q program program' := by
  induction twin with
  | ret same => exact .ret same
  | call alike _ ih => exact .call alike fun answer answer' seen => ih answer answer' seen.1

/-- One statement. -/
theorem query {op : Op} (alike : L.calls op op) {R : Except ε (Val op) → Except ε (Val op) → Prop}
    (later : ∀ answer answer', L.answers ⟨op, answer⟩ ⟨op, answer'⟩ → R answer answer') :
    L.Twin R (Prog.query op) (Prog.query op) :=
  .call alike fun answer answer' seen => .ret (later answer answer' seen)

/-- An error ends both programs, and matching values are handed to what follows. -/
theorem bind {R : α → α → Prop} {P : Except ε β → Except ε β → Prop}
    {rest rest' : α → Prog Op Val ε β} (twin : L.Twin (Matching R) program program')
    (error : ∀ error, P (.error error) (.error error))
    (value : ∀ value value', R value value' → L.Twin P (rest value) (rest' value')) :
    L.Twin P (program >>= rest) (program' >>= rest') := by
  induction twin with
  | @ret result result' same =>
      cases result with
      | ok found =>
          cases result' with
          | ok found' => exact value found found' same
          | error _ => exact same.elim
      | error failed =>
          cases result' with
          | ok _ => exact same.elim
          | error failed' =>
              obtain rfl : failed = failed' := same
              exact .ret (error failed)
  | call alike _ ih => exact .call alike ih

theorem attempt (twin : L.Twin Q program program') :
    L.Twin (Matching Q) program.attempt program'.attempt := by
  induction twin with
  | ret same => exact .ret same
  | call alike _ ih => exact .call alike ih

/-- What follows an attempt gets results that match. -/
theorem attempt_bind {P : Except ε β → Except ε β → Prop}
    {rest rest' : Except ε α → Prog Op Val ε β}
    (twin : L.Twin Q program program')
    (value : ∀ result result', Q result result' → L.Twin P (rest result) (rest' result')) :
    L.Twin P (program.attempt >>= rest) (program'.attempt >>= rest') := by
  induction twin with
  | ret same => exact value _ _ same
  | call alike _ ih => exact .call alike ih

/-- What follows an attempt gets the same error, or values that match. -/
theorem attempt_cases {R : α → α → Prop} {P : Except ε β → Except ε β → Prop}
    {rest rest' : Except ε α → Prog Op Val ε β} (twin : L.Twin (Matching R) program program')
    (error : ∀ error, L.Twin P (rest (.error error)) (rest' (.error error)))
    (value : ∀ value value', R value value' → L.Twin P (rest (.ok value)) (rest' (.ok value'))) :
    L.Twin P (program.attempt >>= rest) (program'.attempt >>= rest') := by
  refine attempt_bind twin fun result result' same => ?_
  cases result with
  | ok found =>
      cases result' with
      | ok found' => exact value found found' same
      | error _ => exact same.elim
  | error err =>
      cases result' with
      | ok _ => exact same.elim
      | error err' =>
          obtain rfl : err = err' := same
          exact error err

/-- A program whose answers do not differ when they look alike is its own twin. -/
theorem refl_of_calls {C : Op → Prop} (calls : program.Calls C)
    (alike : ∀ {op}, C op → L.calls op op)
    (same : ∀ {op answer answer'}, C op → L.answers ⟨op, answer⟩ ⟨op, answer'⟩ → answer = answer')
    (refl : ∀ result, Q result result) : L.Twin Q program program := by
  induction calls with
  | ret result => exact .ret (refl result)
  | call called _ ih =>
      refine .call (alike called) fun answer answer' seen => ?_
      obtain rfl := same called seen
      exact ih answer

/-- One program after the other, for items that match. -/
theorem forM {items items' : List β} {R : β → β → Prop} {body : β → Prog Op Val ε PUnit}
    (matching : List.Forall₂ R items items')
    (each : ∀ item item', R item item' →
      L.Twin (Matching fun _ _ => True) (body item) (body item')) :
    L.Twin (Matching fun _ _ => True) (items.forM body) (items'.forM body) := by
  induction matching with
  | nil => exact .ret trivial
  | cons first _ ih => exact bind (each _ _ first) (fun _ => rfl) fun _ _ _ => ih

theorem mapM {γ : Type} {items items' : List β} {R : β → β → Prop} {P : γ → γ → Prop}
    {body : β → Prog Op Val ε γ} (matching : List.Forall₂ R items items')
    (each : ∀ item item', R item item' → L.Twin (Matching P) (body item) (body item')) :
    L.Twin (Matching (List.Forall₂ P)) (items.mapM body) (items'.mapM body) := by
  induction matching with
  | nil => exact .ret .nil
  | cons first _ ih =>
      rw [List.mapM_cons, List.mapM_cons]
      refine bind (each _ _ first) (fun _ => rfl) fun value value' same => ?_
      exact bind ih (fun _ => rfl) fun values values' others => .ret (.cons same others)

end Twin

end Likeness

/-! ## Runs -/

variable {τ Op : Type} {Val : Op → Type} {ε ρ σ : Type}

/-- How the results of two programs match, by the answers that each of them has been given. -/
abbrev Likeness.Accounts (Op : Type) (Val : Op → Type) (ε ρ : Type) : Type :=
  (Called Op Val ε → Prop) → (Called Op Val ε → Prop) → Except ε ρ → Except ε ρ → Prop

open Likeness (Accounts)

/-- The steps of the system can be taken in every state that looks alike. -/
structure System.Mirrors (S : System τ Op Val ε ρ σ) (L : Likeness Op Val ε σ)
    (Q : Accounts Op Val ε ρ) : Prop where
  spawn : ∀ {t s program s' s₁}, S.spawn t s program s' → L.states s s₁ →
    ∃ program₁ s₁', S.spawn t s₁ program₁ s₁' ∧
      (∀ G G', (L.given G G').Twin (Q G G') program program₁) ∧ L.states s' s₁'
  exec : ∀ {t op s answer s' op₁ s₁}, S.exec t op s answer s' → L.states s s₁ → L.calls op op₁ →
    ∃ answer₁ s₁', S.exec t op₁ s₁ answer₁ s₁' ∧ L.answers ⟨op, answer⟩ ⟨op₁, answer₁⟩ ∧
      L.states s' s₁'
  retire : ∀ {t result s s' result₁ s₁ G G'}, S.retire t result s s' → L.states s s₁ →
    Q G G' result result₁ → ∃ s₁', S.retire t result₁ s₁ s₁' ∧ L.states s' s₁'
  crash : ∀ {s s' s₁}, S.crash s s' → L.states s s₁ → ∃ s₁', S.crash s₁ s₁' ∧ L.states s' s₁'

/-- The states look alike, and the same threads run twins, where `E` and `E₁` have been
answered. -/
structure Config.Alike (L : Likeness Op Val ε σ) (Q : Accounts Op Val ε ρ)
    (E E₁ : Called Op Val ε → Prop) (c c₁ : Config τ Op Val ε ρ σ) : Prop where
  states : L.states c.state c₁.state
  pool : ∀ t, Option.Rel (fun program program₁ => ∀ G G', (∀ called, E called → G called) →
    (∀ called, E₁ called → G' called) → (L.given G G').Twin (Q G G') program program₁)
      (c.pool t) (c₁.pool t)

namespace Config.Alike

variable {L : Likeness Op Val ε σ} {Q : Accounts Op Val ε ρ} {E E' E₁ E₁' : Called Op Val ε → Prop}
  {c c₁ : Config τ Op Val ε ρ σ}

theorem idle {s s₁ : σ} (alike : L.states s s₁) :
    Config.Alike (τ := τ) L Q E E₁ (.idle s) (.idle s₁) := ⟨alike, fun _ => .none⟩

/-- The same threads are running. -/
theorem threads (alike : c.Alike L Q E E₁ c₁) (t : τ) :
    (c.pool t).isSome = (c₁.pool t).isSome := by
  have twins := alike.pool t
  generalize c.pool t = program, c₁.pool t = program₁ at twins ⊢
  cases twins <;> rfl

/-- A thread that is free has a twin that is free. -/
theorem free (alike : c.Alike L Q E E₁ c₁) {t : τ} (free : c.pool t = none) :
    c₁.pool t = none := by
  have twins := alike.pool t
  rw [free] at twins
  generalize c₁.pool t = other at twins
  cases twins
  rfl

/-- A thread that has ended has a twin that has ended. -/
theorem ended (alike : c.Alike L Q E E₁ c₁) {t : τ} {result : Except ε ρ}
    (ended : c.pool t = some (.ret result)) :
    ∃ result₁, c₁.pool t = some (.ret result₁) ∧ Q E E₁ result result₁ := by
  have twins := alike.pool t
  rw [ended] at twins
  generalize c₁.pool t = other at twins
  cases twins with
  | some twins =>
      cases twins E E₁ (fun _ answered => answered) fun _ answered => answered with
      | ret same => exact ⟨_, rfl, same⟩

/-- A thread that calls a statement has a twin that calls one. -/
theorem calling (alike : c.Alike L Q E E₁ c₁) {t : τ} {op : Op}
    {next : Except ε (Val op) → Prog Op Val ε ρ}
    (calls : c.pool t = some (.call op next)) :
    ∃ op₁ next₁, c₁.pool t = some (.call op₁ next₁) ∧ L.calls op op₁ ∧
      ∀ G G', (∀ called, E called → G called) → (∀ called, E₁ called → G' called) →
        ∀ answer answer', (L.given G G').answers ⟨op, answer⟩ ⟨op₁, answer'⟩ →
          (L.given G G').Twin (Q G G') (next answer) (next₁ answer') := by
  have twins := alike.pool t
  rw [calls] at twins
  cases called : c₁.pool t with
  | none =>
      rw [called] at twins
      cases twins
  | some program₁ =>
      rw [called] at twins
      cases twins with
      | some twins =>
          cases program₁ with
          | ret result =>
              cases twins E E₁ (fun _ answered => answered) fun _ answered => answered
          | call op₁ next₁ =>
              refine ⟨op₁, next₁, rfl, ?_, fun G G' more more' => ?_⟩
              · cases twins E E₁ (fun _ answered => answered) fun _ answered => answered with
                | call alike _ => exact alike
              · cases twins G G' more more' with
                | call _ later => exact later

variable [DecidableEq τ]

/-- What a thread goes on with, when more has been answered. -/
theorem update (alike : c.Alike L Q E E₁ c₁) (more : ∀ called, E called → E' called)
    (more₁ : ∀ called, E₁ called → E₁' called) {s s₁ : σ} (states : L.states s s₁) (t : τ)
    {next next₁ : Option (Prog Op Val ε ρ)}
    (twins : Option.Rel (fun program program₁ => ∀ G G', (∀ called, E' called → G called) →
      (∀ called, E₁' called → G' called) → (L.given G G').Twin (Q G G') program program₁)
        next next₁) :
    Config.Alike L Q E' E₁' ⟨s, Function.update c.pool t next⟩
      ⟨s₁, Function.update c₁.pool t next₁⟩ := by
  refine ⟨states, fun u => ?_⟩
  change Option.Rel _ (Function.update c.pool t next u) (Function.update c₁.pool t next₁ u)
  by_cases same : u = t
  · subst same
    rw [Function.update_self, Function.update_self]
    exact twins
  · rw [Function.update_of_ne same, Function.update_of_ne same]
    have before := alike.pool u
    generalize c.pool u = program, c₁.pool u = program₁ at before ⊢
    cases before with
    | none => exact .none
    | some twins =>
        exact .some fun G G' known known' =>
          twins G G' (fun called answered => known called (more called answered))
            fun called answered => known' called (more₁ called answered)

end Config.Alike

namespace System.Mirrors

variable [DecidableEq τ] {S : System τ Op Val ε ρ σ} {L : Likeness Op Val ε σ}
  {Q : Accounts Op Val ε ρ} {start start₁ c c' c₁ : Config τ Op Val ε ρ σ}

/-- Every step has a twin. -/
theorem step (mirrors : S.Mirrors L Q) (run : S.Reachable start c) (step : S.Step c c')
    (run₁ : S.Reachable start₁ c₁)
    (alike : c.Alike L Q (S.Answered start c) (S.Answered start₁ c₁) c₁) :
    ∃ c₁', S.Step c₁ c₁' ∧ c'.Alike L Q (S.Answered start c') (S.Answered start₁ c₁') c₁' := by
  obtain ⟨s₁, pool₁⟩ := c₁
  have more : ∀ called, S.Answered start c called → S.Answered start c' called :=
    fun _ answered => answered.later step
  have more₁ : ∀ {c₁'}, S.Step ⟨s₁, pool₁⟩ c₁' → ∀ called,
      S.Answered start₁ ⟨s₁, pool₁⟩ called → S.Answered start₁ c₁' called :=
    fun turn _ answered => answered.later turn
  cases step with
  | @spawn s s' pool t program free starts =>
      obtain ⟨program₁, s₁', starts₁, twin, states⟩ := mirrors.spawn starts alike.states
      have turn : S.Step ⟨s₁, pool₁⟩ ⟨s₁', Function.update pool₁ t (some program₁)⟩ :=
        .spawn (alike.free free) starts₁
      exact ⟨_, turn, alike.update more (more₁ turn) states t (.some fun G G' _ _ => twin G G')⟩
  | @exec s s' pool t op next answer calls answers =>
      obtain ⟨op₁, next₁, calls₁, called, later⟩ := alike.calling calls
      obtain ⟨answer₁, s₁', answers₁, seen, states⟩ := mirrors.exec answers alike.states called
      have turn : S.Step ⟨s₁, pool₁⟩ ⟨s₁', Function.update pool₁ t (some (next₁ answer₁))⟩ :=
        .exec calls₁ answers₁
      refine ⟨_, turn, alike.update more (more₁ turn) states t (.some fun G G' known known' => ?_)⟩
      -- Both answers have been given by now.
      have told : G ⟨op, answer⟩ :=
        known _ ⟨t, _, _, run, .exec calls answers, answers, .refl⟩
      have told₁ : G' ⟨op₁, answer₁⟩ := known' _ ⟨t, _, _, run₁, turn, answers₁, .refl⟩
      exact later G G' (fun called answered => known called (more called answered))
        (fun called answered => known' called (more₁ turn called answered)) answer answer₁
        ⟨seen, told, told₁⟩
  | @retire s s' pool t result ended leaves =>
      obtain ⟨result₁, ended₁, same⟩ := alike.ended ended
      obtain ⟨s₁', leaves₁, states⟩ := mirrors.retire leaves alike.states same
      have turn : S.Step ⟨s₁, pool₁⟩ ⟨s₁', Function.update pool₁ t none⟩ := .retire ended₁ leaves₁
      exact ⟨_, turn, alike.update more (more₁ turn) states t .none⟩
  | crash stops =>
      obtain ⟨s₁', stops₁, states⟩ := mirrors.crash stops alike.states
      exact ⟨_, .crash stops₁, .idle states⟩

/-- **Every run has a twin from every start that looks like its own.** -/
theorem run (mirrors : S.Mirrors L Q) {s s₁ : σ} (run : S.Reachable (.idle s) c)
    (alike : L.states s s₁) :
    ∃ c₁, S.Reachable (.idle s₁) c₁ ∧
      c.Alike L Q (S.Answered (.idle s) c) (S.Answered (.idle s₁) c₁) c₁ := by
  induction run with
  | refl => exact ⟨_, .refl, .idle alike⟩
  | tail before turn ih =>
      obtain ⟨c₁, run₁, alike⟩ := ih
      obtain ⟨c₁', turn₁, alike'⟩ := mirrors.step before turn run₁ alike
      exact ⟨c₁', run₁.tail turn₁, alike'⟩

end System.Mirrors

end Interleaving
