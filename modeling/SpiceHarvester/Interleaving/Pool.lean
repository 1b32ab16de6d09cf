import SpiceHarvester.Interleaving.Contract
import Mathlib.Data.Finset.Card
import Mathlib.Data.Fintype.Card

/-!
# Programs over a pool of connections

The statements of interleaved programs may need a connection of a pool. A statement
opens a transaction and keeps the connection, runs on the connection that is kept,
gives it back, or borrows another one for itself. A program that asks for a connection
waits until the pool has one, or gives up.

No more connections are handed out than the pool has (`Pooled.used_le`). So when the
pool is held by programs that wait for a further connection (`Pooled.Stuck`), it has
none to hand out (`Pooled.Stuck.full`). Each of these programs holds one connection:
there are as many as the pool has connections.
-/

set_option autoImplicit false

namespace Interleaving

/-- What a statement does with the pool. -/
inductive Use where
  /-- It needs no connection. -/
  | free
  /-- It takes a connection and keeps it, unless it fails. -/
  | opens
  /-- It runs on the connection that is kept. -/
  | inside
  /-- It gives the connection that is kept back. -/
  | closes
  /-- It takes a connection for the time it runs. -/
  | borrows
  deriving DecidableEq

/-- The statement asks the pool for a connection. -/
def Use.asks : Use → Bool
  | .opens | .borrows => true
  | _ => false

variable {τ Op : Type} {Val : Op → Type} {ε ρ σ : Type}

/-- What a thread keeps behind a statement. -/
def Use.keeps {α : Type} (use : Use) (answer : Except ε α) (kept : Bool) : Bool :=
  match use, answer with
  | .opens, .ok _ => true
  | .opens, .error _ => false
  | .closes, _ => false
  | _, _ => kept

/-- A configuration with the connections that are handed out: which threads keep one,
which have one for their next statement, and how many others have. -/
structure Pooled (τ Op : Type) (Val : Op → Type) (ε ρ σ : Type) where
  running : Config τ Op Val ε ρ σ
  kept : τ → Bool
  lent : τ → Bool
  others : ℕ

namespace Pooled

/-- The process just after it started. -/
def idle (s : σ) : Pooled τ Op Val ε ρ σ := ⟨.idle s, fun _ => false, fun _ => false, 0⟩

/-- The thread asks for a connection and has not got it. -/
def Waits (use : Op → Use) (c : Pooled τ Op Val ε ρ σ) (t : τ) : Prop :=
  ∃ op next, c.running.pool t = some (.call op next) ∧ (use op).asks = true ∧ c.lent t = false

/-- All connections of the pool are kept by threads that wait for a further one. -/
def Stuck (use : Op → Use) (size : ℕ) (c : Pooled τ Op Val ε ρ σ) : Prop :=
  ∃ holders : Finset τ, holders.card = size ∧
    ∀ t ∈ holders, c.kept t = true ∧ c.Waits use t

section Steps

variable [DecidableEq τ] [Fintype τ]

/-- The threads of a flag. -/
def having (flag : τ → Bool) : Finset τ := Finset.univ.filter fun t => flag t = true

/-- How many connections are handed out. -/
def used (c : Pooled τ Op Val ε ρ σ) : ℕ := (having c.kept).card + (having c.lent).card + c.others

/-- The steps of a system over a pool of a size. -/
inductive Step (S : System τ Op Val ε ρ σ) (use : Op → Use) (size : ℕ) :
    Pooled τ Op Val ε ρ σ → Pooled τ Op Val ε ρ σ → Prop where
  | spawn {s s' : σ} {pool : τ → Option (Prog Op Val ε ρ)} {kept lent : τ → Bool} {others : ℕ}
      {t : τ} {program : Prog Op Val ε ρ} (free : pool t = none) (starts : S.spawn t s program s') :
      Step S use size ⟨⟨s, pool⟩, kept, lent, others⟩
        ⟨⟨s', Function.update pool t (some program)⟩, kept, lent, others⟩
  | take {c : Pooled τ Op Val ε ρ σ} {t : τ} (waits : c.Waits use t) (room : c.used < size) :
      Step S use size c { c with lent := Function.update c.lent t true }
  | exec {s s' : σ} {pool : τ → Option (Prog Op Val ε ρ)} {kept lent : τ → Bool} {others : ℕ}
      {t : τ} {op : Op} {next : Except ε (Val op) → Prog Op Val ε ρ} {answer : Except ε (Val op)}
      (calls : pool t = some (.call op next)) (ready : (use op).asks = lent t)
      (answers : S.exec t op s answer s') :
      Step S use size ⟨⟨s, pool⟩, kept, lent, others⟩
        ⟨⟨s', Function.update pool t (some (next answer))⟩,
          Function.update kept t ((use op).keeps answer (kept t)), Function.update lent t false, others⟩
  | giveUp {s s' : σ} {pool : τ → Option (Prog Op Val ε ρ)} {kept lent : τ → Bool} {others : ℕ}
      {t : τ} {op : Op} {next : Except ε (Val op) → Prog Op Val ε ρ} {error : ε}
      (calls : pool t = some (.call op next)) (asks : (use op).asks = true)
      (waits : lent t = false) (answers : S.exec t op s (.error error) s') :
      Step S use size ⟨⟨s, pool⟩, kept, lent, others⟩
        ⟨⟨s', Function.update pool t (some (next (.error error)))⟩, kept, lent, others⟩
  | retire {s s' : σ} {pool : τ → Option (Prog Op Val ε ρ)} {kept lent : τ → Bool} {others : ℕ}
      {t : τ} {result : Except ε ρ} (ended : pool t = some (.ret result))
      (leaves : S.retire t result s s') :
      Step S use size ⟨⟨s, pool⟩, kept, lent, others⟩
        ⟨⟨s', Function.update pool t none⟩, kept, lent, others⟩
  | enter {c : Pooled τ Op Val ε ρ σ} (room : c.used < size) :
      Step S use size c { c with others := c.others + 1 }
  | leave {c : Pooled τ Op Val ε ρ σ} : Step S use size c { c with others := c.others - 1 }
  | crash {c : Pooled τ Op Val ε ρ σ} {s' : σ} (stops : S.crash c.running.state s') :
      Step S use size c (.idle s')

/-- The configurations that a run over the pool can reach. -/
abbrev Reachable (S : System τ Op Val ε ρ σ) (use : Op → Use) (size : ℕ)
    (start : Pooled τ Op Val ε ρ σ) : Pooled τ Op Val ε ρ σ → Prop :=
  Relation.ReflTransGen (Step S use size) start

/-! ## The size of the pool -/

variable {S : System τ Op Val ε ρ σ} {use : Op → Use} {size : ℕ} {c c' : Pooled τ Op Val ε ρ σ}

theorem having_update_true (flag : τ → Bool) (t : τ) :
    having (Function.update flag t true) = insert t (having flag) := by
  ext u
  by_cases same : u = t
  · subst same
    simp [having]
  · simp [having, same]

theorem having_update_false (flag : τ → Bool) (t : τ) :
    having (Function.update flag t false) = (having flag).erase t := by
  ext u
  by_cases same : u = t
  · subst same
    simp [having]
  · simp [having, same]

theorem card_having_update_le (flag : τ → Bool) (t : τ) :
    (having (Function.update flag t false)).card ≤ (having flag).card := by
  rw [having_update_false]
  exact Finset.card_erase_le

/-- A connection that was lent is taken back. -/
theorem card_having_update_lt {flag : τ → Bool} {t : τ} (lent : flag t = true) :
    (having (Function.update flag t false)).card + 1 = (having flag).card := by
  rw [having_update_false]
  exact Finset.card_erase_add_one (Finset.mem_filter.mpr ⟨Finset.mem_univ t, lent⟩)

theorem card_having_update_true (flag : τ → Bool) (t : τ) :
    (having (Function.update flag t true)).card ≤ (having flag).card + 1 := by
  rw [having_update_true]
  exact Finset.card_insert_le t (having flag)

/-- The steps hand out no more connections than there are. -/
theorem Step.used_le (step : Step S use size c c') (le : c.used ≤ size) : c'.used ≤ size := by
  unfold used at le ⊢
  cases step with
  | spawn _ _ => exact le
  | @take _ t _ room =>
      have more := card_having_update_true c.lent t
      unfold used at room
      simp only
      omega
  | @exec _ _ _ kept lent _ t op _ answer _ ready _ =>
      have less := card_having_update_le lent t
      have unlent := card_having_update_le kept t
      have same : Function.update kept t (kept t) = kept := Function.update_eq_self t kept
      cases what : use op with
      | opens =>
          rw [what] at ready
          have back := card_having_update_lt ready.symm
          have more := card_having_update_true kept t
          cases answer with
          | ok _ =>
              simp only [Use.keeps] at *
              omega
          | error _ =>
              simp only [Use.keeps] at *
              omega
      | closes =>
          simp only [Use.keeps] at *
          omega
      | free =>
          simp only [Use.keeps, same] at *
          omega
      | inside =>
          simp only [Use.keeps, same] at *
          omega
      | borrows =>
          simp only [Use.keeps, same] at *
          omega
  | giveUp _ _ _ _ => exact le
  | retire _ _ => exact le
  | enter room =>
      unfold used at room
      simp only
      omega
  | leave =>
      simp only
      omega
  | crash _ => simp [idle, having]

/-- **No more connections are handed out than the pool has.** -/
theorem used_le {s : σ} (reachable : Reachable S use size (.idle s) c) : c.used ≤ size := by
  induction reachable with
  | refl => simp [used, idle, having]
  | tail _ step ih => exact step.used_le ih

omit [DecidableEq τ] in
/-- When the pool is stuck nobody can get a connection. -/
theorem Stuck.full (stuck : c.Stuck use size) : ¬ c.used < size := by
  obtain ⟨holders, card, each⟩ := stuck
  have within : holders ⊆ having c.kept := fun t member =>
    Finset.mem_filter.mpr ⟨Finset.mem_univ t, (each t member).1⟩
  have le := Finset.card_le_card within
  unfold used
  omega

end Steps

end Pooled

end Interleaving
