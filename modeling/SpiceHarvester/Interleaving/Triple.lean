import SpiceHarvester.Interleaving.Contract

/-!
# Triples of programs under a contract

`Triple t P program Q` says of a program on a thread: started where `P` holds,
it keeps the contract, and it ends where `Q` holds of its result. The rules
below follow the structure of programs. Assertions have to be stable: no other
thread can make them false (`Contract.Stable`).
-/

set_option autoImplicit false

namespace Interleaving

namespace Contract

variable {τ Op : Type} {Val : Op → Type} {ε ρ σ : Type} {S : System τ Op Val ε ρ σ}
  (K : Contract S) {α β : Type}

/-- The other threads keep an assertion. -/
def Stable (t : τ) (P : σ → Prop) : Prop := ∀ s s', K.rely t s s' → P s → P s'

/-- A program keeps the contract and ends with `Q` when it starts with `P`. -/
def Triple (t : τ) (P : σ → Prop) (program : Prog Op Val ε α) (Q : Except ε α → σ → Prop) : Prop :=
  ∀ s, K.inv s → P s → K.Safe t Q program s

variable {K}

namespace Triple

theorem ret {t : τ} {P : σ → Prop} {result : Except ε α} {Q : Except ε α → σ → Prop}
    (stable : K.Stable t P) (ends : ∀ {s}, K.inv s → P s → Q result s) :
    K.Triple t P (.ret result) Q :=
  fun _ _ holds _ others kept => ends kept (stable _ _ others holds)

/-- One statement, then the end. -/
theorem query {t : τ} {op : Op} {P : σ → Prop} {Q : Except ε (Val op) → σ → Prop}
    (stable : K.Stable t P) (stableAfter : ∀ answer, K.Stable t (Q answer))
    (pre : ∀ {s}, K.inv s → P s → K.pre t op s)
    (post : ∀ {s answer s'}, K.inv s → P s → S.exec t op s answer s' → Q answer s') :
    K.Triple t P (Prog.query op) Q :=
  fun _ _ holds _ others kept => ⟨pre kept (stable _ _ others holds),
    fun answer _ answers _ later _ =>
      stableAfter answer _ _ later (post kept (stable _ _ others holds) answers)⟩

theorem bind {t : τ} {P : σ → Prop} {R : Except ε α → σ → Prop} {Q : Except ε β → σ → Prop}
    {program : Prog Op Val ε α} {rest : α → Prog Op Val ε β} (closed : K.Closed)
    (first : K.Triple t P program R) (value : ∀ a, K.Triple t (R (.ok a)) (rest a) Q)
    (error : ∀ {e s}, K.inv s → R (.error e) s → Q (.error e) s) :
    K.Triple t P (program >>= rest) Q :=
  fun s kept holds => (first s kept holds).bind closed (fun a s' kept' => value a s' kept')
    fun _ _ kept' => error kept'

theorem attempt {t : τ} {P : σ → Prop} {Q : Except ε α → σ → Prop} {program : Prog Op Val ε α}
    (first : K.Triple t P program Q) :
    K.Triple t P program.attempt fun result s => ∃ found, result = .ok found ∧ Q found s :=
  fun s kept holds => (first s kept holds).attempt

/-- An attempt followed by what is done with its result. -/
theorem attempt_bind {t : τ} {P : σ → Prop} {R : Except ε α → σ → Prop} {Q : Except ε β → σ → Prop}
    {program : Prog Op Val ε α} {rest : Except ε α → Prog Op Val ε β} (closed : K.Closed)
    (first : K.Triple t P program R) (value : ∀ result, K.Triple t (R result) (rest result) Q) :
    K.Triple t P (program.attempt >>= rest) Q := by
  refine bind closed first.attempt (fun result => ?_) ?_
  · rintro s kept ⟨found, same, holds⟩
    cases same
    exact value result s kept holds
  · rintro e s _ ⟨found, same, _⟩
    cases same

theorem weaken {t : τ} {P P' : σ → Prop} {Q Q' : Except ε α → σ → Prop}
    {program : Prog Op Val ε α} (first : K.Triple t P program Q)
    (stronger : ∀ {s}, K.inv s → P' s → P s)
    (weaker : ∀ {result s}, K.inv s → Q result s → Q' result s) : K.Triple t P' program Q' :=
  fun s kept holds => (first s kept (stronger kept holds)).weaken fun _ _ kept' => weaker kept'

/-- What the states at the beginning say once and for all may be used. -/
theorem of_fact {t : τ} {fact : Prop} {P : σ → Prop} {Q : Except ε α → σ → Prop}
    {program : Prog Op Val ε α} (known : ∀ s, P s → fact) (later : fact → K.Triple t P program Q) :
    K.Triple t P program Q := fun s kept holds => later (known s holds) s kept holds

/-- What neither the statements of the thread nor the other threads make false
holds beside the triple. -/
theorem frame {t : τ} {P F : σ → Prop} {Q : Except ε α → σ → Prop} {program : Prog Op Val ε α}
    (first : K.Triple t P program Q) (stable : K.Stable t F)
    (keeps : ∀ {op s answer s'}, K.inv s → S.exec t op s answer s' → F s → F s') :
    K.Triple t (fun s => F s ∧ P s) program fun result s => F s ∧ Q result s := by
  have safe : ∀ {s}, F s → K.Safe t Q program s →
      K.Safe t (fun result s => F s ∧ Q result s) program s := by
    clear first
    induction program with
    | ret result => exact fun holds safe s' others kept => ⟨stable _ _ others holds, safe s' others kept⟩
    | call op next ih =>
        intro s holds safe s' others kept
        obtain ⟨pre, after⟩ := safe s' others kept
        exact ⟨pre, fun answer s'' answers =>
          ih answer (keeps kept answers (stable _ _ others holds)) (after answer s'' answers)⟩
  exact fun s kept holds => safe holds.1 (first s kept holds.2)

/-- A program whose statements all keep an assertion keeps it. -/
theorem of_calls {t : τ} {F : σ → Prop} {C : Op → Prop} {program : Prog Op Val ε α}
    (calls : program.Calls C) (stable : K.Stable t F)
    (pre : ∀ {op s}, C op → K.inv s → F s → K.pre t op s)
    (keeps : ∀ {op s answer s'}, C op → K.inv s → F s → S.exec t op s answer s' → F s') :
    K.Triple t F program fun _ => F := by
  have safe : ∀ {s}, F s → K.Safe t (fun _ => F) program s := by
    induction calls with
    | ret result => exact fun holds s' others _ => stable _ _ others holds
    | call allowed _ ih =>
        intro s holds s' others kept
        have holds' := stable _ _ others holds
        exact ⟨pre allowed kept holds', fun answer s'' answers =>
          ih answer (keeps allowed kept holds' answers)⟩
  exact fun s _ holds => safe holds

/-- A loop over a list, with an assertion about the items that remain. -/
theorem forM {t : τ} {P : List β → σ → Prop} {E : σ → Prop} {body : β → Prog Op Val ε PUnit}
    (closed : K.Closed) (stable : K.Stable t (P []))
    (step : ∀ item rest, K.Triple t (P (item :: rest)) (body item) fun result s =>
      match result with
      | .ok _ => P rest s
      | .error _ => E s)
    (items : List β) :
    K.Triple t (P items) (items.forM body) fun result s =>
      match result with
      | .ok _ => P [] s
      | .error _ => E s := by
  induction items with
  | nil => exact ret stable fun {_} _ holds => holds
  | cons item rest ih => exact bind closed (step item rest) (fun _ => ih) fun {_ _} _ holds => holds

end Triple

/-! ## What a program returns -/

/-- No other thread disturbs a thread. -/
def Undisturbed (K : Contract S) : Prop := ∀ t s s', K.rely t s s' ↔ s' = s

theorem Undisturbed.stable (alone : K.Undisturbed) {t : τ} (P : σ → Prop) : K.Stable t P := by
  intro s s' others holds
  rw [(alone t s s').mp others]
  exact holds

theorem Undisturbed.closed (alone : K.Undisturbed) : K.Closed where
  rely_refl t s := (alone t s s).mpr rfl
  rely_trans {t s s' s''} first later := by
    rw [(alone t s' s'').mp later]
    exact first

/-- A program keeps the contract, and `Q` holds of the value that it returns. -/
def Returns (K : Contract S) (t : τ) (P : σ → Prop) (program : Prog Op Val ε α)
    (Q : α → σ → Prop) : Prop :=
  K.Triple t P program fun result s => ∀ value, result = .ok value → Q value s

namespace Returns

variable {t : τ} {P P' F : σ → Prop}

theorem ret (alone : K.Undisturbed) {result : Except ε α} {Q : α → σ → Prop}
    (ends : ∀ {s}, P s → ∀ value, result = .ok value → Q value s) :
    K.Returns t P (.ret result) Q :=
  Triple.ret (alone.stable P) fun _ holds => ends holds

theorem pure (alone : K.Undisturbed) {value : α} {Q : α → σ → Prop} (ends : ∀ {s}, P s → Q value s) :
    K.Returns t P (Pure.pure value) Q :=
  ret alone fun holds found same => by
    cases same
    exact ends holds

theorem query (alone : K.Undisturbed) {op : Op} {Q : Val op → σ → Prop}
    (pre : ∀ {s}, K.inv s → P s → K.pre t op s)
    (post : ∀ {s answer s'}, K.inv s → P s → S.exec t op s (.ok answer) s' → Q answer s') :
    K.Returns t P (.query op) Q := by
  refine Triple.query (alone.stable P) (fun _ => alone.stable _) pre ?_
  intro s answer s' kept holds answers value same
  subst same
  exact post kept holds answers

theorem bind (alone : K.Undisturbed) {program : Prog Op Val ε α} {rest : α → Prog Op Val ε β}
    {R : α → σ → Prop} {Q : β → σ → Prop} (first : K.Returns t P program R)
    (later : ∀ value, K.Returns t (R value) (rest value) Q) :
    K.Returns t P (program >>= rest) Q :=
  Triple.bind alone.closed first
    (fun value => Triple.weaken (later value) (fun _ holds => holds value rfl) fun _ holds => holds)
    fun _ _ _ impossible => by cases impossible

/-- What every statement leaves true holds beside. -/
theorem frame (alone : K.Undisturbed) {program : Prog Op Val ε α} {Q : α → σ → Prop}
    (first : K.Returns t P program Q)
    (lasts : ∀ {op s answer s'}, S.exec t op s answer s' → F s → F s') :
    K.Returns t (fun s => F s ∧ P s) program fun value s => F s ∧ Q value s :=
  Triple.weaken (Triple.frame (F := F) first (alone.stable F) fun _ answers => lasts answers)
    (fun _ holds => holds) fun _ holds value same => ⟨holds.1, holds.2 value same⟩

/-- What every statement leaves true is still known when an attempt fails. -/
theorem attempt_bind (alone : K.Undisturbed) {program : Prog Op Val ε α}
    {rest : Except ε α → Prog Op Val ε β} {R : α → σ → Prop} {Q : β → σ → Prop}
    (first : K.Returns t P program R)
    (lasts : ∀ {op s answer s'}, S.exec t op s answer s' → F s → F s')
    (later : ∀ result, K.Returns t (fun s => F s ∧ ∀ value, result = .ok value → R value s)
      (rest result) Q) :
    K.Returns t (fun s => F s ∧ P s) (program.attempt >>= rest) Q :=
  Triple.attempt_bind alone.closed
    (Triple.frame (F := F) first (alone.stable F) fun _ answers => lasts answers) later

theorem weaken {program : Prog Op Val ε α} {Q Q' : α → σ → Prop} (first : K.Returns t P program Q)
    (stronger : ∀ {s}, P' s → P s) (weaker : ∀ {value s}, Q value s → Q' value s) :
    K.Returns t P' program Q' :=
  Triple.weaken first (fun _ => stronger) fun _ holds value same => weaker (holds value same)

/-- Two results of one program hold together. -/
theorem both {program : Prog Op Val ε α} {Q Q' : α → σ → Prop} (first : K.Returns t P program Q)
    (second : K.Returns t P' program Q') :
    K.Returns t (fun s => P s ∧ P' s) program fun value s => Q value s ∧ Q' value s :=
  fun s kept holds => ((first s kept holds.1).and (second s kept holds.2)).weaken
    fun _ _ _ found value same => ⟨found.1 value same, found.2 value same⟩

end Returns

end Contract

end Interleaving
