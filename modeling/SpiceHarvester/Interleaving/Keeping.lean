import SpiceHarvester.Interleaving.Triple
import Mathlib.Data.List.Forall2

/-!
# Programs that keep an assertion

Many programs only look: the assertion they start with holds when they end, whether with a
value or with an error, and what they return is a fact about what they have seen
(`Contract.Keeping`). An error of such a program loses nothing, so that it may be caught or
tried again. A program that goes on with its value knows the fact, and still has the
assertion (`Contract.Keeping.returns`).
-/

set_option autoImplicit false

namespace Interleaving

namespace Contract

variable {τ Op : Type} {Val : Op → Type} {ε ρ σ : Type} {S : System τ Op Val ε ρ σ}
  {K : Contract S} {α β ι : Type}

namespace Triple

variable {t : τ} {Q : Except ε α → σ → Prop} {program : Prog Op Val ε α}

/-- Where something is only known to exist it may be named. -/
theorem of_exists {P : ι → σ → Prop} (each : ∀ i, K.Triple t (P i) program Q) :
    K.Triple t (fun s => ∃ i, P i s) program Q := by
  rintro s kept ⟨i, holds⟩
  exact each i s kept holds

/-- What is known once and for all may be used. -/
theorem of_and {fact : Prop} {P : σ → Prop} (later : fact → K.Triple t P program Q) :
    K.Triple t (fun s => fact ∧ P s) program Q := by
  rintro s kept ⟨known, holds⟩
  exact later known s kept holds

/-- A program whose statements may always be called keeps an assertion that they keep. -/
theorem of_may {F : σ → Prop} (stable : K.Stable t F)
    (pre : ∀ {op s}, K.inv s → F s → K.pre t op s)
    (keeps : ∀ {op s answer s'}, K.inv s → F s → S.exec t op s answer s' → F s')
    (program : Prog Op Val ε α) : K.Triple t F program fun _ => F := by
  have safe : ∀ {s}, F s → K.Safe t (fun _ => F) program s := by
    induction program with
    | ret result => exact fun holds s' others _ => stable _ _ others holds
    | call op next ih =>
        intro s holds s' others kept
        have holds' := stable _ _ others holds
        exact ⟨pre kept holds', fun answer s'' answers => ih answer (keeps kept holds' answers)⟩
  exact fun s _ holds => safe holds

end Triple

/-- A program keeps an assertion, and a fact holds of the value that it returns. -/
def Keeping (K : Contract S) (t : τ) (F : σ → Prop) (program : Prog Op Val ε α)
    (fact : α → Prop) : Prop :=
  K.Triple t F program fun result s => (∀ value, result = .ok value → fact value) ∧ F s

namespace Keeping

variable {t : τ} {F : σ → Prop} {fact fact' : α → Prop} {fact₂ : β → Prop}
  {program : Prog Op Val ε α}

theorem ret (stable : K.Stable t F) {result : Except ε α}
    (known : ∀ value, result = .ok value → fact value) : K.Keeping t F (.ret result) fact :=
  Triple.ret stable fun _ holds => ⟨known, holds⟩

theorem pure (stable : K.Stable t F) {value : α} (known : fact value) :
    K.Keeping t F (Pure.pure value) fact :=
  ret stable fun found same => by
    cases same
    exact known

theorem query {op : Op} {fact : Val op → Prop} (stable : K.Stable t F)
    (pre : ∀ {s}, K.inv s → F s → K.pre t op s)
    (post : ∀ {s answer s'}, K.inv s → F s → S.exec t op s answer s' →
      (∀ value, answer = .ok value → fact value) ∧ F s') :
    K.Keeping t F (.query op) fact :=
  Triple.query stable (fun _ _ _ others holds => ⟨holds.1, stable _ _ others holds.2⟩) pre post

theorem weaken (first : K.Keeping t F program fact) (weaker : ∀ {value}, fact value → fact' value) :
    K.Keeping t F program fact' :=
  Triple.weaken first (fun _ holds => holds) fun _ holds =>
    ⟨fun value same => weaker (holds.1 value same), holds.2⟩

theorem bind (closed : K.Closed) {rest : α → Prog Op Val ε β} (first : K.Keeping t F program fact)
    (later : ∀ value, fact value → K.Keeping t F (rest value) fact₂) :
    K.Keeping t F (program >>= rest) fact₂ :=
  Triple.bind closed first
    (fun value s kept holds => later value (holds.1 value rfl) s kept holds.2)
    fun _ holds => ⟨fun _ same => (by cases same), holds.2⟩

theorem attempt (first : K.Keeping t F program fact) :
    K.Keeping t F program.attempt fun result => ∀ value, result = .ok value → fact value := by
  refine Triple.weaken (Triple.attempt first) (fun _ holds => holds) ?_
  rintro result s _ ⟨found, rfl, known, holds⟩
  refine ⟨fun found' same => ?_, holds⟩
  cases same
  exact known

theorem mapM (closed : K.Closed) (stable : K.Stable t F) {body : ι → Prog Op Val ε α}
    {related : ι → α → Prop} (each : ∀ item, K.Keeping t F (body item) (related item))
    (items : List ι) : K.Keeping t F (items.mapM body) (List.Forall₂ related items) := by
  induction items with
  | nil => exact pure stable .nil
  | cons item rest ih =>
      rw [List.mapM_cons]
      exact bind closed (each item) fun value known =>
        bind closed ih fun others all => pure stable (.cons known all)

/-- A program that changes something goes on with a value and what is known of it. -/
theorem returns (closed : K.Closed) {rest : α → Prog Op Val ε β} {Q : β → σ → Prop}
    (first : K.Keeping t F program fact)
    (later : ∀ value, fact value → K.Returns t F (rest value) Q) :
    K.Returns t F (program >>= rest) Q :=
  Triple.bind closed first
    (fun value s kept holds => later value (holds.1 value rfl) s kept holds.2)
    fun _ _ _ same => by cases same

end Keeping

namespace Returns

variable {t : τ} {P : σ → Prop} {program : Prog Op Val ε α}

theorem of_pure (stable : K.Stable t P) {value : α} {Q : α → σ → Prop}
    (ends : ∀ {s}, P s → Q value s) : K.Returns t P (Pure.pure value) Q :=
  Triple.ret stable fun _ holds found same => by
    cases same
    exact ends holds

/-- A program that ends with an error returns nothing. -/
theorem fail (stable : K.Stable t P) {error : ε} {Q : α → σ → Prop} :
    K.Returns t P (Prog.fail error) Q :=
  Triple.ret stable fun _ _ _ same => by cases same

theorem of_exists {P : ι → σ → Prop} {Q : α → σ → Prop} (each : ∀ i, K.Returns t (P i) program Q) :
    K.Returns t (fun s => ∃ i, P i s) program Q := Triple.of_exists each

theorem of_and {fact : Prop} {Q : α → σ → Prop} (later : fact → K.Returns t P program Q) :
    K.Returns t (fun s => fact ∧ P s) program Q := Triple.of_and later

/-- One program after another, whatever the other threads do. -/
theorem andThen (closed : K.Closed) {rest : α → Prog Op Val ε β} {R : α → σ → Prop}
    {Q : β → σ → Prop} (first : K.Returns t P program R)
    (later : ∀ value, K.Returns t (R value) (rest value) Q) :
    K.Returns t P (program >>= rest) Q :=
  Triple.bind closed first (fun value s kept holds => later value s kept (holds value rfl))
    fun _ _ _ same => by cases same

end Returns

end Contract

end Interleaving
