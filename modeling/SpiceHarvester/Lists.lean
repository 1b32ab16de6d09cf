import Mathlib.Data.List.Basic
import Mathlib.Data.List.Forall2

/-!
# Lists that are read item by item

A list is read to its end, or up to the first item that cannot be read (`mapM`). It is
read to its end exactly if each item is (`mapM_ok_iff`).
-/

set_option autoImplicit false

namespace Lists

variable {α β : Type} {R : α → β → Prop} {l : List α} {l' : List β}

theorem exists_of_forall₂ (hold : List.Forall₂ R l l') {a : α} (member : a ∈ l) :
    ∃ b ∈ l', R a b := by
  induction hold with
  | nil => cases member
  | cons first _ ih =>
      rcases List.mem_cons.mp member with rfl | later
      · exact ⟨_, List.mem_cons_self, first⟩
      · obtain ⟨b, member, holds⟩ := ih later
        exact ⟨b, List.mem_cons_of_mem _ member, holds⟩

theorem exists_forall₂ (each : ∀ a ∈ l, ∃ b, R a b) : ∃ l', List.Forall₂ R l l' := by
  induction l with
  | nil => exact ⟨[], .nil⟩
  | cons a rest ih =>
      obtain ⟨b, first⟩ := each a List.mem_cons_self
      obtain ⟨others, later⟩ := ih fun a member => each a (List.mem_cons_of_mem _ member)
      exact ⟨b :: others, .cons first later⟩

/-- A list is read to its end exactly if each of its items is read. -/
theorem mapM_ok_iff {ε : Type} {read : α → Except ε β} :
    l.mapM read = .ok l' ↔ List.Forall₂ (fun a b => read a = .ok b) l l' := by
  induction l generalizing l' with
  | nil =>
      rw [List.forall₂_nil_left_iff]
      exact ⟨fun same => (Except.ok.inj same).symm, fun same => by rw [same]; rfl⟩
  | cons id rest ih =>
      rw [List.mapM_cons, List.forall₂_cons_left_iff]
      constructor
      · intro same
        cases first : read id with
        | error error =>
            rw [first] at same
            cases same
        | ok invoice =>
            rw [first] at same
            cases later : rest.mapM read with
            | error error =>
                rw [later] at same
                cases same
            | ok others =>
                rw [later] at same
                cases same
                exact ⟨invoice, others, rfl, ih.mp later, rfl⟩
      · rintro ⟨invoice, others, first, later, rfl⟩
        rw [first, ih.mpr later]
        rfl

/-- What is known of each item that is read is known of the list. -/
theorem map_of_mapM {ε γ : Type} {read : α → Except ε β} {f : α → γ} {g : β → γ}
    (each : ∀ {a b}, read a = .ok b → g b = f a) (reads : l.mapM read = .ok l') :
    l'.map g = l.map f := by
  have hold := mapM_ok_iff.mp reads
  clear reads
  induction hold with
  | nil => rfl
  | cons first _ ih => rw [List.map_cons, List.map_cons, each first, ih]

end Lists
