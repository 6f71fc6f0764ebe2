import Mathlib.Data.List.Forall2

/-! # Two lists, place by place

Two states of one list whose items are related place by place: what a query gives in both, where the relation
leaves what the query reads.

* `right_of_forall₂`, `left_of_forall₂`: the item at the same place.
* `map_eq_of_forall₂`, `any_eq_of_forall₂`: the query reads what the relation keeps.
* `filter_eq_of_forall₂`: the query keeps no item that the relation may change.
* `find?_of_forall₂`: the first hit is at the same place.
-/

namespace NexaHR.Foundations

set_option autoImplicit false

section

variable {α β γ : Type} {R : α → β → Prop} {l : List α} {l' : List β}

theorem right_of_forall₂ (h : List.Forall₂ R l l') {a : α} (ha : a ∈ l) : ∃ b ∈ l', R a b := by
  induction h with
  | nil => cases ha
  | @cons a' b l l' hab _ ih =>
    rcases List.mem_cons.mp ha with rfl | ha
    · exact ⟨b, List.mem_cons_self, hab⟩
    · obtain ⟨b', hb', hab'⟩ := ih ha
      exact ⟨b', List.mem_cons_of_mem _ hb', hab'⟩

theorem left_of_forall₂ (h : List.Forall₂ R l l') {b : β} (hb : b ∈ l') : ∃ a ∈ l, R a b :=
  right_of_forall₂ h.flip hb

theorem map_eq_map_of_forall₂ {f : α → γ} {g : β → γ} (h : List.Forall₂ R l l')
    (hfg : ∀ a b, R a b → g b = f a) : l'.map g = l.map f := by
  induction h with
  | nil => rfl
  | cons hab _ ih => rw [List.map_cons, List.map_cons, hfg _ _ hab, ih]

end

section

variable {α β : Type} {R : α → α → Prop} {l l' : List α} {p : α → Bool}

theorem map_eq_of_forall₂ {f : α → β} (h : List.Forall₂ R l l') (hf : ∀ a b, R a b → f b = f a) :
    l'.map f = l.map f :=
  map_eq_map_of_forall₂ h hf

theorem any_eq_of_forall₂ (h : List.Forall₂ R l l') (hp : ∀ a b, R a b → p b = p a) :
    l'.any p = l.any p := by
  induction h with
  | nil => rfl
  | cons hab _ ih => rw [List.any_cons, List.any_cons, hp _ _ hab, ih]

theorem filter_eq_of_forall₂ (h : List.Forall₂ R l l') (hp : ∀ a b, R a b → p b = p a)
    (hkept : ∀ a ∈ l, ∀ b, R a b → p a = true → b = a) : l'.filter p = l.filter p := by
  induction h with
  | nil => rfl
  | @cons a b l l' hab _ ih =>
    have htail := ih fun a ha => hkept a (List.mem_cons_of_mem _ ha)
    by_cases ha : p a = true
    · rw [hkept a List.mem_cons_self b hab ha, List.filter_cons_of_pos ha, List.filter_cons_of_pos ha, htail]
    · have hb : ¬ p b = true := by
        rw [hp a b hab]
        exact ha
      rw [List.filter_cons_of_neg ha, List.filter_cons_of_neg hb, htail]

theorem find?_of_forall₂ (h : List.Forall₂ R l l') (hp : ∀ a b, R a b → p b = p a) :
    Option.Rel R (l.find? p) (l'.find? p) := by
  induction h with
  | nil => exact Option.Rel.none
  | @cons a b l l' hab _ ih =>
    by_cases ha : p a = true
    · have hb : p b = true := (hp a b hab).trans ha
      rw [List.find?_cons_of_pos ha, List.find?_cons_of_pos hb]
      exact Option.Rel.some hab
    · have hb : ¬ p b = true := by
        rw [hp a b hab]
        exact ha
      rw [List.find?_cons_of_neg ha, List.find?_cons_of_neg hb]
      exact ih

end

end NexaHR.Foundations
