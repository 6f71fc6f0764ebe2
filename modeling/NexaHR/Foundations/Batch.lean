import Mathlib.Data.List.Basic
import Mathlib.Tactic.Common

/-! # Batches

The items of a batch are worked into a state one after the other. Each adds things of its own, and none takes
anything away.

* `Adds step Has By`: a step keeps what the state has, and what is new was added by the item of the step.
* `Adds.of_mem_batch`: what a batch adds was added by one of its items.
* `Adds.mem_batch`: what an item adds is there in the end, and was not there before.
-/

namespace NexaHR.Foundations

set_option autoImplicit false

variable {σ α β : Type} {step : σ → α → σ} {Has : σ → β → Prop} {By : σ → α → β → Prop}

/-- `By s a x` says that the thing `x` of the state `s` is one that the item `a` adds. -/
structure Adds (step : σ → α → σ) (Has : σ → β → Prop) (By : σ → α → β → Prop) : Prop where
  keeps : ∀ s a x, Has s x → Has (step s a) x
  new : ∀ s a x, Has (step s a) x → Has s x ∨ By (step s a) a x
  lasts : ∀ s a b x, By s b x → By (step s a) b x

namespace Adds

variable {s : σ} {a : α} {x : β} {items : List α}

theorem keeps_batch (h : Adds step Has By) (hx : Has s x) : Has (items.foldl step s) x := by
  induction items generalizing s with
  | nil => exact hx
  | cons a items ih => exact ih (h.keeps s a x hx)

theorem lasts_batch (h : Adds step Has By) (hx : By s a x) : By (items.foldl step s) a x := by
  induction items generalizing s with
  | nil => exact hx
  | cons b items ih => exact ih (h.lasts s b a x hx)

theorem of_mem_batch (h : Adds step Has By) (hx : Has (items.foldl step s) x) :
    Has s x ∨ ∃ a ∈ items, By (items.foldl step s) a x := by
  induction items generalizing s with
  | nil => exact Or.inl hx
  | cons a items ih =>
    rw [List.foldl_cons] at hx ⊢
    rcases ih hx with hold | ⟨b, hb, hby⟩
    · rcases h.new s a x hold with hold | hby
      · exact Or.inl hold
      · exact Or.inr ⟨a, List.mem_cons_self, h.lasts_batch hby⟩
    · exact Or.inr ⟨b, List.mem_cons_of_mem _ hb, hby⟩

/-- An item that adds something wherever its turn comes. -/
theorem mem_batch (h : Adds step Has By) (hadds : ∀ s, ∃ x, ¬ Has s x ∧ Has (step s a) x ∧ By (step s a) a x)
    (ha : a ∈ items) : ∃ x, ¬ Has s x ∧ Has (items.foldl step s) x ∧ By (items.foldl step s) a x := by
  induction items generalizing s with
  | nil => cases ha
  | cons b items ih =>
    rw [List.foldl_cons]
    rcases List.mem_cons.mp ha with rfl | ha
    · obtain ⟨x, hfresh, hthere, hby⟩ := hadds s
      exact ⟨x, hfresh, h.keeps_batch hthere, h.lasts_batch hby⟩
    · obtain ⟨x, hfresh, hthere, hby⟩ := @ih (step s b) ha
      exact ⟨x, fun hold => hfresh (h.keeps s b x hold), hthere, hby⟩

end Adds

end NexaHR.Foundations
