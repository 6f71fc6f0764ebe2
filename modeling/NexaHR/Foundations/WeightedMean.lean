import Mathlib.Algebra.BigOperators.Group.List.Basic
import Mathlib.Algebra.Order.Field.Basic
import Mathlib.Algebra.Order.BigOperators.Group.List
import Mathlib.Tactic.Linarith
import Mathlib.Tactic.Ring

/-! # Weighted means

The mean of a list of values with their weights, 0 where the weights are 0 in total.

* `weightedMean_nonneg`, `weightedMean_le`, `weightedMean_const`: where it lies.
* `weightedMean_mono`: it rises with every value.
-/

namespace NexaHR.Foundations

set_option autoImplicit false

variable {K : Type*} [Field K]

/-- The mean of the first components, each with its second component as weight. -/
def weightedMean (rows : List (K × K)) : K :=
  (rows.map fun row => row.1 * row.2).sum / (rows.map Prod.snd).sum

theorem weightedSum_const {rows : List (K × K)} {c : K} (h : ∀ row ∈ rows, row.1 = c) :
    (rows.map fun row => row.1 * row.2).sum = c * (rows.map Prod.snd).sum := by
  induction rows with
  | nil => simp
  | cons row rows ih =>
    have hrow := h row List.mem_cons_self
    have hrest := ih fun other hother => h other (List.mem_cons_of_mem row hother)
    simp only [List.map_cons, List.sum_cons]
    rw [hrow, hrest, mul_add]

theorem weightedMean_const {rows : List (K × K)} {c : K} (h : ∀ row ∈ rows, row.1 = c)
    (hsum : (rows.map Prod.snd).sum ≠ 0) : weightedMean rows = c := by
  unfold weightedMean
  rw [weightedSum_const h, mul_div_cancel_right₀ c hsum]

section

variable [LinearOrder K] [IsStrictOrderedRing K] {rows rows' : List (K × K)} {bound : K}

theorem weights_nonneg (h : ∀ row ∈ rows, 0 ≤ row.2) : 0 ≤ (rows.map Prod.snd).sum := by
  apply List.sum_nonneg
  intro weight hweight
  obtain ⟨row, hrow, rfl⟩ := List.mem_map.mp hweight
  exact h row hrow

theorem weightedSum_nonneg (h : ∀ row ∈ rows, 0 ≤ row.1 ∧ 0 ≤ row.2) :
    0 ≤ (rows.map fun row => row.1 * row.2).sum := by
  apply List.sum_nonneg
  intro part hpart
  obtain ⟨row, hrow, rfl⟩ := List.mem_map.mp hpart
  exact mul_nonneg (h row hrow).1 (h row hrow).2

theorem weightedMean_nonneg (h : ∀ row ∈ rows, 0 ≤ row.1 ∧ 0 ≤ row.2) : 0 ≤ weightedMean rows :=
  div_nonneg (weightedSum_nonneg h) (weights_nonneg fun row hrow => (h row hrow).2)

theorem weightedSum_le (h : ∀ row ∈ rows, row.1 ≤ bound ∧ 0 ≤ row.2) :
    (rows.map fun row => row.1 * row.2).sum ≤ bound * (rows.map Prod.snd).sum := by
  induction rows with
  | nil => simp
  | cons row rows ih =>
    have hrow := h row List.mem_cons_self
    have hrest := ih fun other hother => h other (List.mem_cons_of_mem row hother)
    have hpart := mul_le_mul_of_nonneg_right hrow.1 hrow.2
    simp only [List.map_cons, List.sum_cons]
    rw [mul_add]
    exact add_le_add hpart hrest

theorem weightedMean_le (hbound : 0 ≤ bound) (h : ∀ row ∈ rows, row.1 ≤ bound ∧ 0 ≤ row.2) :
    weightedMean rows ≤ bound :=
  div_le_of_le_mul₀ (weights_nonneg fun row hrow => (h row hrow).2) hbound (weightedSum_le h)

/-- A value that does not fall, with its weight. -/
def Raised (row row' : K × K) : Prop := row.1 ≤ row'.1 ∧ row.2 = row'.2 ∧ 0 ≤ row.2

theorem raised_weights (h : List.Forall₂ Raised rows rows') :
    (rows.map Prod.snd).sum = (rows'.map Prod.snd).sum ∧ 0 ≤ (rows.map Prod.snd).sum := by
  induction h with
  | nil => simp
  | cons hrow hrest ih =>
    obtain ⟨hsame, hnonneg⟩ := ih
    simp only [List.map_cons, List.sum_cons]
    exact ⟨by rw [hrow.2.1, hsame], add_nonneg hrow.2.2 hnonneg⟩

theorem raised_weightedSum (h : List.Forall₂ Raised rows rows') :
    (rows.map fun row => row.1 * row.2).sum ≤ (rows'.map fun row => row.1 * row.2).sum := by
  induction h with
  | nil => simp
  | cons hrow hrest ih =>
    have hpart := mul_le_mul_of_nonneg_right hrow.1 hrow.2.2
    simp only [List.map_cons, List.sum_cons]
    rw [← hrow.2.1]
    exact add_le_add hpart ih

theorem weightedMean_mono (h : List.Forall₂ Raised rows rows') : weightedMean rows ≤ weightedMean rows' := by
  obtain ⟨hsame, hnonneg⟩ := raised_weights h
  unfold weightedMean
  rw [← hsame]
  exact div_le_div_of_nonneg_right (raised_weightedSum h) hnonneg

end

end NexaHR.Foundations
