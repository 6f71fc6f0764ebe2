import Mathlib.Data.List.DropRight
import Mathlib.Data.List.Infix
import Mathlib.Tactic.Common

/-! # Trimming a sequence at both ends, and cutting it at a mark

* `trim p l`: `l` without what `p` holds of at its two ends. `Trimmed p l`: there is nothing of it.
* `trim_eq_self_iff`, `trimmed_trim`, `trim_pads`, `filter_trim`: what trimming leaves alone, and what it gives.
* `cut? mark l`: what stands before the first occurrence of `mark`, and what after it.
-/

namespace NexaHR.Foundations

set_option autoImplicit false

section

variable {α : Type} {p q : α → Bool}

/-! ## Trimming -/

def trim (p : α → Bool) (l : List α) : List α := (l.dropWhile p).rdropWhile p

structure Trimmed (p : α → Bool) (l : List α) : Prop where
  first : l.dropWhile p = l
  last : l.rdropWhile p = l

theorem trimmed_cons {a : α} {l : List α} (h : Trimmed p (a :: l)) : p a = false := by
  have hfirst := List.dropWhile_eq_self_iff.mp h.first (Nat.zero_lt_succ _)
  simpa using hfirst

/-- What is left of a sequence that starts well starts well. -/
theorem dropWhile_of_prefix {l m : List α} (hm : m <+: l) (hl : l.dropWhile p = l) :
    m.dropWhile p = m := by
  obtain ⟨rest, rfl⟩ := hm
  rw [List.dropWhile_eq_self_iff] at hl ⊢
  intro hpos
  have hfails := hl (by rw [List.length_append]; omega)
  rwa [List.getElem_append_left hpos] at hfails

theorem trimmed_trim (l : List α) : Trimmed p (trim p l) where
  first := dropWhile_of_prefix (List.rdropWhile_prefix p _) (List.dropWhile_idempotent p l)
  last := List.rdropWhile_idempotent p _

theorem trim_eq_self_iff {l : List α} : trim p l = l ↔ Trimmed p l := by
  constructor
  · intro h
    rw [← h]
    exact trimmed_trim l
  · intro h
    unfold trim
    rw [h.first, h.last]

@[simp] theorem trim_trim (l : List α) : trim p (trim p l) = trim p l :=
  trim_eq_self_iff.mpr (trimmed_trim l)

theorem trim_eq_nil_iff {l : List α} : trim p l = [] ↔ ∀ a ∈ l, p a = true := by
  unfold trim
  rw [List.rdropWhile_eq_nil_iff]
  constructor
  · intro h
    have hnone : (l.dropWhile p).dropWhile p = [] := List.dropWhile_eq_nil_iff.mpr h
    rw [List.dropWhile_idempotent] at hnone
    exact List.dropWhile_eq_nil_iff.mp hnone
  · intro h a ha
    exact h a ((List.dropWhile_suffix p).subset ha)

/-- What trimming takes off at the two ends. -/
theorem trim_parts (p : α → Bool) (l : List α) :
    ∃ before after, l = before ++ (trim p l ++ after) ∧ (∀ a ∈ before, p a = true) ∧ ∀ a ∈ after, p a = true := by
  refine ⟨l.takeWhile p, (l.dropWhile p).rtakeWhile p, ?_, fun a ha => List.mem_takeWhile_imp ha,
    fun a ha => List.mem_rtakeWhile_imp ha⟩
  unfold trim
  rw [List.rdropWhile_append_rtakeWhile, List.takeWhile_append_dropWhile]

/-- Trimming gives a part of the sequence. -/
theorem trim_part (l : List α) : trim p l <:+: l :=
  (List.rdropWhile_prefix p _).isInfix.trans (List.dropWhile_suffix p).isInfix

theorem Trimmed.map {f : α → α} (hf : ∀ a, p (f a) = p a) {l : List α} (h : Trimmed p l) :
    Trimmed p (l.map f) where
  first := by
    rw [List.dropWhile_eq_self_iff]
    intro hpos
    rw [List.getElem_map, hf]
    exact List.dropWhile_eq_self_iff.mp h.first (by rwa [List.length_map] at hpos)
  last := by
    rw [List.rdropWhile_eq_self_iff]
    intro hne
    rw [List.getLast_map, hf]
    exact List.rdropWhile_eq_self_iff.mp h.last (by simpa using hne)

/-- Two trimmed parts are trimmed together, whatever stands between them. -/
theorem Trimmed.append {l r : List α} (hl : Trimmed p l) (hr : Trimmed p r) (hlne : l ≠ [])
    (hrne : r ≠ []) (m : List α) : Trimmed p (l ++ (m ++ r)) where
  first := by
    have hpos := List.length_pos_of_ne_nil hlne
    rw [List.dropWhile_eq_self_iff]
    intro _
    rw [List.getElem_append_left hpos]
    exact List.dropWhile_eq_self_iff.mp hl.first hpos
  last := by
    rw [List.rdropWhile_eq_self_iff]
    intro _
    rw [List.getLast_append_of_ne_nil _ (by simp [hrne]), List.getLast_append_of_ne_nil _ hrne]
    exact List.rdropWhile_eq_self_iff.mp hr.last hrne

theorem filter_dropWhile (l : List α) : (l.dropWhile p).filter (fun a => !p a) = l.filter fun a => !p a := by
  induction l with
  | nil => rfl
  | cons a l ih =>
    cases ha : p a with
    | true => rw [List.dropWhile_cons_of_pos ha, ih, List.filter_cons_of_neg (by simp [ha])]
    | false => rw [List.dropWhile_cons_of_neg (by simp [ha])]

theorem filter_rdropWhile (l : List α) : (l.rdropWhile p).filter (fun a => !p a) = l.filter fun a => !p a := by
  unfold List.rdropWhile
  rw [List.filter_reverse, filter_dropWhile, List.filter_reverse, List.reverse_reverse]

/-- What trimming leaves has all that `p` does not hold of. -/
theorem filter_trim (l : List α) : (trim p l).filter (fun a => !p a) = l.filter fun a => !p a := by
  unfold trim
  rw [filter_rdropWhile, filter_dropWhile]

theorem countP_trim (l : List α) : (trim p l).countP (fun a => !p a) = l.countP fun a => !p a := by
  rw [List.countP_eq_length_filter, filter_trim, List.countP_eq_length_filter]

/-- Padding on either side is what trimming takes off. -/
theorem trim_pads {l before after : List α} (h : Trimmed p l) (hne : l ≠ [])
    (hbefore : ∀ a ∈ before, p a = true) (hafter : ∀ a ∈ after, p a = true) :
    trim p (before ++ (l ++ after)) = l := by
  have hfront : (l ++ after).dropWhile p = l ++ after := by
    have hpos := List.length_pos_of_ne_nil hne
    rw [List.dropWhile_eq_self_iff]
    intro _
    rw [List.getElem_append_left hpos]
    exact List.dropWhile_eq_self_iff.mp h.first hpos
  have hback : (after.reverse ++ l.reverse).dropWhile p = l.reverse.dropWhile p :=
    List.dropWhile_append_of_pos fun a ha => hafter a (List.mem_reverse.mp ha)
  unfold trim
  rw [List.dropWhile_append_of_pos hbefore, hfront]
  unfold List.rdropWhile
  rw [List.reverse_append, hback]
  exact h.last

end

/-! ## Cutting -/

section

variable {α : Type} [DecidableEq α] {mark : List α}

/-- What stands before the first occurrence of the mark, and what after it. -/
def cut? (mark : List α) : List α → Option (List α × List α)
  | [] => none
  | a :: l =>
    if mark.isPrefixOf (a :: l) then some ([], (a :: l).drop mark.length)
    else (cut? mark l).map fun parts => (a :: parts.1, parts.2)

end

end NexaHR.Foundations
