import Mathlib.Data.List.Basic
import Mathlib.Order.Lattice
import Mathlib.Tactic.Common

/-! # The first page of a backlog

A backlog is worked off in pages of `n` items in the order of a key. Some items are done when their page comes, and
the others stay where they are.

* `Sorted key l`: the list is in the order of the key.
* `exists_doable_in_page`: a page of a backlog with few lasting items has an item that can be done.
* `lasting_ahead_lt`: a lasting item on such a page has few lasting items ahead of it.
* `countP_lt_of_mem_page`, `mem_page_of_countP_le`: the page of an item, from the number of items ahead of it.
-/

namespace NexaHR.Foundations

set_option autoImplicit false

variable {α β : Type} [LinearOrder β] {key : α → β} {l : List α} {doable : α → Bool} {x y : α} {n : Nat}

def Sorted (key : α → β) (l : List α) : Prop := l.Pairwise fun a b => key a ≤ key b

namespace Sorted

/-- What is on the page comes before what is not. -/
theorem page_le (h : Sorted key l) (hx : x ∈ l.take n) (hy : y ∈ l.drop n) : key x ≤ key y := by
  have happend : (l.take n ++ l.drop n).Pairwise fun a b => key a ≤ key b := by
    rw [List.take_append_drop]
    exact h
  exact (List.pairwise_append.mp happend).2.2 x hx y hy

theorem length_page_of_mem_drop (hy : y ∈ l.drop n) : (l.take n).length = n := by
  have hpos := List.length_pos_of_mem hy
  rw [List.length_drop] at hpos
  rw [List.length_take]
  omega

theorem mem_page_or (hx : x ∈ l) : x ∈ l.take n ∨ x ∈ l.drop n := by
  rw [← List.mem_append, List.take_append_drop]
  exact hx

theorem countP_page_le (p : α → Bool) : (l.take n).countP p ≤ l.countP p :=
  (List.take_sublist n l).countP_le

/-- Where fewer than a page of lasting items are not behind an item that can be done, some item of the page can. -/
theorem exists_doable_in_page (h : Sorted key l) (hx : x ∈ l) (hdoable : doable x = true)
    (hfew : (l.countP fun y => !doable y && decide (key y ≤ key x)) < n) : ∃ y ∈ l.take n, doable y = true := by
  by_contra hnone
  push Not at hnone
  have hdrop : x ∈ l.drop n := by
    rcases mem_page_or (n := n) hx with hpage | hdrop
    · exact absurd hdoable (hnone x hpage)
    · exact hdrop
  have hall : (l.take n).countP (fun y => !doable y && decide (key y ≤ key x)) = (l.take n).length := by
    rw [List.countP_eq_length]
    intro y hy
    have hlasting := hnone y hy
    have hle := h.page_le hy hdrop
    simp [hlasting, hle]
  have hpage := @countP_page_le α l n fun y => !doable y && decide (key y ≤ key x)
  rw [hall, length_page_of_mem_drop hdrop] at hpage
  omega

/-- A lasting item shares its page with one that can be done only if fewer than a page less one are ahead of it. -/
theorem lasting_ahead_lt (h : Sorted key l) (hx : x ∈ l.take n) (hdoable : doable x = true) (hy : y ∈ l.take n)
    (hlasting : doable y = false) : (l.countP fun z => !doable z && decide (key z < key y)) + 1 < n := by
  have hahead : (l.countP fun z => !doable z && decide (key z < key y)) =
      (l.take n).countP fun z => !doable z && decide (key z < key y) := by
    conv_lhs => rw [← List.take_append_drop n l]
    rw [List.countP_append, Nat.add_eq_left, List.countP_eq_zero]
    intro z hz
    have hle := h.page_le hy hz
    simp [not_lt.mpr hle]
  have hcount : (l.take n).countP (fun z => !doable z && decide (key z < key y)) <
      (l.take n).countP fun z => !doable z := by
    obtain ⟨before, after, hsplit⟩ := List.append_of_mem hy
    rw [hsplit, List.countP_append, List.countP_append, List.countP_cons_of_neg (by simp),
      List.countP_cons_of_pos (by simp [hlasting])]
    have hbefore : before.countP (fun z => !doable z && decide (key z < key y)) ≤ before.countP fun z => !doable z :=
      List.countP_mono_left fun z _ hz => (Bool.and_eq_true _ _ ▸ hz).1
    have hafter : after.countP (fun z => !doable z && decide (key z < key y)) ≤ after.countP fun z => !doable z :=
      List.countP_mono_left fun z _ hz => (Bool.and_eq_true _ _ ▸ hz).1
    omega
  have hpos : 0 < (l.take n).countP doable := List.countP_pos_iff.mpr ⟨x, hx, hdoable⟩
  have hsum : (l.take n).length = (l.take n).countP doable + (l.take n).countP fun z => !doable z := by
    rw [List.length_eq_countP_add_countP doable]
    congr 2
    funext z
    cases doable z <;> rfl
  have hlength := List.length_take_le n l
  omega

/-- Fewer than a page of items are ahead of an item of the page. -/
theorem countP_lt_of_mem_page (h : Sorted key l) (hx : x ∈ l.take n) :
    (l.countP fun z => decide (key z < key x)) < n := by
  have hahead : (l.countP fun z => decide (key z < key x)) = (l.take n).countP fun z => decide (key z < key x) := by
    conv_lhs => rw [← List.take_append_drop n l]
    rw [List.countP_append, Nat.add_eq_left, List.countP_eq_zero]
    intro z hz
    have hle := h.page_le hx hz
    simp [not_lt.mpr hle]
  have hlt : (l.take n).countP (fun z => decide (key z < key x)) < (l.take n).length := by
    obtain ⟨before, after, hsplit⟩ := List.append_of_mem hx
    rw [hsplit, List.countP_append, List.countP_cons_of_neg (by simp), List.length_append, List.length_cons]
    have hbefore := @List.countP_le_length α (fun z => decide (key z < key x)) before
    have hafter := @List.countP_le_length α (fun z => decide (key z < key x)) after
    omega
  have hlength := List.length_take_le n l
  omega

/-- An item that at most a page of items do not come after, itself among them, is on the page. -/
theorem mem_page_of_countP_le (h : Sorted key l) (hx : x ∈ l)
    (hfew : (l.countP fun z => decide (key z ≤ key x)) ≤ n) : x ∈ l.take n := by
  rcases mem_page_or (n := n) hx with hpage | hdrop
  · exact hpage
  · have hpage : (l.take n).countP (fun z => decide (key z ≤ key x)) = (l.take n).length := by
      rw [List.countP_eq_length]
      intro y hy
      have hle := h.page_le hy hdrop
      simp [hle]
    have hrest : 0 < (l.drop n).countP fun z => decide (key z ≤ key x) :=
      List.countP_pos_iff.mpr ⟨x, hdrop, by simp⟩
    rw [← List.take_append_drop n l, List.countP_append, hpage, length_page_of_mem_drop hdrop] at hfew
    omega

end Sorted

end NexaHR.Foundations
