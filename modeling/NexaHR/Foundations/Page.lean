import Mathlib.Data.List.DropRight
import Mathlib.Data.List.Perm.Subperm
import Mathlib.Data.List.Sort

/-! # Parts of a list

What `ORDER BY key LIMIT n` gives: the first `n` items in the order of a key, where items of one key
keep the order of the list. What such a query gives to a loop that skips some of the rows it was handed and
stops after enough of the others. What is left to see of a list whose last `n` items are shown as they are.

* `sortedBy key l`: the items in that order.
* `ahead key x l`: how many items of the list come before `x`.
* `mem_page_iff`: an item is on the page exactly when fewer than `n` come before it.
* `window p n m l`: the first `m` items with `p` among the first `n` items.
* `mem_window_iff`: an item is in the window by its own place and by the places with `p` before it.
* `countP_le_of_recent`: if the items of a kind are all among the last `n`, there are at most `n` of them.
* `le_countP_after`: an item before the last `n` has all of them after it.
-/

namespace NexaHR.Foundations

set_option autoImplicit false

/-! ## The first page -/

section

variable {α : Type}

def sortedBy (key : α → Nat) (l : List α) : List α := l.insertionSort fun a b => key a ≤ key b

theorem mem_sortedBy {key : α → Nat} {l : List α} {x : α} : x ∈ sortedBy key l ↔ x ∈ l :=
  List.mem_insertionSort _

theorem sorted_sortedBy (key : α → Nat) (l : List α) :
    (sortedBy key l).Pairwise fun a b => key a ≤ key b := by
  have : Std.Total fun a b : α => key a ≤ key b := ⟨fun a b => Nat.le_total (key a) (key b)⟩
  have : IsTrans α fun a b => key a ≤ key b := ⟨fun _ _ _ h h' => Nat.le_trans h h'⟩
  exact List.pairwise_insertionSort _ l

variable [DecidableEq α]

/-- The items with a smaller key, and those with the same key that stand before it in the list. -/
def ahead (key : α → Nat) (x : α) : List α → Nat
  | [] => 0
  | a :: l =>
    if a = x then l.countP fun b => key b < key x
    else ahead key x l + if key a ≤ key x then 1 else 0

section

variable {key : α → Nat} {a x : α} {l : List α}

/-- A new item lands after the smaller keys only. -/
theorem idxOf_orderedInsert_self (hsorted : l.Pairwise fun a b => key a ≤ key b) (ha : a ∉ l) :
    (l.orderedInsert (fun a b => key a ≤ key b) a).idxOf a = l.countP fun b => key b < key a := by
  induction l with
  | nil => simp
  | cons b l ih =>
    obtain ⟨hb, hsorted⟩ := List.pairwise_cons.mp hsorted
    simp only [List.mem_cons, not_or] at ha
    rw [List.orderedInsert_cons]
    by_cases hab : key a ≤ key b
    · have hnone : (b :: l).countP (fun b => key b < key a) = 0 := by
        rw [List.countP_eq_zero]
        intro c hc
        rw [decide_eq_true_eq]
        rcases List.mem_cons.mp hc with rfl | hc
        · omega
        · have hbc := hb c hc
          omega
      rw [if_pos hab, hnone, List.idxOf_cons_self]
    · rw [if_neg hab, List.idxOf_cons_ne _ (fun he => ha.1 he.symm), ih hsorted ha.2]
      rw [List.countP_cons_of_pos (by rw [decide_eq_true_eq]; omega)]

/-- It moves the items of its own and of larger keys. -/
theorem idxOf_orderedInsert_of_ne (hsorted : l.Pairwise fun a b => key a ≤ key b) (hx : x ∈ l)
    (hne : a ≠ x) :
    (l.orderedInsert (fun a b => key a ≤ key b) a).idxOf x =
      l.idxOf x + if key a ≤ key x then 1 else 0 := by
  induction l with
  | nil => cases hx
  | cons b l ih =>
    obtain ⟨hb, hsorted⟩ := List.pairwise_cons.mp hsorted
    rw [List.orderedInsert_cons]
    by_cases hab : key a ≤ key b
    · have hax : key a ≤ key x := by
        rcases List.mem_cons.mp hx with rfl | hx
        · exact hab
        · exact Nat.le_trans hab (hb x hx)
      rw [if_pos hab, if_pos hax, List.idxOf_cons_ne _ hne]
    · rw [if_neg hab]
      by_cases hbx : b = x
      · subst hbx
        rw [List.idxOf_cons_self, List.idxOf_cons_self, if_neg hab]
      · have hmem : x ∈ l := (List.mem_cons.mp hx).resolve_left fun he => hbx he.symm
        rw [List.idxOf_cons_ne _ hbx, List.idxOf_cons_ne _ hbx, ih hsorted hmem]
        omega

theorem idxOf_sortedBy (hnodup : l.Nodup) (hx : x ∈ l) : (sortedBy key l).idxOf x = ahead key x l := by
  induction l with
  | nil => cases hx
  | cons a l ih =>
    obtain ⟨ha, hnodup⟩ := List.nodup_cons.mp hnodup
    have hcons : sortedBy key (a :: l) =
        (sortedBy key l).orderedInsert (fun a b => key a ≤ key b) a := rfl
    rw [hcons, ahead]
    by_cases hax : a = x
    · subst hax
      rw [if_pos rfl, idxOf_orderedInsert_self (sorted_sortedBy key l) (fun h => ha (mem_sortedBy.mp h))]
      exact (List.perm_insertionSort _ l).countP_eq _
    · have hmem : x ∈ l := (List.mem_cons.mp hx).resolve_left fun he => hax he.symm
      rw [if_neg hax, idxOf_orderedInsert_of_ne (sorted_sortedBy key l) (mem_sortedBy.mpr hmem) hax,
        ih hnodup hmem]

theorem mem_page_iff {n : Nat} (hnodup : l.Nodup) :
    x ∈ (sortedBy key l).take n ↔ x ∈ l ∧ ahead key x l < n := by
  constructor
  · intro h
    have hx : x ∈ l := mem_sortedBy.mp (List.mem_of_mem_take h)
    rw [List.mem_take_iff_idxOf_lt (mem_sortedBy.mpr hx), idxOf_sortedBy hnodup hx] at h
    exact ⟨hx, h⟩
  · rintro ⟨hx, h⟩
    rw [List.mem_take_iff_idxOf_lt (mem_sortedBy.mpr hx), idxOf_sortedBy hnodup hx]
    exact h

end

end

/-! ## A filtered window -/

section

variable {α : Type} {p : α → Bool} {n m : Nat} {l : List α} {x : α}

def window (p : α → Bool) (n m : Nat) (l : List α) : List α := ((l.take n).filter p).take m

theorem window_sublist : (window p n m l).Sublist l :=
  ((List.take_sublist m _).trans List.filter_sublist).trans (List.take_sublist n l)

theorem window_cons_pos {a : α} (ha : p a = true) :
    window p (n + 1) (m + 1) (a :: l) = a :: window p n m l := by
  unfold window
  rw [List.take_succ_cons, List.filter_cons_of_pos ha, List.take_succ_cons]

theorem window_cons_neg {a : α} (ha : ¬p a = true) : window p (n + 1) m (a :: l) = window p n m l := by
  unfold window
  rw [List.take_succ_cons, List.filter_cons_of_neg ha]

theorem mem_window_iff :
    x ∈ window p n m l ↔
      ∃ i, l[i]? = some x ∧ i < n ∧ p x = true ∧ (l.take i).countP p < m := by
  induction l generalizing n m with
  | nil => simp [window]
  | cons a l ih =>
    cases n with
    | zero => simp [window]
    | succ n =>
      by_cases ha : p a = true
      · cases m with
        | zero => simp [window]
        | succ m =>
          rw [window_cons_pos ha, List.mem_cons, ih]
          constructor
          · rintro (rfl | ⟨i, hi, hn, hx, hm⟩)
            · exact ⟨0, rfl, Nat.succ_pos n, ha, Nat.succ_pos m⟩
            · refine ⟨i + 1, hi, by omega, hx, ?_⟩
              rw [List.take_succ_cons, List.countP_cons_of_pos ha]
              omega
          · rintro ⟨i, hi, hn, hx, hm⟩
            cases i with
            | zero => exact Or.inl (Option.some.inj hi).symm
            | succ i =>
              rw [List.take_succ_cons, List.countP_cons_of_pos ha] at hm
              exact Or.inr ⟨i, hi, by omega, hx, by omega⟩
      · rw [window_cons_neg ha, ih]
        constructor
        · rintro ⟨i, hi, hn, hx, hm⟩
          refine ⟨i + 1, hi, by omega, hx, ?_⟩
          rw [List.take_succ_cons, List.countP_cons_of_neg ha]
          exact hm
        · rintro ⟨i, hi, hn, hx, hm⟩
          cases i with
          | zero =>
            rw [← Option.some.inj hi] at hx
            exact absurd hx ha
          | succ i =>
            rw [List.take_succ_cons, List.countP_cons_of_neg ha] at hm
            exact ⟨i, hi, by omega, hx, hm⟩

end

/-! ## The last items -/

section

variable {α : Type} {n : Nat} {l : List α}

theorem length_rtake_le (n : Nat) (l : List α) : (l.rtake n).length ≤ n := by
  rw [List.rtake, List.length_drop]
  omega

theorem rtake_eq_self (h : l.length ≤ n) : l.rtake n = l := by
  rw [List.rtake, Nat.sub_eq_zero_of_le h]
  rfl

theorem countP_le_of_recent {p : α → Bool} (hnodup : l.Nodup) (h : ∀ x ∈ l, p x = true → x ∈ l.rtake n) :
    l.countP p ≤ n := by
  have hsub : l.filter p ⊆ l.rtake n := by
    intro x hx
    rw [List.mem_filter] at hx
    exact h x hx.1 hx.2
  rw [List.countP_eq_length_filter]
  exact (List.subperm_of_subset (hnodup.filter p) hsub).length_le.trans (length_rtake_le n l)

theorem le_countP_after {key : α → Nat} {x : α} (hsorted : l.Pairwise fun a b => key a < key b)
    (hx : x ∈ l.rdrop n) : n ≤ l.countP fun y => key x < key y := by
  have hlen : n < l.length := by
    have hpos := List.length_pos_of_mem hx
    rw [List.rdrop, List.length_take] at hpos
    omega
  have hsplit : l.rdrop n ++ l.rtake n = l := List.take_append_drop _ l
  have hlater : ∀ y ∈ l.rtake n, key x < key y := by
    rw [← hsplit, List.pairwise_append] at hsorted
    intro y hy
    exact hsorted.2.2 x hx y hy
  have hwindow : (l.rtake n).countP (fun y => key x < key y) = n := by
    rw [List.countP_eq_length.mpr fun y hy => decide_eq_true (hlater y hy), List.rtake, List.length_drop]
    omega
  calc n = (l.rtake n).countP fun y => key x < key y := hwindow.symm
    _ ≤ l.countP fun y => key x < key y := (List.drop_sublist _ l).countP_le

end

end NexaHR.Foundations
