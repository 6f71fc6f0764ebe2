import Mathlib.Algebra.Order.Ring.Int
import Mathlib.Tactic.Common

/-! # Numbers that follow a successor

Things with a successor are numbered, the successor by the next number. Then every number from the first one on
is in use, and whoever finds a thing by its number counts the numbers like the things.

* `Numbering`: the successor, the numbers, and the things they are for.
* `Numbering.exists_number`: every number is in use.
* `Numbering.Reads`, `Numbering.Reads.number`, `Numbering.Reads.next`: finding a thing by its number.
-/

namespace NexaHR.Foundations

set_option autoImplicit false

structure Numbering (α : Type) where
  Valid : α → Prop
  next : α → α
  number : α → ℤ
  next_valid : ∀ a, Valid a → Valid (next a)
  number_next : ∀ a, Valid a → number (next a) = number a + 1

namespace Numbering

variable {α : Type} (s : Numbering α)

theorem exists_number {first : α} (hfirst : s.Valid first) {n : ℤ} (hn : s.number first ≤ n) :
    ∃ a, s.Valid a ∧ s.number a = n := by
  induction n, hn using Int.leInduction with
  | base => exact ⟨first, hfirst, rfl⟩
  | succ n _ ih =>
    obtain ⟨a, ha, hnumber⟩ := ih
    refine ⟨s.next a, s.next_valid a ha, ?_⟩
    rw [s.number_next a ha, hnumber]

/-- `read` finds a thing by its number. -/
def Reads (read : ℤ → α) : Prop := ∀ a, s.Valid a → read (s.number a) = a

variable {s} {read : ℤ → α} {first : α} {n : ℤ}

theorem Reads.valid (h : s.Reads read) (hfirst : s.Valid first) (hn : s.number first ≤ n) : s.Valid (read n) := by
  obtain ⟨a, ha, rfl⟩ := s.exists_number hfirst hn
  rw [h a ha]
  exact ha

theorem Reads.number (h : s.Reads read) (hfirst : s.Valid first) (hn : s.number first ≤ n) :
    s.number (read n) = n := by
  obtain ⟨a, ha, rfl⟩ := s.exists_number hfirst hn
  rw [h a ha]

theorem Reads.next (h : s.Reads read) (hfirst : s.Valid first) (hn : s.number first ≤ n) :
    read (n + 1) = s.next (read n) := by
  obtain ⟨a, ha, rfl⟩ := s.exists_number hfirst hn
  rw [h a ha, ← s.number_next a ha]
  exact h _ (s.next_valid a ha)

end Numbering

end NexaHR.Foundations
