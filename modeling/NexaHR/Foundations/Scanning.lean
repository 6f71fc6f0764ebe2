import Mathlib.Data.List.Basic
import Mathlib.Tactic.Common

/-! # Cutting a sequence at the matches of a pattern

The matches are looked for from left to right, and the search goes on behind each. Removing them leaves the plain
letters.

* `Pattern`: what begins a sequence, and what follows it.
* `Pattern.pieces l`: the plain letters of `l` and the matches, in order.
* `Pattern.pieces_whole`: nothing of the sequence is lost.
* `Pattern.mem_pieces_found`: each match is one of the pattern.
* `FirstAt p b`: a search from left to right finds `b`. `firstAt_or`, `firstAt_nothing`.
-/

namespace NexaHR.Foundations

set_option autoImplicit false

variable {α β : Type}

/-- A match is never empty. -/
structure Pattern (α β : Type) where
  find? : List α → Option (β × List α)
  consumes : ∀ l b rest, find? l = some (b, rest) → ∃ whole, whole ≠ [] ∧ l = whole ++ rest

inductive Piece (α β : Type)
  | plain (a : α)
  | found (whole : List α) (b : β)

namespace Piece

def whole : Piece α β → List α
  | plain a => [a]
  | found whole _ => whole

def plain? : Piece α β → Option α
  | plain a => some a
  | found _ _ => none

def found? : Piece α β → Option β
  | plain _ => none
  | found _ b => some b

variable (a : α) (whole : List α) (b : β) (pieces : List (Piece α β))

@[simp] theorem filterMap_plain?_plain :
    (plain a :: pieces).filterMap plain? = a :: pieces.filterMap plain? := rfl

@[simp] theorem filterMap_plain?_found :
    (found whole b :: pieces).filterMap plain? = pieces.filterMap plain? := rfl

@[simp] theorem filterMap_found?_plain :
    (plain a :: pieces).filterMap found? = pieces.filterMap found? := rfl

@[simp] theorem filterMap_found?_found :
    (found whole b :: pieces).filterMap found? = b :: pieces.filterMap found? := rfl

end Piece

namespace Pattern

variable {m : Pattern α β} {l whole rest : List α} {b : β}

def scan (m : Pattern α β) : Nat → List α → List (Piece α β)
  | 0, _ => []
  | _ + 1, [] => []
  | n + 1, a :: l =>
    match m.find? (a :: l) with
    | some (b, rest) => .found ((a :: l).take ((a :: l).length - rest.length)) b :: scan m n rest
    | none => .plain a :: scan m n l

def pieces (m : Pattern α β) (l : List α) : List (Piece α β) := m.scan l.length l

theorem take_of_append (whole rest : List α) : (whole ++ rest).take ((whole ++ rest).length - rest.length) = whole := by
  rw [List.length_append, Nat.add_sub_cancel, List.take_left]

theorem scan_whole (m : Pattern α β) (n : Nat) (hl : l.length ≤ n) : (m.scan n l).flatMap Piece.whole = l := by
  induction n generalizing l with
  | zero => rw [List.length_eq_zero_iff.mp (Nat.le_zero.mp hl), scan, List.flatMap_nil]
  | succ n ih =>
    cases l with
    | nil => rfl
    | cons a l =>
      rw [scan]
      split
      · next b rest hfind =>
        obtain ⟨whole, hne, heq⟩ := m.consumes _ _ _ hfind
        have hpos := List.length_pos_of_ne_nil hne
        have hlength := congrArg List.length heq
        rw [List.length_append] at hlength
        rw [heq, take_of_append, List.flatMap_cons, ih (by omega)]
        rfl
      · rw [List.length_cons] at hl
        rw [List.flatMap_cons, ih (by omega)]
        rfl

theorem pieces_whole (m : Pattern α β) (l : List α) : (m.pieces l).flatMap Piece.whole = l :=
  m.scan_whole l.length (Nat.le_refl _)

theorem mem_scan_found (n : Nat) (h : .found whole b ∈ m.scan n l) :
    ∃ rest, m.find? (whole ++ rest) = some (b, rest) := by
  induction n generalizing l with
  | zero => cases h
  | succ n ih =>
    cases l with
    | nil => cases h
    | cons a l =>
      rw [scan] at h
      split at h
      · next b' rest hfind =>
        rcases List.mem_cons.mp h with heq | hlater
        · obtain ⟨whole', -, hsplit⟩ := m.consumes _ _ _ hfind
          rw [hsplit] at hfind heq
          rw [take_of_append] at heq
          cases heq
          exact ⟨rest, hfind⟩
        · exact ih hlater
      · rcases List.mem_cons.mp h with heq | hlater
        · cases heq
        · exact ih hlater

theorem mem_pieces_found (h : .found whole b ∈ m.pieces l) : ∃ rest, m.find? (whole ++ rest) = some (b, rest) :=
  mem_scan_found _ h

end Pattern

/-! ## The first place -/

/-- At the first place where anything is found, it is `b`. -/
def FirstAt (p : Nat → β → Prop) (b : β) : Prop := ∃ i, p i b ∧ ∀ j < i, ∀ b', ¬p j b'

variable {p : Nat → β → Prop} {b : β}

theorem firstAt_cons : FirstAt p b ↔ p 0 b ∨ (∀ b', ¬p 0 b') ∧ FirstAt (fun i => p (i + 1)) b := by
  constructor
  · intro h
    obtain ⟨i, hi, hbefore⟩ := h
    cases i with
    | zero => exact .inl hi
    | succ i => exact .inr ⟨hbefore 0 (Nat.succ_pos i), i, hi, fun j hj => hbefore (j + 1) (Nat.succ_lt_succ hj)⟩
  · intro h
    cases h with
    | inl h => exact ⟨0, h, fun j hj => absurd hj (Nat.not_lt_zero j)⟩
    | inr h =>
      obtain ⟨hnone, i, hi, hbefore⟩ := h
      refine ⟨i + 1, hi, ?_⟩
      intro j hj
      cases j with
      | zero => exact hnone
      | succ j => exact hbefore j (Nat.lt_of_succ_lt_succ hj)

/-- A search that tries the first place and goes on behind it. -/
theorem firstAt_or {x y : Option β} (hx : ∀ b, x = some b ↔ p 0 b)
    (hy : ∀ b, y = some b ↔ FirstAt (fun i => p (i + 1)) b) (b : β) : x.or y = some b ↔ FirstAt p b := by
  rw [firstAt_cons, ← hx b, ← hy b]
  cases x with
  | none =>
    have hnone : ∀ b', ¬p 0 b' := fun b' h => nomatch (hx b').mpr h
    rw [Option.none_or]
    exact ⟨fun h => .inr ⟨hnone, h⟩, fun h => (h.resolve_left nofun).2⟩
  | some b' =>
    rw [Option.some_or]
    exact ⟨.inl, fun h => h.resolve_right fun hlater => hlater.1 b' ((hx b').mp rfl)⟩

theorem firstAt_nothing : (∀ b, ¬FirstAt p b) ↔ ∀ i b, ¬p i b := by
  constructor
  · intro h i
    induction i using Nat.strongRecOn with
    | ind i ih => exact fun b hb => h b ⟨i, hb, ih⟩
  · intro h b hfirst
    obtain ⟨i, hi, -⟩ := hfirst
    exact h i b hi

end NexaHR.Foundations
