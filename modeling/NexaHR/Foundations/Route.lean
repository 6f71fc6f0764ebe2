import NexaHR.Foundations.Runs
import Mathlib.Data.List.Nodup
import Mathlib.Data.List.Infix

/-! # Routes

A route is a list of desks without repetition. An item moves along it: it stays, goes on to the
next desk, goes back to an earlier one, or leaves the route for good.

* `Route.Next ρ a b`: `b` is the desk right after `a`.
* `Route.rank`: the place of a desk; what is not on the route has the place of the first desk.
* `Route.Moves ρ a b`: one move from `a` to `b`.
* `Route.crosses`: whatever the moves in between, an item that gets from a desk to a later one was
  carried on from every desk between them.
-/

namespace NexaHR.Foundations

set_option autoImplicit false

/-- Desks in order, each once. -/
structure Route (α : Type) where
  desks : List α
  nodup : desks.Nodup

namespace Route

variable {α : Type} [DecidableEq α] (ρ : Route α)

/-- `b` is the desk right after `a`. -/
def Next (a b : α) : Prop := [a, b] <:+: ρ.desks

instance (a b : α) : Decidable (ρ.Next a b) := inferInstanceAs (Decidable ([a, b] <:+: ρ.desks))

/-- The place of a desk. -/
def rank (a : α) : Nat := if a ∈ ρ.desks then ρ.desks.idxOf a else 0

/-- One move of an item. Off the route nothing moves. -/
def Moves (a b : α) : Prop :=
  b = a ∨ a ∈ ρ.desks ∧ (ρ.Next a b ∨ ρ.rank b < ρ.rank a ∨ b ∉ ρ.desks)

variable {ρ} {a b : α}

omit [DecidableEq α] in
theorem Next.mem_left (h : ρ.Next a b) : a ∈ ρ.desks := h.subset (by simp)

omit [DecidableEq α] in
theorem Next.mem_right (h : ρ.Next a b) : b ∈ ρ.desks := h.subset (by simp)

theorem rank_of_not_mem (h : a ∉ ρ.desks) : ρ.rank a = 0 := by
  simp [rank, h]

theorem rank_inj (ha : a ∈ ρ.desks) (hb : b ∈ ρ.desks) (h : ρ.rank a = ρ.rank b) : a = b := by
  simp only [rank, ha, hb, if_true] at h
  exact (List.idxOf_inj ha).mp h

/-- The next desk has the next place. -/
theorem Next.rank_eq (h : ρ.Next a b) : ρ.rank b = ρ.rank a + 1 := by
  have hb := h.mem_right
  have ha := h.mem_left
  obtain ⟨l, r, hlr⟩ := h
  have hnodup := ρ.nodup
  simp only [rank, ha, hb, if_true]
  rw [← hlr] at hnodup ⊢
  simp only [List.append_assoc, List.cons_append, List.nil_append] at hnodup ⊢
  rw [List.nodup_append] at hnodup
  obtain ⟨-, hrest, hdisj⟩ := hnodup
  have hal : a ∉ l := fun hm => hdisj a hm a (by simp) rfl
  have hbl : b ∉ l := fun hm => hdisj b hm b (by simp) rfl
  have hab : a ≠ b := by
    rintro rfl
    simp at hrest
  rw [List.idxOf_append_of_notMem hal, List.idxOf_append_of_notMem hbl]
  rw [List.idxOf_cons_self, List.idxOf_cons_ne _ hab, List.idxOf_cons_self]

/-- No move goes up more than one place. -/
theorem Moves.rank_le (h : ρ.Moves a b) : ρ.rank b ≤ ρ.rank a + 1 := by
  rcases h with rfl | ⟨-, h | h | h⟩
  · omega
  · exact h.rank_eq.le
  · omega
  · rw [rank_of_not_mem h]
    omega

/-- A move that goes up goes to the next desk. -/
theorem Moves.next_of_rank_lt (h : ρ.Moves a b) (hlt : ρ.rank a < ρ.rank b) : ρ.Next a b := by
  rcases h with rfl | ⟨-, h | h | h⟩
  · omega
  · exact h
  · omega
  · rw [rank_of_not_mem h] at hlt
    omega

/-- An item that gets from a desk to a later one was carried on from every desk between them. -/
theorem crosses {σ ε : Type} {step : σ → ε → σ → Prop} {tr : List (Taken σ ε)} {s₀ s : σ}
    {desk : σ → α} {d : α} (hrun : Run (· = s₀) step tr s)
    (hmoves : ∀ x ∈ tr, ρ.Moves (desk x.before) (desk x.after)) (hd : d ∈ ρ.desks)
    (h₀ : ρ.rank (desk s₀) ≤ ρ.rank d) (hs : ρ.rank d < ρ.rank (desk s)) :
    ∃ x ∈ tr, desk x.before = d ∧ ρ.Next d (desk x.after) := by
  obtain ⟨x, hx, hbefore, hafter⟩ :=
    Run.crosses (fun t => ρ.rank (desk t)) (fun x hx => (hmoves x hx).rank_le) hrun h₀ hs
  have hnext : ρ.Next (desk x.before) (desk x.after) :=
    (hmoves x hx).next_of_rank_lt (by omega)
  have heq : desk x.before = d := rank_inj hnext.mem_left hd hbefore
  exact ⟨x, hx, heq, heq ▸ hnext⟩

end Route

end NexaHR.Foundations
