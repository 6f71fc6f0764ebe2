import NexaHR.Foundations.Runs

/-! # Claiming

A thing is open until somebody claims it. Who has claimed it is engaged with it, and holds the right to use it
until he has used it. Nothing opens the thing again.

* `Claims`: what every step keeps to.
* `Claims.exclusive`: one at most is engaged, and nobody while the thing is open.
* `Claims.used_once`: in a run that starts with nobody engaged, the thing is used at most once.
* `Spent`: it is not open, and nobody holds the right. It is never used again.
-/

namespace NexaHR.Foundations

set_option autoImplicit false

variable {σ ε : Type}

/-- `engaged t s` and `holds t s` say it of the party `t` in the state `s`. -/
structure Claims (step : σ → ε → σ → Prop) (isOpen : σ → Prop) (engaged holds : Nat → σ → Prop)
    (uses : Taken σ ε → Bool) : Prop where
  stays_taken : ∀ {s e s'}, step s e s' → isOpen s' → isOpen s
  claims : ∀ {s e s' t}, step s e s' → engaged t s' →
    engaged t s ∨ (isOpen s ∧ ¬ isOpen s' ∧ ∀ t', engaged t' s' → t' = t ∨ engaged t' s)
  holder_engaged : ∀ {s t}, holds t s → engaged t s
  holder_before : ∀ {s e s' t}, step s e s' → holds t s' → holds t s ∨ isOpen s
  uses_up : ∀ {s e s'}, step s e s' → uses ⟨s, e, s'⟩ = true → ∃ t, holds t s ∧ ¬ holds t s'

def Exclusive (isOpen : σ → Prop) (engaged : Nat → σ → Prop) (s : σ) : Prop :=
  (isOpen s → ∀ t, ¬ engaged t s) ∧ ∀ t t', engaged t s → engaged t' s → t = t'

def Spent (isOpen : σ → Prop) (holds : Nat → σ → Prop) (s : σ) : Prop :=
  ¬ isOpen s ∧ ∀ t, ¬ holds t s

namespace Claims

variable {step : σ → ε → σ → Prop} {isOpen : σ → Prop} {engaged holds : Nat → σ → Prop}
  {uses : Taken σ ε → Bool} {init : σ → Prop} {tr new old : List (Taken σ ε)} {x : Taken σ ε} {s s' : σ} {e : ε}

theorem exclusive_step (h : Claims step isOpen engaged holds uses) (hs : Exclusive isOpen engaged s)
    (hstep : step s e s') : Exclusive isOpen engaged s' := by
  constructor
  · intro hopen t hengaged
    obtain hbefore | ⟨-, htaken, -⟩ := h.claims hstep hengaged
    · exact hs.1 (h.stays_taken hstep hopen) t hbefore
    · exact htaken hopen
  · intro t t' ht ht'
    obtain hbefore | ⟨hopen, -, honly⟩ := h.claims hstep ht
    · obtain hbefore' | ⟨hopen, -, -⟩ := h.claims hstep ht'
      · exact hs.2 t t' hbefore hbefore'
      · exact absurd hbefore (hs.1 hopen t)
    · obtain heq | hbefore' := honly t' ht'
      · exact heq.symm
      · exact absurd hbefore' (hs.1 hopen t')

theorem exclusive (h : Claims step isOpen engaged holds uses) (hinit : ∀ s, init s → ∀ t, ¬ engaged t s)
    (hrun : Run init step tr s) : Exclusive isOpen engaged s := by
  refine hrun.invariant ?_ fun _ _ _ hs hstep => h.exclusive_step hs hstep
  intro s hs
  exact ⟨fun _ => hinit s hs, fun t _ ht => absurd ht (hinit s hs t)⟩

/-! ## Spent things -/

theorem spent_step (h : Claims step isOpen engaged holds uses) (hs : Spent isOpen holds s)
    (hstep : step s e s') : Spent isOpen holds s' := by
  constructor
  · exact fun hopen => hs.1 (h.stays_taken hstep hopen)
  · intro t ht
    obtain hbefore | hopen := h.holder_before hstep ht
    · exact hs.2 t hbefore
    · exact hs.1 hopen

theorem not_used_of_spent (h : Claims step isOpen engaged holds uses) (hs : Spent isOpen holds s)
    (hstep : step s e s') : uses ⟨s, e, s'⟩ = false := by
  by_contra huses
  obtain ⟨t, ht, -⟩ := h.uses_up hstep (by simpa using huses)
  exact hs.2 t ht

theorem spent_of_run (h : Claims step isOpen engaged holds uses) (hs : Spent isOpen holds s)
    (hrun : Run (· = s) step tr s') : Spent isOpen holds s' := by
  refine hrun.invariant ?_ fun _ _ _ hspent hstep => h.spent_step hspent hstep
  intro q hq
  rw [hq]
  exact hs

/-- The right is used up, and nobody else had it. -/
theorem spent_of_use (h : Claims step isOpen engaged holds uses) (hs : Exclusive isOpen engaged s)
    (hstep : step s e s') (huses : uses ⟨s, e, s'⟩ = true) : Spent isOpen holds s' := by
  obtain ⟨t, ht, hused⟩ := h.uses_up hstep huses
  have htaken : ¬ isOpen s := fun hopen => hs.1 hopen t (h.holder_engaged ht)
  constructor
  · exact fun hopen => htaken (h.stays_taken hstep hopen)
  · intro t' ht'
    obtain hbefore | hopen := h.holder_before hstep ht'
    · have heq : t' = t := hs.2 t' t (h.holder_engaged hbefore) (h.holder_engaged ht)
      rw [heq] at ht'
      exact hused ht'
    · exact htaken hopen

/-- Before it is used, the thing is not spent in any state of the run. -/
theorem not_spent_before (h : Claims step isOpen engaged holds uses) (hrun : Run init step (new ++ x :: old) s)
    (huses : uses x = true) {y : Taken σ ε} (hy : y ∈ x :: old) : ¬ Spent isOpen holds y.before := by
  intro hspent
  obtain ⟨hold, hstep⟩ := hrun.cut
  have hbefore : Spent isOpen holds x.before := by
    obtain rfl | hy := List.mem_cons.mp hy
    · exact hspent
    · obtain ⟨later, earlier, rfl⟩ := List.append_of_mem hy
      exact h.spent_of_run (h.spent_step hspent hold.cut.2) hold.cut_after
  have hunused := h.not_used_of_spent hbefore hstep
  rw [huses] at hunused
  cases hunused

theorem used_once (h : Claims step isOpen engaged holds uses) (hinit : ∀ s, init s → ∀ t, ¬ engaged t s)
    (hrun : Run init step tr s) : tr.countP uses ≤ 1 := by
  induction hrun with
  | nil _ => exact Nat.zero_le 1
  | @cons tr q e q' hrun hstep ih =>
    by_cases huses : uses ⟨q, e, q'⟩ = true
    · rw [List.countP_cons_of_pos huses]
      have hnone : tr.countP uses = 0 := by
        rw [List.countP_eq_zero]
        intro y hy hused
        obtain ⟨later, earlier, rfl⟩ := List.append_of_mem hy
        obtain ⟨hearlier, hystep⟩ := hrun.cut
        have hspent := h.spent_of_use (h.exclusive hinit hearlier) hystep hused
        have hunused := h.not_used_of_spent (h.spent_of_run hspent hrun.cut_after) hstep
        rw [huses] at hunused
        cases hunused
      omega
    · rw [List.countP_cons_of_neg huses]
      exact ih

end Claims

end NexaHR.Foundations
