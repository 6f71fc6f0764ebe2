import Mathlib.Tactic.Common

/-! # A limit in every window

Times at which something was granted, the newest first. It is granted while fewer than a limit of the earlier
times lie at most a width back. What counts the earlier times may forget those that are further back.

* `Limited`: every time was granted with room left.
* `Limited.window_le`: no window of the width holds more times than the limit.
* `Covers`: a count that may forget, but not what lies at most the width back.
* `Covers.room`: where such a count leaves room, there is room.
-/

namespace NexaHR.Foundations

set_option autoImplicit false

/-- The times from `start` on, up to the width later. -/
def inWindow (start width t : Nat) : Bool := decide (start ≤ t) && decide (t ≤ start + width)

/-- Fewer than `limit` of the earlier times lie at most `width` before each. -/
inductive Limited (limit width : Nat) : List Nat → Prop
  | nil : Limited limit width []
  | cons {now : Nat} {times : List Nat}
    (hroom : times.countP (fun t => decide (now ≤ t + width)) < limit)
    (h : Limited limit width times) : Limited limit width (now :: times)

/-- `kept from'` counts at least the times since `from'`, as far as the width reaches back. -/
def Covers (width clock : Nat) (kept : Nat → Nat) (times : List Nat) : Prop :=
  ∀ from', clock ≤ from' + width → times.countP (fun t => decide (from' ≤ t)) ≤ kept from'

section

variable {limit width clock clock' now : Nat} {kept kept' : Nat → Nat} {times : List Nat}

theorem Limited.window_le (h : Limited limit width times) (start : Nat) :
    times.countP (inWindow start width) ≤ limit := by
  induction h with
  | nil => simp
  | @cons now times hroom _ ih =>
    rw [List.countP_cons]
    split
    next hin =>
      simp only [inWindow, Bool.and_eq_true, decide_eq_true_eq] at hin
      have hle : times.countP (inWindow start width) ≤ times.countP (fun t => decide (now ≤ t + width)) := by
        apply List.countP_mono_left
        intro t _ ht
        simp only [inWindow, Bool.and_eq_true, decide_eq_true_eq] at ht ⊢
        omega
      omega
    next => omega

theorem Covers.nil (width clock : Nat) (kept : Nat → Nat) : Covers width clock kept [] := by
  intro from' _
  simp

/-- Later less of the past has to be kept, and what is kept may grow. -/
theorem Covers.later (h : Covers width clock kept times) (hclock : clock ≤ clock')
    (hkept : ∀ from', clock' ≤ from' + width → kept from' ≤ kept' from') :
    Covers width clock' kept' times := by
  intro from' hfrom
  have hbefore := h from' (by omega)
  have hafter := hkept from' hfrom
  omega

/-- A granted time is counted. -/
theorem Covers.take (h : Covers width clock kept times) (hclock : clock ≤ now)
    (hkept : ∀ from', kept from' + (if from' ≤ now then 1 else 0) ≤ kept' from') :
    Covers width now kept' (now :: times) := by
  intro from' hfrom
  have hbefore := h from' (by omega)
  have hafter := hkept from'
  rw [List.countP_cons]
  simp only [decide_eq_true_eq]
  omega

theorem Covers.room (h : Covers width clock kept times) (hclock : clock ≤ now)
    (hroom : kept (now - width) < limit) : times.countP (fun t => decide (now ≤ t + width)) < limit := by
  have hbefore := h (now - width) (by omega)
  have hsame : times.countP (fun t => decide (now - width ≤ t)) =
      times.countP (fun t => decide (now ≤ t + width)) := by
    apply List.countP_congr
    intro t _
    simp only [decide_eq_true_eq]
    omega
  omega

end

end NexaHR.Foundations
