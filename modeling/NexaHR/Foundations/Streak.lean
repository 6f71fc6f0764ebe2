import Mathlib.Tactic.Common

/-! # Streaks

What happened to one key, each with its moment, the newest first: a miss, or something that starts the count
anew. A miss may stop the streak that it belongs to.

* `streak`: the misses that a miss at a given moment would follow in its streak.
* `Stopped k`: a miss stops its streak exactly when it is the `k`-th of it.
* `Stopped.apart`: `k` misses lie between two that stop.
-/

namespace NexaHR.Foundations

set_option autoImplicit false

inductive Mark
  | miss (stops : Bool)
  | reset
  deriving DecidableEq

/-- Consecutive misses with no gap above `window`, and nothing that resets or stops in between. -/
def streak (window : Nat) : List (Nat × Mark) → Nat → Nat
  | [], _ => 0
  | (_, .reset) :: _, _ => 0
  | (_, .miss true) :: _, _ => 0
  | (t, .miss false) :: es, now => if t + window < now then 0 else streak window es t + 1

def isMiss : Mark → Bool
  | .miss _ => true
  | .reset => false

def misses (es : List (Nat × Mark)) : Nat := es.countP fun e => isMiss e.2

/-- Every miss stops its streak exactly when it is the `k`-th. -/
def Stopped (k window : Nat) : List (Nat × Mark) → Prop
  | [] => True
  | (_, .reset) :: es => Stopped k window es
  | (t, .miss stops) :: es => (stops = true ↔ streak window es t + 1 = k) ∧ Stopped k window es

section

variable {k window : Nat} {es new old : List (Nat × Mark)} {t : Nat}

theorem misses_cons (e : Nat × Mark) (es : List (Nat × Mark)) :
    misses (e :: es) = misses es + (if isMiss e.2 = true then 1 else 0) := by
  simp [misses, List.countP_cons]

theorem Stopped.of_append (h : Stopped k window (new ++ es)) : Stopped k window es := by
  induction new with
  | nil => exact h
  | cons e new ih =>
    obtain ⟨t, mark⟩ := e
    cases mark with
    | miss stops => exact ih h.2
    | reset => exact ih h

/-- A streak is cut before it has `k` misses. -/
theorem Stopped.streak_lt (hk : 0 < k) (h : Stopped k window es) (now : Nat) :
    streak window es now < k := by
  induction es generalizing now with
  | nil => simpa [streak] using hk
  | cons e es ih =>
    obtain ⟨t, mark⟩ := e
    cases mark with
    | reset => simpa [streak] using hk
    | miss stops =>
      obtain ⟨hstop, hrest⟩ := h
      have hlt := ih hrest t
      cases stops with
      | true => simpa [streak] using hk
      | false =>
        have hne : streak window es t + 1 ≠ k := fun he => by simpa using hstop.mpr he
        simp only [streak]
        split
        · exact hk
        · omega

/-- A streak lies after the last miss that stopped. -/
theorem streak_le_misses (now : Nat) :
    streak window (new ++ (t, .miss true) :: old) now ≤ misses new := by
  induction new generalizing now with
  | nil => simp [streak]
  | cons e new ih =>
    obtain ⟨t', mark⟩ := e
    rw [misses_cons]
    cases mark with
    | reset => simp [streak]
    | miss stops =>
      cases stops with
      | true => simp [streak]
      | false =>
        have hle := ih t'
        simp only [List.cons_append, streak, isMiss, if_true]
        split <;> omega

theorem Stopped.apart {t' : Nat} {mid : List (Nat × Mark)}
    (h : Stopped k window (new ++ (t, .miss true) :: (mid ++ (t', .miss true) :: old))) :
    k ≤ misses mid + 1 := by
  have hstop : streak window (mid ++ (t', .miss true) :: old) t + 1 = k := h.of_append.1.mp rfl
  have hle : streak window (mid ++ (t', .miss true) :: old) t ≤ misses mid := streak_le_misses t
  omega

end

end NexaHR.Foundations
