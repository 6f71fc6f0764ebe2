import Mathlib.Data.Option.Basic
import Mathlib.Tactic.Common

/-! # A lock that a session holds

A lock that is asked for and never waited for. The session that holds it may take it again, and gives it back as
often as it took it; when the session ends, the lock is free.

* `SessionLock.tryLock`, `unlock`, `dropped`: what can be done with it.
* `Guards lock inside`: who holds the lock is inside and took it once, and everybody inside holds it.
* `Guards.entered`, `Guards.left`, `Guards.dropped`: entering, leaving and the end of sessions keep this.
* `Guards.exclusive`, `Guards.free_iff`: one at most is inside, and the lock is free when nobody is.
-/

namespace NexaHR.Foundations

set_option autoImplicit false

/-- The session that holds the lock, and how often it took it again. -/
structure SessionLock where
  holder : Option (Nat × Nat)
  deriving DecidableEq

namespace SessionLock

def free : SessionLock := ⟨none⟩

/-- The lock after a session has asked for it; `none` where another one holds it. -/
def tryLock (lock : SessionLock) (session : Nat) : Option SessionLock :=
  match lock.holder with
  | none => some ⟨some (session, 0)⟩
  | some (holder, again) => if holder = session then some ⟨some (session, again + 1)⟩ else none

/-- A session that does not hold the lock gives nothing back. -/
def unlock (lock : SessionLock) (session : Nat) : SessionLock :=
  match lock.holder with
  | none => lock
  | some (holder, again) =>
    if holder ≠ session then lock
    else
      match again with
      | 0 => ⟨none⟩
      | again + 1 => ⟨some (session, again)⟩

/-- Sessions end. -/
def dropped (lock : SessionLock) (ends : Nat → Bool) : SessionLock :=
  ⟨lock.holder.filter fun held => !ends held.1⟩

end SessionLock

/-- Who holds the lock is inside and took it once, and everybody inside holds it. -/
def Guards (lock : SessionLock) (inside : Nat → Prop) : Prop :=
  ∀ session again, lock.holder = some (session, again) ↔ inside session ∧ again = 0

namespace Guards

open SessionLock

variable {lock lock' : SessionLock} {inside : Nat → Prop} {session : Nat}

theorem of_free : Guards free fun _ => False := by
  intro session again
  constructor
  · intro h
    cases h
  · intro h
    exact h.1.elim

theorem congr {inside' : Nat → Prop} (h : Guards lock inside) (hsame : ∀ session, inside' session ↔ inside session) :
    Guards lock inside' := by
  intro session again
  rw [h session again, hsame]

theorem holds (h : Guards lock inside) (hinside : inside session) : lock.holder = some (session, 0) :=
  (h session 0).mpr ⟨hinside, rfl⟩

theorem exclusive (h : Guards lock inside) {session' : Nat} (hinside : inside session) (hinside' : inside session') :
    session = session' := by
  have heq := (h.holds hinside).symm.trans (h.holds hinside')
  cases heq
  rfl

theorem free_iff (h : Guards lock inside) : lock = free ↔ ∀ session, ¬inside session := by
  constructor
  · intro hfree session hinside
    have hheld := h.holds hinside
    rw [hfree] at hheld
    cases hheld
  · intro hnobody
    cases hholder : lock.holder with
    | none =>
      cases lock
      cases hholder
      rfl
    | some held => exact absurd ((h held.1 held.2).mp hholder).1 (hnobody held.1)

/-! ## Asking -/

/-- Who comes in finds nobody inside. -/
theorem entered (h : Guards lock inside) (houtside : ¬inside session) (htry : lock.tryLock session = some lock') :
    (∀ other, ¬inside other) ∧ Guards lock' fun other => other = session := by
  unfold tryLock at htry
  split at htry
  · next hholder =>
    cases htry
    have hfree : lock = free := by
      cases lock
      cases hholder
      rfl
    refine ⟨h.free_iff.mp hfree, ?_⟩
    intro other again
    constructor
    · intro heq
      cases heq
      exact ⟨rfl, rfl⟩
    · intro heq
      rw [heq.1, heq.2]
  · next holder again hholder =>
    split at htry
    · next heq =>
      have hinside := ((h holder again).mp hholder).1
      rw [heq] at hinside
      exact absurd hinside houtside
    · cases htry

theorem refused_iff (h : Guards lock inside) (houtside : ¬inside session) :
    lock.tryLock session = none ↔ ∃ other, inside other := by
  constructor
  · intro htry
    by_contra hnobody
    rw [h.free_iff.mpr fun other hinside => hnobody ⟨other, hinside⟩] at htry
    cases htry
  · intro hinside
    obtain ⟨other, hinside⟩ := hinside
    have hne : other ≠ session := by
      intro heq
      rw [heq] at hinside
      exact houtside hinside
    unfold tryLock
    rw [h.holds hinside]
    exact if_neg hne

/-! ## Leaving -/

theorem left (h : Guards lock inside) (hinside : inside session) :
    Guards (lock.unlock session) fun other => inside other ∧ other ≠ session := by
  have hunlock : lock.unlock session = free := by
    unfold unlock
    rw [h.holds hinside]
    exact if_neg (not_not.mpr rfl)
  rw [hunlock]
  apply of_free.congr
  intro other
  constructor
  · intro hother
    exact hother.2 (h.exclusive hother.1 hinside)
  · intro hfalse
    exact hfalse.elim

theorem unlock_outside (h : Guards lock inside) (houtside : ¬inside session) : lock.unlock session = lock := by
  unfold unlock
  split
  · rfl
  · next holder again hholder =>
    rw [if_pos]
    intro heq
    have hinside := ((h holder again).mp hholder).1
    rw [heq] at hinside
    exact houtside hinside

theorem dropped (h : Guards lock inside) (ends : Nat → Bool) :
    Guards (lock.dropped ends) fun session => inside session ∧ ends session = false := by
  intro session again
  unfold SessionLock.dropped
  rw [Option.filter_eq_some_iff, h session again, Bool.not_eq_true']
  tauto

end Guards

end NexaHR.Foundations
