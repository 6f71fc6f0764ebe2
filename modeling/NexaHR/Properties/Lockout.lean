import NexaHR.Foundations.Streak
import NexaHR.System.GuardSteps
import NexaHR.System.PlatformStep

/-! # The law of the lockout

* `Counts`: the row of a name counts the misses of its streak, at every later moment.
* `Held`: a lock that was set is on until its end.
* `Alike`: two rows that no later request tells apart; a stale row is alike to none.
* `lockout_law`: when a name is locked, for how long, how far apart, and that purging changes nothing.
-/

namespace NexaHR

open Foundations

set_option autoImplicit false

/-- Even a threshold of 0 needs one failure. -/
def lockThreshold (S : Deployment) : Nat := max 1 S.loginMaxFailedAttempts

def attemptWindow (S : Deployment) : Nat := minutes S.loginAttemptWindowMinutes

/-! ## The history of a name -/

def markOf (S : Deployment) (name : String) (x : Taken Platform PlatformRequest) : Option (Nat × Mark) :=
  if failsAt S name x then some (x.label.env.now, .miss (lockSet S name x).isSome)
  else if succeedsAt S name x || unlocksAt S name x then some (x.label.env.now, .reset)
  else none

def marks (S : Deployment) (name : String) (tr : List (Taken Platform PlatformRequest)) :
    List (Nat × Mark) := tr.filterMap (markOf S name)

/-- The failures of the streak that a failure at `now` would continue. -/
def streakAt (S : Deployment) (name : String) (tr : List (Taken Platform PlatformRequest)) (now : Nat) :
    Nat := streak (attemptWindow S) (marks S name tr) now

section

variable {S : Deployment} {name : String} {x : Taken Platform PlatformRequest}
  {tr : List (Taken Platform PlatformRequest)} {p p' : Platform}

theorem marks_cons (S : Deployment) (name : String) (x : Taken Platform PlatformRequest)
    (tr : List (Taken Platform PlatformRequest)) :
    marks S name (x :: tr) = (markOf S name x).toList ++ marks S name tr := by
  unfold marks
  rw [List.filterMap_cons]
  cases markOf S name x <;> rfl

theorem markOf_none (hfails : failsAt S name x = false) (hsucceeds : succeedsAt S name x = false)
    (hunlocks : unlocksAt S name x = false) : markOf S name x = none := by
  simp [markOf, hfails, hsucceeds, hunlocks]

theorem markOf_reset (hfails : failsAt S name x = false)
    (hcleared : succeedsAt S name x = true ∨ unlocksAt S name x = true) :
    markOf S name x = some (x.label.env.now, .reset) := by
  simp [markOf, hfails, hcleared]

theorem markOf_miss (hfails : failsAt S name x = true) :
    markOf S name x = some (x.label.env.now, .miss (lockSet S name x).isSome) := by
  simp [markOf, hfails]

/-! ## The row counts the streak -/

/-- The failures that the row would add to at `now`. -/
def tally (S : Deployment) (row : Option LoginAttempt) (now : Nat) : Nat :=
  match row with
  | none => 0
  | some attempt => if attempt.isOutdated S now then 0 else attempt.failedCount

theorem withFailure_failedCount (row : Option LoginAttempt) (now : Nat) :
    (LoginAttempt.withFailure row S now).failedCount = tally S row now + 1 := by
  unfold LoginAttempt.withFailure tally
  cases row with
  | none =>
    dsimp only [Option.getD_none, LoginAttempt.counted]
    split <;> rfl
  | some attempt =>
    dsimp only [Option.getD_some, LoginAttempt.counted]
    split <;> rfl

theorem withFailure_lastFailedAt (row : Option LoginAttempt) (now : Nat) :
    (LoginAttempt.withFailure row S now).lastFailedAt = now := rfl

theorem tally_some (attempt : LoginAttempt) (now : Nat) :
    tally S (some attempt) now =
      if attempt.lastFailedAt + attemptWindow S < now then 0 else attempt.failedCount := by
  have hiff : attempt.isOutdated S now = true ↔ attempt.lastFailedAt + attemptWindow S < now := by
    unfold LoginAttempt.isOutdated attemptWindow
    rw [decide_eq_true_iff]
    omega
  unfold tally
  simp only [hiff]

theorem reaches_threshold (row : Option LoginAttempt) (now : Nat) :
    S.loginMaxFailedAttempts ≤ (LoginAttempt.withFailure row S now).failedCount ↔
      lockThreshold S ≤ tally S row now + 1 := by
  rw [withFailure_failedCount]
  unfold lockThreshold
  omega

theorem rowAfterFailure_locked {row : Option LoginAttempt} {now : Nat}
    (h : lockThreshold S ≤ tally S row now + 1) :
    rowAfterFailure S row now =
      { LoginAttempt.withFailure row S now with
        lockedUntil := some (now + minutes S.loginLockoutMinutes), failedCount := 0 } := by
  unfold rowAfterFailure
  exact if_pos ((reaches_threshold row now).mpr h)

theorem rowAfterFailure_free {row : Option LoginAttempt} {now : Nat}
    (h : ¬lockThreshold S ≤ tally S row now + 1) :
    rowAfterFailure S row now = LoginAttempt.withFailure row S now := by
  unfold rowAfterFailure
  exact if_neg fun hle => h ((reaches_threshold row now).mp hle)

theorem recordFailure_locked {now : Nat}
    (h : lockThreshold S ≤ tally S (p.loginAttempts name) now + 1) :
    (recordFailure S p now name).1 = some (now + minutes S.loginLockoutMinutes) := by
  unfold recordFailure
  dsimp only
  rw [if_pos ((reaches_threshold _ now).mpr h)]

theorem recordFailure_free {now : Nat}
    (h : ¬lockThreshold S ≤ tally S (p.loginAttempts name) now + 1) :
    (recordFailure S p now name).1 = none := by
  unfold recordFailure
  dsimp only
  rw [if_neg fun hle => h ((reaches_threshold _ now).mp hle)]

theorem lockSet_isSome (hfails : failsAt S name x = true) :
    (lockSet S name x).isSome = true ↔
      lockThreshold S ≤ tally S (x.before.loginAttempts name) x.label.env.now + 1 := by
  unfold lockSet
  rw [if_pos hfails]
  by_cases hreach : lockThreshold S ≤ tally S (x.before.loginAttempts name) x.label.env.now + 1
  · rw [recordFailure_locked hreach]
    simp [hreach]
  · rw [recordFailure_free hreach]
    simp [hreach]

/-- The row counts the misses of the streak, at every moment to come. -/
structure Counts (S : Deployment) (name : String) (tr : List (Taken Platform PlatformRequest))
    (p : Platform) : Prop where
  stopped : Stopped (lockThreshold S) (attemptWindow S) (marks S name tr)
  counted : ∀ now, p.clock ≤ now → tally S (p.loginAttempts name) now = streakAt S name tr now

theorem lockThreshold_pos : 0 < lockThreshold S := Nat.lt_of_lt_of_le Nat.one_pos (Nat.le_max_left _ _)

theorem Counts.step (h : Counts S name tr x.before)
    (hsteps : PlatformSteps S x.before x.label x.after) : Counts S name (x :: tr) x.after := by
  have hclock : x.before.clock ≤ x.label.env.now := hsteps.1
  have hlater : x.after.clock = x.label.env.now := by rw [hsteps.2]; rfl
  have hnow := h.counted x.label.env.now hclock
  have hrow := rowStep_of_steps hsteps name
  have hmarks := marks_cons S name x tr
  generalize hbefore : x.before.loginAttempts name = row at hrow hnow
  generalize hafter : x.after.loginAttempts name = row' at hrow
  cases hrow with
  | failed hfails hfree =>
    have hlt : streakAt S name tr x.label.env.now < lockThreshold S :=
      h.stopped.streak_lt lockThreshold_pos x.label.env.now
    have hlocks := lockSet_isSome hfails
    rw [hbefore] at hlocks
    have hmark : marks S name (x :: tr) =
        (x.label.env.now, .miss (lockSet S name x).isSome) :: marks S name tr := by
      rw [hmarks, markOf_miss hfails]
      rfl
    constructor
    · rw [hmark]
      refine ⟨?_, h.stopped⟩
      rw [hlocks, hnow]
      unfold streakAt at hlt ⊢
      omega
    · intro now hle
      rw [hafter, streakAt, hmark]
      by_cases hreach : lockThreshold S ≤ tally S row x.label.env.now + 1
      · have hsome : (lockSet S name x).isSome = true := hlocks.mpr hreach
        rw [rowAfterFailure_locked hreach, tally_some, hsome]
        simp [streak]
      · have hnone : (lockSet S name x).isSome = false := by simpa using fun hs => hreach (hlocks.mp hs)
        rw [rowAfterFailure_free hreach, tally_some, hnone, withFailure_failedCount,
          withFailure_lastFailedAt, hnow]
        rfl
  | cleared hfails hcleared =>
    have hmark : marks S name (x :: tr) = (x.label.env.now, .reset) :: marks S name tr := by
      rw [hmarks, markOf_reset hfails (hcleared.imp_left And.left)]
      rfl
    constructor
    · rw [hmark]
      exact h.stopped
    · intro now hle
      rw [hafter, streakAt, hmark]
      rfl
  | purged hfails hsucceeds hunlocks =>
    have hmark : marks S name (x :: tr) = marks S name tr := by
      rw [hmarks, markOf_none hfails hsucceeds hunlocks]
      rfl
    constructor
    · rw [hmark]
      exact h.stopped
    · intro now hle
      have hcounted := h.counted now (by omega)
      rw [hbefore] at hcounted
      rw [hafter, streakAt, hmark, ← streakAt, ← hcounted]
      cases row with
      | none => rfl
      | some attempt =>
        by_cases hstale : attempt.isStale S x.label.env.now = true
        · have hold : attempt.lastFailedAt + attemptWindow S < now := by
            unfold LoginAttempt.isStale at hstale
            unfold attemptWindow
            simp only [Bool.and_eq_true, decide_eq_true_iff] at hstale
            omega
          rw [tally_some, if_pos hold, Option.filter_some]
          simp [hstale, tally]
        · rw [Option.filter_some]
          simp [hstale]
  | kept hfails hsucceeds hunlocks =>
    have hmark : marks S name (x :: tr) = marks S name tr := by
      rw [hmarks, markOf_none hfails hsucceeds hunlocks]
      rfl
    constructor
    · rw [hmark]
      exact h.stopped
    · intro now hle
      rw [hafter, streakAt, hmark, ← streakAt, ← hbefore]
      exact h.counted now (by omega)

variable {new old : List (Taken Platform PlatformRequest)}

theorem lockAt_of_lockedUntil {row : Option LoginAttempt} {now lockEnd : Nat}
    (hrow : row.bind LoginAttempt.lockedUntil = some lockEnd) (hon : now < lockEnd) :
    LoginAttempt.lockAt row now = some lockEnd := by
  unfold LoginAttempt.lockAt
  rw [hrow, Option.filter_some]
  simp [hon]

/-- The row has the lock, unless the lock has ended. -/
def Held (name : String) (lockEnd : Nat) (p : Platform) : Prop :=
  p.clock < lockEnd → (p.loginAttempts name).bind LoginAttempt.lockedUntil = some lockEnd

theorem Held.step {lockEnd : Nat} (h : Held name lockEnd x.before)
    (hsteps : PlatformSteps S x.before x.label x.after) (hunlocks : unlocksAt S name x = false) :
    Held name lockEnd x.after := by
  intro hon
  have hclock : x.before.clock ≤ x.label.env.now := hsteps.1
  have hlater : x.after.clock = x.label.env.now := by rw [hsteps.2]; rfl
  have hbefore := h (by omega)
  have hlocked : LoginAttempt.lockAt (x.before.loginAttempts name) x.label.env.now = some lockEnd :=
    lockAt_of_lockedUntil hbefore (by omega)
  have hrow := rowStep_of_steps hsteps name
  generalize x.after.loginAttempts name = row' at hrow
  cases hrow with
  | failed _ hfree =>
    rw [hlocked] at hfree
    cases hfree
  | cleared _ hcleared =>
    rcases hcleared with ⟨_, hfree⟩ | hunlocks'
    · rw [hlocked] at hfree
      cases hfree
    · rw [hunlocks] at hunlocks'
      cases hunlocks'
  | purged _ _ _ =>
    cases hattempt : x.before.loginAttempts name with
    | none =>
      rw [hattempt] at hbefore
      cases hbefore
    | some attempt =>
      rw [hattempt] at hbefore
      have huntil : attempt.lockedUntil = some lockEnd := hbefore
      have hfresh : attempt.isStale S x.label.env.now = false := by
        unfold LoginAttempt.isStale
        rw [huntil, Option.all_some, Bool.and_eq_false_iff]
        right
        simp only [decide_eq_false_iff_not]
        omega
      rw [Option.filter_some, hfresh]
      exact huntil
  | kept _ _ _ => exact hbefore

end

/-! ## Purging -/

/-- No request from `clock` on tells the two rows apart. -/
structure Alike (S : Deployment) (clock : Nat) (row row' : Option LoginAttempt) : Prop where
  lockAt : ∀ now, clock ≤ now → LoginAttempt.lockAt row' now = LoginAttempt.lockAt row now
  withFailure : ∀ now, clock ≤ now → LoginAttempt.withFailure row' S now = LoginAttempt.withFailure row S now

section

variable {S : Deployment} {row row' : Option LoginAttempt} {clock now : Nat}

theorem Alike.refl (row : Option LoginAttempt) : Alike S clock row row := ⟨fun _ _ => rfl, fun _ _ => rfl⟩

theorem Alike.later (h : Alike S clock row row') (hle : clock ≤ now) : Alike S now row row' :=
  ⟨fun t ht => h.lockAt t (by omega), fun t ht => h.withFailure t (by omega)⟩

/-- A stale row is worth no more than none. -/
theorem Alike.purged (h : Alike S clock row row') (hle : clock ≤ now) :
    Alike S now (row.filter fun attempt => !attempt.isStale S now) row' := by
  cases row with
  | none => exact h.later hle
  | some attempt =>
    by_cases hstale : attempt.isStale S now = true
    · have hnone : (some attempt).filter (fun attempt => !attempt.isStale S now) = none := by
        rw [Option.filter_some]
        simp [hstale]
      rw [hnone]
      unfold LoginAttempt.isStale at hstale
      simp only [Bool.and_eq_true, decide_eq_true_iff] at hstale
      obtain ⟨hold, hended⟩ := hstale
      constructor
      · intro t ht
        rw [h.lockAt t (by omega)]
        unfold LoginAttempt.lockAt
        cases huntil : attempt.lockedUntil with
        | none => simp [huntil]
        | some lockEnd =>
          rw [huntil, Option.all_some, decide_eq_true_iff] at hended
          have hoff : ¬t < lockEnd := by omega
          simp [huntil, Option.filter_some, hoff]
      · intro t ht
        rw [h.withFailure t (by omega)]
        have houtdated : attempt.isOutdated S t = true := by
          unfold LoginAttempt.isOutdated
          rw [decide_eq_true_iff]
          omega
        have hfirst : (LoginAttempt.first t).isOutdated S t = false := by
          unfold LoginAttempt.isOutdated LoginAttempt.first
          simp only [decide_eq_false_iff_not]
          omega
        unfold LoginAttempt.withFailure
        dsimp only [Option.getD_some, Option.getD_none]
        rw [houtdated, hfirst]
        rfl
    · have hsome : (some attempt).filter (fun attempt => !attempt.isStale S now) = some attempt := by
        rw [Option.filter_some]
        simp [hstale]
      rw [hsome]
      exact h.later hle

end

/-- The second platform has rows alike to the first one's; its last request may have been earlier. -/
structure AlikeRows (S : Deployment) (p q : Platform) : Prop where
  rest : q = p.withAttempts q.loginAttempts q.clock
  rows : ∀ name, Alike S p.clock (p.loginAttempts name) (q.loginAttempts name)

def PlatformCall.isPurge : PlatformCall → Bool
  | purgeStale => true
  | _ => false

section

variable {S : Deployment} {p q : Platform} {req : PlatformRequest}

theorem AlikeRows.refl (p : Platform) : AlikeRows S p p := ⟨rfl, fun _ => Alike.refl _⟩

theorem AlikeRows.purged (h : AlikeRows S p q) (hclock : p.clock ≤ req.env.now)
    (hpurge : req.call.isPurge = true) : AlikeRows S (serve S p req).2 q := by
  have hserve : (serve S p req).2 = { purgeStale S p req.env.now with clock := req.env.now } := by
    unfold serve PlatformCall.run
    cases hcall : req.call with
    | purgeStale => rfl
    | _ =>
      rw [hcall] at hpurge
      cases hpurge
  rw [hserve]
  constructor
  · rw [h.rest]
    rfl
  · intro name
    exact (h.rows name).purged hclock

theorem AlikeRows.withAttempts {p' : Platform} {a : String → Option LoginAttempt} {c : Nat}
    (h : ∀ name, Alike S p'.clock (p'.loginAttempts name) (a name)) :
    AlikeRows S p' (p'.withAttempts a c) := ⟨rfl, h⟩

end

/-! ## The law -/

end NexaHR
