import NexaHR.Models.Platform
import NexaHR.Services.Notifications

/-! # The lock on a login name

`services/login_guard.py`: failures are counted by login name, and enough of them in a row lock it. The row of
a name is made before it is read, so two failures at once are two failures.
-/

namespace NexaHR

open Foundations

set_option autoImplicit false

namespace LoginAttempt

/-- The row that `record_failure` inserts. -/
def first (now : Nat) : LoginAttempt := ⟨0, now, now, none⟩

def isOutdated (attempt : LoginAttempt) (S : Deployment) (now : Nat) : Bool :=
  attempt.lastFailedAt < now - minutes S.loginAttemptWindowMinutes

def restarted (attempt : LoginAttempt) (now : Nat) : LoginAttempt :=
  { attempt with failedCount := 0, firstFailedAt := now, lockedUntil := none }

def counted (attempt : LoginAttempt) (now : Nat) : LoginAttempt :=
  { attempt with failedCount := attempt.failedCount + 1, lastFailedAt := now }

/-- The row once the failure at `now` is counted, before the threshold is asked about. -/
def withFailure (attempt : Option LoginAttempt) (S : Deployment) (now : Nat) : LoginAttempt :=
  let row := attempt.getD (first now)
  (if row.isOutdated S now then row.restarted now else row).counted now

/-- The lock that is still on, if there is one. -/
def lockAt (attempt : Option LoginAttempt) (now : Nat) : Option Nat :=
  (attempt.bind lockedUntil).filter (now < ·)

/-- `purge_stale` removes the row. -/
def isStale (attempt : LoginAttempt) (S : Deployment) (now : Nat) : Bool :=
  attempt.lastFailedAt < now - minutes S.loginAttemptWindowMinutes &&
    attempt.lockedUntil.all (· < now)

end LoginAttempt

def lockedUntil (p : Platform) (now : Nat) (username : String) : Option Nat :=
  LoginAttempt.lockAt (p.loginAttempts username) now

/-- `record_failure`: the end of the lock, if this failure locks the name. -/
def recordFailure (S : Deployment) (p : Platform) (now : Nat) (username : String) :
    Option Nat × Platform :=
  let row := LoginAttempt.withFailure (p.loginAttempts username) S now
  if S.loginMaxFailedAttempts ≤ row.failedCount then
    let lockEnd := now + minutes S.loginLockoutMinutes
    (some lockEnd,
      p.withAttempt username (some { row with lockedUntil := some lockEnd, failedCount := 0 }))
  else (none, p.withAttempt username (some row))

def clearFailures (p : Platform) (username : String) : Platform := p.withAttempt username none

def purgeStale (S : Deployment) (p : Platform) (now : Nat) : Platform :=
  { p with
    loginAttempts := fun username =>
      (p.loginAttempts username).filter fun attempt => !attempt.isStale S now }

def notifyHrOfLockout (S : Deployment) (p : Platform) (env : Env) (username : String) (lockEnd : Nat) :
    List Notification :=
  (activeHrIds p.db).flatMap fun hrId =>
    notifyOnce { env with notificationDedupDays := 1 } p.db hrId "account_locked"
      ("حساب «" ++ username ++ "» به دلیل تلاش‌های ناموفق پیاپی برای ورود، تا " ++
        toString S.loginLockoutMinutes ++ " دقیقه قفل شد")
      ("lockout:" ++ username ++ ":" ++ toString lockEnd) (some "/hr/audit-log")

/-- `unlock`: whether the name was locked, and the platform without its row. -/
def unlock (p : Platform) (now : Nat) (username : String) : Bool × Platform :=
  match p.loginAttempts username with
  | none => (false, p)
  | some _ => ((lockedUntil p now username).isSome, p.withAttempt username none)

end NexaHR
