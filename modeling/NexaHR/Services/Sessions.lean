import NexaHR.Models.Platform

/-! # Sessions

`services/sessions.py`: the server's side of the refresh tokens. A token is exchanged once for its
successor; for a minute after that it still gets an access token, and later it counts as stolen.
-/

namespace NexaHR

open Foundations

set_option autoImplicit false

def rotationGraceSeconds : Nat := 60

/-- `user_agent[:400]`, and nothing for an empty text. -/
def cutUserAgent (userAgent : Option String) : Option String :=
  (userAgent.filter (· ≠ "")).map fun text => String.ofList (text.toList.take 400)

/-- The header of the request, else what the session has. -/
def orInherited (new old : Option String) : Option String :=
  match new.filter (· ≠ "") with
  | some text => some text
  | none => old

def newSession (S : Deployment) (now userId jti : Nat) (userAgent ip : Option String) (id : Nat) :
    AuthSession where
  id := id
  userId := userId
  jti := jti
  expiresAt := now + days S.refreshTokenExpireDays
  userAgent := cutUserAgent userAgent
  ip := ip
  lastUsedAt := now

theorem newSession_id (S : Deployment) (now userId jti : Nat) (userAgent ip : Option String) (id : Nat) :
    HasId.id (newSession S now userId jti userAgent ip id) = id := rfl

/-- `create_session`: the identifier of the new session, and the platform with it. -/
def createSession (S : Deployment) (p : Platform) (now userId : Nat) (userAgent ip : Option String) :
    Nat × Platform :=
  (p.drawn + 1,
    { p with
      drawn := p.drawn + 1
      authSessions := p.authSessions.insert (newSession S now userId (p.drawn + 1) userAgent ip)
        (newSession_id S now userId (p.drawn + 1) userAgent ip) })

def sessionOf (p : Platform) (jti : Nat) : Option AuthSession :=
  p.authSessions.rows.find? fun session => session.jti = jti

namespace AuthSession

def revoked (session : AuthSession) (now : Nat) : AuthSession :=
  { session with revokedAt := some now }

/-- The row after `revoke_all_for_user`. -/
def revokedFor (session : AuthSession) (now userId : Nat) : AuthSession :=
  if session.userId = userId ∧ session.revokedAt = none then session.revoked now else session

theorem revokedFor_id (now userId : Nat) (session : AuthSession) :
    HasId.id (session.revokedFor now userId) = HasId.id session := by
  unfold revokedFor
  split <;> rfl

/-- The row is refused whatever it was used for: it belongs to somebody else, or is revoked, or expired. -/
def isDead (session : AuthSession) (now userId : Nat) : Bool :=
  session.userId ≠ userId || session.revokedAt.isSome || session.expiresAt ≤ now

end AuthSession

def revokeAllForUser (p : Platform) (now userId : Nat) : Platform :=
  { p with
    authSessions := p.authSessions.map (fun session => session.revokedFor now userId)
      (AuthSession.revokedFor_id now userId) }

/-- `revoke_session`. -/
def revokeSession (p : Platform) (now jti : Nat) : Platform :=
  match sessionOf p jti with
  | none => p
  | some session =>
    if session.revokedAt = none then
      { p with authSessions := p.authSessions.put (session.revoked now) }
    else p

/-- How `rotate_session` ends: with `RefreshReuseError`, with `None`, or with the identifier of the
successor. -/
inductive Rotation
  | refreshReuseError
  | inGrace
  | rotated (newJti : Nat)
  deriving DecidableEq

def rotateSession (S : Deployment) (p : Platform) (now userId jti : Nat) (userAgent ip : Option String) :
    Rotation × Platform :=
  match sessionOf p jti with
  | none => (.refreshReuseError, revokeAllForUser p now userId)
  | some session =>
    if session.isDead now userId then (.refreshReuseError, revokeAllForUser p now userId)
    else
      match session.rotatedAt with
      | some rotatedAt =>
        if now - rotatedAt ≤ rotationGraceSeconds then (.inGrace, p)
        else (.refreshReuseError, revokeAllForUser p now userId)
      | none =>
        let created := createSession S p now userId (orInherited userAgent session.userAgent)
          (orInherited ip session.ip)
        (.rotated created.1,
          { created.2 with
            authSessions := created.2.authSessions.put
              { session with rotatedAt := some now, replacedByJti := some created.1 } })

/-- `purge_dead_sessions`. -/
def purgeDeadSessions (S : Deployment) (p : Platform) (now : Nat) : Platform :=
  let cutoff := now - days S.sessionRetentionDays
  { p with
    authSessions := p.authSessions.filter fun session =>
      !(session.expiresAt < cutoff || session.revokedAt.any (· < cutoff)) }

end NexaHR
