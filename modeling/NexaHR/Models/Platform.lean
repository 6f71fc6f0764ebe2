import NexaHR.Models.Database

/-! # The platform around the database

What says who may sign in, with which token, and what he may then administer: the columns of `users` that
the database leaves out, and the tables `auth_sessions`, `user_capabilities` and `login_attempts`.

* `Deployment`: the settings of an installation and its password hasher.
* `Token`: the payload of a signed token. A token that nobody signed does not decode, so the ones that
  arrive in a request are payloads.
* `Platform`: the database with these tables.

An identifier that `uuid4` draws is the number of identifiers drawn before it: none is drawn twice.
-/

namespace NexaHR

open Foundations

set_option autoImplicit false

/-- Settings count minutes and days as their names say. The two functions are those of `argon2`. -/
structure Deployment where
  accessTokenExpireMinutes : Nat
  refreshTokenExpireDays : Nat
  sessionRetentionDays : Nat
  loginMaxFailedAttempts : Nat
  loginLockoutMinutes : Nat
  loginAttemptWindowMinutes : Nat
  hashPassword : String → String
  verifyPassword : String → String → Bool

def minutes (n : Nat) : Nat := n * 60

def days (n : Nat) : Nat := n * 86400

/-! ## Tokens -/

inductive TokenType
  | access | refresh
  deriving DecidableEq, Repr

structure Token where
  sub : Nat
  role : UserRole
  tv : Nat
  type : TokenType
  iat : Nat
  exp : Nat
  jti : Option Nat
  deriving DecidableEq

/-! ## Rows -/

/-- The columns of `users` by which an account signs in. -/
structure Credential where
  passwordHash : String
  mustChangePassword : Bool
  tokenVersion : Nat
  deriving DecidableEq

/-- One refresh token that was issued. -/
structure AuthSession where
  id : Nat
  userId : Nat
  jti : Nat
  expiresAt : Nat
  rotatedAt : Option Nat := none
  replacedByJti : Option Nat := none
  revokedAt : Option Nat := none
  userAgent : Option String
  ip : Option String
  lastUsedAt : Nat
  deriving DecidableEq

structure UserCapability where
  id : Nat
  userId : Nat
  capability : Capability
  grantedByUserId : Option Nat
  deriving DecidableEq

/-- The failures of one login name, whether or not an account bears it. -/
structure LoginAttempt where
  failedCount : Nat
  firstFailedAt : Nat
  lastFailedAt : Nat
  lockedUntil : Option Nat
  deriving DecidableEq

instance : HasId AuthSession := ⟨AuthSession.id⟩
instance : HasId UserCapability := ⟨UserCapability.id⟩

/-! ## The platform -/

/-- The database with the tables around it. `credentials` is by account and `loginAttempts` by login name,
their keys; `drawn` counts the identifiers drawn so far, and `clock` is the time of the last request. -/
structure Platform where
  db : Database
  credentials : Nat → Credential
  authSessions : Table AuthSession
  userCapabilities : Table UserCapability
  loginAttempts : String → Option LoginAttempt
  drawn : Nat
  clock : Nat

namespace Platform

/-- The credential of one account becomes `c`. -/
def withCredential (p : Platform) (userId : Nat) (c : Credential) : Platform :=
  { p with credentials := fun k => if k = userId then c else p.credentials k }

def withAttempt (p : Platform) (username : String) (attempt : Option LoginAttempt) : Platform :=
  { p with loginAttempts := fun name => if name = username then attempt else p.loginAttempts name }

def tokenVersion (p : Platform) (userId : Nat) : Nat := (p.credentials userId).tokenVersion

end Platform

end NexaHR
