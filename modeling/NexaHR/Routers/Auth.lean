import Mathlib.Data.List.Infix
import NexaHR.Routers.Directory
import NexaHR.Services.LoginGuard
import NexaHR.Services.Sessions

/-! # Signing in

`api/routers/auth.py` with the tokens of `core/security.py` and the first half of `api/deps.py`. An endpoint
commits before it refuses where the refusal itself is to be remembered, so each gives an answer and the
platform it leaves. The body of a request arrives as its schema accepts it; the rate limit per address is left
out.
-/

namespace NexaHR

open Foundations

set_option autoImplicit false

/-! ## Answers -/

inductive Reply
  | loginResponse (accessToken refreshCookie : Token) (role : UserRole) (mustChangePassword : Bool)
  | accessTokenResponse (accessToken : Token) (refreshCookie : Option Token)
  | capabilityHolder (user : User) (displayName : String) (capabilities : List Capability)
  | noContent
  deriving DecidableEq

/-- The tokens that an answer hands out. -/
def Reply.tokens : Reply → List Token
  | loginResponse accessToken refreshCookie _ _ => [accessToken, refreshCookie]
  | accessTokenResponse accessToken refreshCookie => accessToken :: refreshCookie.toList
  | capabilityHolder _ _ _ | noContent => []

abbrev Answer : Type := Except HTTPException Reply × Platform

/-- The headers of a request, with what else it reads. -/
structure Visit where
  env : Env
  userAgent : Option String
  ip : Option String

namespace Platform

def log (p : Platform) (entries : List AuditLog) : Platform := { p with db := p.db.log entries }

def notify (p : Platform) (notifications : List Notification) : Platform :=
  { p with db := { p.db with notifications := p.db.notifications ++ notifications } }

end Platform

def accountEvent (env : Env) (actorUserId : Nat) (eventType : String) : AuditLog where
  actorUserId := some actorUserId
  eventType := eventType
  createdAt := env.now

/-! ## Tokens -/

def createAccessToken (S : Deployment) (now : Nat) (user : User) (tokenVersion : Nat) : Token where
  sub := user.id
  role := user.role
  tv := tokenVersion
  type := .access
  iat := now
  exp := now + minutes S.accessTokenExpireMinutes
  jti := none

def createRefreshToken (S : Deployment) (now : Nat) (user : User) (tokenVersion jti : Nat) : Token where
  sub := user.id
  role := user.role
  tv := tokenVersion
  type := .refresh
  iat := now
  exp := now + days S.refreshTokenExpireDays
  jti := some jti

/-- `decode_token`: nothing for a token of the future or of the past. -/
def decodeToken (now : Nat) (token : Token) : Option Token :=
  if token.iat ≤ now ∧ now < token.exp then some token else none

def passwordChangeRequired : HTTPException :=
  ⟨403, "پیش از استفاده از سامانه باید رمز عبور خود را تغییر دهید", none⟩

/-- `get_current_user`. Three paths are `exempt` from the forced change of a password. -/
def signedInUser (p : Platform) (now : Nat) (bearer : Option Token) (exempt : Bool) :
    Except HTTPException CurrentUser := do
  let credentials ← require bearer unauthorized
  let payload ← require (decodeToken now credentials) unauthorized
  ensure (payload.type = .access) unauthorized
  let user ← require (p.db.users.get? payload.sub) unauthorized
  ensure (user.isActive = true) unauthorized
  ensure (payload.tv = p.tokenVersion user.id) unauthorized
  ensure ((p.credentials user.id).mustChangePassword = true → exempt = true) passwordChangeRequired
  pure user.toCurrent

/-! ## Login -/

def issueLoginResponse (S : Deployment) (p : Platform) (v : Visit) (user : User) : Answer :=
  let created := createSession S p v.env.now user.id v.userAgent v.ip
  (.ok
    (.loginResponse
      (createAccessToken S v.env.now user (p.tokenVersion user.id))
      (createRefreshToken S v.env.now user (p.tokenVersion user.id) created.1)
      user.role (p.credentials user.id).mustChangePassword),
    created.2)

def nameIsLocked (S : Deployment) : HTTPException :=
  ⟨429, "به دلیل تلاش‌های ناموفق پیاپی، ورود به این حساب موقتاً قفل شده است؛ " ++
    toString S.loginLockoutMinutes ++ " دقیقه دیگر دوباره تلاش کنید.", none⟩

def noSuchUsername : HTTPException := ⟨401, "چنین نام کاربری‌ای وجود ندارد", none⟩

def wrongPassword : HTTPException := ⟨401, "رمز عبور اشتباه است", none⟩

def inactiveAccount : HTTPException := ⟨403, "حساب کاربری غیرفعال است", none⟩

/-- `_fail`: the failure is counted, and HR hears of a lock. -/
def failLogin (S : Deployment) (p : Platform) (v : Visit) (username : String) (userId : Option Nat) :
    Platform :=
  let counted := recordFailure S p v.env.now username
  let logged := counted.2.log (userId.toList.map fun k => accountEvent v.env k "login_failed")
  match counted.1 with
  | none => logged
  | some lockEnd =>
    (logged.log (userId.toList.map fun k => accountEvent v.env k "account_locked")).notify
      (notifyHrOfLockout S logged v.env username lockEnd)

def userNamed (p : Platform) (username : String) : Option User :=
  p.db.users.rows.find? fun user => user.username = username

/-- The lock is asked about first: while it is on, not even the right password is accepted. -/
def login (S : Deployment) (p : Platform) (v : Visit) (username password : String) : Answer :=
  if (lockedUntil p v.env.now username).isSome then (.error (nameIsLocked S), p)
  else
    match userNamed p username with
    | none => (.error noSuchUsername, failLogin S p v username none)
    | some user =>
      if S.verifyPassword password (p.credentials user.id).passwordHash then
        if user.isActive then
          issueLoginResponse S
            ((clearFailures p username).log [accountEvent v.env user.id "login_succeeded"]) v user
        else (.error inactiveAccount, p)
      else (.error wrongPassword, failLogin S p v username (some user.id))

/-! ## The refresh cookie -/

def invalidSession : HTTPException := ⟨401, "نشست نامعتبر یا منقضی‌شده است", none⟩

/-- The account and the identifier of a refresh cookie that may be exchanged. -/
def refreshBearer (p : Platform) (now : Nat) (cookie : Option Token) :
    Except HTTPException (User × Nat) := do
  let token ← require cookie invalidSession
  let data ← require (decodeToken now token) invalidSession
  ensure (data.type = .refresh) invalidSession
  let jti ← require data.jti invalidSession
  let user ← require (p.db.users.get? data.sub) invalidSession
  ensure (user.isActive = true) invalidSession
  ensure (data.tv = p.tokenVersion user.id) invalidSession
  pure (user, jti)

/-- A reused token is refused, and what its reuse revoked stays revoked. -/
def refresh (S : Deployment) (p : Platform) (v : Visit) (cookie : Option Token) : Answer :=
  match refreshBearer p v.env.now cookie with
  | .error e => (.error e, p)
  | .ok (user, jti) =>
    let accessToken := createAccessToken S v.env.now user (p.tokenVersion user.id)
    match rotateSession S p v.env.now user.id jti v.userAgent v.ip with
    | (.refreshReuseError, p') => (.error invalidSession, p')
    | (.inGrace, p') => (.ok (.accessTokenResponse accessToken none), p')
    | (.rotated newJti, p') =>
      (.ok
        (.accessTokenResponse accessToken
          (some (createRefreshToken S v.env.now user (p.tokenVersion user.id) newJti))), p')

/-- The identifier that `logout` reads from the cookie. -/
def cookieJti (now : Nat) (cookie : Option Token) : Option Nat :=
  ((cookie.bind (decodeToken now)).filter fun data => data.type = .refresh).bind Token.jti

def logout (p : Platform) (v : Visit) (cookie : Option Token) : Answer :=
  match cookieJti v.env.now cookie with
  | none => (.ok .noContent, p)
  | some jti => (.ok .noContent, revokeSession p v.env.now jti)

/-! ## One's own account -/

def wrongCurrentPassword : HTTPException := ⟨400, "رمز عبور فعلی اشتباه است", none⟩

/-- What `change_password` asks of the new password. -/
def ensureNewPassword (username newPassword currentPassword : String) : Except HTTPException Unit := do
  ensure (newPassword ≠ currentPassword) ⟨400, "رمز عبور جدید نباید با رمز فعلی یکسان باشد", none⟩
  ensure (¬(3 ≤ username.length ∧ username.toLower.toList <:+: newPassword.toLower.toList))
    ⟨400, "رمز عبور جدید نباید شامل نام کاربری باشد", none⟩

/-- The account whose password the bearer may change. -/
def passwordOwner (S : Deployment) (p : Platform) (now : Nat) (bearer : Option Token)
    (currentPassword newPassword : String) : Except HTTPException User := do
  let currentUser ← signedInUser p now bearer true
  let user ← require (p.db.users.get? currentUser.id) wrongCurrentPassword
  ensure (S.verifyPassword currentPassword (p.credentials user.id).passwordHash = true)
    wrongCurrentPassword
  ensureNewPassword user.username newPassword currentPassword
  pure user

/-- The tokens of an account end: its version rises, and its sessions are revoked. -/
def endTokens (p : Platform) (now userId : Nat) (passwordHash : String) (mustChangePassword : Bool) :
    Platform :=
  revokeAllForUser
    (p.withCredential userId
      { passwordHash := passwordHash
        mustChangePassword := mustChangePassword
        tokenVersion := p.tokenVersion userId + 1 })
    now userId

def changePassword (S : Deployment) (p : Platform) (v : Visit) (bearer : Option Token)
    (currentPassword newPassword : String) : Answer :=
  match passwordOwner S p v.env.now bearer currentPassword newPassword with
  | .error e => (.error e, p)
  | .ok user =>
    issueLoginResponse S
      ((endTokens p v.env.now user.id (S.hashPassword newPassword) false).log
        [accountEvent v.env user.id "password_changed_self"]) v user

def sessionNotFound : HTTPException := ⟨404, "نشست یافت نشد", none⟩

/-- The bearer's own session under the given key. -/
def ownSession (p : Platform) (now : Nat) (bearer : Option Token) (sessionId : Nat) :
    Except HTTPException AuthSession := do
  let currentUser ← signedInUser p now bearer false
  let session ← require (p.authSessions.get? sessionId) sessionNotFound
  ensure (session.userId = currentUser.id) sessionNotFound
  pure session

def revokeMySession (p : Platform) (v : Visit) (bearer : Option Token) (sessionId : Nat) : Answer :=
  match ownSession p v.env.now bearer sessionId with
  | .error e => (.error e, p)
  | .ok session =>
    if session.revokedAt = none then
      (.ok .noContent,
        ({ p with authSessions := p.authSessions.put (session.revoked v.env.now) } : Platform).log
          [accountEvent v.env session.userId "session_revoked"])
    else (.ok .noContent, p)

end NexaHR
