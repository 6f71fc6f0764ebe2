import NexaHR.System.PlatformStep

/-! # Steps of the lock on a login name

Three requests read or write the failures of a login name: a login, the unlocking of an account, and the
nightly purge. Every other request answers the same whatever the failures are, and leaves them.

* `failsAt`, `succeedsAt`, `unlocksAt`, `lockSet`: what a step means for a name.
* `RowStep`, `rowStep_of_steps`: what a step does to the row of a name.
-/

namespace NexaHR

open Foundations

set_option autoImplicit false

namespace Platform

/-- The platform with other failures, and the last request at another time. -/
def withAttempts (p : Platform) (attempts : String → Option LoginAttempt) (clock : Nat) : Platform :=
  { p with loginAttempts := attempts, clock := clock }

end Platform

def Answer.withAttempts (answer : Answer) (attempts : String → Option LoginAttempt) (clock : Nat) :
    Answer :=
  (answer.1, answer.2.withAttempts attempts clock)

/-- The request is one of the three. -/
def PlatformCall.readsAttempts : PlatformCall → Bool
  | login _ _ | purgeStale | signedIn _ (.unlockUser _) => true
  | _ => false

section

variable (S : Deployment) (p : Platform) (v : Visit) (a : String → Option LoginAttempt) (c : Nat)

/-! ## What the failures are carried through -/

theorem withDirectory_withAttempts (result : Except HTTPException Database)
    (around around' : Platform → Platform)
    (h : ∀ q, around' (q.withAttempts a c) = (around q).withAttempts a c) :
    withDirectory (p.withAttempts a c) result around' = (withDirectory p result around).withAttempts a c := by
  cases result with
  | error e => rfl
  | ok db => exact congrArg (Prod.mk _) (h { p with db := db })

theorem grantAll_withAttempts (userId : Nat) (grantedBy : Option Nat) (capabilities : List Capability) :
    grantAll (p.withAttempts a c) userId grantedBy capabilities =
      (grantAll p userId grantedBy capabilities).withAttempts a c := by
  induction capabilities generalizing p with
  | nil => rfl
  | cons capability capabilities ih => exact ih (grant p userId grantedBy capability)

theorem applyDefaultHrCapabilities_withAttempts (userId : Nat) :
    applyDefaultHrCapabilities (p.withAttempts a c) userId =
      (applyDefaultHrCapabilities p userId).withAttempts a c :=
  grantAll_withAttempts (revokeWhere p fun row => row.userId = userId) a c userId none defaultHrCapabilities

theorem revokeSession_withAttempts (now jti : Nat) :
    revokeSession (p.withAttempts a c) now jti = (revokeSession p now jti).withAttempts a c := by
  have hsession : sessionOf (p.withAttempts a c) jti = sessionOf p jti := rfl
  unfold revokeSession
  rw [hsession]
  cases sessionOf p jti with
  | none => rfl
  | some session =>
    dsimp only
    split <;> rfl

theorem rotateSession_withAttempts (now userId jti : Nat) (userAgent ip : Option String) :
    rotateSession S (p.withAttempts a c) now userId jti userAgent ip =
      ((rotateSession S p now userId jti userAgent ip).1,
        (rotateSession S p now userId jti userAgent ip).2.withAttempts a c) := by
  have hsession : sessionOf (p.withAttempts a c) jti = sessionOf p jti := rfl
  unfold rotateSession
  rw [hsession]
  cases sessionOf p jti with
  | none => rfl
  | some session =>
    dsimp only
    split
    · rfl
    · split
      · split <;> rfl
      · rfl

theorem foldl_withCredential_withAttempts (us : List User) (credential : User → Credential) :
    us.foldl (fun q u => q.withCredential u.id (credential u)) (p.withAttempts a c) =
      (us.foldl (fun q u => q.withCredential u.id (credential u)) p).withAttempts a c := by
  induction us generalizing p with
  | nil => rfl
  | cons u us ih => exact ih (p.withCredential u.id (credential u))

/-! ## The requests -/

theorem refresh_withAttempts (cookie : Option Token) :
    refresh S (p.withAttempts a c) v cookie = (refresh S p v cookie).withAttempts a c := by
  have hbearer : refreshBearer (p.withAttempts a c) v.env.now cookie = refreshBearer p v.env.now cookie := rfl
  unfold refresh
  rw [hbearer]
  cases refreshBearer p v.env.now cookie with
  | error e => rfl
  | ok bearer =>
    obtain ⟨user, jti⟩ := bearer
    dsimp only
    rw [rotateSession_withAttempts]
    generalize rotateSession S p v.env.now user.id jti v.userAgent v.ip = rotation
    obtain ⟨outcome, p'⟩ := rotation
    cases outcome <;> rfl

theorem logout_withAttempts (cookie : Option Token) :
    logout (p.withAttempts a c) v cookie = (logout p v cookie).withAttempts a c := by
  unfold logout
  cases cookieJti v.env.now cookie with
  | none => rfl
  | some jti => exact congrArg (Prod.mk _) (revokeSession_withAttempts p a c v.env.now jti)

theorem changePassword_withAttempts (bearer : Option Token) (currentPassword newPassword : String) :
    changePassword S (p.withAttempts a c) v bearer currentPassword newPassword =
      (changePassword S p v bearer currentPassword newPassword).withAttempts a c := by
  have howner : passwordOwner S (p.withAttempts a c) v.env.now bearer currentPassword newPassword =
    passwordOwner S p v.env.now bearer currentPassword newPassword := rfl
  unfold changePassword
  rw [howner]
  cases passwordOwner S p v.env.now bearer currentPassword newPassword <;> rfl

theorem revokeMySession_withAttempts (bearer : Option Token) (sessionId : Nat) :
    revokeMySession (p.withAttempts a c) v bearer sessionId =
      (revokeMySession p v bearer sessionId).withAttempts a c := by
  have hown : ownSession (p.withAttempts a c) v.env.now bearer sessionId =
    ownSession p v.env.now bearer sessionId := rfl
  unfold revokeMySession
  rw [hown]
  cases ownSession p v.env.now bearer sessionId with
  | error e => rfl
  | ok session =>
    dsimp only
    split <;> rfl

theorem setCapabilities_withAttempts (env : Env) (user : CurrentUser) (userId : Nat)
    (desired : List Capability) :
    setCapabilities (p.withAttempts a c) env user userId desired =
      (setCapabilities p env user userId desired).withAttempts a c := by
  have htarget : capabilityTarget (p.withAttempts a c) env user userId desired =
    capabilityTarget p env user userId desired := rfl
  unfold setCapabilities
  rw [htarget]
  cases capabilityTarget p env user userId desired with
  | error e => rfl
  | ok target =>
    have hgrant := grantAll_withAttempts
      (revokeWhere p fun row => row.userId = userId && !desired.contains row.capability) a c userId
      (some user.id) (desired.dedup.filter fun c => !(capabilitiesOf p userId).contains c)
    exact congrArg
      (fun q : Platform => ((Except.ok (.capabilityHolder target (p.db.displayName target)
          (Capability.sorted.filter (desired.contains ·))),
        q.log [accountEvent env user.id "capabilities_changed"]) : Answer))
      hgrant

theorem AccountCall.run_withAttempts (env : Env) (user : CurrentUser) (call : AccountCall)
    (hcall : ∀ userId, call ≠ .unlockUser userId) :
    call.run S (p.withAttempts a c) env user = (call.run S p env user).withAttempts a c := by
  cases call with
  | unlockUser userId => exact absurd rfl (hcall userId)
  | setCapabilities userId cs => exact setCapabilities_withAttempts p a c env user userId cs
  | createUser payload password =>
    unfold AccountCall.run Platform.createUser
    refine withDirectory_withAttempts p a c _ _ _ fun q => ?_
    dsimp only
    split
    · exact applyDefaultHrCapabilities_withAttempts
        (q.withCredential (p.db.users.seq + 1) (temporaryCredential S password)) a c (p.db.users.seq + 1)
    · rfl
  | updateUser userId payload password =>
    unfold AccountCall.run Platform.updateUser
    refine withDirectory_withAttempts p a c _ _ _ fun q => ?_
    have hgranted : (if (p.withAttempts a c).entersHr userId payload then
          applyDefaultHrCapabilities (q.withAttempts a c) userId else q.withAttempts a c) =
        (if p.entersHr userId payload then applyDefaultHrCapabilities q userId else q).withAttempts a c := by
      have henters : (p.withAttempts a c).entersHr userId payload = p.entersHr userId payload := rfl
      rw [henters]
      split
      · exact applyDefaultHrCapabilities_withAttempts q a c userId
      · rfl
    dsimp only
    rw [hgranted]
    cases password <;> rfl
  | deleteUser userId =>
    unfold AccountCall.run Platform.deleteUser
    refine withDirectory_withAttempts p a c _ _ _ fun q => ?_
    rfl
  | createPersonnel payload account =>
    unfold AccountCall.run Platform.createPersonnel
    refine withDirectory_withAttempts p a c _ _ _ fun q => ?_
    cases account <;> rfl
  | importPersonnel rows passwords =>
    unfold AccountCall.run Platform.importPersonnel
    refine withDirectory_withAttempts p a c _ _ _ fun q => ?_
    exact foldl_withCredential_withAttempts q a c _ _
  | updatePersonnel personnelId payload =>
    unfold AccountCall.run Platform.updatePersonnel
    refine withDirectory_withAttempts p a c _ _ _ fun q => ?_
    have hclosing : (p.withAttempts a c).closingAccount personnelId payload =
      p.closingAccount personnelId payload := rfl
    rw [hclosing]
    cases p.closingAccount personnelId payload <;> rfl
  | elsewhere op =>
    unfold AccountCall.run
    refine withDirectory_withAttempts p a c _ _ _ fun q => ?_
    rfl

/-- A request beside the three does not see the failures. -/
theorem PlatformCall.run_withAttempts (call : PlatformCall) (hcall : call.readsAttempts = false) :
    call.run S (p.withAttempts a c) v = (call.run S p v).withAttempts a c := by
  cases call with
  | login username password => cases hcall
  | refresh cookie => exact refresh_withAttempts S p v a c cookie
  | logout cookie => exact logout_withAttempts p v a c cookie
  | changePassword bearer currentPassword newPassword =>
    exact changePassword_withAttempts S p v a c bearer currentPassword newPassword
  | revokeMySession bearer sessionId => exact revokeMySession_withAttempts p v a c bearer sessionId
  | signedIn bearer call =>
    have hsigned : signedInUser (p.withAttempts a c) v.env.now bearer false =
      signedInUser p v.env.now bearer false := rfl
    dsimp only [PlatformCall.run]
    rw [hsigned]
    cases signedInUser p v.env.now bearer false with
    | error e => rfl
    | ok user =>
      apply AccountCall.run_withAttempts
      intro userId he
      subst he
      cases hcall
  | purgeStale => cases hcall
  | purgeDeadSessions => rfl

end

/-! ## What a step means for a name -/

def refusedWith (S : Deployment) (x : Taken Platform PlatformRequest) : Option HTTPException :=
  match answerOf S x with
  | .error e => some e
  | .ok _ => none

/-- A login under the name was refused for the name or for the password, and counted. -/
def failsAt (S : Deployment) (name : String) (x : Taken Platform PlatformRequest) : Bool :=
  match x.label.call with
  | .login username _ =>
    username = name &&
      (refusedWith S x = some noSuchUsername || refusedWith S x = some wrongPassword)
  | _ => false

def succeedsAt (S : Deployment) (name : String) (x : Taken Platform PlatformRequest) : Bool :=
  match x.label.call with
  | .login username _ => username = name && refusedWith S x = none
  | _ => false

def unlocksAt (S : Deployment) (name : String) (x : Taken Platform PlatformRequest) : Bool :=
  match x.label.call with
  | .signedIn _ (.unlockUser userId) =>
    refusedWith S x = none && (x.before.db.users.get? userId).any fun u => u.username = name
  | _ => false

/-- The end of the lock that `record_failure` sets at the step. -/
def lockSet (S : Deployment) (name : String) (x : Taken Platform PlatformRequest) : Option Nat :=
  if failsAt S name x then (recordFailure S x.before x.label.env.now name).1 else none

/-! ## The row of a name -/

/-- The row that a failure at `now` leaves. -/
def rowAfterFailure (S : Deployment) (row : Option LoginAttempt) (now : Nat) : LoginAttempt :=
  let counted := LoginAttempt.withFailure row S now
  if S.loginMaxFailedAttempts ≤ counted.failedCount then
    { counted with lockedUntil := some (now + minutes S.loginLockoutMinutes), failedCount := 0 }
  else counted

theorem recordFailure_attempts (S : Deployment) (p : Platform) (now : Nat) (name : String) :
    (recordFailure S p now name).2.loginAttempts =
      (p.withAttempt name (some (rowAfterFailure S (p.loginAttempts name) now))).loginAttempts := by
  unfold recordFailure rowAfterFailure
  dsimp only
  split <;> rfl

theorem failLogin_attempts (S : Deployment) (p : Platform) (v : Visit) (name : String)
    (userId : Option Nat) :
    (failLogin S p v name userId).loginAttempts = (recordFailure S p v.env.now name).2.loginAttempts := by
  unfold failLogin
  dsimp only
  split <;> rfl

/-- How a login ends. -/
inductive LoginEnd (S : Deployment) (p : Platform) (v : Visit) (username : String) : Answer → Prop
  | locked (hlocked : (lockedUntil p v.env.now username).isSome = true) :
      LoginEnd S p v username (.error (nameIsLocked S), p)
  | failed (hfree : lockedUntil p v.env.now username = none) (e : HTTPException)
      (he : e = noSuchUsername ∨ e = wrongPassword) (userId : Option Nat) :
      LoginEnd S p v username (.error e, failLogin S p v username userId)
  | inactive : LoginEnd S p v username (.error inactiveAccount, p)
  | succeeded (hfree : lockedUntil p v.env.now username = none) (user : User)
      (huser : userNamed p username = some user) (hactive : user.isActive = true) :
      LoginEnd S p v username
        (issueLoginResponse S
          ((clearFailures p username).log [accountEvent v.env user.id "login_succeeded"]) v user)

theorem loginEnd (S : Deployment) (p : Platform) (v : Visit) (username password : String) :
    LoginEnd S p v username (login S p v username password) := by
  unfold login
  split
  next hlocked => exact LoginEnd.locked hlocked
  next hlocked =>
    have hfree : lockedUntil p v.env.now username = none := by simpa using hlocked
    split
    · exact LoginEnd.failed hfree _ (Or.inl rfl) none
    next user huser =>
      split
      · split
        next hactive => exact LoginEnd.succeeded hfree user huser hactive
        next => exact LoginEnd.inactive
      · exact LoginEnd.failed hfree _ (Or.inr rfl) (some user.id)

/-- What a step does to the row of a name. -/
inductive RowStep (S : Deployment) (name : String) (x : Taken Platform PlatformRequest)
    (row : Option LoginAttempt) : Option LoginAttempt → Prop
  | failed (hfails : failsAt S name x = true)
      (hfree : LoginAttempt.lockAt row x.label.env.now = none) :
      RowStep S name x row (some (rowAfterFailure S row x.label.env.now))
  | cleared (hfails : failsAt S name x = false)
      (hcleared : succeedsAt S name x = true ∧ LoginAttempt.lockAt row x.label.env.now = none ∨
        unlocksAt S name x = true) :
      RowStep S name x row none
  | purged (hfails : failsAt S name x = false) (hsucceeds : succeedsAt S name x = false)
      (hunlocks : unlocksAt S name x = false) :
      RowStep S name x row (row.filter fun attempt => !attempt.isStale S x.label.env.now)
  | kept (hfails : failsAt S name x = false) (hsucceeds : succeedsAt S name x = false)
      (hunlocks : unlocksAt S name x = false) : RowStep S name x row row

section

variable {S : Deployment} {p : Platform} {req : PlatformRequest} {name : String}

theorem marks_of_login (S : Deployment) (name : String) (x : Taken Platform PlatformRequest)
    {username password : String} (hcall : x.label.call = .login username password) :
    failsAt S name x = (decide (username = name) &&
        (refusedWith S x = some noSuchUsername || refusedWith S x = some wrongPassword)) ∧
      succeedsAt S name x = (decide (username = name) && refusedWith S x = none) ∧
      unlocksAt S name x = false := by
  unfold failsAt succeedsAt unlocksAt
  rw [hcall]
  exact ⟨rfl, rfl, rfl⟩

theorem rowStep_of_login {username password : String} (hcall : req.call = .login username password) :
    RowStep S name ⟨p, req, (serve S p req).2⟩ (p.loginAttempts name)
      ((serve S p req).2.loginAttempts name) := by
  have hanswer : serve S p req =
      ((login S p req.toVisit username password).1,
        { (login S p req.toVisit username password).2 with clock := req.env.now }) := by
    unfold serve PlatformCall.run
    rw [hcall]
  obtain ⟨hfails, hsucceeds, hunlocks⟩ :=
    marks_of_login S name ⟨p, req, (serve S p req).2⟩ hcall
  have hend := loginEnd S p req.toVisit username password
  generalize login S p req.toVisit username password = answer at hanswer hend
  have hrow : (serve S p req).2.loginAttempts name = answer.2.loginAttempts name := by rw [hanswer]
  have hrefused : refusedWith S ⟨p, req, (serve S p req).2⟩ =
      match answer.1 with
      | .error e => some e
      | .ok _ => none := by
    unfold refusedWith answerOf
    rw [hanswer]
  rw [hrefused] at hfails hsucceeds
  rw [hrow]
  cases hend with
  | locked hlocked =>
    exact RowStep.kept (by simpa [nameIsLocked, noSuchUsername, wrongPassword] using hfails)
      (by simpa using hsucceeds) hunlocks
  | inactive =>
    exact RowStep.kept (by simpa [inactiveAccount, noSuchUsername, wrongPassword] using hfails)
      (by simpa using hsucceeds) hunlocks
  | failed hfree e he userId =>
    have hattempts : (failLogin S p req.toVisit username userId).loginAttempts name =
        (p.withAttempt username
          (some (rowAfterFailure S (p.loginAttempts username) req.env.now))).loginAttempts name := by
      rw [failLogin_attempts, recordFailure_attempts]
    rw [hattempts]
    by_cases hname : username = name
    · subst hname
      have hfails' : failsAt S username ⟨p, req, (serve S p req).2⟩ = true := by
        rw [hfails]
        simpa using he
      simpa [Platform.withAttempt] using RowStep.failed hfails' hfree
    · have hne : name ≠ username := fun h => hname h.symm
      simp only [Platform.withAttempt, if_neg hne]
      exact RowStep.kept (by simpa [hname] using hfails) (by simpa using hsucceeds) hunlocks
  | succeeded hfree user huser hactive =>
    have hfails' : failsAt S name ⟨p, req, (serve S p req).2⟩ = false := by
      simpa [issueLoginResponse] using hfails
    have hattempts : (issueLoginResponse S
        ((clearFailures p username).log [accountEvent req.env user.id "login_succeeded"])
        req.toVisit user).2.loginAttempts name = (p.withAttempt username none).loginAttempts name := rfl
    rw [hattempts]
    by_cases hname : username = name
    · subst hname
      have hrow : (p.withAttempt username none).loginAttempts username = none := by
        simp [Platform.withAttempt]
      rw [hrow]
      exact RowStep.cleared hfails' (Or.inl ⟨by simpa [issueLoginResponse] using hsucceeds, hfree⟩)
    · have hne : name ≠ username := fun h => hname h.symm
      simp only [Platform.withAttempt, if_neg hne]
      exact RowStep.kept hfails' (by simpa [hname] using hsucceeds) hunlocks

theorem rowStep_of_unlock {bearer : Option Token} {userId : Nat}
    (hcall : req.call = .signedIn bearer (.unlockUser userId)) :
    RowStep S name ⟨p, req, (serve S p req).2⟩ (p.loginAttempts name)
      ((serve S p req).2.loginAttempts name) := by
  have hfails : failsAt S name ⟨p, req, (serve S p req).2⟩ = false := by
    unfold failsAt
    rw [hcall]
  have hsucceeds : succeedsAt S name ⟨p, req, (serve S p req).2⟩ = false := by
    unfold succeedsAt
    rw [hcall]
  have hunlocks : unlocksAt S name ⟨p, req, (serve S p req).2⟩ =
      (decide (refusedWith S ⟨p, req, (serve S p req).2⟩ = none) &&
        (p.db.users.get? userId).any fun u => u.username = name) := by
    unfold unlocksAt
    rw [hcall]
  have hserve : serve S p req =
      ((req.call.run S p req.toVisit).1, { (req.call.run S p req.toVisit).2 with clock := req.env.now }) :=
    rfl
  unfold refusedWith answerOf at hunlocks
  rw [hcall] at hserve
  dsimp only [PlatformCall.run] at hserve
  cases hsigned : signedInUser p req.env.now bearer false with
  | error e =>
    rw [hsigned] at hserve
    have hrow : (serve S p req).2.loginAttempts name = p.loginAttempts name := by rw [hserve]
    rw [hrow]
    exact RowStep.kept hfails hsucceeds (by simpa [hserve] using hunlocks)
  | ok user =>
    rw [hsigned] at hserve
    dsimp only [AccountCall.run, Platform.unlockUser] at hserve
    split at hserve
    next e he =>
      have hrow : (serve S p req).2.loginAttempts name = p.loginAttempts name := by rw [hserve]
      rw [hrow]
      exact RowStep.kept hfails hsucceeds (by simpa [hserve] using hunlocks)
    next u hu =>
      simp only [bind_eq_ok, require_eq_ok] at hu
      obtain ⟨_, -, hget⟩ := hu
      have hrow : (serve S p req).2.loginAttempts name =
          (unlock p req.env.now u.username).2.loginAttempts name := by rw [hserve]; rfl
      have hunlock : (unlock p req.env.now u.username).2.loginAttempts =
          (p.withAttempt u.username none).loginAttempts := by
        unfold unlock
        split
        next hnone =>
          funext other
          by_cases hother : other = u.username
          · subst hother
            simp [Platform.withAttempt, hnone]
          · simp [Platform.withAttempt, hother]
        next => rfl
      rw [hrow, hunlock]
      by_cases hname : u.username = name
      · subst hname
        have hrow : (p.withAttempt u.username none).loginAttempts u.username = none := by
          simp [Platform.withAttempt]
        rw [hrow]
        exact RowStep.cleared hfails (Or.inr (by simpa [hserve, hget] using hunlocks))
      · have hne : name ≠ u.username := fun h => hname h.symm
        simp only [Platform.withAttempt, if_neg hne]
        exact RowStep.kept hfails hsucceeds (by simpa [hget, hname] using hunlocks)

/-- A request beside the three leaves the failures. -/
theorem run_attempts (S : Deployment) (p : Platform) (v : Visit) {call : PlatformCall}
    (hcall : call.readsAttempts = false) : (call.run S p v).2.loginAttempts = p.loginAttempts := by
  have hrun := call.run_withAttempts S p v p.loginAttempts p.clock hcall
  have hself : p.withAttempts p.loginAttempts p.clock = p := rfl
  rw [hself] at hrun
  rw [hrun]
  rfl

theorem marks_of_other (S : Deployment) (name : String) (x : Taken Platform PlatformRequest)
    (hcall : x.label.call.readsAttempts = false) :
    failsAt S name x = false ∧ succeedsAt S name x = false ∧ unlocksAt S name x = false := by
  unfold failsAt succeedsAt unlocksAt
  generalize x.label.call = call at hcall ⊢
  cases call with
  | signedIn bearer call => cases call <;> first | exact ⟨rfl, rfl, rfl⟩ | cases hcall
  | login username password => cases hcall
  | purgeStale => cases hcall
  | refresh | logout | changePassword | revokeMySession | purgeDeadSessions => exact ⟨rfl, rfl, rfl⟩

theorem rowStep_of_serve (S : Deployment) (p : Platform) (req : PlatformRequest) (name : String) :
    RowStep S name ⟨p, req, (serve S p req).2⟩ (p.loginAttempts name)
      ((serve S p req).2.loginAttempts name) := by
  by_cases hreads : req.call.readsAttempts = true
  · cases hcall : req.call with
    | login username password => exact rowStep_of_login hcall
    | signedIn bearer call =>
      cases call with
      | unlockUser userId => exact rowStep_of_unlock hcall
      | _ =>
        rw [hcall] at hreads
        cases hreads
    | purgeStale =>
      have hrow : (serve S p req).2.loginAttempts name =
          (p.loginAttempts name).filter fun attempt => !attempt.isStale S req.env.now := by
        unfold serve PlatformCall.run
        rw [hcall]
        rfl
      rw [hrow]
      refine RowStep.purged ?_ ?_ ?_
      · unfold failsAt
        rw [hcall]
      · unfold succeedsAt
        rw [hcall]
      · unfold unlocksAt
        rw [hcall]
    | refresh | logout | changePassword | revokeMySession | purgeDeadSessions =>
      rw [hcall] at hreads
      cases hreads
  · have hother : req.call.readsAttempts = false := by simpa using hreads
    obtain ⟨hfails, hsucceeds, hunlocks⟩ :=
      marks_of_other S name ⟨p, req, (serve S p req).2⟩ hother
    have hkept : (serve S p req).2.loginAttempts = p.loginAttempts :=
      run_attempts S p req.toVisit hother
    rw [hkept]
    exact RowStep.kept hfails hsucceeds hunlocks

theorem rowStep_of_steps {x : Taken Platform PlatformRequest}
    (h : PlatformSteps S x.before x.label x.after) (name : String) :
    RowStep S name x (x.before.loginAttempts name) (x.after.loginAttempts name) := by
  have hx : x = ⟨x.before, x.label, (serve S x.before x.label).2⟩ := by rw [← h.2]
  rw [hx]
  exact rowStep_of_serve S x.before x.label name

end

end NexaHR
