import NexaHR.Routers.Administration
import NexaHR.System.Installation

/-! # The platform as a system

All requests that sign somebody in or out or change what he may do, and every other request beside them, as
one step function. Time does not go back between two requests.

* `Elsewhere`: the operations of the database that create, change and close no account.
* `AccountCall`, `PlatformCall`: the requests, behind a bearer token or not.
* `serve`: the answer to a request and the platform after it.
* `PlatformRun`: a run from any platform in `init`.
* `platformRun_replay`: requests in the order of their times are a run.
* `officePlatform`: a new platform, where nobody is signed in.
-/

namespace NexaHR

open Foundations

set_option autoImplicit false

/-- The operation creates, changes or closes accounts. -/
def Operation.writesAccounts : Operation → Bool
  | createUser _ | updateUser _ _ | deleteUser _ | createPersonnel _ _ | importPersonnel _
  | updatePersonnel _ _ => true
  | _ => false

abbrev Elsewhere : Type := { op : Operation // op.writesAccounts = false }

inductive AccountCall
  | unlockUser (userId : Nat)
  | setCapabilities (userId : Nat) (capabilities : List Capability)
  | createUser (payload : UserCreate) (password : String)
  | updateUser (userId : Nat) (payload : UserUpdate) (password : Option String)
  | deleteUser (userId : Nat)
  | createPersonnel (payload : PersonnelFields) (account : Option (String × String))
  | importPersonnel (rows : List ImportRow) (passwords : String → String)
  | updatePersonnel (personnelId : Nat) (payload : PersonnelUpdate)
  | elsewhere (op : Elsewhere)

/-- The requests. The two purges are the nightly sweep's. -/
inductive PlatformCall
  | login (username password : String)
  | refresh (cookie : Option Token)
  | logout (cookie : Option Token)
  | changePassword (bearer : Option Token) (currentPassword newPassword : String)
  | revokeMySession (bearer : Option Token) (sessionId : Nat)
  | signedIn (bearer : Option Token) (call : AccountCall)
  | purgeStale
  | purgeDeadSessions

def AccountCall.run (S : Deployment) (p : Platform) (env : Env) (user : CurrentUser) :
    AccountCall → Answer
  | unlockUser userId => p.unlockUser env user userId
  | setCapabilities userId capabilities => NexaHR.setCapabilities p env user userId capabilities
  | createUser payload password => p.createUser S env user payload password
  | updateUser userId payload password => p.updateUser S env user userId payload password
  | deleteUser userId => p.deleteUser env user userId
  | createPersonnel payload account => p.createPersonnel S env user payload account
  | importPersonnel rows passwords => p.importPersonnel S env user rows passwords
  | updatePersonnel personnelId payload => p.updatePersonnel env user personnelId payload
  | elsewhere op => withDirectory p (op.val.run p.db (callerEnv p env user) user) id

structure PlatformRequest extends Visit where
  call : PlatformCall

def PlatformCall.run (S : Deployment) (p : Platform) (v : Visit) : PlatformCall → Answer
  | login username password => NexaHR.login S p v username password
  | refresh cookie => NexaHR.refresh S p v cookie
  | logout cookie => NexaHR.logout p v cookie
  | changePassword bearer currentPassword newPassword =>
    NexaHR.changePassword S p v bearer currentPassword newPassword
  | revokeMySession bearer sessionId => NexaHR.revokeMySession p v bearer sessionId
  | signedIn bearer call =>
    match signedInUser p v.env.now bearer false with
    | .error e => (.error e, p)
    | .ok user => call.run S p v.env user
  | purgeStale => (.ok .noContent, NexaHR.purgeStale S p v.env.now)
  | purgeDeadSessions => (.ok .noContent, NexaHR.purgeDeadSessions S p v.env.now)

/-- The answer to a request, and the platform after it. -/
def serve (S : Deployment) (p : Platform) (req : PlatformRequest) : Answer :=
  let answer := req.call.run S p req.toVisit
  (answer.1, { answer.2 with clock := req.env.now })

/-- The request came no earlier than the one before it, and led to `p'`. -/
def PlatformSteps (S : Deployment) (p : Platform) (req : PlatformRequest) (p' : Platform) : Prop :=
  p.clock ≤ req.env.now ∧ p' = (serve S p req).2

abbrev PlatformRun (S : Deployment) (init : Platform → Prop)
    (tr : List (Taken Platform PlatformRequest)) (p : Platform) : Prop :=
  Run init (PlatformSteps S) tr p

/-- The answer that was given at a step. -/
def answerOf (S : Deployment) (x : Taken Platform PlatformRequest) : Except HTTPException Reply :=
  (serve S x.before x.label).1

/-- The tokens that were handed out at a step. -/
def issuedAt (S : Deployment) (x : Taken Platform PlatformRequest) : List Token :=
  match answerOf S x with
  | .ok reply => reply.tokens
  | .error _ => []

/-! ## Replays -/

/-- The platform after a request. -/
def served (S : Deployment) (p : Platform) (req : PlatformRequest) : Platform := (serve S p req).2

/-- No request of the replay is earlier than the one before it. -/
def inOrder (S : Deployment) (p : Platform) (reqs : List PlatformRequest) : Bool :=
  (replay (served S) p reqs).all fun x => x.before.clock ≤ x.label.env.now

theorem platformRun_replay {S : Deployment} {init : Platform → Prop} {p : Platform}
    {reqs : List PlatformRequest} (hinit : init p) (horder : inOrder S p reqs = true) :
    PlatformRun S init (replay (served S) p reqs) (endState (served S) p reqs) := by
  apply run_replay hinit
  intro x hx
  have hclock := List.all_eq_true.mp horder x hx
  exact ⟨by simpa using hclock, after_replay hx⟩

/-! ## A new platform

The office as a platform: nobody is signed in, no login has failed, and every account has the password
"secret". The runs that show a property of the platform at work start here.
-/

/-- The settings as they come. The hasher is replaced by one that can be computed. -/
def ordinarySettings : Deployment where
  accessTokenExpireMinutes := 30
  refreshTokenExpireDays := 7
  sessionRetentionDays := 30
  loginMaxFailedAttempts := 5
  loginLockoutMinutes := 15
  loginAttemptWindowMinutes := 15
  hashPassword := id
  verifyPassword := fun password hash => password = hash

/-- The rows of `user_capabilities` for the given accounts. -/
def capabilityRows (held : List (Nat × Capability)) : Table UserCapability :=
  held.foldl
    (fun t row => t.insert
      (fun id => { id := id, userId := row.1, capability := row.2, grantedByUserId := none })
      fun _ => rfl)
    Table.empty

def newPlatform (db : Database) (held : List (Nat × Capability)) : Platform where
  db := db
  credentials := fun _ => ⟨"secret", false, 0⟩
  authSessions := Table.empty
  userCapabilities := capabilityRows held
  loginAttempts := fun _ => none
  drawn := 0
  clock := 0

/-- The account 4 of HR administers the office. -/
def officePlatform : Platform :=
  newPlatform (office fullChain)
    [(4, .manageUsers), (4, .managePersonnel), (4, .manageScoring), (4, .manageCapabilities)]

/-- The access token that the account got at its login. -/
def bearerOf (userId : Nat) (role : UserRole) (iat : Nat) : Option Token :=
  some
    { sub := userId
      role := role
      tv := 0
      type := .access
      iat := iat
      exp := iat + minutes ordinarySettings.accessTokenExpireMinutes
      jti := none }

/-- The refresh cookie that the account got then, with the identifier that was drawn for it. -/
def cookieOf (userId : Nat) (role : UserRole) (iat jti : Nat) : Token where
  sub := userId
  role := role
  tv := 0
  type := .refresh
  iat := iat
  exp := iat + days ordinarySettings.refreshTokenExpireDays
  jti := some jti

/-- A request at a time. -/
def requestAt (now : Nat) (call : PlatformCall) : PlatformRequest where
  env := { someDay with now := now }
  userAgent := none
  ip := none
  call := call

end NexaHR
