import NexaHR.Routers.Auth
import NexaHR.Services.Authorization

/-! # Accounts and capabilities

What the endpoints of `api/routers/users.py`, `personnel.py` and `administration.py` do beside their writes to
the database: the credentials, the sessions and the capabilities of the accounts they create, change, close or
delete. Each runs the directory's own endpoint with the capabilities that the caller holds here.
-/

namespace NexaHR

open Foundations

set_option autoImplicit false

/-- What the caller's endpoint reads: his capabilities are those of the table. -/
def callerEnv (p : Platform) (env : Env) (user : CurrentUser) : Env :=
  { env with capabilities := capabilitiesOf p user.id }

/-- An endpoint of the directory, followed by what it does to the platform around the database. -/
def withDirectory (p : Platform) (result : Except HTTPException Database)
    (around : Platform → Platform) : Answer :=
  match result with
  | .error e => (.error e, p)
  | .ok db => (.ok .noContent, around { p with db := db })

/-! ## Accounts -/

/-- A password that somebody else chose has to be changed. -/
def temporaryCredential (S : Deployment) (password : String) : Credential where
  passwordHash := S.hashPassword password
  mustChangePassword := true
  tokenVersion := 0

namespace Platform

def createUser (S : Deployment) (p : Platform) (env : Env) (user : CurrentUser) (payload : UserCreate)
    (password : String) : Answer :=
  let userId := p.db.users.seq + 1
  withDirectory p (NexaHR.createUser p.db (callerEnv p env user) user payload) fun written =>
    let created := written.withCredential userId (temporaryCredential S password)
    if payload.role = .hr then applyDefaultHrCapabilities created userId else created

/-- The update makes the account one of HR. -/
def entersHr (p : Platform) (userId : Nat) (payload : UserUpdate) : Bool :=
  (p.db.users.get? userId).any fun u => u.role ≠ .hr && payload.role = some .hr

def updateUser (S : Deployment) (p : Platform) (env : Env) (user : CurrentUser) (userId : Nat)
    (payload : UserUpdate) (password : Option String) : Answer :=
  withDirectory p (NexaHR.updateUser p.db (callerEnv p env user) user userId payload) fun written =>
    let granted :=
      if p.entersHr userId payload then applyDefaultHrCapabilities written userId else written
    match password with
    | none => granted
    | some password => endTokens granted env.now userId (S.hashPassword password) true

def deleteUser (p : Platform) (env : Env) (user : CurrentUser) (userId : Nat) : Answer :=
  withDirectory p (NexaHR.deleteUser p.db (callerEnv p env user) user userId) fun written =>
    revokeWhere
      { written with
        authSessions := written.authSessions.filter fun session => session.userId ≠ userId }
      fun row => row.userId = userId || row.grantedByUserId = some userId

def unlockUser (p : Platform) (env : Env) (user : CurrentUser) (userId : Nat) : Answer :=
  match (do
      requireCapability (callerEnv p env user) .manageUsers
      require (p.db.users.get? userId) userNotFound : Except HTTPException User) with
  | .error e => (.error e, p)
  | .ok u =>
    (.ok .noContent,
      (unlock p env.now u.username).2.log [accountEvent env user.id "account_unlocked"])

/-! ## Personnel -/

/-- The account comes with a password of its own. -/
def createPersonnel (S : Deployment) (p : Platform) (env : Env) (user : CurrentUser)
    (payload : PersonnelFields) (account : Option (String × String)) : Answer :=
  let userId := p.db.users.seq + 1
  withDirectory p
    (NexaHR.createPersonnel p.db (callerEnv p env user) user payload (account.map Prod.fst))
    fun written =>
      match account with
      | none => written
      | some (_, password) => written.withCredential userId (temporaryCredential S password)

/-- The accounts of the file get the passwords of their rows, given by login name. -/
def importPersonnel (S : Deployment) (p : Platform) (env : Env) (user : CurrentUser)
    (rows : List ImportRow) (passwords : String → String) : Answer :=
  withDirectory p (NexaHR.importPersonnel p.db (callerEnv p env user) user rows) fun written =>
    (written.db.users.rows.filter fun u => p.db.users.seq < u.id).foldl
      (fun q u => q.withCredential u.id (temporaryCredential S (passwords u.username))) written

/-- The account that leaves with its person: the first one that is linked to him, if it is active. -/
def closingAccount (p : Platform) (personnelId : Nat) (payload : PersonnelUpdate) : Option User :=
  match p.db.personnel.get? personnelId with
  | none => none
  | some person =>
    if person.isLeaving payload then
      (p.db.users.rows.find? fun u => u.personnelId = some person.id).filter User.isActive
    else none

/-- `_close_out_departure` ends the tokens of the account and keeps its password. -/
def updatePersonnel (p : Platform) (env : Env) (user : CurrentUser) (personnelId : Nat)
    (payload : PersonnelUpdate) : Answer :=
  withDirectory p (NexaHR.updatePersonnel p.db (callerEnv p env user) user personnelId payload)
    fun written =>
      match p.closingAccount personnelId payload with
      | none => written
      | some account =>
        endTokens written env.now account.id (p.credentials account.id).passwordHash
          (p.credentials account.id).mustChangePassword

end Platform

/-! ## Capabilities -/

/-- The capabilities in the order of their names. -/
def Capability.sorted : List Capability :=
  [.manageAi, .manageCapabilities, .manageIntegrations, .manageModules, .managePersonnel,
    .manageScoring, .manageUsers, .viewAuditLog, .viewDiagnostics]

/-- An active account other than the given one holds the capability. -/
def heldByAnother (p : Platform) (userId : Nat) (capability : Capability) : Bool :=
  p.db.users.rows.any fun u => u.isActive && u.id ≠ userId && hasCapability p u.id capability

/-- What `set_capabilities` asks, with the account that it is about. -/
def capabilityTarget (p : Platform) (env : Env) (user : CurrentUser) (userId : Nat)
    (desired : List Capability) : Except HTTPException User := do
  requireCapability (callerEnv p env user) .manageCapabilities
  let target ← require (p.db.users.get? userId) userNotFound
  ensure (target.role ≠ .employee)
    ⟨400, "کارمند عادی مجوز اداری نمی‌گیرد؛ اگر لازم است، نقشش را عوض کنید", none⟩
  let current := capabilitiesOf p userId
  ensure (userId = user.id → desired.all (current.contains ·) = true)
    ⟨403, "نمی‌توانید مجوزی را به حساب خودتان اضافه کنید؛ از یک مدیر سامانهٔ " ++
      "دیگر بخواهید این کار را انجام دهد. (گرفتنِ مجوز از خودتان آزاد است.)", none⟩
  ensure (.manageCapabilities ∈ current → .manageCapabilities ∉ desired →
      heldByAnother p userId .manageCapabilities = true)
    ⟨400, "این تنها حساب فعالی است که می‌تواند مجوز بدهد؛ ابتدا این مجوز را " ++
      "به کاربر دیگری بدهید، بعد از این یکی بگیرید", none⟩
  pure target

def setCapabilities (p : Platform) (env : Env) (user : CurrentUser) (userId : Nat)
    (desired : List Capability) : Answer :=
  match capabilityTarget p env user userId desired with
  | .error e => (.error e, p)
  | .ok target =>
    let current := capabilitiesOf p userId
    let kept := revokeWhere p fun row => row.userId = userId && !desired.contains row.capability
    (.ok (.capabilityHolder target (p.db.displayName target)
        (Capability.sorted.filter (desired.contains ·))),
      (grantAll kept userId (some user.id) (desired.dedup.filter fun c => !current.contains c)).log
        [accountEvent env user.id "capabilities_changed"])

end NexaHR
