import NexaHR.Routers.Guards
import NexaHR.Services.Transition

/-! # People, accounts, chains and units

`api/routers/users.py`, `evaluation_access.py`, `personnel.py` (with the Excel import of
`services/personnel_import.py`), `org_units.py` and `periods.py`: what is written outside the
records. Passwords, sessions and capabilities are left out. A field of an update that the request
does not set is `none`.
-/

namespace NexaHR

open Foundations

set_option autoImplicit false

def directoryEvent (env : Env) (user : CurrentUser) (eventType : String) : AuditLog where
  actorUserId := some user.id
  eventType := eventType
  createdAt := env.now

namespace Database

def log (db : Database) (entries : List AuditLog) : Database :=
  { db with auditLog := db.auditLog ++ entries }

end Database

/-! ## Accounts -/

structure UserCreate where
  username : String
  role : UserRole
  personnelId : Option Nat
  fullName : Option String

structure UserUpdate where
  role : Option UserRole := none
  isActive : Option Bool := none
  personnelId : Option (Option Nat) := none
  fullName : Option (Option String) := none

def duplicateUsername : HTTPException := ⟨400, "نام کاربری تکراری است", none⟩

def personnelNotSelectable : HTTPException := ⟨400, "پرسنل انتخاب‌شده یافت نشد", none⟩

def userNotFound : HTTPException := ⟨404, "کاربر یافت نشد", none⟩

def insertUser (db : Database) (username : String) (fullName : Option String) (role : UserRole)
    (personnelId : Option Nat) : Database :=
  { db with
    users :=
      db.users.insert
        (fun id =>
          { id := id
            username := username
            fullName := fullName
            role := role
            isActive := true
            personnelId := personnelId })
        fun _ => rfl }

def ensureUsernameIsFree (db : Database) (username : String) : Except HTTPException Unit :=
  ensure (db.users.rows.all (fun u => u.username ≠ username) = true) duplicateUsername

/-- The person exists and has no other active account. -/
def ensureLinkable (db : Database) (personnelId : Nat) (excludeUserId : Option Nat) :
    Except HTTPException Unit := do
  ensure ((db.personnel.get? personnelId).isSome = true) personnelNotSelectable
  ensurePersonnelHasOneAccount db personnelId excludeUserId

/-- What the link of a new account asks. -/
def ensureNewLink (db : Database) (personnelId : Option Nat) : Except HTTPException Unit :=
  match personnelId with
  | none => .ok ()
  | some personnelId => ensureLinkable db personnelId none

def createUser (db : Database) (env : Env) (user : CurrentUser) (p : UserCreate) :
    Except HTTPException Database := do
  requireCapability env .manageUsers
  ensure (¬(p.role = .employee ∧ p.personnelId = none))
    ⟨422, "برای نقش «کارمند» باید پرسنل متناظر انتخاب شود", none⟩
  ensureUsernameIsFree db p.username
  ensureNewLink db p.personnelId
  let created := insertUser db p.username (p.fullName.filter (· ≠ "")) p.role p.personnelId
  pure (created.log [directoryEvent env user "user_created"])

namespace User

/-- The account after an update. -/
def updated (u : User) (p : UserUpdate) : User :=
  { u with
    role := p.role.getD u.role
    isActive := p.isActive.getD u.isActive
    personnelId := p.personnelId.getD u.personnelId
    fullName := p.fullName.getD u.fullName }

/-- The update takes the account out of its role. -/
def leavesRole (u : User) (p : UserUpdate) : Bool := p.role.any (· ≠ u.role)

/-- The update switches the account off. -/
def getsDisabled (u : User) (p : UserUpdate) : Bool := p.isActive = some false && u.isActive

end User

/-- The person that an update links the account to. -/
def UserUpdate.link (p : UserUpdate) : Option Nat := p.personnelId.join

/-- What the link of an account to a person asks. The HR seats of open records are not asked
about. -/
def ensureMayLink (db : Database) (u : User) (p : UserUpdate) : Except HTTPException Unit :=
  match p.link with
  | none => .ok ()
  | some personnelId => do
    ensureLinkable db personnelId (some u.id)
    ensureUserLinkIsNotSelfEvaluation db u personnelId

def ensureNotOwnLockout (u : User) (user : CurrentUser) (p : UserUpdate) :
    Except HTTPException Unit := do
  ensure (¬(u.id = user.id ∧ p.isActive = some false))
    ⟨400, "نمی‌توانید حساب کاربری خودتان را غیرفعال کنید", none⟩
  ensure (¬(u.id = user.id ∧ p.role.any (· ≠ .hr) = true))
    ⟨400, "نمی‌توانید نقش «منابع انسانی» را از حساب خودتان بگیرید", none⟩

/-- An account that leaves its role or its service fills no seat of an open record. -/
def ensureSeatsAreKept (db : Database) (u : User) (p : UserUpdate) : Except HTTPException Unit :=
  if u.leavesRole p || u.getsDisabled p then
    ensureNoOpenChainSeat db u.id (if u.leavesRole p then "تغییر نقش" else "غیرفعال‌کردن این حساب")
  else .ok ()

def updateUser (db : Database) (env : Env) (user : CurrentUser) (userId : Nat) (p : UserUpdate) :
    Except HTTPException Database := do
  requireCapability env .manageUsers
  let u ← require (db.users.get? userId) userNotFound
  ensureNotOwnLockout u user p
  ensureSeatsAreKept db u p
  ensureMayLink db u p
  ensure (¬((u.updated p).role = .employee ∧ (u.updated p).personnelId = none))
    ⟨400, "برای نقش «کارمند» باید پرسنل متناظر انتخاب شود", none⟩
  pure
    (({ db with users := db.users.put (u.updated p) } : Database).log
      [directoryEvent env user "user_updated"])

/-- A foreign key of another row names the user. -/
def isReferenced (db : Database) (userId : Nat) : Bool :=
  (db.evaluationRecords.rows.any fun r =>
      userId ∈ r.chain.occupants || r.hrUserId = some userId ||
        r.acknowledgedByUserId = some userId || r.selfAssessmentInvitedByUserId = some userId ||
        r.submissionExtendedByUserId = some userId || r.objectionResolvedByUserId = some userId) ||
    (db.evaluationAccess.rows.any fun access =>
      userId ∈ access.chain.occupants || access.updatedByUserId = some userId) ||
    (db.evaluationComments.rows.any fun c => c.commenterUserId = userId) ||
    (db.indicatorFrameworks.rows.any fun f => f.createdByUserId = some userId) ||
    (db.scoringSchemes.rows.any fun scheme =>
      scheme.createdByUserId = some userId || scheme.activatedByUserId = some userId)

def deleteUser (db : Database) (env : Env) (user : CurrentUser) (userId : Nat) :
    Except HTTPException Database := do
  requireCapability env .manageUsers
  let u ← require (db.users.get? userId) userNotFound
  ensure (u.id ≠ user.id) ⟨400, "نمی‌توانید حساب کاربری خودتان را حذف کنید", none⟩
  ensure (db.auditLog.all (fun entry => entry.actorUserId ≠ some u.id) = true)
    ⟨409, "این حساب در گزارش رویدادها رد دارد و حذفش تاریخِ ثبت‌شده را از " ++
      "بین می‌برد. به‌جای حذف، آن را «غیرفعال» کنید: دسترسی‌اش بسته می‌شود " ++
      "و سابقه‌اش می‌ماند.", none⟩
  ensure (isReferenced db u.id = false)
    ⟨409, "این حساب هنوز در پرونده‌های ارزیابی یا زنجیرهٔ ارزیابیِ کسی " ++
      "استفاده می‌شود. ابتدا جای او را به فرد دیگری بسپارید، یا حساب را " ++
      "«غیرفعال» کنید.", none⟩
  pure
    (({ db with
        users := db.users.filter fun v => v.id ≠ u.id
        notifications := db.notifications.filter fun n => n.userId ≠ u.id } : Database).log
      [directoryEvent env user "user_deleted"])

/-! ## Access rows -/

structure EvaluationAccessUpsert where
  unitSupervisorUserId : Option Nat
  deputyUserId : Option Nat
  ceoUserId : Nat

def personnelNotFound : HTTPException := ⟨404, "پرسنل یافت نشد", none⟩

/-- `_ensure_active_user_with_role`. -/
def ensureActiveUserWithRole (db : Database) (seat : ChainSeat) (userId : Nat) :
    Except HTTPException Unit := do
  let u ← require ((db.users.get? userId).filter User.isActive)
    ⟨400, "کاربر انتخاب‌شده برای «" ++ seatLabel seat ++ "» یافت نشد یا غیرفعال است", none⟩
  ensure (mayActAt u.role (seatRole seat) = true)
    ⟨400, "کاربر انتخاب‌شده برای «" ++ seatLabel seat ++ "» نمی‌تواند در این مرحله قرار بگیرد", none⟩

def ensureSeatIsLive (db : Database) (seat : ChainSeat) (userId : Option Nat) :
    Except HTTPException Unit :=
  match userId with
  | none => .ok ()
  | some userId => ensureActiveUserWithRole db seat userId

/-- The person's access row becomes `row`, or is added under the next key. -/
def writeAccess (db : Database) (personnelId : Nat) (chain : Chain) (updatedByUserId : Nat) : Database :=
  match db.evaluationAccess.rows.find? fun access => access.personnelId = personnelId with
  | some access =>
    { db with
      evaluationAccess := db.evaluationAccess.put
        { access with chain := chain, updatedByUserId := some updatedByUserId } }
  | none =>
    { db with
      evaluationAccess := db.evaluationAccess.insert
        (fun id =>
          { id := id
            personnelId := personnelId
            chain := chain
            updatedByUserId := some updatedByUserId })
        fun _ => rfl }

def upsertAccess (db : Database) (env : Env) (user : CurrentUser) (personnelId : Nat)
    (p : EvaluationAccessUpsert) : Except HTTPException Database := do
  requireRoleOrCapability user env .hr .managePersonnel
  let personnel ← require (db.personnel.get? personnelId) personnelNotFound
  ensure (¬(personnel.isManager = true ∧ p.unitSupervisorUserId.isSome = true))
    ⟨400, "چون این فرد به‌عنوان «مدیر» علامت خورده است، نمی‌توان دسترسی مسئول واحد را برای او " ++
      "فعال کرد؛ این فرد مستقیماً توسط معاونت ارزیابی می‌شود.", none⟩
  ensureSeatIsLive db .unitSupervisor p.unitSupervisorUserId
  ensureSeatIsLive db .deputy p.deputyUserId
  ensureActiveUserWithRole db .ceo p.ceoUserId
  ensureEvaluatorsAreNotTheSubject db personnelId
    [p.unitSupervisorUserId, p.deputyUserId, some p.ceoUserId]
  let chain ← ensureChainStagesAreNotRedundant db p.unitSupervisorUserId p.deputyUserId p.ceoUserId
  pure ((writeAccess db personnelId chain user.id).log [directoryEvent env user "access_updated"])

/-! ## Personnel -/

structure PersonnelFields where
  personnelCode : String
  fullName : String
  jobTitle : String
  isManager : Bool
  orgUnit : String
  contractStartDate : Nat
  contractEndDate : Nat

def newPersonnel (p : PersonnelFields) (status : PersonnelStatus) (id : Nat) : Personnel where
  id := id
  personnelCode := p.personnelCode
  fullName := p.fullName
  jobTitle := p.jobTitle
  isManager := p.isManager
  orgUnit := p.orgUnit
  contractStartDate := p.contractStartDate
  contractEndDate := p.contractEndDate
  status := status
  separationDate := none
  separationReason := none

theorem newPersonnel_id (p : PersonnelFields) (status : PersonnelStatus) (id : Nat) :
    HasId.id (newPersonnel p status id) = id := rfl

def insertPersonnel (db : Database) (p : PersonnelFields) (status : PersonnelStatus) : Database :=
  { db with personnel := db.personnel.insert (newPersonnel p status) (newPersonnel_id p status) }

def duplicatePersonnelCode : HTTPException := ⟨400, "کد پرسنلی تکراری است", none⟩

def contractDatesRefusal (statusCode : Nat) : HTTPException :=
  ⟨statusCode, "تاریخ پایان قرارداد باید بعد از تاریخ شروع قرارداد باشد", none⟩

/-- The account that comes with a new person. -/
def insertOwnAccount (db : Database) (username : Option String) (personnelId : Nat) : Database :=
  match username with
  | none => db
  | some username => insertUser db username none .employee (some personnelId)

def ensureNewUsername (db : Database) (username : Option String) : Except HTTPException Unit :=
  match username with
  | none => .ok ()
  | some username => ensureUsernameIsFree db username

def createPersonnel (db : Database) (env : Env) (user : CurrentUser) (p : PersonnelFields)
    (username : Option String) : Except HTTPException Database := do
  requireRoleOrCapability user env .hr .managePersonnel
  ensure (p.contractStartDate < p.contractEndDate) (contractDatesRefusal 422)
  ensure (db.personnel.rows.all (fun q => q.personnelCode ≠ p.personnelCode) = true)
    duplicatePersonnelCode
  ensureNewUsername db username
  let created := insertPersonnel db p .active
  let withAccount := insertOwnAccount created username created.personnel.seq
  pure
    (withAccount.log
      (directoryEvent env user "personnel_created" ::
        username.toList.map fun _ => directoryEvent env user "user_created"))

/-- A row of the file, with its cells parsed and the names of its chain resolved to users. Excel makes a date
cell a moment; its second of the day is compared and then lost in the column. -/
structure ImportRow where
  fields : PersonnelFields
  status : PersonnelStatus
  username : Option String
  unitSupervisorUserId : Option Nat
  deputyUserId : Option Nat
  ceoUserId : Option Nat
  startSecond : Nat := 0
  endSecond : Nat := 0

/-- What `_resolve_chain` finds for a seat: an active user whose role may act there, or nobody. -/
def isResolved (db : Database) (seat : ChainSeat) (userId : Option Nat) : Bool :=
  userId.all fun k => (db.users.get? k).any fun u => u.isActive && mayActAt u.role (seatRole seat)

namespace ImportRow

/-- The chain that is written for the row: the chief executive and at least one seat below. -/
def chain (row : ImportRow) : Option Chain :=
  match row.ceoUserId with
  | none => none
  | some ceoUserId =>
    if row.unitSupervisorUserId.isSome || row.deputyUserId.isSome then
      if h : row.unitSupervisorUserId = none ∨ row.deputyUserId = none ∨
          row.unitSupervisorUserId ≠ row.deputyUserId then
        if h' : row.deputyUserId ≠ some ceoUserId then
          some ⟨row.unitSupervisorUserId, row.deputyUserId, ceoUserId, h, h'⟩
        else none
      else none
    else none

def isRedundant (row : ImportRow) : Bool :=
  (row.unitSupervisorUserId.isSome && row.unitSupervisorUserId = row.deputyUserId) ||
    (row.deputyUserId.isSome && row.deputyUserId = row.ceoUserId)

/-- The contract ends after it starts, as moments. -/
def datesInOrder (row : ImportRow) : Bool :=
  row.fields.contractStartDate < row.fields.contractEndDate ||
    (row.fields.contractStartDate = row.fields.contractEndDate && row.startSecond < row.endSecond)

/-- The row has no errors, given the rows above it in the file. -/
def ok (db : Database) (above : List ImportRow) (row : ImportRow) : Bool :=
  decide (row.fields.personnelCode ≠ "" ∧ row.fields.fullName ≠ "" ∧ row.fields.jobTitle ≠ "" ∧
      row.fields.orgUnit ≠ "" ∧ row.datesInOrder = true) &&
    db.personnel.rows.all (fun person => person.personnelCode ≠ row.fields.personnelCode) &&
    above.all (fun other => other.fields.personnelCode ≠ row.fields.personnelCode) &&
    row.username.all (fun username =>
      db.users.rows.all (fun u => u.username ≠ username) &&
        above.all fun other => other.username ≠ some username) &&
    isResolved db .unitSupervisor row.unitSupervisorUserId &&
    isResolved db .deputy row.deputyUserId && isResolved db .ceo row.ceoUserId &&
    !(row.fields.isManager && row.unitSupervisorUserId.isSome) && !row.isRedundant

end ImportRow

/-- The rows of the file without errors, in order. -/
def validRows (db : Database) : List ImportRow → List ImportRow → List ImportRow
  | _, [] => []
  | above, row :: rows =>
    if row.ok db above then row :: validRows db (row :: above) rows
    else validRows db (row :: above) rows

/-- The access row that comes with an imported person. -/
def insertAccess (db : Database) (chain : Option Chain) (personnelId updatedByUserId : Nat) : Database :=
  match chain with
  | none => db
  | some chain =>
    { db with
      evaluationAccess := db.evaluationAccess.insert
        (fun id =>
          { id := id
            personnelId := personnelId
            chain := chain
            updatedByUserId := some updatedByUserId })
        fun _ => rfl }

/-- `commit_import`, for one row. -/
def importRow (env : Env) (user : CurrentUser) (db : Database) (row : ImportRow) : Database :=
  let created := insertPersonnel db row.fields row.status
  let personnelId := created.personnel.seq
  let chained := insertAccess created row.chain personnelId user.id
  (insertOwnAccount chained row.username personnelId).log
    (directoryEvent env user "personnel_created" ::
      ((row.chain.toList.map fun _ => directoryEvent env user "evaluation_access_set") ++
        row.username.toList.map fun _ => directoryEvent env user "user_created"))

def importPersonnel (db : Database) (env : Env) (user : CurrentUser) (rows : List ImportRow) :
    Except HTTPException Database := do
  requireRoleOrCapability user env .hr .managePersonnel
  ensure (rows ≠ []) ⟨400, "فایل هیچ ردیف داده‌ای ندارد.", none⟩
  pure
    (((validRows db [] rows).foldl (importRow env user) db).log
      [directoryEvent env user "personnel_imported"])

structure PersonnelUpdate where
  personnelCode : Option String := none
  fullName : Option String := none
  jobTitle : Option String := none
  isManager : Option Bool := none
  orgUnit : Option String := none
  contractStartDate : Option Nat := none
  contractEndDate : Option Nat := none
  status : Option PersonnelStatus := none
  separationReason : Option (Option SeparationReason) := none
  separationDate : Option (Option Nat) := none

namespace Personnel

/-- The update takes the person out of the organisation. -/
def isLeaving (person : Personnel) (p : PersonnelUpdate) : Bool :=
  p.status = some .inactive && person.status ≠ .inactive

/-- The person after an update. Leaving sets a date, coming back clears date and reason. -/
def updated (person : Personnel) (env : Env) (p : PersonnelUpdate) : Personnel :=
  let separationDate :=
    if p.status = some .active then none
    else if person.isLeaving p then some ((p.separationDate.join).getD env.today)
    else p.separationDate.getD person.separationDate
  { person with
    personnelCode := p.personnelCode.getD person.personnelCode
    fullName := p.fullName.getD person.fullName
    jobTitle := p.jobTitle.getD person.jobTitle
    isManager := p.isManager.getD person.isManager
    orgUnit := p.orgUnit.getD person.orgUnit
    contractStartDate := p.contractStartDate.getD person.contractStartDate
    contractEndDate := p.contractEndDate.getD person.contractEndDate
    status := p.status.getD person.status
    separationDate := separationDate
    separationReason :=
      if p.status = some .active then none else p.separationReason.getD person.separationReason }

end Personnel

/-- The open record of a person who leaves is cancelled. -/
def cancelOnDeparture (db : Database) (env : Env) (user : CurrentUser) (person : Personnel) :
    Except HTTPException Database :=
  match db.evaluationRecords.rows.find? fun r => r.subjectPersonnelId = person.id && r.isOpen with
  | none => .ok db
  | some r => do
    let reason := (person.separationReason.map SeparationReason.value).getD "—"
    let w ← applyTransition db env r .cancelOnSeparation user nothingBefore
    pure
      ({ w with
          comments :=
            [{ commenterUserId := user.id
               stage := .hrReview
               commentText := "لغو خودکار — پرسنل از سازمان خارج شد (علت: " ++ reason ++ ")" }]
          auditLog := recordEvent env user "evaluation_cancelled_on_separation" r :: w.auditLog }.commit db)

/-- The account of a person who leaves is switched off, and its vacated seats are reported. -/
def closeAccount (db : Database) (env : Env) (user : CurrentUser) (person : Personnel) : Database :=
  match db.users.rows.find? fun u => u.personnelId = some person.id with
  | none => db
  | some account =>
    let closed :=
      if account.isActive then
        ({ db with users := db.users.put { account with isActive := false } } : Database).log
          [directoryEvent env user "user_deactivated_on_separation"]
      else db
    { closed with
      notifications :=
        closed.notifications ++ notifyVacatedSeats closed env account.id person.fullName }

/-- `_close_out_departure`. -/
def closeOutDeparture (db : Database) (env : Env) (user : CurrentUser) (person : Personnel) :
    Except HTTPException Database := do
  let cancelled ← cancelOnDeparture db env user person
  pure (closeAccount cancelled env user person)

/-- What leaving entails, for an update that takes the person out. -/
def closeOutIfLeaving (db : Database) (env : Env) (user : CurrentUser) (leaving : Bool)
    (person : Personnel) : Except HTTPException Database :=
  if leaving then closeOutDeparture db env user person else .ok db

/-- A person who becomes a manager has no supervisor in the chain. -/
def clearManagersSupervisor (db : Database) (env : Env) (user : CurrentUser) (person : Personnel) :
    Database :=
  match db.evaluationAccess.rows.find? fun access => access.personnelId = person.id with
  | none => db
  | some access =>
    if person.isManager && access.chain.unitSupervisorUserId.isSome then
      ({ db with
          evaluationAccess := db.evaluationAccess.put
            { access with chain := access.chain.clearSupervisor, updatedByUserId := some user.id } } :
          Database).log
        [directoryEvent env user "access_supervisor_cleared_on_manager_title"]
    else db

def ensureManagerFlagMayChange (db : Database) (person : Personnel) (p : PersonnelUpdate) :
    Except HTTPException Unit :=
  ensure (p.isManager.any (· ≠ person.isManager) = true →
      db.evaluationRecords.rows.all (fun r => ¬(r.subjectPersonnelId = person.id ∧ r.isOpen = true)) = true)
    ⟨400, "این پرسنل ارزیابی باز (نهایی‌نشده) دارد؛ ابتدا آن را نهایی یا لغو کنید و سپس " ++
      "وضعیت «مدیر» را تغییر دهید", none⟩

def updatePersonnel (db : Database) (env : Env) (user : CurrentUser) (personnelId : Nat)
    (p : PersonnelUpdate) : Except HTTPException Database := do
  requireRoleOrCapability user env .hr .managePersonnel
  let person ← require (db.personnel.get? personnelId) personnelNotFound
  ensure (p.personnelCode.all (fun code => code = person.personnelCode ||
      db.personnel.rows.all (fun q => q.personnelCode ≠ code)) = true) duplicatePersonnelCode
  ensureManagerFlagMayChange db person p
  ensure (¬(person.isLeaving p = true ∧ p.separationReason.join = none))
    ⟨400, "برای غیرفعال‌کردن پرسنل باید علت خروج مشخص شود", none⟩
  let updated := person.updated env p
  ensure (updated.contractStartDate < updated.contractEndDate) (contractDatesRefusal 400)
  let written :=
    ({ db with personnel := db.personnel.put updated } : Database).log
      [directoryEvent env user "personnel_updated"]
  let closed ← closeOutIfLeaving written env user (person.isLeaving p) updated
  pure (clearManagersSupervisor closed env user updated)

/-! ## Units -/

structure OrgUnitUpdate where
  site : Option (Option String) := none
  name : Option String := none
  isActive : Option Bool := none
  isHrUnit : Option Bool := none

def duplicateUnit : HTTPException := ⟨400, "این واحد در همین محل از قبل تعریف شده است", none⟩

def unitNotFound : HTTPException := ⟨404, "واحد یافت نشد", none⟩

/-- What the schema refuses; a site may be empty. -/
def siteErrors (site : Option String) : List String :=
  if 100 < (stripWhitespace (site.getD "")).length then
    lengthError "site" (stripWhitespace (site.getD "")) 100
  else []

def unitNameErrors (name : String) : List String := lengthError "name" (stripWhitespace name) 150

def ensurePayloadFits (errors : List String) : Except HTTPException Unit :=
  ensure (errors = []) ⟨422, persianValidationMessage errors, none⟩

/-- `(site or "").strip() or None` -/
def givenSite (site : Option String) : Option String :=
  (some (strip (stripWhitespace (site.getD "")))).filter (· ≠ "")

/-- The name of a unit as the endpoints store it. -/
def givenUnitName (name : String) : String := strip (stripWhitespace name)

/-- `uq_org_unit_site_name`: two units without a site are distinct to the constraint, whatever their names. -/
def ensureUnitIsFree (db : Database) (site : Option String) (name : String) (exceptId : Option Nat) :
    Except HTTPException Unit :=
  ensure (db.orgUnits.rows.all (fun unit =>
      ¬(site ≠ none ∧ unit.site = site ∧ unit.name = name ∧ some unit.id ≠ exceptId)) = true) duplicateUnit

def insertOrgUnit (db : Database) (site : Option String) (name : String) : Database :=
  { db with
    orgUnits := db.orgUnits.insert
      (fun id => { id := id, site := site, name := name, isActive := true, isHrUnit := false })
      fun _ => rfl }

def createOrgUnit (db : Database) (env : Env) (user : CurrentUser) (site : Option String)
    (name : String) : Except HTTPException Database := do
  requireRoleOrCapability user env .hr .managePersonnel
  ensurePayloadFits (siteErrors site ++ unitNameErrors name)
  ensureUnitIsFree db (givenSite site) (givenUnitName name) none
  pure
    ((insertOrgUnit db (givenSite site) (givenUnitName name)).log
      [directoryEvent env user "org_unit_created"])

def OrgUnitUpdate.errors (p : OrgUnitUpdate) : List String :=
  (p.site.map siteErrors).getD [] ++ (p.name.map unitNameErrors).getD []

namespace OrgUnit

def updated (unit : OrgUnit) (p : OrgUnitUpdate) : OrgUnit :=
  { unit with
    site := (p.site.map givenSite).getD unit.site
    name := (p.name.map givenUnitName).getD unit.name
    isActive := p.isActive.getD unit.isActive
    isHrUnit := p.isHrUnit.getD unit.isHrUnit }

end OrgUnit

/-- The people of a renamed unit move with its name. -/
def moveUnit (oldFullName newFullName : String) (person : Personnel) : Personnel :=
  if person.orgUnit = oldFullName then { person with orgUnit := newFullName } else person

theorem moveUnit_id (oldFullName newFullName : String) (person : Personnel) :
    HasId.id (moveUnit oldFullName newFullName person) = HasId.id person := by
  unfold moveUnit
  split <;> rfl

section

variable {old new : String} {person : Personnel}

theorem moveUnit_member (h : person.orgUnit = old) : (moveUnit old new person).orgUnit = new := by
  unfold moveUnit
  rw [if_pos h]

theorem moveUnit_other (h : person.orgUnit ≠ old) : moveUnit old new person = person := by
  unfold moveUnit
  rw [if_neg h]

theorem moveUnit_eq (old new : String) (person : Personnel) :
    moveUnit old new person = { person with orgUnit := (moveUnit old new person).orgUnit } := by
  unfold moveUnit
  split <;> rfl

end

/-- A name that is too long for the people who move fails in their column. -/
def ensureNameFitsPeople (db : Database) (oldFullName newFullName : String) : Except HTTPException Unit :=
  ensure (newFullName ≠ oldFullName → db.personnel.rows.all (fun person => person.orgUnit ≠ oldFullName) = true ∨
    newFullName.length ≤ 150) internalServerError

/-- The unit becomes `updated`, and its people go with it. -/
def renameOrgUnit (db : Database) (unit updated : OrgUnit) : Database :=
  { db with
    orgUnits := db.orgUnits.put updated
    personnel := db.personnel.map (moveUnit unit.fullName updated.fullName)
      (moveUnit_id unit.fullName updated.fullName) }

def updateOrgUnit (db : Database) (env : Env) (user : CurrentUser) (unitId : Nat)
    (p : OrgUnitUpdate) : Except HTTPException Database := do
  requireRoleOrCapability user env .hr .managePersonnel
  ensurePayloadFits p.errors
  let unit ← require (db.orgUnits.get? unitId) unitNotFound
  ensureUnitIsFree db (unit.updated p).site (unit.updated p).name (some unit.id)
  ensureNameFitsPeople db unit.fullName (unit.updated p).fullName
  pure ((renameOrgUnit db unit (unit.updated p)).log [directoryEvent env user "org_unit_updated"])

def deleteOrgUnit (db : Database) (env : Env) (user : CurrentUser) (unitId : Nat) :
    Except HTTPException Database := do
  requireRoleOrCapability user env .hr .managePersonnel
  let unit ← require (db.orgUnits.get? unitId) unitNotFound
  let inUse := (db.personnel.rows.filter fun person => person.orgUnit = unit.fullName).length
  ensure (inUse = 0)
    ⟨409, toString inUse ++ " نفر در این واحد ثبت شده‌اند. برای کنار گذاشتنش از فرم‌های " ++
      "تازه، «غیرفعال»‌اش کنید — این‌طور سابقهٔ گزارش‌ها هم دست‌نخورده می‌ماند.", none⟩
  pure
    (({ db with orgUnits := db.orgUnits.filter fun other => other.id ≠ unit.id } : Database).log
      [directoryEvent env user "org_unit_deleted"])

/-! ### What the three did -/

section

variable {db db' : Database} {env : Env} {user : CurrentUser}

/-- No other unit of the site has the name. -/
def UnitIsFree (db : Database) (site : Option String) (name : String) (exceptId : Option Nat) : Prop :=
  site ≠ none → ∀ unit ∈ db.orgUnits, unit.site = site → unit.name = name → some unit.id = exceptId

theorem ensureUnitIsFree_eq_ok {site : Option String} {name : String} {exceptId : Option Nat} {x : Unit} :
    ensureUnitIsFree db site name exceptId = .ok x ↔ UnitIsFree db site name exceptId := by
  unfold ensureUnitIsFree UnitIsFree
  rw [ensure_eq_ok, List.all_eq_true]
  constructor
  · intro h hsite unit hunit heq hname
    have hfree := h unit hunit
    rw [decide_eq_true_eq] at hfree
    by_contra hother
    exact hfree ⟨hsite, heq, hname, hother⟩
  · intro h unit hunit
    rw [decide_eq_true_eq]
    rintro ⟨hsite, heq, hname, hother⟩
    exact hother (h hsite unit hunit heq hname)

theorem createOrgUnit_ok {site : Option String} {name : String}
    (h : createOrgUnit db env user site name = .ok db') :
    UnitIsFree db (givenSite site) (givenUnitName name) none ∧
      ∃ entries, db' = (insertOrgUnit db (givenSite site) (givenUnitName name)).log entries := by
  unfold createOrgUnit at h
  simp only [bind_eq_ok, pure_eq_ok, ensureUnitIsFree_eq_ok] at h
  obtain ⟨-, -, -, -, -, hfree, rfl⟩ := h
  exact ⟨hfree, _, rfl⟩

theorem updateOrgUnit_ok {unitId : Nat} {p : OrgUnitUpdate}
    (h : updateOrgUnit db env user unitId p = .ok db') :
    ∃ unit, db.orgUnits.get? unitId = some unit ∧
      UnitIsFree db (unit.updated p).site (unit.updated p).name (some unit.id) ∧
      ((unit.updated p).fullName ≠ unit.fullName → (∀ person ∈ db.personnel, person.orgUnit ≠ unit.fullName) ∨
        (unit.updated p).fullName.length ≤ 150) ∧
      ∃ entries, db' = (renameOrgUnit db unit (unit.updated p)).log entries := by
  unfold updateOrgUnit ensureNameFitsPeople at h
  simp only [bind_eq_ok, pure_eq_ok, require_eq_ok, ensureUnitIsFree_eq_ok, ensure_eq_ok, List.all_eq_true,
    decide_eq_true_eq] at h
  obtain ⟨-, -, -, -, unit, hget, -, hfree, -, hfits, rfl⟩ := h
  exact ⟨unit, hget, hfree, hfits, _, rfl⟩

theorem mem_renameOrgUnit {unit updated : OrgUnit} {person : Personnel} :
    person ∈ (renameOrgUnit db unit updated).personnel ↔
      ∃ old ∈ db.personnel, moveUnit unit.fullName updated.fullName old = person :=
  @Table.mem_map _ _ db.personnel _ (moveUnit_id unit.fullName updated.fullName) person

theorem deleteOrgUnit_ok {unitId : Nat} (h : deleteOrgUnit db env user unitId = .ok db') :
    ∃ unit, db.orgUnits.get? unitId = some unit ∧ (∀ person ∈ db.personnel, person.orgUnit ≠ unit.fullName) ∧
      ∃ entries,
        db' = ({ db with orgUnits := db.orgUnits.filter fun other => other.id ≠ unit.id } : Database).log entries := by
  unfold deleteOrgUnit at h
  simp only [bind_eq_ok, pure_eq_ok, require_eq_ok, ensure_eq_ok, List.length_eq_zero_iff,
    List.filter_eq_nil_iff, decide_eq_true_eq] at h
  obtain ⟨-, -, unit, hget, -, hempty, rfl⟩ := h
  exact ⟨unit, hget, hempty, _, rfl⟩

end

/-! ## Periods -/

def createPeriod (db : Database) (env : Env) (user : CurrentUser) (name : String)
    (startsOn endsOn : Nat) : Except HTTPException Database := do
  requireRoles user [.hr]
  ensureModuleEnabled env .periods
  let alreadyOpen := db.evaluationPeriods.rows.find? fun period => period.status = .open
  ensure (alreadyOpen = none)
    ⟨400, "دوره «" ++ (alreadyOpen.map EvaluationPeriod.name).getD "" ++
      "» هنوز باز است؛ ابتدا آن را ببندید", none⟩
  let evaluatorIds := activeUserIds db fun u => u.role = .unitSupervisor || u.role = .deputy
  pure
    (({ db with
        evaluationPeriods := db.evaluationPeriods.insert
          (fun id =>
            { id := id, name := name, startsOn := startsOn, endsOn := endsOn, status := .open })
          fun _ => rfl
        notifications := db.notifications ++
          notify env evaluatorIds "period_opened"
            ("دوره ارزیابی «" ++ name ++ "» آغاز شد؛ ارزیابی افراد زیرمجموعه خود را شروع کنید") none
            (some "/") } : Database).log [directoryEvent env user "period_created"])

def updatePeriod (db : Database) (env : Env) (user : CurrentUser) (periodId : Nat)
    (name : Option String) (startsOn endsOn : Option Nat) : Except HTTPException Database := do
  requireRoles user [.hr]
  ensureModuleEnabled env .periods
  let period ← require (db.evaluationPeriods.get? periodId) ⟨404, "دوره یافت نشد", none⟩
  let updated : EvaluationPeriod :=
    { period with
      name := name.getD period.name
      startsOn := startsOn.getD period.startsOn
      endsOn := endsOn.getD period.endsOn }
  ensure (updated.startsOn < updated.endsOn)
    ⟨400, "تاریخ پایان دوره باید بعد از تاریخ شروع باشد", none⟩
  ensure (db.evaluationPeriods.rows.all (fun other =>
      ¬(other.name = updated.name ∧ other.id ≠ period.id)) = true)
    ⟨400, "دوره‌ای با این نام از قبل هست", none⟩
  pure
    (({ db with evaluationPeriods := db.evaluationPeriods.put updated } : Database).log
      [directoryEvent env user "period_updated"])

def closePeriod (db : Database) (env : Env) (user : CurrentUser) (periodId : Nat) (force : Bool) :
    Except HTTPException Database := do
  requireRoles user [.hr]
  let period ← require (db.evaluationPeriods.get? periodId) ⟨404, "دوره ارزیابی یافت نشد", none⟩
  ensure (period.status = .open) ⟨400, "این دوره قبلاً بسته شده است", none⟩
  let openCases :=
    (db.evaluationRecords.rows.filter fun r => r.periodId = some period.id && r.isOpen).length
  ensure (openCases = 0 ∨ force = true)
    ⟨409, "این دوره " ++ toString openCases ++ " پروندهٔ باز دارد. اگر دوره بسته شود، " ++
      "آن‌ها در گردش‌کار می‌مانند و بعداً زیر یک دورهٔ بسته نهایی می‌شوند. " ++
      "برای بستنِ آگاهانه، درخواست را با force تکرار کنید.", none⟩
  pure
    (({ db with evaluationPeriods := db.evaluationPeriods.put { period with status := .closed } } :
        Database).log [directoryEvent env user "period_closed"])

def deletePeriod (db : Database) (env : Env) (user : CurrentUser) (periodId : Nat) :
    Except HTTPException Database := do
  requireRoles user [.hr]
  let period ← require (db.evaluationPeriods.get? periodId) ⟨404, "دوره یافت نشد", none⟩
  let attached := (db.evaluationRecords.rows.filter fun r => r.periodId = some period.id).length
  ensure (attached = 0)
    ⟨409, "این دوره " ++ toString attached ++ " پروندهٔ ارزیابی دارد و قابل حذف نیست. " ++
      "اگر دوره تمام شده، «بستن» همان کاری را می‌کند که لازم دارید.", none⟩
  pure
    (({ db with
        evaluationPeriods := db.evaluationPeriods.filter fun other => other.id ≠ period.id } :
        Database).log [directoryEvent env user "period_deleted"])

end NexaHR
