import NexaHR.Services.PersonnelImport

/-! # The bodies of the requests about people

`api/routers/personnel.py` with `schemas/personnel.py`: what the schemas make of a body before the endpoint
runs. The endpoints themselves are those of the directory.

* `PersonnelCreate`, `PersonnelPatch`, `Upload`: the bodies.
* `createPersonnelRequest`, `updatePersonnelRequest`, `commitPersonnelImport`: the endpoints on them.
-/

namespace NexaHR

open Foundations

set_option autoImplicit false

/-! ## Creation -/

structure PersonnelAccountCreate where
  username : String
  password : String

structure PersonnelCreate where
  personnelCode : String
  fullName : String
  jobTitle : String
  isManager : Bool := false
  orgUnit : String
  contractStartDate : Nat
  contractEndDate : Nat
  account : Option PersonnelAccountCreate := none

/-- `_USERNAME_PATTERN` -/
def fitsUsernamePattern (username : String) : Bool :=
  3 ≤ username.length && username.length ≤ 64 &&
    username.toList.all fun c => c.isAlphanum || c = '_' || c = '.' || c = '-'

namespace PersonnelAccountCreate

def errors (account : PersonnelAccountCreate) : List String :=
  (if fitsUsernamePattern (stripWhitespace account.username) then [] else ["مقدار «" ++ "نام کاربری" ++ "» معتبر نیست"]) ++
    (if (stripWhitespace account.password).length < 10 then
      ["«" ++ "password" ++ "» کوتاه‌تر از حد مجاز است (حداقل " ++ toString 10 ++ " نویسه)"] else [])

end PersonnelAccountCreate

/-- The errors of a text of a person; the schema strips it first. -/
def textErrors (label : String) (value : String) (maxLength : Nat) : List String :=
  lengthError label (stripWhitespace value) maxLength

namespace PersonnelCreate

def errors (p : PersonnelCreate) : List String :=
  textErrors "personnel_code" p.personnelCode 50 ++ textErrors "نام و نام خانوادگی" p.fullName 200 ++
    textErrors "عنوان شغلی" p.jobTitle 150 ++ textErrors "واحد سازمانی" p.orgUnit 150 ++
    (p.account.map PersonnelAccountCreate.errors).getD []

/-- The fields as the schema leaves them. -/
def fields (p : PersonnelCreate) : PersonnelFields where
  personnelCode := stripWhitespace p.personnelCode
  fullName := stripWhitespace p.fullName
  jobTitle := stripWhitespace p.jobTitle
  isManager := p.isManager
  orgUnit := stripWhitespace p.orgUnit
  contractStartDate := p.contractStartDate
  contractEndDate := p.contractEndDate

end PersonnelCreate

/-- `create_personnel` -/
def createPersonnelRequest (db : Database) (env : Env) (user : CurrentUser) (p : PersonnelCreate) :
    Except HTTPException Database := do
  requireRoleOrCapability user env .hr .managePersonnel
  ensurePayloadFits p.errors
  createPersonnel db env user p.fields (p.account.map fun account => stripWhitespace account.username)

/-! ## Updates -/

/-- A field that is not given is `none`, one that is given as null `some none`. -/
structure PersonnelPatch where
  personnelCode : Option (Option String) := none
  fullName : Option (Option String) := none
  jobTitle : Option (Option String) := none
  isManager : Option (Option Bool) := none
  orgUnit : Option (Option String) := none
  contractStartDate : Option (Option Nat) := none
  contractEndDate : Option (Option Nat) := none
  status : Option (Option PersonnelStatus) := none
  separationReason : Option (Option SeparationReason) := none
  separationDate : Option (Option Nat) := none

namespace PersonnelPatch

def errors (p : PersonnelPatch) : List String :=
  ((p.personnelCode.join.map fun s => textErrors "personnel_code" s 50).getD []) ++
    ((p.fullName.join.map fun s => textErrors "نام و نام خانوادگی" s 200).getD []) ++
    ((p.jobTitle.join.map fun s => textErrors "عنوان شغلی" s 150).getD []) ++
    ((p.orgUnit.join.map fun s => textErrors "واحد سازمانی" s 150).getD [])

/-- A column that must not be null is given as null. -/
def setsNull (p : PersonnelPatch) : Bool :=
  p.personnelCode = some none || p.fullName = some none || p.jobTitle = some none || p.isManager = some none ||
    p.orgUnit = some none || p.contractStartDate = some none || p.contractEndDate = some none ||
    p.status = some none

/-- The update without its nulls. -/
def update (p : PersonnelPatch) : PersonnelUpdate where
  personnelCode := p.personnelCode.join.map stripWhitespace
  fullName := p.fullName.join.map stripWhitespace
  jobTitle := p.jobTitle.join.map stripWhitespace
  isManager := p.isManager.join
  orgUnit := p.orgUnit.join.map stripWhitespace
  contractStartDate := p.contractStartDate.join
  contractEndDate := p.contractEndDate.join
  status := p.status.join
  separationReason := p.separationReason
  separationDate := p.separationDate

end PersonnelPatch

/-- What an update with a null is refused with: what the endpoint checks first, and the error of the column
at last. The flag of a manager that becomes null counts as a change, and a null date cannot be compared. -/
def refuseNull (db : Database) (env : Env) (person : Personnel) (p : PersonnelPatch) :
    Except HTTPException Database := do
  ensure (p.update.personnelCode.all (fun code => code = person.personnelCode ||
      db.personnel.rows.all (fun q => q.personnelCode ≠ code)) = true) duplicatePersonnelCode
  ensureManagerFlagMayChange db person
    { p.update with isManager := p.isManager.map fun flag => flag.getD (!person.isManager) }
  ensure (¬(person.isLeaving p.update = true ∧ p.separationReason.join = none))
    ⟨400, "برای غیرفعال‌کردن پرسنل باید علت خروج مشخص شود", none⟩
  ensure (p.contractStartDate ≠ some none ∧ p.contractEndDate ≠ some none) internalServerError
  ensure ((person.updated env p.update).contractStartDate < (person.updated env p.update).contractEndDate)
    (contractDatesRefusal 400)
  .error internalServerError

/-- `update_personnel` -/
def updatePersonnelRequest (db : Database) (env : Env) (user : CurrentUser) (personnelId : Nat)
    (p : PersonnelPatch) : Except HTTPException Database := do
  requireRoleOrCapability user env .hr .managePersonnel
  ensurePayloadFits p.errors
  if p.setsNull then do
    let person ← require (db.personnel.get? personnelId) personnelNotFound
    refuseNull db env person p
  else updatePersonnel db env user personnelId p.update

/-! ## Import -/

def maxImportBytes : Nat := 5 * 1024 * 1024

/-- A file that is sent; `sheet` is what the library reads in it, if it can. -/
structure Upload where
  filename : Option String
  size : Nat
  sheet : Option (List (List Cell))

/-- `_read_upload` -/
def readUpload (upload : Upload) : Except HTTPException (Option (List (List Cell))) := do
  let filename := (upload.filename.getD "").toLower
  ensure (filename.endsWith ".xlsx" = true ∨ filename.endsWith ".xlsm" = true)
    ⟨400, "فقط فایل Excel با پسوند .xlsx پذیرفته می‌شود", none⟩
  ensure (upload.size ≤ maxImportBytes) ⟨413, "حجم فایل بیش از حد مجاز است (حداکثر ۵ مگابایت)", none⟩
  pure upload.sheet

/-- `commit_personnel_import` -/
def commitPersonnelImport (calendar : Calendar) (db : Database) (env : Env) (user : CurrentUser)
    (upload : Upload) : Except HTTPException Database := do
  requireRoleOrCapability user env .hr .managePersonnel
  let sheet ← readUpload upload
  let preview ← parseWorkbook calendar db sheet
  match preview.fileErrors with
  | message :: _ => .error ⟨400, message, none⟩
  | [] => commitImport db env user preview

/-! ## What was written -/

section

variable {db db' : Database} {env : Env} {user : CurrentUser}

theorem lengthError_eq_nil {label value : String} {maxLength : Nat} :
    lengthError label value maxLength = [] ↔ value ≠ "" ∧ value.length ≤ maxLength := by
  unfold lengthError
  by_cases hblank : value = ""
  · simp [hblank]
  · have hlength : value.length ≠ 0 := fun hzero => hblank (String.length_eq_zero_iff.mp hzero)
    by_cases hlong : maxLength < value.length
    · simp [hlength, hlong]
    · simp [hblank, hlength, Nat.le_of_not_lt hlong]

theorem ensurePayloadFits_eq_ok {errors : List String} {x : Unit} :
    ensurePayloadFits errors = .ok x ↔ errors = [] := by
  unfold ensurePayloadFits
  rw [ensure_eq_ok]

theorem refuseNull_error {person : Personnel} {p : PersonnelPatch} : refuseNull db env person p ≠ .ok db' := by
  intro h
  unfold refuseNull at h
  simp only [bind_eq_ok] at h
  obtain ⟨-, -, -, -, -, -, -, -, -, -, himpossible⟩ := h
  cases himpossible

/-- An update that is answered sets no null where there must be none, and is that of the directory. -/
theorem updatePersonnelRequest_ok {personnelId : Nat} {p : PersonnelPatch}
    (h : updatePersonnelRequest db env user personnelId p = .ok db') :
    p.errors = [] ∧ p.setsNull = false ∧ updatePersonnel db env user personnelId p.update = .ok db' := by
  unfold updatePersonnelRequest at h
  simp only [bind_eq_ok, ensurePayloadFits_eq_ok] at h
  obtain ⟨-, -, -, hfits, h⟩ := h
  split at h
  · rw [bind_eq_ok] at h
    obtain ⟨person, -, himpossible⟩ := h
    exact absurd himpossible refuseNull_error
  · next hnull => exact ⟨hfits, by simpa using hnull, h⟩

theorem createPersonnelRequest_ok {p : PersonnelCreate} (h : createPersonnelRequest db env user p = .ok db') :
    p.errors = [] ∧ createPersonnel db env user p.fields
      (p.account.map fun account => stripWhitespace account.username) = .ok db' := by
  unfold createPersonnelRequest at h
  simp only [bind_eq_ok, ensurePayloadFits_eq_ok] at h
  obtain ⟨-, -, -, hfits, h⟩ := h
  exact ⟨hfits, h⟩

theorem commitPersonnelImport_ok {calendar : Calendar} {upload : Upload}
    (h : commitPersonnelImport calendar db env user upload = .ok db') :
    (user.role = .hr ∨ .managePersonnel ∈ env.capabilities) ∧ ∃ preview,
      parseWorkbook calendar db upload.sheet = .ok preview ∧ preview.fileErrors = [] ∧
        commitImport db env user preview = .ok db' := by
  unfold commitPersonnelImport readUpload requireRoleOrCapability at h
  simp only [bind_eq_ok, pure_eq_ok, ensure_eq_ok] at h
  obtain ⟨-, hauth, sheet, ⟨-, -, -, -, rfl⟩, preview, hpreview, h⟩ := h
  split at h
  · cases h
  · next hnone => exact ⟨hauth, preview, hpreview, hnone, h⟩

end

end NexaHR
