import NexaHR.Services.OrgUnit
import NexaHR.Services.Workflow

/-! # Nobody decides about oneself

`services/self_evaluation.py`: the guards that keep a user away from the evaluation of the person
that his account is linked to, and keep one user from holding two stages that mean the same.
-/

namespace NexaHR

open Foundations

set_option autoImplicit false

/-! ## Seats -/

namespace Database

/-- The account that is linked to the person and is among the candidates. -/
def conflictingEvaluator (db : Database) (personnelId : Nat) (candidateIds : List Nat) : Option User :=
  db.users.rows.find? fun u => u.id ∈ candidateIds && u.personnelId = some personnelId

def usernameOf (db : Database) (userId : Nat) : String :=
  ((db.users.get? userId).map User.username).getD "None"

end Database

def ensureEvaluatorsAreNotTheSubject (db : Database) (personnelId : Nat)
    (evaluatorUserIds : List (Option Nat)) : Except HTTPException Unit :=
  match db.conflictingEvaluator personnelId (evaluatorUserIds.filterMap id) with
  | none => .ok ()
  | some conflicting =>
    .error ⟨400, "یک نفر نمی‌تواند ارزیابِ خودش باشد؛ کاربر «" ++ conflicting.username ++
      "» به همین پرسنل متصل است.", none⟩

def supervisorIsDeputyRemedy : String :=
  "«مسئول واحد» و «معاونت» یک نفرند. اگر این فرد مستقیماً توسط معاونت ارزیابی " ++
  "می‌شود، «مسئول واحد» را خالی بگذارید؛ معاونت خودش نمره‌دهندهٔ اول می‌شود."

def deputyIsCeoRemedy : String :=
  "«معاونت» و «مدیرعامل» یک نفرند. اگر این فرد معاونتی بالای سرش ندارد، " ++
  "«معاونت» را خالی بگذارید؛ پرونده از منابع انسانی مستقیم به مدیرعامل می‌رود."

def redundantSeats (db : Database) (remedy : String) (userId : Option Nat) : HTTPException :=
  ⟨400, remedy ++ " (کاربر «" ++ (userId.map db.usernameOf).getD "None" ++ "»)", none⟩

/-- `ensure_chain_stages_are_not_redundant`. What passes it is a chain. -/
def ensureChainStagesAreNotRedundant (db : Database) (unitSupervisorUserId deputyUserId : Option Nat)
    (ceoUserId : Nat) : Except HTTPException Chain :=
  if h : unitSupervisorUserId = none ∨ deputyUserId = none ∨ unitSupervisorUserId ≠ deputyUserId then
    if h' : deputyUserId ≠ some ceoUserId then
      .ok ⟨unitSupervisorUserId, deputyUserId, ceoUserId, h, h'⟩
    else .error (redundantSeats db deputyIsCeoRemedy deputyUserId)
  else .error (redundantSeats db supervisorIsDeputyRemedy unitSupervisorUserId)

theorem ensureEvaluatorsAreNotTheSubject_ok {db : Database} {personnelId : Nat}
    {evaluatorUserIds : List (Option Nat)} {x : Unit}
    (h : ensureEvaluatorsAreNotTheSubject db personnelId evaluatorUserIds = .ok x) {u : User}
    (hu : u ∈ db.users) (hs : some u.id ∈ evaluatorUserIds) : u.personnelId ≠ some personnelId := by
  unfold ensureEvaluatorsAreNotTheSubject at h
  split at h
  next hnone =>
    intro hp
    have hnot := List.find?_eq_none.mp hnone u hu
    have hmem : u.id ∈ evaluatorUserIds.filterMap id := List.mem_filterMap.mpr ⟨_, hs, rfl⟩
    simp only [Bool.and_eq_true, decide_eq_true_eq] at hnot
    exact hnot ⟨hmem, hp⟩
  next => cases h

theorem ensureChainStagesAreNotRedundant_ok {db : Database}
    {unitSupervisorUserId deputyUserId : Option Nat} {ceoUserId : Nat} {c : Chain}
    (h : ensureChainStagesAreNotRedundant db unitSupervisorUserId deputyUserId ceoUserId = .ok c) :
    c.unitSupervisorUserId = unitSupervisorUserId ∧ c.deputyUserId = deputyUserId ∧
      c.ceoUserId = ceoUserId := by
  unfold ensureChainStagesAreNotRedundant at h
  split at h
  · split at h
    · cases h
      exact ⟨rfl, rfl, rfl⟩
    · cases h
  · cases h

/-! ## The HR unit -/

def OrgUnit.fullName (unit : OrgUnit) : String := joinSite unit.site unit.name

theorem OrgUnit.strip_fullName (unit : OrgUnit) : strip unit.fullName = unit.fullName :=
  strip_joinSite unit.site unit.name

/-- The site and the name of the unit are as the endpoints store them. -/
structure OrgUnit.Stripped (unit : OrgUnit) : Prop where
  name : strip unit.name = unit.name
  site : ∀ site, unit.site = some site → strip site = site

/-- The person works in a unit that is marked as the HR unit. -/
def subjectBelongsToHr (db : Database) (personnelId : Nat) : Bool :=
  let names := (db.orgUnits.rows.filter OrgUnit.isHrUnit).map OrgUnit.fullName
  match db.personnel.get? personnelId with
  | some person => person.orgUnit ∈ names
  | none => false

def hrUnitNames (db : Database) : List String :=
  (db.orgUnits.rows.filter OrgUnit.isHrUnit).map OrgUnit.fullName

/-- Which of these people work in a unit that is marked as the HR unit. -/
def hrUnitPersonnelIds (db : Database) (personnelIds : List Nat) : List Nat :=
  if personnelIds = [] then []
  else if hrUnitNames db = [] then []
  else
    (db.personnel.rows.filter fun person =>
      person.id ∈ personnelIds && person.orgUnit ∈ hrUnitNames db).map Personnel.id

theorem mem_hrUnitNames {db : Database} {name : String} :
    name ∈ hrUnitNames db ↔ ∃ unit ∈ db.orgUnits, unit.isHrUnit = true ∧ name = unit.fullName := by
  unfold hrUnitNames
  simp only [List.mem_map, List.mem_filter, and_assoc, eq_comm (a := name)]
  exact Iff.rfl

theorem subjectBelongsToHr_eq_true {db : Database} {k : Nat} :
    subjectBelongsToHr db k = true ↔ ∃ person, db.personnel.get? k = some person ∧
      ∃ unit ∈ db.orgUnits, unit.isHrUnit = true ∧ person.orgUnit = unit.fullName := by
  simp only [← mem_hrUnitNames]
  unfold subjectBelongsToHr
  cases db.personnel.get? k with
  | none => simp
  | some person => simp [hrUnitNames]

theorem mem_hrUnitPersonnelIds {db : Database} {personnelIds : List Nat} {k : Nat} :
    k ∈ hrUnitPersonnelIds db personnelIds ↔ k ∈ personnelIds ∧ subjectBelongsToHr db k = true := by
  rw [subjectBelongsToHr_eq_true]
  simp only [← mem_hrUnitNames]
  unfold hrUnitPersonnelIds
  split
  · next hnobody => simp [hnobody]
  · split
    · next hnames => simp [hnames]
    · simp only [List.mem_map, List.mem_filter, Bool.and_eq_true, decide_eq_true_eq]
      constructor
      · rintro ⟨person, ⟨hperson, hasked, hname⟩, rfl⟩
        exact ⟨hasked, person, Table.get?_of_mem hperson, hname⟩
      · rintro ⟨hasked, person, hget, hname⟩
        have hid : person.id = k := Table.id_of_get? hget
        exact ⟨person, ⟨Table.mem_of_get? hget, hid ▸ hasked, hname⟩, hid⟩

/-! ## Acting on a record -/

def ensureNotDecidingAboutOneself (r : EvaluationRecord) (user : CurrentUser) :
    Except HTTPException Unit :=
  ensure (¬user.isSubjectOf r)
    ⟨403, "این پروندهٔ ارزیابیِ خودِ شماست؛ رسیدگی به آن باید توسط کاربر دیگری از " ++
      "منابع انسانی انجام شود.", none⟩

def ensureHrMayHandle (r : EvaluationRecord) (user : CurrentUser) : Except HTTPException Unit := do
  ensureNotDecidingAboutOneself r user
  ensure (¬(user.role = .hr ∧ r.hrPanelIsShielded = true))
    ⟨403, "این پرونده متعلق به واحد منابع انسانی است و تا پیش از ثبت نهایی از " ++
      "پنل منابع انسانی قابل دسترسی نیست؛ رسیدگی به آن با معاونت و مدیرعامل است.", none⟩

def administrativeRefusal : HTTPException :=
  ⟨403, "رسیدگیِ اداری به این پرونده (لغو، تغییر مسئول مرحله، تمدید مهلت) " ++
    "با منابع انسانی است.", none⟩

/-- An administrative act on an open record: HR as always; on a record of the HR unit the chief
executive, and the deputy of that chain. -/
def ensureMayAdminister (r : EvaluationRecord) (user : CurrentUser) : Except HTTPException Unit :=
  if user.role = .hr then ensureHrMayHandle r user
  else do
    ensureNotDecidingAboutOneself r user
    ensure (user.role = .deputy ∨ user.role = .ceo) administrativeRefusal
    ensure (r.hrPanelIsShielded = true) administrativeRefusal
    ensure (user.role = .ceo ∨ r.chain.deputyUserId = some user.id)
      ⟨403, "شما در زنجیرهٔ این پرونده نیستید.", none⟩

@[simp] theorem ensureNotDecidingAboutOneself_eq_ok {r : EvaluationRecord} {user : CurrentUser}
    {x : Unit} : ensureNotDecidingAboutOneself r user = .ok x ↔ ¬user.isSubjectOf r := by
  unfold ensureNotDecidingAboutOneself
  exact ensure_eq_ok

@[simp] theorem ensureHrMayHandle_eq_ok {r : EvaluationRecord} {user : CurrentUser} {x : Unit} :
    ensureHrMayHandle r user = .ok x ↔
      ¬user.isSubjectOf r ∧ ¬(user.role = .hr ∧ r.hrPanelIsShielded = true) := by
  simp [ensureHrMayHandle]

theorem ensureMayAdminister_eq_ok {r : EvaluationRecord} {user : CurrentUser} {x : Unit} :
    ensureMayAdminister r user = .ok x ↔ ¬user.isSubjectOf r ∧
      ((user.role = .hr ∧ r.hrPanelIsShielded = false) ∨
        (r.hrPanelIsShielded = true ∧
          (user.role = .ceo ∨ (user.role = .deputy ∧ r.chain.deputyUserId = some user.id)))) := by
  unfold ensureMayAdminister
  by_cases hhr : user.role = .hr
  · rw [if_pos hhr, ensureHrMayHandle_eq_ok]
    simp [hhr]
  · rw [if_neg hhr]
    simp only [bind_eq_ok, ensureNotDecidingAboutOneself_eq_ok, ensure_eq_ok]
    constructor
    · rintro ⟨-, hself, -, hrole, -, hshield, hseat⟩
      refine ⟨hself, Or.inr ⟨hshield, ?_⟩⟩
      rcases hrole with hdeputy | hceo
      · rcases hseat with hceo | hmine
        · exact Or.inl hceo
        · exact Or.inr ⟨hdeputy, hmine⟩
      · exact Or.inl hceo
    · rintro ⟨hself, ⟨hrole, -⟩ | ⟨hshield, hceo | ⟨hdeputy, hmine⟩⟩⟩
      · exact absurd hrole hhr
      · exact ⟨(), hself, (), Or.inr hceo, (), hshield, Or.inl hceo⟩
      · exact ⟨(), hself, (), Or.inl hdeputy, (), hshield, Or.inr hmine⟩

/-- Whoever administers a record is not its subject, and HR does not touch a shielded record. -/
theorem ensureMayAdminister_ok {r : EvaluationRecord} {user : CurrentUser} {x : Unit}
    (h : ensureMayAdminister r user = .ok x) :
    ¬user.isSubjectOf r ∧ ¬(user.role = .hr ∧ r.hrPanelIsShielded = true) := by
  obtain ⟨hself, ⟨-, hshield⟩ | ⟨-, hrole⟩⟩ := ensureMayAdminister_eq_ok.mp h
  · refine ⟨hself, fun hboth => ?_⟩
    rw [hshield] at hboth
    cases hboth.2
  · refine ⟨hself, fun hboth => ?_⟩
    rw [hboth.1] at hrole
    rcases hrole with hceo | ⟨hdeputy, -⟩
    · cases hceo
    · cases hdeputy

/-! ## Linking accounts -/

namespace Database

/-- Another active account of the person. -/
def otherAccount (db : Database) (personnelId : Nat) (excludeUserId : Option Nat) : Option User :=
  db.users.rows.find? fun u =>
    u.personnelId = some personnelId && u.isActive && decide (some u.id ≠ excludeUserId)

end Database

def ensurePersonnelHasOneAccount (db : Database) (personnelId : Nat)
    (excludeUserId : Option Nat) : Except HTTPException Unit :=
  match db.otherAccount personnelId excludeUserId with
  | none => .ok ()
  | some other =>
    .error ⟨400, "این پروندهٔ پرسنلی به حساب «" ++ other.username ++ "» متصل است. " ++
      "هر فرد فقط یک حساب فعال دارد؛ ابتدا آن حساب را ویرایش یا " ++ "غیرفعال کنید.", none⟩

/-- The user sits in a chain seat of an access row or of a record of the person. The HR seat of a
record is not looked at. -/
def isEvaluatorOf (db : Database) (userId personnelId : Nat) : Bool :=
  (db.evaluationAccess.rows.any fun access =>
      access.personnelId = personnelId && userId ∈ access.chain.occupants) ||
    db.evaluationRecords.rows.any fun r =>
      r.subjectPersonnelId = personnelId && userId ∈ r.chain.occupants

def ensureUserLinkIsNotSelfEvaluation (db : Database) (user : User) (personnelId : Nat) :
    Except HTTPException Unit :=
  ensure (isEvaluatorOf db user.id personnelId = false)
    ⟨400, "کاربر «" ++ user.username ++ "» ارزیابِ این پرسنل است؛ نمی‌توان او را به " ++
      "همین پرسنل متصل کرد (کسی نمی‌تواند ارزیابِ خودش باشد).", none⟩

theorem isEvaluatorOf_eq_false {db : Database} {userId personnelId : Nat} :
    isEvaluatorOf db userId personnelId = false ↔
      (∀ access ∈ db.evaluationAccess, access.personnelId = personnelId →
        userId ∉ access.chain.occupants) ∧
      ∀ r ∈ db.evaluationRecords, r.subjectPersonnelId = personnelId →
        userId ∉ r.chain.occupants := by
  simp [isEvaluatorOf, Table.mem_def]

end NexaHR
