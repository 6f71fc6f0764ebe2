import NexaHR.System.Step

/-! # A new installation

The database that the migrations leave and that the administrators then fill: the first version of
the rules is active, the first version of the form asks the active indicators, and there are no
records.

* `installation`: that database, for given accounts, people, access rows and indicators.
* `installation_initial`: it is one that the system starts from.
* `systemRun_replay`: requests that are all answered are a run from it.
-/

namespace NexaHR

open Foundations

set_option autoImplicit false

/-- The first version of the rules. -/
def baseScheme : ScoringScheme where
  id := 1
  version := 1
  name := "نسخهٔ پایه (قواعد اولیهٔ سامانه)"
  status := .active
  generalSectionWeight := 3 / 5
  specializedSectionWeight := 2 / 5
  evidenceRequiredScores := [1, 5]
  evidenceMinWords := 3
  evidenceMaxWords := 40
  bonusMaxPoints := 5
  improvementPlanMaxPct := 75
  thresholds := legacyRules.thresholds
  thresholds_ne := legacyRules.thresholds_ne
  indicatorWeights := []
  createdByUserId := none
  activatedByUserId := none

/-- The first version of the form. -/
def baseFramework (indicators : Table Indicator) : IndicatorFramework where
  id := 1
  version := 1
  memberIds := ((indicators.rows.filter Indicator.isActive).map Indicator.id).insertionSort (· ≤ ·)
  changeKind := "seed"
  changeNote := none
  createdByUserId := none

def installation (users : Table User) (personnel : Table Personnel)
    (evaluationAccess : Table EvaluationAccess) (indicators : Table Indicator) : Database where
  users := users
  personnel := personnel
  orgUnits := Table.empty
  evaluationAccess := evaluationAccess
  evaluationPeriods := Table.empty
  indicators := indicators
  indicatorFrameworks := Table.ofRows [baseFramework indicators] (List.nodup_singleton _)
  scoringSchemes := Table.ofRows [baseScheme] (List.nodup_singleton _)
  evaluationRecords := Table.empty
  evaluationComments := Table.empty
  evaluationCodeSeq := 0
  auditLog := []
  notifications := []

section

variable {users : Table User} {personnel : Table Personnel} {evaluationAccess : Table EvaluationAccess}
  {indicators : Table Indicator}

theorem installation_initial
    (hself : ∀ access ∈ evaluationAccess, ∀ u ∈ users, u.id ∈ access.chain.occupants →
      u.personnelId ≠ some access.personnelId)
    (hlinks : ∀ u ∈ users, ∀ p, u.personnelId = some p → (personnel.get? p).isSome = true)
    (hpeople : ∀ access ∈ evaluationAccess, (personnel.get? access.personnelId).isSome = true)
    (husers : ∀ access ∈ evaluationAccess, ∀ k ∈ access.chain.occupants, (users.get? k).isSome = true) :
    Initial (installation users personnel evaluationAccess indicators) where
  no_records := by
    intro r
    exact Table.not_mem_empty r
  access_not_self := hself
  users_person := hlinks
  access_person := hpeople
  access_users := husers
  scheme_active := ⟨baseScheme, List.mem_singleton.mpr rfl, rfl⟩

/-- Requests that are all answered, the newest first, are steps of the system. -/
theorem steps_replay {db : Database} {reqs : List Request}
    (hanswered : ((replay settled db reqs).all fun x => (step x.before x.label).isOk) = true) :
    ∀ x ∈ replay settled db reqs, Steps x.before x.label x.after := by
  intro x hx
  have hok := List.all_eq_true.mp hanswered x hx
  rw [after_replay hx]
  exact steps_settled hok

theorem systemRun_replay {db : Database} {reqs : List Request} (hinit : Initial db)
    (hanswered : ((replay settled db reqs).all fun x => (step x.before x.label).isOk) = true) :
    SystemRun (replay settled db reqs) (endState settled db reqs) :=
  run_replay hinit (steps_replay hanswered)

end

/-- A row that passes a check is there. -/
theorem exists_of_any {α : Type} {o : Option α} {p : α → Bool} (h : o.any p = true) :
    ∃ a, o = some a ∧ p a = true := by
  cases o with
  | none => cases h
  | some a => exact ⟨a, rfl, h⟩

/-! ## A small office

One person to evaluate, with a supervisor, a deputy and a chief executive, two accounts in HR and
one indicator. The runs that show a property at work start here. -/

def account (id : Nat) (username : String) (role : UserRole) : User where
  id := id
  username := username
  fullName := none
  role := role
  isActive := true
  personnelId := none

def officeUsers : Table User :=
  Table.ofRows
    [account 1 "supervisor" .unitSupervisor, account 2 "deputy" .deputy, account 3 "ceo" .ceo,
      account 4 "hr" .hr, account 5 "hr2" .hr, account 6 "deputy2" .deputy]
    (by decide)

def employee (id : Nat) : Personnel where
  id := id
  personnelCode := "P"
  fullName := "E"
  jobTitle := "J"
  isManager := false
  orgUnit := "U"
  contractStartDate := 0
  contractEndDate := 1
  status := .active
  separationDate := none
  separationReason := none

def officePersonnel : Table Personnel := Table.ofRows [employee 1] (by decide)

def fullChain : Chain := ⟨some 1, some 2, 3, by decide, by decide⟩

/-- A chain whose lowest seat is filled by a deputy. -/
def deputyAsSupervisor : Chain :=
  { fullChain with unitSupervisorUserId := some 6, supervisor_not_deputy := by decide }

def accessRow (chain : Chain) : EvaluationAccess where
  id := 1
  personnelId := 1
  chain := chain
  updatedByUserId := none

def question : Indicator where
  id := 1
  «section» := .general
  category := "C"
  description := "D"
  displayOrder := 1
  isActive := true

/-- The office, with the chain of its one employee and the indicators of its form. -/
def officeAsking (chain : Chain) (indicators : Table Indicator) : Database :=
  installation officeUsers officePersonnel (Table.ofRows [accessRow chain] (List.nodup_singleton _))
    indicators

def office (chain : Chain) : Database :=
  officeAsking chain (Table.ofRows [question] (List.nodup_singleton _))

theorem office_initial {chain : Chain} {indicators : Table Indicator}
    (h : ∀ k ∈ chain.occupants, (officeUsers.get? k).isSome = true) :
    Initial (officeAsking chain indicators) := by
  have hunlinked : ∀ u ∈ officeUsers, u.personnelId = none := by decide
  have hrow : ∀ access ∈ Table.ofRows [accessRow chain] (List.nodup_singleton _),
      access = accessRow chain := by
    intro access haccess
    exact List.mem_singleton.mp haccess
  refine installation_initial ?_ ?_ ?_ ?_
  · intro access _ u hu _
    rw [hunlinked u hu]
    exact Option.some_ne_none _ |>.symm
  · intro u hu p hp
    rw [hunlinked u hu] at hp
    cases hp
  · intro access haccess
    rw [hrow access haccess]
    show (officePersonnel.get? 1).isSome = true
    decide
  · intro access haccess
    rw [hrow access haccess]
    exact h

/-- A finalized record about the person of the same key. -/
def evaluationOf (id : Nat) (pct : Rat) : EvaluationRecord where
  id := id
  evaluationCode := "EV"
  subjectPersonnelId := id
  chain := fullChain
  hrReviewSkipped := false
  periodId := none
  scoringSchemeId := none
  indicatorFrameworkId := none
  status := .finalized
  finalWeightedPct := some pct
  createdAt := 0
  stageEnteredAt := 0
  finalizedAt := some 0

/-- The record of the employee alone. -/
def onlyEvaluation (pct : Rat) : Table EvaluationRecord :=
  Table.ofRows [evaluationOf 1 pct] (List.nodup_singleton _)

/-- An ordinary day: nothing is switched off, and the caller may administer. -/
def someDay : Env where
  now := 0
  today := 0
  freshToken := "t"
  faDate := fun _ => ""
  fingerprint := fun _ => ""
  capabilities := [.manageUsers, .managePersonnel, .manageScoring]
  moduleRefusal := fun _ => none
  objectionWindowDays := 7
  notificationDedupDays := 7

def ask (userId : Nat) (operation : Operation) : Request := ⟨userId, someDay, operation⟩

/-- The scorer's part: a draft, one score, and its submission, the newest first. -/
def submittedBy (scorer : Nat) : List Request :=
  [ask scorer (.onRecord 1 .submitEvaluation), ask scorer (.onRecord 1 (.upsertScores [⟨1, 4, none⟩])),
    ask scorer (.createEvaluation 1)]

/-- The way of a record of the full chain to its final document. -/
def finalizedByAll : List Request :=
  [ask 3 (.onRecord 1 .ceoFinalize), ask 2 (.onRecord 1 .deputyApprove),
    ask 4 (.onRecord 1 .hrApprove)] ++ submittedBy 1

theorem finalizedByAll_run : SystemRun (replay settled (office fullChain) finalizedByAll)
    (endState settled (office fullChain) finalizedByAll) :=
  systemRun_replay (office_initial (by decide)) (by decide)

/-- The office before it has any indicator. -/
def emptyOffice : Database := officeAsking fullChain Table.empty

/-- The scorer of a form that asks nothing opens his record and submits it at once. -/
def submittedEmpty : List Request :=
  [ask 1 (.onRecord 1 .submitEvaluation), ask 1 (.createEvaluation 1)]

end NexaHR
