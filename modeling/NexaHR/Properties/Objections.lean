import NexaHR.Properties.Signatories
import NexaHR.Properties.SelfDecision

/-! # Who answers an objection

An objection goes to HR, or on a record of the HR unit to the seat above the scorer's. On such a record
the seat above may be filled by the scorer himself: the chief executive who scores has nobody above him.
And an account that scored may have moved to HR since.

* `Answers`: an account that the guard of the endpoint admits.
* `ScoredIt`: the accounts that scored the record.
* `Impartial`: there is an answer, and it comes from somebody who neither is the subject nor scored.
* `FilledAbove`, `Answerable`: when that is so.
* `impartial_iff`: for every finalized record with an open objection, in every run.
-/

namespace NexaHR

open Foundations

set_option autoImplicit false

/-! ## Impartial answers -/

/-- The account is active and `_ensure_can_resolve_objection` admits it. -/
def Answers (r : EvaluationRecord) (u : User) : Prop :=
  u.isActive = true ∧ ensureCanResolveObjection r u.toCurrent = .ok ()

/-- The account sits in the scorer's seat, or submitted the record last. -/
def ScoredIt (tr : List (Taken Database Request)) (r : EvaluationRecord) (userId : Nat) : Prop :=
  r.chain.scorer = some userId ∨ last (performerOf r.id .scoring) tr = some userId

structure Impartial (tr : List (Taken Database Request)) (db : Database) (r : EvaluationRecord) :
    Prop where
  answered : ∃ u ∈ db.users, (u.role = .hr ∨ u.id ∈ r.chain.occupants) ∧ Answers r u
  not_subject : ∀ u ∈ db.users, Answers r u → u.personnelId ≠ some r.subjectPersonnelId
  not_scorer : ∀ u ∈ db.users, Answers r u → ¬ScoredIt tr r u.id

/-! ## When answers are impartial -/

/-- The account fills the seat above the scorer's, with the role for it, and is not the scorer: the
deputy's seat when both lower seats are filled, the chief executive's otherwise. -/
def FilledAbove (r : EvaluationRecord) (u : User) : Prop :=
  u.isActive = true ∧
    match r.chain.unitSupervisorUserId, r.chain.deputyUserId with
    | some _, some deputy => deputy = u.id ∧ (u.role = .deputy ∨ u.role = .ceo)
    | some supervisor, none => r.chain.ceoUserId = u.id ∧ u.role = .ceo ∧ supervisor ≠ u.id
    | none, some _ => r.chain.ceoUserId = u.id ∧ u.role = .ceo
    | none, none => False

/-- An account of HR that is not the subject's own. -/
def OtherHr (r : EvaluationRecord) (u : User) : Prop :=
  u.isActive = true ∧ u.role = .hr ∧ u.personnelId ≠ some r.subjectPersonnelId

/-- On a record of the HR unit the seat above the scorer's is filled, by somebody who did not submit the
record. On any other record HR has an account besides the subject's, and nobody in HR scored it. -/
def Answerable (tr : List (Taken Database Request)) (db : Database) (r : EvaluationRecord) : Prop :=
  if r.hrReviewSkipped then
    ∃ u ∈ db.users, FilledAbove r u ∧ last (performerOf r.id .scoring) tr ≠ some u.id
  else
    (∃ u ∈ db.users, OtherHr r u) ∧ ∀ u ∈ db.users, OtherHr r u → ¬ScoredIt tr r u.id

/-! ## The guard -/

section

variable {r : EvaluationRecord} {u : User}

theorem not_shielded (hfinal : r.status = .finalized) : r.hrPanelIsShielded = false := by
  simp [EvaluationRecord.hrPanelIsShielded, EvaluationRecord.isOpen, openStatuses, hfinal]

/-- An ordinary objection goes to HR. -/
theorem resolver_ordinary (hordinary : r.hrReviewSkipped = false) : objectionResolverField r = none := by
  simp [objectionResolverField, EvaluationRecord.skipsHrReview, hordinary]

/-- On a record of the HR unit it goes to the deputy above a supervisor, otherwise to the chief
executive. -/
theorem resolver_shielded (hshielded : r.hrReviewSkipped = true) :
    objectionResolverField r =
      some (if r.chain.unitSupervisorUserId.isNone || r.chain.deputyUserId.isNone then .ceo
        else .deputy) := by
  unfold objectionResolverField EvaluationRecord.skipsHrReview EvaluationRecord.isManagerPath
    EvaluationRecord.skipsDeputy
  rw [hshielded]
  cases r.chain.unitSupervisorUserId.isNone || r.chain.deputyUserId.isNone <;> simp

/-- HR answers the ordinary objections, each account those of others. -/
theorem answers_ordinary (hfinal : r.status = .finalized) (hordinary : r.hrReviewSkipped = false) :
    Answers r u ↔ OtherHr r u := by
  unfold Answers OtherHr ensureCanResolveObjection
  rw [resolver_ordinary hordinary]
  simp only [bind_eq_ok, ensure_eq_ok, ensureHrMayHandle_eq_ok, not_shielded hfinal]
  simp [CurrentUser.isSubjectOf, User.toCurrent]

/-- An objection on a record of the HR unit is answered from the seat above the scorer's. -/
theorem answers_from_seat {seat : ChainSeat} (hfinal : r.status = .finalized)
    (hfield : objectionResolverField r = some seat) :
    Answers r u ↔ u.isActive = true ∧ r.chain.seat seat = some u.id ∧
      mayActAt u.role (seatRole seat) = true ∧ u.personnelId ≠ some r.subjectPersonnelId := by
  unfold Answers ensureCanResolveObjection
  rw [hfield]
  simp only [bind_eq_ok, ensure_eq_ok, ensureHrMayHandle_eq_ok, not_shielded hfinal]
  simp [CurrentUser.isSubjectOf, User.toCurrent, and_assoc]

/-- Who fills the seat above the scorer's answers, unless he is the scorer. -/
theorem filledAbove_iff (hfinal : r.status = .finalized) (hshielded : r.hrReviewSkipped = true)
    (hother : u.personnelId ≠ some r.subjectPersonnelId) :
    FilledAbove r u ↔ Answers r u ∧ r.chain.scorer ≠ some u.id := by
  rw [answers_from_seat hfinal (resolver_shielded hshielded)]
  unfold FilledAbove
  have hdistinct := r.chain.supervisor_not_deputy
  have hceo := r.chain.deputy_not_ceo
  cases hsup : r.chain.unitSupervisorUserId with
  | some supervisor =>
    rw [Chain.scorer_of_supervisor hsup]
    cases hdep : r.chain.deputyUserId with
    | some deputy =>
      have hne : supervisor ≠ deputy := by simpa [hsup, hdep] using hdistinct
      have hrole : mayActAt u.role .deputy = true ↔ u.role = .deputy ∨ u.role = .ceo := by
        cases u.role <;> decide
      simp [seatRole, hdep, hrole, hother]
      omega
    | none =>
      have hrole : mayActAt u.role .ceo = true ↔ u.role = .ceo := by
        cases u.role <;> decide
      simp [seatRole, hrole, hother, and_assoc]
  | none =>
    have hrole : mayActAt u.role .ceo = true ↔ u.role = .ceo := by
      cases u.role <;> decide
    cases hdep : r.chain.deputyUserId with
    | some deputy =>
      rw [Chain.scorer_of_deputy hsup hdep]
      have hne : deputy ≠ r.chain.ceoUserId := by simpa [hdep] using hceo
      simp [seatRole, hrole, hother]
      omega
    | none =>
      -- the chief executive scored, and the objection comes back to him
      rw [Chain.scorer_of_ceo hsup hdep]
      simp [seatRole]
      intro _ hsame _ _
      exact hsame

/-- Nobody answers the objection against his own evaluation. -/
theorem answers_not_subject (hfinal : r.status = .finalized) (h : Answers r u) :
    u.personnelId ≠ some r.subjectPersonnelId := by
  cases hskipped : r.hrReviewSkipped with
  | false => exact ((answers_ordinary hfinal hskipped).mp h).2.2
  | true => exact ((answers_from_seat hfinal (resolver_shielded hskipped)).mp h).2.2.2

end

/-! ## Every run -/

section

variable {tr : List (Taken Database Request)} {db : Database} {r : EvaluationRecord} {u : User}

/-- Nobody sits on his own record. -/
theorem occupant_not_subject (h : SystemRun tr db) (hr : r ∈ db.evaluationRecords) (hu : u ∈ db.users)
    (hseat : u.id ∈ r.chain.occupants) : u.personnelId ≠ some r.subjectPersonnelId := by
  intro hlink
  have hapart := (separated_of_run h).records u.id r.subjectPersonnelId ⟨r, hr, rfl, hseat⟩
  exact hapart.2 (linked_of_mem hu hlink)

theorem occupant_of_filledAbove (h : FilledAbove r u) : u.id ∈ r.chain.occupants := by
  rw [Chain.mem_occupants]
  unfold FilledAbove at h
  split at h
  next hsup hdep => exact ⟨.deputy, by simp [hdep, h.2.1]⟩
  next hsup hdep => exact ⟨.ceo, by simp [h.2.1]⟩
  next hsup hdep => exact ⟨.ceo, by simp [h.2.1]⟩
  next => exact h.2.elim

theorem impartial_shielded_iff (h : SystemRun tr db) (hr : r ∈ db.evaluationRecords)
    (hfinal : r.status = .finalized) (hshielded : r.hrReviewSkipped = true) :
    Impartial tr db r ↔
      ∃ u ∈ db.users, FilledAbove r u ∧ last (performerOf r.id .scoring) tr ≠ some u.id := by
  constructor
  · intro himpartial
    obtain ⟨u, hu, -, hanswers⟩ := himpartial.answered
    have hothers := himpartial.not_scorer u hu hanswers
    unfold ScoredIt at hothers
    rw [not_or] at hothers
    have hsubject := himpartial.not_subject u hu hanswers
    exact ⟨u, hu, (filledAbove_iff hfinal hshielded hsubject).mpr ⟨hanswers, hothers.1⟩, hothers.2⟩
  · intro habove
    obtain ⟨u, hu, hfilled, hlast⟩ := habove
    have hseat := occupant_of_filledAbove hfilled
    have hsubject := occupant_not_subject h hr hu hseat
    obtain ⟨hanswers, hscorer⟩ := (filledAbove_iff hfinal hshielded hsubject).mp hfilled
    refine ⟨⟨u, hu, Or.inr hseat, hanswers⟩, ?_, ?_⟩
    · intro v hv hv'
      exact answers_not_subject hfinal hv'
    · intro v hv hv' hscored
      -- one seat answers, and it has one occupant
      have hself := ((answers_from_seat hfinal (resolver_shielded hshielded)).mp hanswers).2.1
      have hsame := ((answers_from_seat hfinal (resolver_shielded hshielded)).mp hv').2.1
      rw [hself, Option.some_inj] at hsame
      rw [← hsame] at hscored
      exact hscored.elim hscorer hlast

theorem impartial_ordinary_iff (hfinal : r.status = .finalized) (hordinary : r.hrReviewSkipped = false) :
    Impartial tr db r ↔
      (∃ u ∈ db.users, OtherHr r u) ∧ ∀ u ∈ db.users, OtherHr r u → ¬ScoredIt tr r u.id := by
  have hanswers : ∀ u, Answers r u ↔ OtherHr r u := fun u => answers_ordinary hfinal hordinary
  constructor
  · intro himpartial
    obtain ⟨u, hu, -, hadmitted⟩ := himpartial.answered
    refine ⟨⟨u, hu, (hanswers u).mp hadmitted⟩, ?_⟩
    intro v hv hother
    exact himpartial.not_scorer v hv ((hanswers v).mpr hother)
  · intro ⟨hexists, hnone⟩
    obtain ⟨u, hu, hother⟩ := hexists
    refine ⟨⟨u, hu, Or.inl hother.2.1, (hanswers u).mpr hother⟩, ?_, ?_⟩
    · intro v hv hadmitted
      exact answers_not_subject hfinal hadmitted
    · intro v hv hadmitted
      exact hnone v hv ((hanswers v).mp hadmitted)

/-- In every run an objection to a final document has an impartial answer exactly when the seat above the
scorer's, or HR, is filled by somebody who did not score. -/
theorem impartial_iff (h : SystemRun tr db) (hr : r ∈ db.evaluationRecords)
    (hfinal : r.status = .finalized) : Impartial tr db r ↔ Answerable tr db r := by
  unfold Answerable
  cases hskipped : r.hrReviewSkipped with
  | true => simpa using impartial_shielded_iff h hr hfinal hskipped
  | false => simpa using impartial_ordinary_iff hfinal hskipped

end

/-! ## Records of the HR unit -/

/-- The employee works in the HR unit; his record is scored and approved, and he objects. -/
def objected (scorer : Nat) (approvals : List Request) : List Request :=
  [ask 7 (.onRecord 1 (.fileObjection "no")), ask 7 (.onRecord 1 .acknowledgeEvaluation)] ++ approvals ++
    submittedBy scorer ++
    [ask 5 (.createUser ⟨"employee", .employee, some 1, none⟩),
      ask 5 (.updateOrgUnit 1 ⟨none, none, none, some true⟩), ask 5 (.createOrgUnit none "U")]

def fullApprovals : List Request :=
  [ask 3 (.onRecord 1 .ceoFinalize), ask 2 (.onRecord 1 .deputyApprove)]

theorem fullChain_objected : SystemRun
    (replay settled (office fullChain) (objected 1 fullApprovals))
    (endState settled (office fullChain) (objected 1 fullApprovals)) :=
  systemRun_replay (office_initial (by decide)) (by decide)

theorem no_supervisor_no_deputy : (none : Option Nat) = none ∨ (none : Option Nat) = none ∨
    (none : Option Nat) ≠ none := Or.inl rfl

theorem no_deputy_is_ceo : (none : Option Nat) ≠ some 3 := nofun

/-- A chain of the chief executive alone. -/
def ceoAlone : Chain := ⟨none, none, 3, no_supervisor_no_deputy, no_deputy_is_ceo⟩

def ceoApproval : List Request := [ask 3 (.onRecord 1 .ceoFinalize)]

theorem ceoAlone_objected : SystemRun
    (replay settled (office ceoAlone) (objected 3 ceoApproval))
    (endState settled (office ceoAlone) (objected 3 ceoApproval)) :=
  systemRun_replay (office_initial (by decide)) (by decide)

/-- The deputy answers for the full chain. -/
theorem fullChain_impartial : ∃ r ∈
    (endState settled (office fullChain) (objected 1 fullApprovals)).evaluationRecords,
    r.objectionAt.isSome = true ∧ r.objectionResolvedAt = none ∧
      Impartial (replay settled (office fullChain) (objected 1 fullApprovals))
        (endState settled (office fullChain) (objected 1 fullApprovals)) r := by
  obtain ⟨r, hget, hr⟩ := exists_of_any
    (o := (endState settled (office fullChain) (objected 1 fullApprovals)).evaluationRecords.get? 1)
    (p := fun r => r.objectionAt.isSome && r.objectionResolvedAt.isNone && (r.status = .finalized) &&
      r.hrReviewSkipped && (r.chain = fullChain) && r.id = 1) (by decide)
  simp at hr
  obtain ⟨⟨⟨⟨⟨hfiled, hopen⟩, hfinal⟩, hshielded⟩, hchain⟩, hid⟩ := hr
  have hmem := Table.mem_of_get? hget
  refine ⟨r, hmem, by simpa using hfiled, hopen, ?_⟩
  refine (impartial_iff fullChain_objected hmem hfinal).mpr ?_
  unfold Answerable
  rw [if_pos hshielded, hid]
  refine ⟨account 2 "deputy" .deputy, Table.mem_of_get? (k := 2) (by decide), ?_, by decide⟩
  unfold FilledAbove
  rw [hchain]
  exact ⟨rfl, rfl, Or.inl rfl⟩

/-- The chief executive who scored answers the objection against his own scores. -/
theorem ceo_answers_himself : ¬∀ tr db, SystemRun tr db → ∀ r ∈ db.evaluationRecords,
    r.status = .finalized → r.objectionAt.isSome = true → r.objectionResolvedAt = none →
      Impartial tr db r := by
  intro hclaim
  obtain ⟨r, hget, hr⟩ := exists_of_any
    (o := (endState settled (office ceoAlone) (objected 3 ceoApproval)).evaluationRecords.get? 1)
    (p := fun r => r.objectionAt.isSome && r.objectionResolvedAt.isNone && (r.status = .finalized) &&
      r.hrReviewSkipped && (r.chain = ceoAlone) && r.id = 1) (by decide)
  simp at hr
  obtain ⟨⟨⟨⟨⟨hfiled, hopen⟩, hfinal⟩, hshielded⟩, hchain⟩, -⟩ := hr
  have himpartial := hclaim _ _ ceoAlone_objected r (Table.mem_of_get? hget) hfinal (by simpa using hfiled)
    hopen
  obtain ⟨u, hu, -, hanswers⟩ := himpartial.answered
  refine himpartial.not_scorer u hu hanswers (Or.inl ?_)
  have hseat := ((answers_from_seat hfinal (resolver_shielded hshielded)).mp hanswers).2.1
  rw [hchain] at hseat ⊢
  exact hseat

end NexaHR
