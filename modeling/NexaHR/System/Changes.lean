import NexaHR.System.Step

/-! # What a request does to a record

Every endpoint of one record makes one of six kinds of change. `Change` lists them with all that
the endpoint had checked, so that an invariant of the records is one short case per kind.

* `Notes`: the columns that the workflow does not read back.
* `Prepared`: what a transition finds in the record after its `before`.
* `Change`: the kinds of change, with the transition that was taken if one was.
* `RecordOperation.run_change`: no endpoint does anything else.
-/

namespace NexaHR

open Foundations

set_option autoImplicit false

/-! ## Columns beside the workflow -/

structure Notes where
  acknowledgedAt : Option Nat
  acknowledgedByUserId : Option Nat
  selfAssessmentSubmittedAt : Option Nat
  selfAssessmentNote : Option String
  selfAssessmentInvitedAt : Option Nat
  selfAssessmentInvitedByUserId : Option Nat
  submissionExtendedUntil : Option Nat
  submissionExtendedAt : Option Nat
  submissionExtendedByUserId : Option Nat
  submissionExtensionReason : Option String
  objectionAt : Option Nat
  objectionReason : Option String
  objectionResolvedAt : Option Nat
  objectionResolution : Option String
  objectionResolvedByUserId : Option Nat
  selfAssessmentScores : List SelfAssessmentScore

namespace EvaluationRecord

def notes (r : EvaluationRecord) : Notes where
  acknowledgedAt := r.acknowledgedAt
  acknowledgedByUserId := r.acknowledgedByUserId
  selfAssessmentSubmittedAt := r.selfAssessmentSubmittedAt
  selfAssessmentNote := r.selfAssessmentNote
  selfAssessmentInvitedAt := r.selfAssessmentInvitedAt
  selfAssessmentInvitedByUserId := r.selfAssessmentInvitedByUserId
  submissionExtendedUntil := r.submissionExtendedUntil
  submissionExtendedAt := r.submissionExtendedAt
  submissionExtendedByUserId := r.submissionExtendedByUserId
  submissionExtensionReason := r.submissionExtensionReason
  objectionAt := r.objectionAt
  objectionReason := r.objectionReason
  objectionResolvedAt := r.objectionResolvedAt
  objectionResolution := r.objectionResolution
  objectionResolvedByUserId := r.objectionResolvedByUserId
  selfAssessmentScores := r.selfAssessmentScores

def withNotes (r : EvaluationRecord) (n : Notes) : EvaluationRecord :=
  { r with
    acknowledgedAt := n.acknowledgedAt
    acknowledgedByUserId := n.acknowledgedByUserId
    selfAssessmentSubmittedAt := n.selfAssessmentSubmittedAt
    selfAssessmentNote := n.selfAssessmentNote
    selfAssessmentInvitedAt := n.selfAssessmentInvitedAt
    selfAssessmentInvitedByUserId := n.selfAssessmentInvitedByUserId
    submissionExtendedUntil := n.submissionExtendedUntil
    submissionExtendedAt := n.submissionExtendedAt
    submissionExtendedByUserId := n.submissionExtendedByUserId
    submissionExtensionReason := n.submissionExtensionReason
    objectionAt := n.objectionAt
    objectionReason := n.objectionReason
    objectionResolvedAt := n.objectionResolvedAt
    objectionResolution := n.objectionResolution
    objectionResolvedByUserId := n.objectionResolvedByUserId
    selfAssessmentScores := n.selfAssessmentScores }

/-- What the scorer writes in a draft. -/
def withForm (r : EvaluationRecord) (scores : List EvaluationScore) (bonusPoints : Option Rat)
    (bonusReason evaluatorComment : Option String) : EvaluationRecord :=
  { r with
    scores := scores
    bonusPoints := bonusPoints
    bonusReason := bonusReason
    evaluatorComment := evaluatorComment }

end EvaluationRecord

/-! ## The kinds of change -/

/-- The record that a transition moves: as it was claimed, with its result when it is submitted,
with its document when it is finalized. -/
inductive Prepared (db : Database) (env : Env) (a : Action) (r : EvaluationRecord) :
    EvaluationRecord → Prop
  | plain (hsubmit : a.isSubmit = false) (hto : (transitions a).toStatus ≠ .finalized) :
      Prepared db env a r r
  | scored (hsubmit : a.isSubmit = true) (hcomplete : isComplete db r = true) :
      Prepared db env a r (r.withResult (resultFor db r))
  | stamped (hto : (transitions a).toStatus = .finalized) (snapshot : FinalSnapshot)
      (hsnapshot : buildFinalSnapshot db { r with finalizedAt := some env.now } = .ok snapshot) :
      Prepared db env a r
        { r with
          finalizedAt := some env.now
          finalSnapshot := some snapshot
          verifyToken := some env.freshToken }

/-- One change of a record by a user. -/
inductive Change (db : Database) (req : Request) (user : CurrentUser) (r : EvaluationRecord) :
    Option Action → EvaluationRecord → Prop
  | noted (n : Notes) : Change db req user r none (r.withNotes n)
  | scored (hscorer : r.isTheScorer user = true) (scores : List EvaluationScore)
      (bonusPoints : Option Rat) (bonusReason evaluatorComment : Option String)
      (hasked : scores = r.scores ∨
        ∀ s ∈ scores, s.indicatorId ∈ (indicatorsForRecord db r).map Indicator.id) :
      Change db req user r none (r.withForm scores bonusPoints bonusReason evaluatorComment)
  | rebound (framework : IndicatorFramework) (hmovable : r.isMovable framework = true)
      (hop : req.operation.changesMembership db = true) :
      Change db req user r none { r with indicatorFrameworkId := some framework.id }
  | claimed (hopen : r.isOpen = true) (hunowned : r.hrUserId = none) (hrole : user.role = .hr)
      (hself : ¬user.isSubjectOf r) :
      Change db req user r none { r with hrUserId := some user.id }
  | handedOver (hopen : r.isOpen = true) (hself : ¬user.isSubjectOf r) (owner : User) (reason : String)
      (hop : req.operation = .onRecord r.id (.hrHandover owner.id reason))
      (howner : owner ∈ db.users) (hactive : owner.isActive = true) (hrole : owner.role = .hr)
      (hother : owner.personnelId ≠ some r.subjectPersonnelId) :
      Change db req user r none { r with hrUserId := some owner.id }
  | reassigned (hopen : r.isOpen = true) (hself : ¬user.isSubjectOf r) (seat : ChainSeat)
      (hfilled : (r.chain.seat seat).isSome = true) (owner : User) (reason : String)
      (hop : req.operation = .onRecord r.id (.reassignStageOwner seat owner.id reason))
      (howner : owner ∈ db.users)
      (hactive : owner.isActive = true) (hrole : owner.role = seatRole seat)
      (hother : owner.personnelId ≠ some r.subjectPersonnelId) (chain : Chain)
      (hseat : chain.seat seat = some owner.id) (hrest : ∀ s, s ≠ seat → chain.seat s = r.chain.seat s) :
      Change db req user r none { r with chain := chain }
  | moved (a : Action) (hallowed : transitionBlock r a user = none)
      (hself : ¬user.isSubjectOf r ∨ ∃ seat, (transitions a).assigneeField = some (.chain seat))
      (hresult : (transitions a).toStatus = .finalized → r.hasResult = true)
      (before : EvaluationRecord) (hbefore : Prepared db req.env a (r.claimedFor a user) before) :
      Change db req user r (some a) (before.moved req.env (transitions a).toStatus)

/-! ## The endpoints -/

section

variable {db : Database} {req : Request} {user : CurrentUser} {r : EvaluationRecord} {w : Work}

/-- A transition is a change once its user is kept off his own record. -/
theorem applyTransition_change {a : Action} {before : EvaluationRecord → Except HTTPException Work}
    (h : applyTransition db req.env r a user before = .ok w)
    (hself : (transitions a).allowedRole = .hr ∨ ¬user.isSubjectOf r ∨
      ∃ seat, (transitions a).assigneeField = some (.chain seat))
    (hbefore : ∀ w₀, before (r.claimedFor a user) = .ok w₀ →
      Prepared db req.env a (r.claimedFor a user) w₀.record) :
    Change db req user r (some a) w.record := by
  obtain ⟨hblock, hduties, hresult, w₀, hw₀, -, hrecord, -, -⟩ := applyTransition_ok h
  have hself' : ¬user.isSubjectOf r ∨ ∃ seat, (transitions a).assigneeField = some (.chain seat) := by
    rcases hself with hrole | hself
    · exact Or.inl (hduties hrole)
    · exact hself
  rw [hrecord]
  exact Change.moved a hblock hself' hresult w₀.record (hbefore w₀ hw₀)

theorem nothingBefore_prepared {a : Action} {w₀ : Work} (h : nothingBefore r = .ok w₀)
    (hsubmit : a.isSubmit = false) (hto : (transitions a).toStatus ≠ .finalized) :
    Prepared db req.env a r w₀.record := by
  cases h
  exact Prepared.plain hsubmit hto

theorem finalizeScoring_prepared {a : Action} {w₀ : Work}
    (h : finalizeScoring db req.env user r = .ok w₀) (hsubmit : a.isSubmit = true) :
    Prepared db req.env a r w₀.record := by
  obtain ⟨hcomplete, hrecord, -, -⟩ := finalizeScoring_ok h
  rw [hrecord]
  exact Prepared.scored hsubmit hcomplete

theorem stampFinalization_prepared {a : Action} {w₀ : Work}
    (h : stampFinalization db req.env r = .ok w₀) (hto : (transitions a).toStatus = .finalized) :
    Prepared db req.env a r w₀.record := by
  unfold stampFinalization at h
  simp only [bind_eq_ok, pure_eq_ok] at h
  obtain ⟨snapshot, hsnapshot, rfl⟩ := h
  exact Prepared.stamped hto snapshot hsnapshot

theorem noted_self : Change db req user r none r := Change.noted r.notes

/-! ### Scoring -/

theorem ensureRowsAreAsked_ok {allowed ks seen : List Nat} {x : Unit}
    (h : ensureRowsAreAsked allowed ks seen = .ok x) : ∀ k ∈ ks, k ∈ allowed := by
  induction ks generalizing seen with
  | nil => simp
  | cons k ks ih =>
    unfold ensureRowsAreAsked at h
    simp only [bind_eq_ok, ensure_eq_ok] at h
    obtain ⟨-, hk, -, -, hrest⟩ := h
    intro j hj
    rcases List.mem_cons.mp hj with rfl | hj
    · exact hk
    · exact ih hrest j hj

theorem upsertScores_change {scores : List EvaluationScore}
    (h : upsertScores db req.env user r scores = .ok w) : Change db req user r none w.record := by
  unfold upsertScores at h
  simp only [bind_eq_ok, pure_eq_ok, ensure_eq_ok] at h
  obtain ⟨-, hscorer, x, hasked, rfl⟩ := h
  have hrows := ensureRowsAreAsked_ok hasked
  refine Change.scored hscorer scores r.bonusPoints r.bonusReason r.evaluatorComment (Or.inr ?_)
  intro s hs
  exact hrows s.indicatorId (List.mem_map_of_mem hs)

theorem setEvaluatorComment_change {evaluatorComment : String}
    (h : setEvaluatorComment user r evaluatorComment = .ok w) :
    Change db req user r none w.record := by
  unfold setEvaluatorComment at h
  simp only [bind_eq_ok, pure_eq_ok, ensure_eq_ok] at h
  obtain ⟨-, hscorer, rfl⟩ := h
  exact Change.scored hscorer r.scores r.bonusPoints r.bonusReason (some evaluatorComment) (Or.inl rfl)

theorem setSpecialScore_change {bonusPoints : Rat} {bonusReason : Option String}
    (h : setSpecialScore db req.env user r bonusPoints bonusReason = .ok w) :
    Change db req user r none w.record := by
  unfold setSpecialScore at h
  simp only [bind_eq_ok, ensure_eq_ok] at h
  obtain ⟨-, hscorer, h⟩ := h
  split at h
  · cases h
  · rw [pure_eq_ok] at h
    subst h
    exact Change.scored hscorer r.scores _ _ r.evaluatorComment (Or.inl rfl)

/-! ### Transitions -/

theorem submitAction_isSubmit : (submitAction r).isSubmit = true := by
  unfold submitAction
  split
  · split <;> rfl
  · split
    · split <;> rfl
    · split <;> rfl

theorem submitAction_seat : ∃ seat, (transitions (submitAction r)).assigneeField = some (.chain seat) := by
  unfold submitAction
  split
  · split <;> exact ⟨_, rfl⟩
  · split
    · split <;> exact ⟨_, rfl⟩
    · split <;> exact ⟨_, rfl⟩

theorem submitEvaluation_change (h : submitEvaluation db req.env user r = .ok w) :
    Change db req user r (some (submitAction r)) w.record := by
  unfold submitEvaluation at h
  rw [bind_eq_ok] at h
  obtain ⟨-, -, h⟩ := h
  refine applyTransition_change h (Or.inr (Or.inr submitAction_seat)) ?_
  intro w₀ hw₀
  exact finalizeScoring_prepared hw₀ submitAction_isSubmit

theorem hrApproveAction_isSubmit : (hrApproveAction r).isSubmit = false := by
  unfold hrApproveAction
  split
  · rfl
  · split <;> rfl

/-- The approval of HR is the last word exactly on the chief executive's own chain. -/
theorem hrApproveAction_toStatus :
    (transitions (hrApproveAction r)).toStatus = .finalized ↔ r.hrFinalizesRecord = true := by
  unfold hrApproveAction
  split
  next hfinal => simp [hfinal, transitions, hrStage]
  next hfinal => split <;> simp [hfinal, transitions, hrStage]

theorem hrApprove_change (h : hrApprove db req.env user r = .ok w) :
    Change db req user r (some (hrApproveAction r)) w.record := by
  unfold hrApprove at h
  simp only [bind_eq_ok, ensureHrMayHandle_eq_ok] at h
  obtain ⟨-, ⟨hself, -⟩, h⟩ := h
  refine applyTransition_change h (Or.inr (Or.inl hself)) ?_
  intro w₀ hw₀
  by_cases hfinal : r.hrFinalizesRecord = true
  · rw [if_pos hfinal] at hw₀
    exact stampFinalization_prepared hw₀ (hrApproveAction_toStatus.mpr hfinal)
  · rw [if_neg hfinal] at hw₀
    exact nothingBefore_prepared hw₀ hrApproveAction_isSubmit
      (fun hto => hfinal (hrApproveAction_toStatus.mp hto))

theorem deputyApprove_change (h : deputyApprove db req.env user r = .ok w) :
    Change db req user r (some .deputyApprove) w.record := by
  refine applyTransition_change h (Or.inr (Or.inr ⟨.deputy, rfl⟩)) ?_
  intro w₀ hw₀
  exact nothingBefore_prepared hw₀ rfl (by decide)

theorem ceoFinalize_change (h : ceoFinalize db req.env user r = .ok w) :
    Change db req user r (some .ceoFinalize) w.record := by
  refine applyTransition_change h (Or.inr (Or.inr ⟨.ceo, rfl⟩)) ?_
  intro w₀ hw₀
  exact stampFinalization_prepared hw₀ rfl

/-! ### Returning and cancelling -/

theorem mem_returnActions {a : Action} (h : a.isReturn = true) :
    ∃ stage, (a, stage) ∈ returnActions := by
  cases a <;> first | exact absurd h (by decide) | exact ⟨_, by simp [returnActions]; rfl⟩

theorem isReturn_of_mem {entry : Action × CommentStage} (h : entry ∈ returnActions) :
    entry.1.isReturn = true := by
  have hall : ∀ entry ∈ returnActions, entry.1.isReturn = true := by decide
  exact hall entry h

theorem returnActionFor_some {choice : Action × CommentStage}
    (h : returnActionFor r user = some choice) :
    choice.1.isReturn = true ∧ transitionBlock r choice.1 user = none := by
  unfold returnActionFor at h
  have havail := List.find?_some h
  exact ⟨isReturn_of_mem (List.mem_of_find?_eq_some h), transitionIsAvailable_iff.mp havail⟩

theorem returnActionFor_none (h : returnActionFor r user = none) {a : Action}
    (ha : a.isReturn = true) : transitionBlock r a user ≠ none := by
  obtain ⟨stage, hmem⟩ := mem_returnActions ha
  have hno := List.find?_eq_none.mp h (a, stage) hmem
  rwa [transitionIsAvailable_iff] at hno

theorem withoutHrStage_isReturn {a : Action} (h : a.isReturn = true) :
    (withoutHrStage a).isReturn = true := by
  cases a <;> first | exact absurd h (by decide) | rfl

theorem ceoReturnFor_isReturn : (ceoReturnFor r).isReturn = true := by
  unfold ceoReturnFor
  split
  · rfl
  · split
    · rfl
    · split <;> rfl

theorem fallbackReturn_isReturn {choice : Action × CommentStage}
    (h : fallbackReturn r user = .ok choice) : choice.1.isReturn = true := by
  unfold fallbackReturn at h
  simp only [bind_eq_ok, pure_eq_ok, require_eq_ok, ensure_eq_ok] at h
  obtain ⟨⟨a, stage⟩, hrole, -, -, rfl⟩ := h
  have ha : a.isReturn = true := by
    unfold returnActionByRole at hrole
    split at hrole <;> cases hrole <;> rfl
  have hchosen : (if a = .ceoReturn then ceoReturnFor r else a).isReturn = true := by
    split
    · exact ceoReturnFor_isReturn
    · exact ha
  show (if r.skipsHrReview then withoutHrStage _ else _).isReturn = true
  split
  · exact withoutHrStage_isReturn hchosen
  · exact hchosen

theorem isReturn_plain {a : Action} (h : a.isReturn = true) :
    a.isSubmit = false ∧ (transitions a).toStatus ≠ .finalized := by
  cases a <;> first | exact absurd h (by decide) | exact ⟨rfl, by decide⟩

theorem doReturn_change {a : Action} {stage : CommentStage} {reason : String}
    (h : doReturn db req.env user r a stage reason = .ok w) (ha : a.isReturn = true)
    (hself : ¬user.isSubjectOf r) : Change db req user r (some a) w.record := by
  refine applyTransition_change h (Or.inr (Or.inl hself)) ?_
  intro w₀ hw₀
  cases hw₀
  exact Prepared.plain (isReturn_plain ha).1 (isReturn_plain ha).2

/-- A return that is answered is the one that is open to the user; the fallback only refuses. -/
theorem returnEvaluation_change {reason : String} (h : returnEvaluation db req.env user r reason = .ok w) :
    ∃ choice, returnActionFor r user = some choice ∧
      Change db req user r (some choice.1) w.record := by
  unfold returnEvaluation at h
  simp only [bind_eq_ok, ensureHrMayHandle_eq_ok] at h
  obtain ⟨-, ⟨hself, -⟩, ⟨a, stage⟩, hchoice, h⟩ := h
  unfold returnChoice at hchoice
  split at hchoice
  next choice hsome =>
    cases hchoice
    exact ⟨_, hsome, doReturn_change h (returnActionFor_some hsome).1 hself⟩
  next hnone =>
    have ha : a.isReturn = true := fallbackReturn_isReturn hchoice
    obtain ⟨hblock, -⟩ := applyTransition_ok h
    exact absurd hblock (returnActionFor_none hnone ha)

theorem cancelAction_plain : (cancelAction user).isSubmit = false ∧
    (transitions (cancelAction user)).toStatus ≠ .finalized := by
  unfold cancelAction
  split <;> exact ⟨rfl, by decide⟩

theorem cancelEvaluation_change {reason : String} (h : cancelEvaluation db req.env user r reason = .ok w) :
    Change db req user r (some (cancelAction user)) w.record := by
  unfold cancelEvaluation at h
  rw [bind_eq_ok] at h
  obtain ⟨x, hadmin, h⟩ := h
  refine applyTransition_change h (Or.inr (Or.inl (ensureMayAdminister_ok hadmin).1)) ?_
  intro w₀ hw₀
  cases hw₀
  exact Prepared.plain cancelAction_plain.1 cancelAction_plain.2

/-! ### Owners -/

theorem hrClaim_change (h : hrClaim db req.env user r = .ok w) (hrole : user.role = .hr) :
    Change db req user r none w.record := by
  unfold hrClaim at h
  simp only [bind_eq_ok, pure_eq_ok, ensureHrMayHandle_eq_ok, ensure_eq_ok] at h
  obtain ⟨-, ⟨hself, -⟩, -, hopen, -, hunowned, rfl⟩ := h
  exact Change.claimed hopen hunowned hrole hself

theorem hrHandover_change {newHrUserId : Nat} {reason : String}
    (hop : req.operation = .onRecord r.id (.hrHandover newHrUserId reason))
    (h : hrHandover db req.env user r newHrUserId reason = .ok w) :
    Change db req user r none w.record := by
  unfold hrHandover at h
  simp only [bind_eq_ok, pure_eq_ok, ensureHrMayHandle_eq_ok, ensure_eq_ok, require_eq_ok] at h
  obtain ⟨-, ⟨hself, -⟩, -, hopen, owner, howner, -, ⟨hactive, hrole⟩, -, -, -, hother, rfl⟩ := h
  have hid : owner.id = newHrUserId := Table.id_of_get? howner
  rw [← hid] at hop
  exact Change.handedOver hopen hself owner reason hop (Table.mem_of_get? howner) hactive hrole hother

/-- The new chain has the new occupant in the seat and everybody else where he was. -/
theorem seatsWith_spec {c c' : Chain} {stageField : ChainSeat} {userId : Nat}
    (hsup : c'.unitSupervisorUserId = (seatsWith c stageField userId).1)
    (hdep : c'.deputyUserId = (seatsWith c stageField userId).2.1)
    (hceo : c'.ceoUserId = (seatsWith c stageField userId).2.2) :
    c'.seat stageField = some userId ∧ ∀ s, s ≠ stageField → c'.seat s = c.seat s := by
  cases stageField <;> refine ⟨?_, ?_⟩
  all_goals first
    | (intro s hs; cases s <;> simp_all [seatsWith])
    | simp_all [seatsWith]

theorem reassignStageOwner_change {stageField : ChainSeat} {newUserId : Nat} {reason : String}
    (hop : req.operation = .onRecord r.id (.reassignStageOwner stageField newUserId reason))
    (h : reassignStageOwner db req.env user r stageField newUserId reason = .ok w) :
    Change db req user r none w.record := by
  unfold reassignStageOwner at h
  simp only [bind_eq_ok, pure_eq_ok, ensure_eq_ok, require_eq_ok] at h
  obtain ⟨_, hadmin, -, hopen, -, hfilled, owner, howner, -, hrole, _, hconflict, chain, hchain, rfl⟩ := h
  obtain ⟨hget, hactive⟩ := Option.filter_eq_some_iff.mp howner
  have hmem := Table.mem_of_get? hget
  have hid : owner.id = newUserId := Table.id_of_get? hget
  have hother := ensureEvaluatorsAreNotTheSubject_ok hconflict hmem (by simp [hid])
  obtain ⟨hsup, hdep, hceo⟩ := ensureChainStagesAreNotRedundant_ok hchain
  obtain ⟨hseat, hrest⟩ := seatsWith_spec hsup hdep hceo
  rw [← hid] at hop hseat
  exact Change.reassigned hopen (ensureMayAdminister_ok hadmin).1 stageField hfilled owner reason hop
    hmem hactive hrole hother chain hseat hrest

/-! ### Notes and comments -/

theorem extendSubmissionWindow_change {untilDate : Nat} {reason : String}
    (h : extendSubmissionWindow db req.env user r untilDate reason = .ok w) :
    Change db req user r none w.record := by
  unfold extendSubmissionWindow at h
  simp only [bind_eq_ok, pure_eq_ok] at h
  obtain ⟨-, -, -, -, -, -, rfl⟩ := h
  exact Change.noted
    { r.notes with
      submissionExtendedUntil := some untilDate
      submissionExtendedAt := some req.env.now
      submissionExtendedByUserId := some user.id
      submissionExtensionReason := some reason }

theorem resolveObjection_change {resolution : String}
    (h : resolveObjection db req.env user r resolution = .ok w) : Change db req user r none w.record := by
  unfold resolveObjection at h
  simp only [bind_eq_ok, pure_eq_ok] at h
  obtain ⟨-, -, -, -, -, -, rfl⟩ := h
  exact Change.noted
    { r.notes with
      objectionResolvedAt := some req.env.now
      objectionResolution := some resolution
      objectionResolvedByUserId := some user.id }

theorem fileObjection_change {reason : String} (h : fileObjection db req.env user r reason = .ok w) :
    Change db req user r none w.record := by
  unfold fileObjection at h
  simp only [bind_eq_ok, pure_eq_ok] at h
  obtain ⟨-, -, -, -, _, -, -, -, -, -, rfl⟩ := h
  exact Change.noted { r.notes with objectionAt := some req.env.now, objectionReason := some reason }

theorem acknowledgeEvaluation_change (h : acknowledgeEvaluation db req.env user r = .ok w) :
    Change db req user r none w.record := by
  unfold acknowledgeEvaluation at h
  simp only [bind_eq_ok, pure_eq_ok] at h
  obtain ⟨-, -, -, -, -, -, rfl⟩ := h
  exact Change.noted
    { r.notes with acknowledgedAt := some req.env.now, acknowledgedByUserId := some user.id }

theorem submitSelfAssessment_change {scores : List SelfAssessmentScore} {note : Option String}
    (h : submitSelfAssessment db req.env user r scores note = .ok w) :
    Change db req user r none w.record := by
  unfold submitSelfAssessment at h
  simp only [bind_eq_ok, pure_eq_ok] at h
  obtain ⟨-, -, -, -, -, -, -, -, -, -, -, -, -, -, rfl⟩ := h
  exact Change.noted
    { r.notes with
      selfAssessmentScores := scores
      selfAssessmentSubmittedAt := some req.env.now
      selfAssessmentNote := note }

theorem inviteSelfAssessment_change (h : inviteSelfAssessment db req.env user r = .ok w) :
    Change db req user r none w.record := by
  unfold inviteSelfAssessment at h
  simp only [bind_eq_ok, pure_eq_ok] at h
  obtain ⟨_, -, -, -, -, -, rfl⟩ := h
  exact Change.noted
    { r.notes with
      selfAssessmentInvitedAt := some req.env.now
      selfAssessmentInvitedByUserId := some user.id }

/-- A comment by HR on an unowned record in its queue claims it. -/
theorem addComment_change {commentText : String} (h : addComment req.env user r commentText = .ok w) :
    Change db req user r none w.record := by
  unfold addComment at h
  simp only [bind_eq_ok, pure_eq_ok, ensureHrMayHandle_eq_ok, require_eq_ok, ensure_eq_ok] at h
  obtain ⟨-, ⟨hself, -⟩, ⟨stage, requiredStatus, requiredUserId⟩, hstage, -, hstatus, -, -, rfl⟩ := h
  by_cases hclaims : commentClaims user requiredUserId = true
  · rw [if_pos hclaims]
    have hboth : user.role = .hr ∧ requiredUserId = none := by simpa [commentClaims] using hclaims
    rw [hboth.1] at hstage
    simp only [commentStageFor, Option.some.injEq, Prod.mk.injEq] at hstage
    obtain ⟨-, rfl, rfl⟩ := hstage
    have hopen : r.isOpen = true := by
      have hs : r.status = .submitted := hstatus
      simp [EvaluationRecord.isOpen, hs, openStatuses]
    exact Change.claimed hopen hboth.2 hboth.1 hself
  · rw [if_neg hclaims]
    exact noted_self

theorem addReply_change {parentCommentId : Nat} {commentText : String}
    (h : addReply db req.env user r parentCommentId commentText = .ok w) :
    Change db req user r none w.record := by
  unfold addReply at h
  simp only [bind_eq_ok, pure_eq_ok] at h
  obtain ⟨-, -, _, -, -, -, rfl⟩ := h
  exact noted_self

/-- No endpoint does anything else. -/
theorem RecordOperation.run_change {op : RecordOperation} {x : Unit}
    (hop : req.operation = .onRecord r.id op) (hguard : op.guard req.env user = .ok x) (h : op.run db req.env user r = .ok w) :
    Change db req user r (op.action user r) w.record := by
  cases op with
  | upsertScores scores => exact upsertScores_change h
  | setEvaluatorComment evaluatorComment => exact setEvaluatorComment_change h
  | setSpecialScore bonusPoints bonusReason => exact setSpecialScore_change h
  | submitEvaluation => exact submitEvaluation_change h
  | hrApprove => exact hrApprove_change h
  | deputyApprove => exact deputyApprove_change h
  | ceoFinalize => exact ceoFinalize_change h
  | returnEvaluation reason =>
    obtain ⟨choice, hchoice, hchange⟩ := returnEvaluation_change h
    simp only [action, hchoice, Option.map_some]
    exact hchange
  | cancelEvaluation reason => exact cancelEvaluation_change h
  | extendSubmissionWindow untilDate reason => exact extendSubmissionWindow_change h
  | hrClaim =>
    have hrole : user.role = .hr := by simpa [guard, requireRoles] using hguard
    exact hrClaim_change h hrole
  | hrHandover newHrUserId reason => exact hrHandover_change hop h
  | resolveObjection resolution => exact resolveObjection_change h
  | reassignStageOwner stageField newUserId reason => exact reassignStageOwner_change hop h
  | addComment commentText => exact addComment_change h
  | addReply parentCommentId commentText => exact addReply_change h
  | submitSelfAssessment scores note => exact submitSelfAssessment_change h
  | inviteSelfAssessment => exact inviteSelfAssessment_change h
  | fileObjection reason => exact fileObjection_change h
  | acknowledgeEvaluation => exact acknowledgeEvaluation_change h

end

end NexaHR
