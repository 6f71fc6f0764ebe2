import NexaHR.Pages.EvaluationActions
import NexaHR.Properties.Views
import NexaHR.System.RecordRuns

/-! # The buttons of the page, against the server

The page decides by a user's role and by the seat that bears its name. The server lets a superior act in
a lower seat, and every chief executive cancel an open record that HR does not review.

* `mayActAt_seat_iff`: the page's ranks are the server's.
* `scores_accepted_iff`, `cancel_accepted_iff`: when the two endpoints without a transition of their own
  accept a user.
* `buttons_agree_iff`: on every record of every run, the page shows a user the buttons that the server
  answers, unless he is a chief executive outside the chief executive's seat.
-/

namespace NexaHR

open Foundations

set_option autoImplicit false

/-! ## Ranks -/

/-- The page compares ranks where the server asks who may act at a stage. -/
theorem mayActAt_seat_iff (role : UserRole) (seat : ChainSeat) :
    mayActAt role (seatRole seat) = true ↔ rankOf (seatRole seat) ≤ rankOf role := by
  cases role <;> cases seat <;> decide

/-! ## What the server accepts -/

/-- The server takes scores of the user. -/
def AcceptsScores (db : Database) (env : Env) (user : CurrentUser) (r : EvaluationRecord) : Prop :=
  ∃ scores w, upsertScores db env user r scores = .ok w

/-- The server lets the user cancel the record. -/
def AcceptsCancel (db : Database) (env : Env) (user : CurrentUser) (r : EvaluationRecord) : Prop :=
  ∃ reason w, cancelEvaluation db env user r reason = .ok w

/-- Some return is open to the user. -/
def MayReturn (r : EvaluationRecord) (user : CurrentUser) : Prop :=
  ∃ a : Action, a.isReturn = true ∧ Performable r a user

/-- Each button is there exactly when the server accepts what it asks for. -/
structure ButtonsAgree (db : Database) (env : Env) (r : EvaluationRecord) (user : CurrentUser) :
    Prop where
  scoring : (buttons r user).isEditableScoring = true ↔ AcceptsScores db env user r
  hrApprove : (buttons r user).canHrApprove = true ↔ Performable r (hrApproveAction r) user
  deputyApprove : (buttons r user).canDeputyApprove = true ↔ Performable r .deputyApprove user
  ceoFinalize : (buttons r user).canCeoFinalize = true ↔ Performable r .ceoFinalize user
  returns : (buttons r user).showsReturnBox = true ↔ MayReturn r user
  cancel : (buttons r user).canRecoverStuckCase = true ↔ AcceptsCancel db env user r

/-- A chief executive outside the seat of the chief executive: of an open record that HR does not
review, or in the deputy's seat of one whose turn has come. -/
def ActsBelowHisSeat (r : EvaluationRecord) (user : CurrentUser) : Prop :=
  user.role = .ceo ∧ r.chain.ceoUserId ≠ user.id ∧
    (r.hrPanelIsShielded = true ∨ (r.status = .hrApproved ∧ r.chain.deputyUserId = some user.id))

section

variable {db : Database} {env : Env} {user : CurrentUser} {r : EvaluationRecord}

theorem scores_accepted_iff : AcceptsScores db env user r ↔ r.isTheScorer user = true := by
  unfold AcceptsScores upsertScores
  simp only [bind_eq_ok, ensure_eq_ok, pure_eq_ok]
  constructor
  · rintro ⟨scores, w, -, hscorer, -⟩
    exact hscorer
  · intro hscorer
    exact ⟨[], _, (), hscorer, (), rfl, rfl⟩

/-- Whoever may administer an open record may cancel it. -/
theorem cancel_performable (hopen : r.isOpen = true) (hmay : ensureMayAdminister r user = .ok ()) :
    Performable r (cancelAction user) user := by
  have hfrom := mem_openStatuses_of_isOpen hopen
  obtain ⟨hself, ⟨hrole, hshield⟩ | ⟨hshield, hseat⟩⟩ := ensureMayAdminister_eq_ok.mp hmay
  · unfold cancelAction
    rw [if_pos hrole]
    refine ⟨transitionBlock_eq_none.mpr ⟨hfrom, (mayActAt_hr _).mpr hrole, rfl, rfl⟩, ?_⟩
    refine ensureHrMayHandle_eq_ok.mpr ⟨hself, ?_⟩
    rw [hshield]
    exact fun h => Bool.false_ne_true h.2
  · have hrole : user.role = .deputy ∨ user.role = .ceo := by
      rcases hseat with hceo | ⟨hdeputy, -⟩
      · exact Or.inr hceo
      · exact Or.inl hdeputy
    have hhr : user.role ≠ .hr := by
      rcases hrole with h | h <;> rw [h] <;> decide
    have hskip : r.skipsHrReview = true := by
      unfold EvaluationRecord.hrPanelIsShielded at hshield
      rw [Bool.and_eq_true] at hshield
      exact hshield.1
    unfold cancelAction
    rw [if_neg hhr]
    exact ⟨transitionBlock_eq_none.mpr ⟨hfrom, (mayActAt_deputy_iff _).mpr hrole, hskip, rfl⟩, rfl⟩

/-- A record is cancelled by whoever may administer it, as long as it is open. -/
theorem cancel_accepted_iff :
    AcceptsCancel db env user r ↔ r.isOpen = true ∧ ensureMayAdminister r user = .ok () := by
  unfold AcceptsCancel cancelEvaluation
  simp only [bind_eq_ok]
  constructor
  · rintro ⟨reason, w, x, hmay, happly⟩
    obtain ⟨hblock, -⟩ := applyTransition_ok happly
    refine ⟨?_, hmay⟩
    have hfrom := (transitionBlock_eq_none.mp hblock).1
    have hopen : r.status ∈ openStatuses := by
      unfold cancelAction at hfrom
      split at hfrom <;> exact hfrom
    simpa [EvaluationRecord.isOpen] using hopen
  · rintro ⟨hopen, hmay⟩
    obtain ⟨hblock, hduties⟩ := cancel_performable hopen hmay
    have hto : (transitions (cancelAction user)).toStatus ≠ .finalized := by
      unfold cancelAction
      split <;> decide
    refine ⟨"", ?_⟩
    simp only [hmay, true_and, exists_const]
    exact applyTransition_of_checks hblock hduties (fun h => absurd h hto) rfl
      (fun h => absurd h hto)

end

/-! ## Button by button -/

section

variable {user : CurrentUser} {r : EvaluationRecord}

theorem sitsAt_ceo : SitsAt r user (.chain .ceo) ↔ r.chain.ceoUserId = user.id ∧ user.role = .ceo := by
  show some r.chain.ceoUserId = some user.id ∧ mayActAt user.role .ceo = true ↔ _
  rw [Option.some.injEq, mayActAt_ceo_iff]

theorem sitsAt_deputy : SitsAt r user (.chain .deputy) ↔
    r.chain.deputyUserId = some user.id ∧ (user.role = .deputy ∨ user.role = .ceo) :=
  and_congr_right fun _ => mayActAt_deputy_iff user.role

/-- The next desk after the HR stage is the deputy's, or without one the chief executive's. -/
theorem sitsAt_review :
    SitsAt r user (.chain (if r.chain.deputyUserId.isSome then .deputy else .ceo)) ↔
      SitsAt r user (.chain .deputy) ∨ (r.skipsDeputy = true ∧ SitsAt r user (.chain .ceo)) := by
  unfold EvaluationRecord.skipsDeputy
  cases hdep : r.chain.deputyUserId with
  | none => simp [sitsAt_deputy, hdep]
  | some k => simp

/-- The page's scorer is the server's. -/
theorem scorer_of_page : (buttons r user).scorerRole =
      scorerField r.chain.unitSupervisorUserId r.chain.deputyUserId ∧
    (buttons r user).scorerUserId = r.chain.scorer := by
  unfold buttons chainActions EvaluationRecord.sent Chain.scorer scorerField
  generalize r.chain = chain
  obtain ⟨supervisor, deputy, ceo, -, -⟩ := chain
  cases supervisor <;> cases deputy <;> exact ⟨rfl, rfl⟩

theorem scoring_button : (buttons r user).isEditableScoring = true ↔ r.isTheScorer user = true := by
  have hshown : (buttons r user).isEditableScoring = (decide (r.status = .draft) &&
      decide ((buttons r user).scorerUserId = some user.id) &&
        decide (rankOf (seatRole (buttons r user).scorerRole) ≤ rankOf user.role)) := rfl
  obtain ⟨hrole, hid⟩ := @scorer_of_page user r
  rw [hshown, hrole, hid]
  unfold EvaluationRecord.isTheScorer scorerSeat Chain.scorer
  simp only [Bool.and_eq_true, decide_eq_true_eq, mayActAt_seat_iff]

theorem hrApproveAction_field :
    (transitions (hrApproveAction r)).assigneeField = some .hr ∧
      (transitions (hrApproveAction r)).fromStatuses = [.submitted] := by
  unfold hrApproveAction
  split
  · exact ⟨rfl, rfl⟩
  · split <;> exact ⟨rfl, rfl⟩

/-- Where HR reviews a record, its approval is on the table. -/
theorem hrApprove_enabled (hskip : r.shape.hrReviewSkipped = false) :
    r.shape.enabled .submitted (hrApproveAction r) = true := by
  unfold hrApproveAction
  rw [r.hrFinalizesRecord_eq, r.isManagerPath_eq]
  generalize r.shape = s at hskip
  obtain ⟨sup, dep, skip⟩ := s
  cases hskip
  cases sup <;> cases dep <;> rfl

theorem hrApprove_turn (hroute : OnRoute r) :
    Performable r (hrApproveAction r) user ↔ r.status = .submitted ∧ HoldsTurn r user := by
  obtain ⟨hfield, hfrom⟩ := hrApproveAction_field (r := r)
  rw [performable_iff hfield]
  constructor
  · rintro ⟨henabled, hsits⟩
    have hs := (enabled_parts henabled).1
    rw [hfrom, List.mem_singleton] at hs
    exact ⟨hs, (holdsTurn_submitted hs (submitted_not_skipped hroute hs)).mpr hsits⟩
  · rintro ⟨hs, hturn⟩
    have hskip : r.shape.hrReviewSkipped = false := submitted_not_skipped hroute hs
    refine ⟨?_, (holdsTurn_submitted hs hskip).mp hturn⟩
    rw [hs]
    exact hrApprove_enabled hskip

/-- The HR stage of a record on its route is open to everybody who sits there. -/
theorem hr_button (hroute : OnRoute r) (hself : ¬user.isSubjectOf r) :
    (buttons r user).canHrApprove = true ↔ r.status = .submitted ∧ HoldsTurn r user := by
  have hshown : (buttons r user).canHrApprove = (decide (user.role = .hr) &&
      decide (r.status = .submitted) &&
        (decide (r.hrUserId = none) || decide (r.hrUserId = some user.id))) := rfl
  rw [hshown]
  simp only [Bool.and_eq_true, Bool.or_eq_true, decide_eq_true_eq]
  constructor
  · rintro ⟨⟨hrole, hs⟩, howner⟩
    exact ⟨hs, (holdsTurn_submitted hs (submitted_not_skipped hroute hs)).mpr ⟨hrole, howner, hself⟩⟩
  · rintro ⟨hs, hturn⟩
    obtain ⟨hrole, howner, -⟩ := (holdsTurn_submitted hs (submitted_not_skipped hroute hs)).mp hturn
    exact ⟨⟨hrole, hs⟩, howner⟩

theorem deputyApprove_iff :
    Performable r .deputyApprove user ↔ r.status = .hrApproved ∧
      r.chain.deputyUserId = some user.id ∧ (user.role = .deputy ∨ user.role = .ceo) := by
  rw [performable_iff rfl, sitsAt_deputy]
  constructor
  · rintro ⟨henabled, hsits⟩
    exact ⟨List.mem_singleton.mp (enabled_parts henabled).1, hsits⟩
  · rintro ⟨hs, hseat, hrole⟩
    refine ⟨?_, hseat, hrole⟩
    have hdep : r.shape.hasDeputy = true := by
      show r.chain.deputyUserId.isSome = true
      rw [hseat]
      rfl
    rw [hs]
    unfold Shape.enabled Shape.hasSeat
    simp [transitions, hdep, Shape.guardAt]

theorem ceoFinalize_iff :
    Performable r .ceoFinalize user ↔
      (r.status = .deputyApproved ∨ (r.status = .hrApproved ∧ r.skipsDeputy = true)) ∧
        r.chain.ceoUserId = user.id ∧ user.role = .ceo := by
  rw [performable_iff rfl, sitsAt_ceo, r.skipsDeputy_eq]
  refine and_congr_left fun _ => ?_
  cases hs : r.status <;> simp [Shape.enabled, Shape.guardAt, Shape.hasSeat, transitions, ceoStage]

theorem deputy_button (hroute : OnRoute r) :
    (buttons r user).canDeputyApprove = true ↔ r.status = .hrApproved ∧
      r.chain.deputyUserId = some user.id ∧ user.role = .deputy := by
  have hshown : (buttons r user).canDeputyApprove =
      (decide (user.role = .deputy) && decide (r.chain.deputyUserId = some user.id) &&
        decide (r.status = .hrApproved) && decide (stageByStatus r.status = some .deputyReview) &&
          !r.isManagerPath) := rfl
  rw [hshown, r.isManagerPath_eq]
  simp only [Bool.and_eq_true, Bool.not_not, decide_eq_true_eq]
  constructor
  · rintro ⟨⟨⟨⟨hrole, hseat⟩, hs⟩, -⟩, -⟩
    exact ⟨hs, hseat, hrole⟩
  · rintro ⟨hs, hseat, hrole⟩
    refine ⟨⟨⟨⟨hrole, hseat⟩, hs⟩, ?_⟩, supervised_of_hrApproved hroute hs⟩
    rw [hs]
    rfl

theorem finalize_button : (buttons r user).canCeoFinalize = true ↔
    (r.status = .deputyApproved ∨ (r.status = .hrApproved ∧ r.skipsDeputy = true)) ∧
      r.chain.ceoUserId = user.id ∧ user.role = .ceo := by
  have hshown : (buttons r user).canCeoFinalize =
      (decide (user.role = .ceo) && decide (r.chain.ceoUserId = user.id) &&
        (decide (r.status = .deputyApproved) || (decide (r.status = .hrApproved) && r.skipsDeputy))) :=
    rfl
  rw [hshown]
  simp only [Bool.and_eq_true, Bool.or_eq_true, decide_eq_true_eq]
  tauto

/-- The chief executive may also take back what waits for HR on his own chain. -/
theorem ceoReturn_button (hroute : OnRoute r) :
    (buttons r user).canCeoReturn = true ↔
      (buttons r user).canCeoFinalize = true ∨ MayTakeBack r user := by
  have hshown : (buttons r user).canCeoReturn =
      (decide (user.role = .ceo) && decide (r.chain.ceoUserId = user.id) &&
        (decide (r.status = .deputyApproved) || (r.isCeoOnlyPath && decide (r.status = .submitted)) ||
          (r.skipsDeputy && !r.isCeoOnlyPath && decide (r.status = .hrApproved)))) := rfl
  have hsupervised : r.status = .hrApproved → r.isCeoOnlyPath = false := by
    intro hs
    rw [r.isCeoOnlyPath_eq, Shape.isCeoOnly, supervised_of_hrApproved hroute hs]
    rfl
  unfold MayTakeBack
  rw [hshown, sitsAt_ceo, finalize_button]
  simp only [Bool.and_eq_true, Bool.or_eq_true, decide_eq_true_eq, Bool.not_eq_true']
  tauto

/-- A cancelled record is not sent back. -/
theorem mayReturn_iff (hroute : OnRoute r) :
    MayReturn r user ↔ (r.status ≠ .draft ∧ HoldsTurn r user) ∨ MayTakeBack r user := by
  rcases hroute with hdesk | hcancelled
  · exact return_iff hdesk
  · constructor
    · rintro ⟨a, -, hblock, -⟩
      have hfrom := (transitionBlock_eq_none.mp hblock).1
      rw [hcancelled] at hfrom
      exact absurd hfrom (cancelled_not_mem_fromStatuses a)
    · rintro (⟨-, field, hturn, -⟩ | ⟨-, hs, -⟩)
      · rw [hcancelled] at hturn
        cases hturn
      · rw [hcancelled] at hs
        cases hs

/-- The page's box to send back is the server's, but for a chief executive in the deputy's seat. -/
theorem return_button (hroute : OnRoute r) (hself : ¬user.isSubjectOf r) :
    MayReturn r user ↔ (buttons r user).showsReturnBox = true ∨
      (user.role = .ceo ∧ r.status = .hrApproved ∧ r.chain.deputyUserId = some user.id) := by
  unfold ChainActions.showsReturnBox
  simp only [Bool.or_eq_true]
  rw [mayReturn_iff hroute, hr_button hroute hself, deputy_button hroute, ceoReturn_button hroute, finalize_button]
  by_cases hhr : user.role = .hr
  · rw [holdsTurn_hr hhr, hhr]
    cases hs : r.status <;> simp
  · rw [holdsTurn_outside_hr hhr, sitsAt_review, sitsAt_deputy, sitsAt_ceo]
    cases hs : r.status <;> simp [MayTakeBack, hs]
    tauto

theorem recover_button : (buttons r user).canRecoverStuckCase = true ↔
    (user.role = .hr ∧ r.isOpen = true ∧ r.hrPanelIsShielded = false) ∨
      (r.hrPanelIsShielded = true ∧ ((user.role = .ceo ∧ r.chain.ceoUserId = user.id) ∨
        (user.role = .deputy ∧ r.chain.deputyUserId = some user.id))) := by
  have hshown : (buttons r user).canRecoverStuckCase =
      (decide (r.status ≠ .finalized ∧ r.status ≠ .cancelled) &&
        (if user.role = .hr then
          !(r.skipsHrReview && decide (r.status ≠ .finalized ∧ r.status ≠ .cancelled))
        else (r.skipsHrReview && decide (r.status ≠ .finalized ∧ r.status ≠ .cancelled)) &&
          ((decide (user.role = .ceo) && decide (r.chain.ceoUserId = user.id)) ||
            (decide (user.role = .deputy) && decide (r.chain.deputyUserId = some user.id))))) := rfl
  have hshield : (r.skipsHrReview && r.isOpen) = r.hrPanelIsShielded := rfl
  have hopen : r.hrPanelIsShielded = true → r.isOpen = true := by
    rw [← hshield, Bool.and_eq_true]
    exact fun h => h.2
  rw [hshown, ← EvaluationRecord.isOpen_eq, hshield]
  by_cases hhr : user.role = .hr
  · simp [hhr]
  · simp only [hhr, if_false, Bool.and_eq_true, Bool.or_eq_true, decide_eq_true_eq]
    tauto

/-- The page's box to cancel is the server's, but for a chief executive outside his seat. -/
theorem cancel_button {db : Database} {env : Env} (hself : ¬user.isSubjectOf r) :
    AcceptsCancel db env user r ↔ (buttons r user).canRecoverStuckCase = true ∨
      (user.role = .ceo ∧ r.hrPanelIsShielded = true) := by
  have hopen : r.hrPanelIsShielded = true → r.isOpen = true := by
    unfold EvaluationRecord.hrPanelIsShielded
    rw [Bool.and_eq_true]
    exact fun h => h.2
  rw [cancel_accepted_iff, ensureMayAdminister_eq_ok, recover_button]
  tauto

end

/-! ## All the buttons -/

section

variable {db : Database} {env : Env} {user : CurrentUser} {r : EvaluationRecord}

/-- On every record of every run, each button is there for a user other than the subject exactly when the
server accepts what it asks for, unless the user is a chief executive outside his seat. -/
theorem buttons_agree_iff {tr : List (Taken Database Request)} (hrun : SystemRun tr db)
    (hr : r ∈ db.evaluationRecords) (hself : ¬user.isSubjectOf r) :
    ButtonsAgree db env r user ↔ ¬ActsBelowHisSeat r user := by
  have hroute := onRoute_of_run hrun hr
  have hreturn := return_button hroute hself
  have hcancel : AcceptsCancel db env user r ↔ _ := cancel_button hself
  constructor
  · rintro hagree ⟨hceo, hseat, hshield | ⟨hs, hdep⟩⟩
    · have hshown := hagree.cancel.mpr (hcancel.mpr (Or.inr ⟨hceo, hshield⟩))
      rw [recover_button, hceo] at hshown
      rcases hshown with ⟨hhr, -⟩ | ⟨-, ⟨-, hmine⟩ | ⟨hdeputy, -⟩⟩
      · cases hhr
      · exact hseat hmine
      · cases hdeputy
    · have hshown := hagree.deputyApprove.mpr (deputyApprove_iff.mpr ⟨hs, hdep, Or.inr hceo⟩)
      rw [deputy_button hroute, hceo] at hshown
      cases hshown.2.2
  · intro hown
    have hbelow : ¬(user.role = .ceo ∧ r.status = .hrApproved ∧ r.chain.deputyUserId = some user.id) := by
      rintro ⟨hceo, hs, hdep⟩
      refine hown ⟨hceo, ?_, Or.inr ⟨hs, hdep⟩⟩
      intro hmine
      exact r.chain.deputy_not_ceo (by rw [hdep, hmine])
    refine ⟨?_, ?_, ?_, finalize_button.trans ceoFinalize_iff.symm, ?_, ?_⟩
    · exact scoring_button.trans scores_accepted_iff.symm
    · exact (hr_button hroute hself).trans (hrApprove_turn hroute).symm
    · rw [deputy_button hroute, deputyApprove_iff]
      constructor
      · rintro ⟨hs, hdep, hdeputy⟩
        exact ⟨hs, hdep, Or.inl hdeputy⟩
      · rintro ⟨hs, hdep, hdeputy | hceo⟩
        · exact ⟨hs, hdep, hdeputy⟩
        · exact absurd ⟨hceo, hs, hdep⟩ hbelow
    · exact (hreturn.trans (or_iff_left hbelow)).symm
    · constructor
      · exact fun hshown => hcancel.mpr (Or.inl hshown)
      · intro haccepted
        rcases hcancel.mp haccepted with hshown | ⟨hceo, hshield⟩
        · exact hshown
        · refine recover_button.mpr (Or.inr ⟨hshield, Or.inl ⟨hceo, ?_⟩⟩)
          by_contra hseat
          exact hown ⟨hceo, hseat, Or.inl hshield⟩

end

/-! ## In the seat of one's role -/

theorem scorer_sees_his_buttons :
    ∃ r ∈ officeWithDraft.evaluationRecords, ButtonsAgree officeWithDraft someDay r scorerOfDraft := by
  have hrun : SystemRun (replay settled (office fullChain) [ask 1 (.createEvaluation 1)]) officeWithDraft :=
    systemRun_replay (office_initial (by decide)) (by decide)
  obtain ⟨r, hr, -⟩ := draft_of_office
  have hself : ¬scorerOfDraft.isSubjectOf r := fun h => by cases h
  refine ⟨r, hr, (buttons_agree_iff hrun hr hself).mpr ?_⟩
  rintro ⟨hceo, -⟩
  cases hceo

/-! ## A chief executive in the deputy's seat -/

/-- A second chief executive is appointed, sits in the deputy's seat of a chain, and his turn comes. -/
def secondChiefExecutive : List Request :=
  [ask 4 (.onRecord 1 .hrApprove)] ++ submittedBy 1 ++
  [ask 4 (.upsertAccess 1 ⟨some 1, some 7, 3⟩), ask 4 (.createUser ⟨"ceo2", .ceo, none, none⟩)]

def chiefInDeputySeat : CurrentUser := (account 7 "ceo2" .ceo).toCurrent

theorem chief_misses_his_button :
    ¬∀ tr db env r user, SystemRun tr db → r ∈ db.evaluationRecords →
      getCurrentUser db user.id = .ok user → ¬user.isSubjectOf r → ButtonsAgree db env r user := by
  intro hclaim
  have hrun : SystemRun (replay settled (office fullChain) secondChiefExecutive)
      (endState settled (office fullChain) secondChiefExecutive) :=
    systemRun_replay (office_initial (by decide)) (by decide)
  obtain ⟨r, hget, hr⟩ := exists_of_any
    (o := (endState settled (office fullChain) secondChiefExecutive).evaluationRecords.get? 1)
    (p := fun r => r.status = .hrApproved && decide (r.chain.deputyUserId = some 7)) (by decide)
  simp only [Bool.and_eq_true, decide_eq_true_eq] at hr
  have hmem := Table.mem_of_get? hget
  have hself : ¬chiefInDeputySeat.isSubjectOf r := fun h => by cases h
  have hactive : getCurrentUser (endState settled (office fullChain) secondChiefExecutive) 7 =
      .ok chiefInDeputySeat := by
    decide
  have hagree := hclaim _ _ someDay r chiefInDeputySeat hrun hmem hactive hself
  have hshown := hagree.deputyApprove.mpr (deputyApprove_iff.mpr ⟨hr.1, hr.2, Or.inr rfl⟩)
  rw [deputy_button (onRoute_of_run hrun hmem)] at hshown
  cases hshown.2.2

end NexaHR
