import NexaHR.Routers.Evaluations
import NexaHR.Workflow.Desks

/-! # Comments of the deciders

Approving, finalizing and returning are decisions; a comment of the stage is meant for whoever may take one. The
decisions go by the seats of the chain, the comments by a table of roles.

* `Decides`, `decides_iff`: who may take a decision on a record.
* `mayComment_iff`: whose comment is accepted.
* `comment_follows_decision_iff`: the one covers the other but for two kinds of deciders.
-/

namespace NexaHR

open Foundations

set_option autoImplicit false

def Action.isDecision (a : Action) : Bool := !a.isSubmit && !a.isCancel

/-- `add_comment` accepts the comment. -/
def CommentIsAccepted (env : Env) (user : CurrentUser) (r : EvaluationRecord) (commentText : String) : Prop :=
  ∃ w, addComment env user r commentText = .ok w

/-! ## Who decides -/

/-- The HR desk of a record that HR reviews is the user's, or nobody's. -/
def DecidesForHr (r : EvaluationRecord) (user : CurrentUser) : Prop :=
  user.role = .hr ∧ r.status = .submitted ∧ r.skipsHrReview = false ∧
    (r.hrUserId = none ∨ r.hrUserId = some user.id)

/-- The user sits in the deputy's seat, and the record lies on its desk. -/
def DecidesAsDeputy (r : EvaluationRecord) (user : CurrentUser) : Prop :=
  (user.role = .deputy ∨ user.role = .ceo) ∧ r.status = .hrApproved ∧ r.chain.deputyUserId = some user.id

/-- The chief executive decides at the end, without a deputy one desk before it, and takes back what he scored
himself. -/
def DecidesAsCeo (r : EvaluationRecord) (user : CurrentUser) : Prop :=
  user.role = .ceo ∧ r.chain.ceoUserId = user.id ∧
    (r.status = .deputyApproved ∨ r.status = .hrApproved ∧ r.skipsDeputy = true ∨
      r.status = .submitted ∧ r.isCeoOnlyPath = true)

def Decides (r : EvaluationRecord) (user : CurrentUser) : Prop :=
  DecidesForHr r user ∨ DecidesAsDeputy r user ∨ DecidesAsCeo r user

section

variable {r : EvaluationRecord} {user : CurrentUser} {a : Action}

/-- The rows of the table that are decisions, by their seat. -/
theorem decision_row {s : Shape} {status : EvaluationStatus} (hdecision : a.isDecision = true)
    (h : s.enabled status a = true) :
    (transitions a).assigneeField = some .hr ∧ (transitions a).allowedRole = .hr ∧
        status = .submitted ∧ s.hrReviewSkipped = false ∨
      (transitions a).assigneeField = some (.chain .deputy) ∧ (transitions a).allowedRole = .deputy ∧
        status = .hrApproved ∨
      (transitions a).assigneeField = some (.chain .ceo) ∧ (transitions a).allowedRole = .ceo ∧
        (status = .deputyApproved ∨ status = .hrApproved ∧ s.hasDeputy = false ∨
          status = .submitted ∧ s.isCeoOnly = true) := by
  have hrow := Shape.forall_enabled
    (P := fun s status a => a.isDecision = true →
      (transitions a).assigneeField = some .hr ∧ (transitions a).allowedRole = .hr ∧
          status = .submitted ∧ s.hrReviewSkipped = false ∨
        (transitions a).assigneeField = some (.chain .deputy) ∧ (transitions a).allowedRole = .deputy ∧
          status = .hrApproved ∨
        (transitions a).assigneeField = some (.chain .ceo) ∧ (transitions a).allowedRole = .ceo ∧
          (status = .deputyApproved ∨ status = .hrApproved ∧ s.hasDeputy = false ∨
            status = .submitted ∧ s.isCeoOnly = true))
    (by decide) h
  exact hrow hdecision

theorem decides_of_available (hdecision : a.isDecision = true) (h : transitionIsAvailable r a user = true) :
    Decides r user := by
  rw [transitionIsAvailable_iff] at h
  obtain ⟨-, hrole, -, hseat⟩ := transitionBlock_eq_none.mp h
  rcases decision_row hdecision (enabled_of_available h) with
    ⟨hfield, hallowed, hstatus, hskip⟩ | ⟨hfield, hallowed, hstatus⟩ | ⟨hfield, hallowed, hstatus⟩
  · rw [hallowed, mayActAt_hr] at hrole
    unfold Transition.admits at hseat
    rw [hfield] at hseat
    simp only [Bool.or_eq_true, Bool.and_eq_true, decide_eq_true_eq] at hseat
    exact Or.inl ⟨hrole, hstatus, hskip, hseat.imp And.left id⟩
  · rw [hallowed, mayActAt_deputy_iff] at hrole
    have hclaim : (transitions a).claimableIfUnassigned = false := by
      cases a <;> first | rfl | cases hfield
    rw [Transition.admits_iff_of_not_claimable hfield hclaim] at hseat
    exact Or.inr (Or.inl ⟨hrole, hstatus, hseat⟩)
  · rw [hallowed, mayActAt_ceo_iff] at hrole
    have hclaim : (transitions a).claimableIfUnassigned = false := by
      cases a <;> first | rfl | cases hfield
    rw [Transition.admits_iff_of_not_claimable hfield hclaim] at hseat
    refine Or.inr (Or.inr ⟨hrole, Option.some.inj hseat, ?_⟩)
    rw [r.skipsDeputy_eq, r.isCeoOnlyPath_eq, Bool.not_eq_true']
    exact hstatus

/-- The transition that a decider has at each desk. -/
theorem available_of_decides (h : Decides r user) :
    ∃ a : Action, a.isDecision = true ∧ transitionIsAvailable r a user = true := by
  simp only [transitionIsAvailable_iff, transitionBlock_eq_none]
  rcases h with ⟨hrole, hstatus, hskip, hseat⟩ | ⟨hrole, hstatus, hseat⟩ | ⟨hrole, hseat, hstatus⟩
  · refine ⟨.hrReturn, rfl, ?_, (mayActAt_hr _).mpr hrole, ?_, ?_⟩
    · rw [hstatus]
      decide
    · show (!r.skipsHrReview) = true
      rw [hskip]
      rfl
    · show (decide (r.hrUserId = none) && true || decide (r.hrUserId = some user.id)) = true
      simpa using hseat
  · refine ⟨.deputyApprove, rfl, ?_, (mayActAt_deputy_iff _).mpr hrole, rfl, ?_⟩
    · rw [hstatus]
      decide
    · have hmine : r.seat (.chain .deputy) = some user.id := hseat
      exact (Transition.admits_iff_of_not_claimable rfl rfl).mpr hmine
  · have hmine : r.seat (.chain .ceo) = some user.id := congrArg some hseat
    rcases hstatus with hstatus | ⟨hstatus, hskip⟩ | ⟨hstatus, hceo⟩
    · refine ⟨.ceoFinalize, rfl, ?_, (mayActAt_ceo_iff _).mpr hrole, ?_, ?_⟩
      · rw [hstatus]
        decide
      · show (decide (r.status ≠ .hrApproved) || r.chain.deputyUserId.isNone) = true
        rw [hstatus]
        rfl
      · exact (Transition.admits_iff_of_not_claimable rfl rfl).mpr hmine
    · refine ⟨.ceoFinalize, rfl, ?_, (mayActAt_ceo_iff _).mpr hrole, ?_, ?_⟩
      · rw [hstatus]
        decide
      · show (decide (r.status ≠ .hrApproved) || r.chain.deputyUserId.isNone) = true
        rw [show r.chain.deputyUserId.isNone = true from hskip, Bool.or_true]
      · exact (Transition.admits_iff_of_not_claimable rfl rfl).mpr hmine
    · refine ⟨.ceoReturnCeoOnly, rfl, ?_, (mayActAt_ceo_iff _).mpr hrole, hceo, ?_⟩
      · rw [hstatus]
        decide
      · exact (Transition.admits_iff_of_not_claimable rfl rfl).mpr hmine

theorem decides_iff :
    (∃ a : Action, a.isDecision = true ∧ transitionIsAvailable r a user = true) ↔ Decides r user :=
  ⟨fun ⟨_, hdecision, h⟩ => decides_of_available hdecision h, available_of_decides⟩

/-! ## Who comments -/

/-- The seat and the status that a role comments with. -/
def CommentsAt (r : EvaluationRecord) (user : CurrentUser) : Prop :=
  user.role = .hr ∧ r.status = .submitted ∧ (r.hrUserId = none ∨ r.hrUserId = some user.id) ∨
    user.role = .deputy ∧ r.status = .hrApproved ∧ r.chain.deputyUserId = some user.id ∨
    user.role = .ceo ∧ r.status = .deputyApproved ∧ r.chain.ceoUserId = user.id

theorem commentStageFor_iff :
    (∃ stage status seat, commentStageFor r user.role = some (stage, status, seat) ∧ r.status = status ∧
      (commentClaims user seat = true ∨ seat = some user.id)) ↔ CommentsAt r user := by
  unfold CommentsAt commentClaims
  cases user.role <;> simp [commentStageFor]
  all_goals exact fun _ => eq_comm

theorem commentIsAccepted_iff {env : Env} {commentText : String} :
    CommentIsAccepted env user r commentText ↔
      (¬user.isSubjectOf r ∧ ¬(user.role = .hr ∧ r.hrPanelIsShielded = true)) ∧ CommentsAt r user := by
  rw [← commentStageFor_iff]
  unfold CommentIsAccepted addComment
  simp only [bind_eq_ok, pure_eq_ok, require_eq_ok, ensure_eq_ok, ensureHrMayHandle_eq_ok]
  constructor
  · rintro ⟨w, -, hself, ⟨stage, status, seat⟩, hstage, -, hstatus, -, hseat, -⟩
    exact ⟨hself, stage, status, seat, hstage, hstatus, hseat⟩
  · rintro ⟨hself, stage, status, seat, hstage, hstatus, hseat⟩
    exact ⟨_, (), hself, (stage, status, seat), hstage, (), hstatus, (), hseat, rfl⟩

/-! ## The two together -/

/-- A decider comments at his desk unless he is a chief executive at another desk than his last. -/
theorem commentsAt_iff (h : Decides r user) :
    CommentsAt r user ↔ (user.role = .ceo → r.status = .deputyApproved) := by
  constructor
  · rintro (⟨hrole, -⟩ | ⟨hrole, -⟩ | ⟨-, hstatus, -⟩) hceo
    · rw [hceo] at hrole
      cases hrole
    · rw [hceo] at hrole
      cases hrole
    · exact hstatus
  · intro hlast
    rcases h with ⟨hrole, hstatus, -, hseat⟩ | ⟨hrole | hrole, hstatus, hseat⟩ | ⟨hrole, hseat, -⟩
    · exact Or.inl ⟨hrole, hstatus, hseat⟩
    · exact Or.inr (Or.inl ⟨hrole, hstatus, hseat⟩)
    · rw [hlast hrole] at hstatus
      cases hstatus
    · exact Or.inr (Or.inr ⟨hrole, hlast hrole, hseat⟩)

/-- No decider of HR meets the shield. -/
theorem decider_not_shielded (h : Decides r user) : ¬(user.role = .hr ∧ r.hrPanelIsShielded = true) := by
  rintro ⟨hrole, hshield⟩
  unfold EvaluationRecord.hrPanelIsShielded at hshield
  rw [Bool.and_eq_true] at hshield
  rcases h with ⟨-, -, hskip, -⟩ | ⟨hother | hother, -⟩ | ⟨hother, -⟩
  · rw [hskip] at hshield
    cases hshield.1
  · rw [hrole] at hother
    cases hother
  · rw [hrole] at hother
    cases hother
  · rw [hrole] at hother
    cases hother

/-- Whoever may approve, finalize or return a record may comment on it, exactly when he has no such transition, or
is not its subject and, as chief executive, decides at the last desk. -/
theorem comment_follows_decision_iff (env : Env) (commentText : String) (r : EvaluationRecord) (user : CurrentUser) :
    ((∃ a : Action, a.isDecision = true ∧ transitionIsAvailable r a user = true) →
        CommentIsAccepted env user r commentText) ↔
      (Decides r user → ¬user.isSubjectOf r ∧ (user.role = .ceo → r.status = .deputyApproved)) := by
  rw [decides_iff, commentIsAccepted_iff]
  constructor
  · intro haccepted hdecides
    obtain ⟨⟨hself, -⟩, hat⟩ := haccepted hdecides
    exact ⟨hself, (commentsAt_iff hdecides).mp hat⟩
  · intro hcondition hdecides
    obtain ⟨hself, hlast⟩ := hcondition hdecides
    exact ⟨⟨hself, decider_not_shielded hdecides⟩, (commentsAt_iff hdecides).mpr hlast⟩

end

/-! ## A chain without a deputy -/

/-- A record on the desk of the chief executive, whose chain has no deputy. -/
def waitingForCeo : EvaluationRecord where
  id := 1
  evaluationCode := "EV"
  subjectPersonnelId := 1
  chain := Chain.withoutDeputy (some 1) 3
  hrReviewSkipped := false
  periodId := none
  scoringSchemeId := none
  indicatorFrameworkId := none
  status := .hrApproved
  createdAt := 0
  stageEnteredAt := 0

/-- The chief executive may finalize or return the record, and may not comment on it. -/
theorem ceo_without_deputy_mute :
    ¬∀ env commentText r user, (∃ a : Action, a.isDecision = true ∧ transitionIsAvailable r a user = true) →
      CommentIsAccepted env user r commentText := by
  intro hclaim
  let env : Env := ⟨0, 0, "t", fun _ => "", fun _ => "", [], fun _ => none, 7, 7⟩
  have haccepted := hclaim env "" waitingForCeo ⟨3, "ceo", .ceo, none⟩ ⟨.ceoFinalize, by decide, by decide⟩
  have hlast := (commentsAt_iff (decides_iff.mp ⟨.ceoFinalize, by decide, by decide⟩)).mp
    (commentIsAccepted_iff.mp haccepted).2 rfl
  cases hlast

end NexaHR
