import NexaHR.System.RecordSteps
import NexaHR.System.Installation

/-! # Who is told that it is his turn

A transition to an open status hands the record to a seat, and the dispatch of notices names the
recipients a second time. The two agree but for the returns of a chain without a deputy, which are not
dispatched, a scorer who also sits at the end of the chain, and an owner in HR who left the queue.

* `Addressed`: whose turn it is by the table.
* `NoticesComplete`: everybody whose turn it is, but the performer, is told.
* `NobodyOverlooked`: what the dispatch misses, as a condition on the record before the transition.
* `notices_complete_iff`: the result.
-/

namespace NexaHR

open Foundations

set_option autoImplicit false

/-! ## Whose turn it is -/

/-- An account in HR that may take the record: active, and not its subject's. -/
def EligibleHr (db : Database) (r : EvaluationRecord) (k : Nat) : Prop :=
  ∃ u ∈ db.users, u.isActive = true ∧ u.role = .hr ∧ u.personnelId ≠ some r.subjectPersonnelId ∧ u.id = k

/-- The user sits there. While nobody owns the record in HR, everybody does who may take it. -/
def AtSeat (db : Database) (r : EvaluationRecord) (k : Nat) : SeatField → Prop
  | .chain seat => r.chain.seat seat = some k
  | .hr => r.hrUserId = some k ∨ r.hrUserId = none ∧ EligibleHr db r k

/-- A forward transition of the record's state is addressed to the user. -/
def Addressed (db : Database) (r : EvaluationRecord) (k : Nat) : Prop :=
  ∃ (b : Action) (field : SeatField), b.isForward = true ∧ r.status ∈ (transitions b).fromStatuses ∧
    (transitions b).guard r = true ∧ (transitions b).assigneeField = some field ∧ AtSeat db r k field

section

variable {db db' : Database} {env : Env} {req : Request} {user : CurrentUser} {r r' : EvaluationRecord}
  {a : Action} {k : Nat} {w : Work}

theorem hasSeat_of_atSeat {field : SeatField} (h : AtSeat db r k field) :
    r.shape.hasSeat (some field) = true := by
  cases field with
  | hr => rfl
  | chain seat =>
    refine hasSeat_of_seat_isSome ?_
    show (r.chain.seat seat).isSome = true
    rw [show r.chain.seat seat = some k from h]
    rfl

/-- It is the turn of the users at the seat that the shape names. -/
theorem addressed_iff :
    Addressed db r k ↔ ∃ field, r.shape.turn r.status = some field ∧ AtSeat db r k field := by
  constructor
  · rintro ⟨b, field, hforward, hfrom, hguard, hfield, hat⟩
    have henabled : r.shape.enabled r.status b = true := by
      rw [guard_eq_guardAt] at hguard
      simp [Shape.enabled, hfrom, hguard, hfield, hasSeat_of_atSeat hat]
    rw [assigneeField_eq_turn henabled hforward] at hfield
    exact ⟨field, hfield, hat⟩
  · rintro ⟨field, hturn, hat⟩
    obtain ⟨b, hforward, henabled, hfield⟩ := exists_forward_of_turn hturn
    simp only [Shape.enabled, Bool.and_eq_true, decide_eq_true_eq] at henabled
    refine ⟨b, field, hforward, henabled.1.1, ?_, hfield, hat⟩
    rw [guard_eq_guardAt]
    exact henabled.1.2

theorem addressed_draft (hs : r.status = .draft) : Addressed db r k ↔ r.chain.scorer = some k := by
  have hturn : r.shape.turn r.status = some (.chain r.shape.scorer) := by rw [hs]; rfl
  rw [addressed_iff]
  constructor
  · rintro ⟨field, hfield, hat⟩
    rw [hturn] at hfield
    cases hfield
    exact hat
  · intro h
    exact ⟨_, hturn, h⟩

theorem addressed_submitted (hs : r.status = .submitted) (hskip : r.hrReviewSkipped = false) :
    Addressed db r k ↔ AtSeat db r k .hr := by
  have hturn : r.shape.turn r.status = some .hr := by
    rw [hs]
    show (if r.hrReviewSkipped = true then none else some SeatField.hr) = _
    rw [hskip]
    rfl
  rw [addressed_iff]
  constructor
  · rintro ⟨field, hfield, hat⟩
    rw [hturn] at hfield
    cases hfield
    exact hat
  · intro h
    exact ⟨_, hturn, h⟩

theorem addressed_hrApproved (hs : r.status = .hrApproved) :
    Addressed db r k ↔ k = ownerAfterHrReview r := by
  have hturn : r.shape.turn r.status = some (.chain (if r.shape.hasDeputy then .deputy else .ceo)) := by
    rw [hs]
    rfl
  have hseat : r.chain.seat (if r.shape.hasDeputy then .deputy else .ceo) =
      some (ownerAfterHrReview r) := by
    unfold EvaluationRecord.shape ownerAfterHrReview
    cases hdeputy : r.chain.deputyUserId <;> simp [hdeputy]
  rw [addressed_iff]
  constructor
  · rintro ⟨field, hfield, hat⟩
    rw [hturn] at hfield
    cases hfield
    have hat' : r.chain.seat (if r.shape.hasDeputy then .deputy else .ceo) = some k := hat
    rw [hseat] at hat'
    exact (Option.some.inj hat').symm
  · rintro rfl
    exact ⟨_, hturn, hseat⟩

theorem addressed_deputyApproved (hs : r.status = .deputyApproved) :
    Addressed db r k ↔ k = r.chain.ceoUserId := by
  have hturn : r.shape.turn r.status = some (.chain .ceo) := by rw [hs]; rfl
  rw [addressed_iff]
  constructor
  · rintro ⟨field, hfield, hat⟩
    rw [hturn] at hfield
    cases hfield
    exact (Option.some.inj hat).symm
  · rintro rfl
    exact ⟨_, hturn, rfl⟩

/-! ## Whom the dispatch names -/

/-- The recipients of the notice of an action. -/
def dispatched (db : Database) (r : EvaluationRecord) (a : Action) : List Nat :=
  ((recipientsFor db r a).map Prod.fst).getD []

/-- Everybody whose turn it is after the action, but the one who took it, gets a notice about the
record. -/
def NoticesComplete (db : Database) (env : Env) (r : EvaluationRecord) (a : Action) (performer : Nat) :
    Prop :=
  ∀ k, Addressed db r k → k ≠ performer → ∃ n ∈ notifyForWorkflowAction db env r a,
    n.userId = k ∧ n.evaluationRecordId = some r.id

theorem exists_mem_notify {userIds : List Nat} {type message : String} {recordId : Option Nat}
    {link : Option String} :
    (∃ n ∈ notify env userIds type message recordId link,
      n.userId = k ∧ n.evaluationRecordId = recordId) ↔ k ∈ userIds := by
  unfold notify
  simp

theorem told_iff (hopen : (transitions a).toStatus ∈ openStatuses) :
    (∃ n ∈ notifyForWorkflowAction db env r a, n.userId = k ∧ n.evaluationRecordId = some r.id) ↔
      k ∈ dispatched db r a := by
  have hsubject : notifySubject db env r a = [] := by
    unfold notifySubject
    rw [if_neg]
    rintro ⟨rfl | rfl, -⟩
    · exact absurd hopen (by decide)
    · exact absurd hopen (by decide)
  unfold notifyForWorkflowAction dispatched
  rw [hsubject, List.append_nil]
  cases recipientsFor db r a with
  | none => simp
  | some row => exact exists_mem_notify

theorem noticesComplete_iff {performer : Nat} (hopen : (transitions a).toStatus ∈ openStatuses) :
    NoticesComplete db env r a performer ↔
      ∀ k, Addressed db r k → k ≠ performer → k ∈ dispatched db r a := by
  unfold NoticesComplete
  simp only [told_iff hopen]

/-- Into the HR queue the dispatch calls everybody there, but for one return. -/
theorem dispatched_submitted (hto : (transitions a).toStatus = .submitted) :
    dispatched db r a = if a = .ceoReturnNoDeputy then [] else hrQueueIds db r := by
  cases a <;> first | exact absurd hto (by decide) | rfl

theorem dispatched_hrApproved (hto : (transitions a).toStatus = .hrApproved) :
    dispatched db r a = [ownerAfterHrReview r] := by
  cases a <;> first | exact absurd hto (by decide) | rfl

theorem dispatched_deputyApproved (hto : (transitions a).toStatus = .deputyApproved) :
    dispatched db r a = [r.chain.ceoUserId] := by
  cases a <;> first | exact absurd hto (by decide) | rfl

/-! ## What it misses -/

/-- The condition on the record before an action under which the dispatch misses nobody. -/
def NobodyOverlooked (db : Database) (r : EvaluationRecord) (performer : Nat) : Action → Prop
  | .ceoReturnNoDeputy => ∀ k, AtSeat db r k .hr → k = performer
  | .ceoReturnNoDeputyHrSubject => r.chain.unitSupervisorUserId = some r.chain.ceoUserId
  | .deputyReturnHrSubject => r.chain.unitSupervisorUserId ≠ some r.chain.ceoUserId
  | .submit | .managerSubmit | .ceoSubmit | .deputyReturn | .ceoReturnManager =>
    ∀ k, r.hrUserId = some k → k ≠ performer → EligibleHr db r k
  | _ => True

theorem overlooked_submitted {performer : Nat} (hto : (transitions a).toStatus = .submitted)
    (ha : a ≠ .ceoReturnNoDeputy) :
    NobodyOverlooked db r performer a ↔
      ∀ k, r.hrUserId = some k → k ≠ performer → EligibleHr db r k := by
  cases a <;> first | exact absurd hto (by decide) | exact absurd rfl ha | rfl

theorem overlooked_approved {performer : Nat}
    (hto : (transitions a).toStatus = .hrApproved ∨ (transitions a).toStatus = .deputyApproved) :
    NobodyOverlooked db r performer a := by
  cases a <;> first | exact absurd hto (by decide) | exact trivial

/-! ## One transition -/

theorem Change.owner_eq (h : Change db req user r (some a) r') :
    r'.hrUserId = (r.claimedFor a user).hrUserId := by
  cases h with
  | moved _ _ _ _ before hbefore => exact hbefore.keeps.2.2.2.2

/-- A transition into the HR queue claims nothing. -/
theorem claimedFor_submitted (hto : (transitions a).toStatus = .submitted) :
    r.claimedFor a user = r := by
  have hclaims : (transitions a).claims r = false := by
    unfold Transition.claims
    cases a <;> first | exact absurd hto (by decide) | rfl
  unfold EvaluationRecord.claimedFor
  rw [hclaims]
  rfl

theorem submitted_not_skipped_of_enabled {s : Shape} {status : EvaluationStatus}
    (h : s.enabled status a = true) (hto : (transitions a).toStatus = .submitted) :
    s.hrReviewSkipped = false := by
  have hrow := Shape.forall_enabled
    (P := fun s _ a => (transitions a).toStatus = .submitted → s.hrReviewSkipped = false)
    (by decide) h
  exact hrow hto

/-- The seat of a transition that nobody claims is the performer's. -/
theorem performer_seat {seat : ChainSeat} (hallowed : transitionBlock r a user = none)
    (hfield : (transitions a).assigneeField = some (.chain seat))
    (hclaim : (transitions a).claimableIfUnassigned = false) : r.chain.seat seat = some user.id := by
  have hadmits := (transitionBlock_eq_none.mp hallowed).2.2.2
  rw [Transition.admits_iff_of_not_claimable hfield hclaim] at hadmits
  exact hadmits

theorem scorerSeat_snd (r : EvaluationRecord) : (scorerSeat r).2 = r.chain.scorer := rfl

theorem complete_submitted (h : Change db req user r (some a) r')
    (hto : (transitions a).toStatus = .submitted) :
    NoticesComplete db env r' a user.id ↔ NobodyOverlooked db r user.id a := by
  obtain ⟨hallowed, hstatus⟩ := h.status_some
  have hskip : r'.hrReviewSkipped = false := by
    have hshape := submitted_not_skipped_of_enabled (enabled_of_available hallowed) hto
    exact h.hrReviewSkipped_eq.trans hshape
  have howner : r'.hrUserId = r.hrUserId := by
    rw [h.owner_eq, claimedFor_submitted hto]
  have hseat : ∀ k, AtSeat db r' k .hr ↔ AtSeat db r k .hr := by
    intro k
    unfold AtSeat EligibleHr
    rw [howner, h.subject_eq]
  have hqueue : ∀ k, k ∈ hrQueueIds db r' ↔ EligibleHr db r k := by
    intro k
    rw [mem_hrQueueIds, h.subject_eq]
    rfl
  rw [noticesComplete_iff (by rw [hto]; decide), dispatched_submitted hto]
  simp only [addressed_submitted (hstatus.trans hto) hskip, hseat]
  by_cases ha : a = .ceoReturnNoDeputy
  · subst ha
    rw [if_pos rfl]
    constructor
    · intro hcomplete k hat
      by_contra hk
      exact absurd (hcomplete k hat hk) List.not_mem_nil
    · intro hnobody k hat hk
      exact absurd (hnobody k hat) hk
  · rw [if_neg ha, overlooked_submitted hto ha]
    constructor
    · intro hcomplete k hk hother
      exact (hqueue k).mp (hcomplete k (Or.inl hk) hother)
    · rintro hnobody k (hk | ⟨-, heligible⟩) hother
      · exact (hqueue k).mpr (hnobody k hk hother)
      · exact (hqueue k).mpr heligible

theorem mem_tellTheScorer {o : Option Nat} :
    k ∈ tellTheScorer r o ↔ o = some k ∧ k ≠ r.chain.ceoUserId := by
  unfold tellTheScorer
  cases o with
  | none => simp
  | some j =>
    by_cases hj : j = r.chain.ceoUserId
    · simp [hj, eq_comm]
    · simp only [if_neg hj, List.mem_singleton, Option.some.injEq]
      constructor
      · rintro rfl
        exact ⟨rfl, hj⟩
      · rintro ⟨rfl, -⟩
        rfl

/-- Everyone but the deputy is told when the scorer, who is told unless he is the CEO, is not the CEO. -/
theorem scorer_told_iff {c : Chain} {deputy : Nat} (hdep : c.deputyUserId = some deputy) :
    (∀ k, c.scorer = some k → k ≠ deputy → c.scorer = some k ∧ k ≠ c.ceoUserId) ↔
      c.unitSupervisorUserId ≠ some c.ceoUserId := by
  constructor
  · intro htold hsup
    have hother : c.ceoUserId ≠ deputy := by
      intro heq
      rw [← heq] at hdep
      exact c.deputy_not_ceo hdep
    exact (htold _ (Chain.scorer_of_supervisor hsup) hother).2 rfl
  · intro hne k hk hother
    refine ⟨hk, ?_⟩
    rintro rfl
    cases hsup : c.unitSupervisorUserId with
    | none =>
      rw [Chain.scorer_of_deputy hsup hdep, Option.some.injEq] at hk
      exact hother hk.symm
    | some s =>
      rw [Chain.scorer_of_supervisor hsup] at hk
      exact hne (hsup.trans hk)

/-- Nobody but the CEO is the scorer when the CEO is the supervisor. -/
theorem scorer_only_ceo_iff {c : Chain} {supervisor : Nat}
    (hsup : c.unitSupervisorUserId = some supervisor) :
    (∀ k, c.scorer = some k → k = c.ceoUserId) ↔ c.unitSupervisorUserId = some c.ceoUserId := by
  have hscorer := Chain.scorer_of_supervisor hsup
  constructor
  · intro honly
    rw [hsup, honly supervisor hscorer]
  · intro heq k hk
    rw [hscorer, ← hsup, heq, Option.some.injEq] at hk
    exact hk.symm

theorem complete_draft (h : Change db req user r (some a) r')
    (hto : (transitions a).toStatus = .draft) :
    NoticesComplete db env r' a user.id ↔ NobodyOverlooked db r user.id a := by
  obtain ⟨hallowed, hstatus⟩ := h.status_some
  have henabled := enabled_of_available hallowed
  rw [noticesComplete_iff (by rw [hto]; decide)]
  simp only [addressed_draft (hstatus.trans hto), h.chain_eq]
  cases a
  case hrReturn =>
    refine iff_of_true ?_ trivial
    intro k hk _
    show k ∈ (scorerSeat r').2.toList
    rw [scorerSeat_snd, h.chain_eq, hk]
    exact List.mem_singleton.mpr rfl
  case deputyReturnHrSubject =>
    have hdep : r.chain.deputyUserId = some user.id := performer_seat hallowed rfl rfl
    show (∀ k, r.chain.scorer = some k → k ≠ user.id → k ∈ tellTheScorer r' (scorerSeat r').2) ↔ _
    simp only [mem_tellTheScorer, scorerSeat_snd, h.chain_eq]
    exact scorer_told_iff hdep
  case ceoReturnCeoOnly =>
    have hceo : some r.chain.ceoUserId = some user.id := performer_seat hallowed rfl rfl
    have honly : r.isCeoOnlyPath = true := (transitionBlock_eq_none.mp hallowed).2.2.1
    unfold EvaluationRecord.isCeoOnlyPath at honly
    rw [Bool.and_eq_true, Option.isNone_iff_eq_none, Option.isNone_iff_eq_none] at honly
    refine iff_of_true ?_ trivial
    intro k hk hother
    rw [Chain.scorer_of_ceo honly.1 honly.2, hceo, Option.some.injEq] at hk
    exact absurd hk.symm hother
  case ceoReturnNoDeputyHrSubject =>
    have hceo : some r.chain.ceoUserId = some user.id := performer_seat hallowed rfl rfl
    have hguard : r.shape.guardAt r.status .ceoReturnNoDeputyHrSubject = true := by
      rw [← guard_eq_guardAt]
      exact (transitionBlock_eq_none.mp hallowed).2.2.1
    simp only [Shape.guardAt, Bool.and_eq_true] at hguard
    obtain ⟨s, hsup⟩ := Option.isSome_iff_exists.mp hguard.1.1
    show (∀ k, r.chain.scorer = some k → k ≠ user.id → k ∈ ([] : List Nat)) ↔
      r.chain.unitSupervisorUserId = some r.chain.ceoUserId
    rw [← scorer_only_ceo_iff hsup, ← Option.some.inj hceo]
    simp only [List.not_mem_nil, imp_false, not_not]
  case ceoReturnManagerHrSubject =>
    have hguard : r.shape.guardAt r.status .ceoReturnManagerHrSubject = true := by
      rw [← guard_eq_guardAt]
      exact (transitionBlock_eq_none.mp hallowed).2.2.1
    simp only [Shape.guardAt, Bool.and_eq_true, Bool.not_eq_true'] at hguard
    obtain ⟨d, hdep⟩ := Option.isSome_iff_exists.mp hguard.1.2
    have hsup : r.chain.unitSupervisorUserId = none := by
      have hempty : r.chain.unitSupervisorUserId.isSome = false := hguard.1.1
      simpa using hempty
    refine iff_of_true ?_ trivial
    intro k hk _
    show k ∈ tellTheScorer r' (scorerSeat r').2
    rw [mem_tellTheScorer, scorerSeat_snd, h.chain_eq]
    refine ⟨hk, ?_⟩
    rintro rfl
    rw [Chain.scorer_of_deputy hsup hdep, ← hdep] at hk
    exact r.chain.deputy_not_ceo hk
  all_goals exact absurd hto (by decide)

theorem complete_approved (h : Change db req user r (some a) r')
    (hto : (transitions a).toStatus = .hrApproved ∨ (transitions a).toStatus = .deputyApproved) :
    NoticesComplete db env r' a user.id ↔ NobodyOverlooked db r user.id a := by
  obtain ⟨-, hstatus⟩ := h.status_some
  refine iff_of_true ?_ (overlooked_approved hto)
  rcases hto with hto | hto
  · rw [noticesComplete_iff (by rw [hto]; decide), dispatched_hrApproved hto]
    intro k hk _
    rw [(addressed_hrApproved (hstatus.trans hto)).mp hk]
    exact List.mem_singleton.mpr rfl
  · rw [noticesComplete_iff (by rw [hto]; decide), dispatched_deputyApproved hto]
    intro k hk _
    rw [(addressed_deputyApproved (hstatus.trans hto)).mp hk]
    exact List.mem_singleton.mpr rfl

theorem complete_iff (h : Change db req user r (some a) r')
    (hopen : (transitions a).toStatus ∈ openStatuses) :
    NoticesComplete db env r' a user.id ↔ NobodyOverlooked db r user.id a := by
  unfold openStatuses at hopen
  simp only [List.mem_cons, List.not_mem_nil, or_false] at hopen
  rcases hopen with hto | hto | hto | hto
  · exact complete_draft h hto
  · exact complete_submitted h hto
  · exact complete_approved h (Or.inl hto)
  · exact complete_approved h (Or.inr hto)

/-! ## The endpoints keep the notices -/

theorem applyTransition_notifies {before : EvaluationRecord → Except HTTPException Work}
    (h : applyTransition db env r a user before = .ok w) :
    ∀ n ∈ notifyForWorkflowAction db env w.record a, n ∈ w.notifications := by
  obtain ⟨-, -, -, w₀, -, -, -, -, hnotifications⟩ := applyTransition_ok h
  intro n hn
  rw [hnotifications]
  exact List.mem_append_right _ hn

/-- An endpoint that takes a transition hands out its notices. -/
theorem RecordOperation.run_notifies {op : RecordOperation} (h : op.run db env user r = .ok w)
    (ha : op.action user r = some a) :
    ∀ n ∈ notifyForWorkflowAction db env w.record a, n ∈ w.notifications := by
  cases op
  case submitEvaluation =>
    cases ha
    have h' : NexaHR.submitEvaluation db env user r = .ok w := h
    unfold NexaHR.submitEvaluation at h'
    rw [bind_eq_ok] at h'
    obtain ⟨-, -, h'⟩ := h'
    exact applyTransition_notifies h'
  case hrApprove =>
    cases ha
    have h' : NexaHR.hrApprove db env user r = .ok w := h
    unfold NexaHR.hrApprove at h'
    rw [bind_eq_ok] at h'
    obtain ⟨-, -, h'⟩ := h'
    exact applyTransition_notifies h'
  case deputyApprove =>
    cases ha
    exact applyTransition_notifies h
  case ceoFinalize =>
    cases ha
    exact applyTransition_notifies h
  case returnEvaluation reason =>
    have h' : NexaHR.returnEvaluation db env user r reason = .ok w := h
    unfold NexaHR.returnEvaluation at h'
    simp only [bind_eq_ok] at h'
    obtain ⟨-, -, choice, hchoice, h'⟩ := h'
    obtain ⟨first, hfirst, hmap⟩ := Option.map_eq_some_iff.mp ha
    unfold returnChoice at hchoice
    rw [hfirst] at hchoice
    cases hchoice
    rw [← hmap]
    exact applyTransition_notifies h'
  case cancelEvaluation reason =>
    cases ha
    have h' : NexaHR.cancelEvaluation db env user r reason = .ok w := h
    unfold NexaHR.cancelEvaluation at h'
    rw [bind_eq_ok] at h'
    obtain ⟨-, -, h'⟩ := h'
    exact applyTransition_notifies h'
  all_goals cases ha

/-- Only the endpoints of a record take a transition to an open status. -/
theorem onRecord_of_open (ha : performedOn db req k = some a)
    (hopen : (transitions a).toStatus ∈ openStatuses) :
    ∃ op, req.operation = .onRecord k op := by
  by_cases hop : ∃ j op, req.operation = .onRecord j op
  · obtain ⟨j, op, hop⟩ := hop
    unfold performedOn at ha
    rw [hop] at ha
    by_cases hj : j = k
    · subst hj
      exact ⟨op, hop⟩
    · simp [hj] at ha
  · exfalso
    unfold performedOn at ha
    split at ha
    next j op hop' => exact hop ⟨j, op, hop'⟩
    next =>
      split at ha
      · cases ha
        exact absurd hopen (by decide)
      · cases ha

/-- The notices of a transition to an open status are stored with it, and the accounts stay. -/
theorem step_notifies (hstep : Steps db req db') (hget : db.evaluationRecords.get? k = some r)
    (hget' : db'.evaluationRecords.get? k = some r') (ha : performedOn db req k = some a)
    (hopen : (transitions a).toStatus ∈ openStatuses) :
    db'.users = db.users ∧
      ∀ n ∈ notifyForWorkflowAction db req.env r' a, n ∈ db'.notifications := by
  obtain ⟨op, hop⟩ := onRecord_of_open ha hopen
  have hrun : step db req = .ok db' := hstep
  unfold step at hrun
  rw [bind_eq_ok] at hrun
  obtain ⟨user, huser, hrun⟩ := hrun
  have haction : op.action user r = some a := by
    simpa [performedOn_onRecord hop huser hget] using ha
  rw [hop] at hrun
  have hrun' : onRecord db req.env user k op = .ok db' := hrun
  unfold onRecord at hrun'
  simp only [bind_eq_ok, pure_eq_ok, require_eq_ok, hget] at hrun'
  obtain ⟨_, hguard, -, -, r₀, hr₀, w, hw, rfl⟩ := hrun'
  cases hr₀
  have hid : r.id = k := Table.id_of_get? hget
  have hchange := op.run_change (by rw [hid]; exact hop) hguard hw
  have hrecord : r' = w.record := by
    have hput : (db.evaluationRecords.put w.record).get? k = some r' := hget'
    rw [get?_put_of_id hget hchange.id_eq, if_pos hid] at hput
    exact (Option.some.inj hput).symm
  refine ⟨rfl, ?_⟩
  intro n hn
  rw [hrecord] at hn
  exact List.mem_append_right _ (RecordOperation.run_notifies hw haction n hn)

/-! ## The result -/

theorem atSeat_congr (husers : db'.users = db.users) {field : SeatField} :
    AtSeat db' r k field ↔ AtSeat db r k field := by
  cases field with
  | chain seat => exact Iff.rfl
  | hr =>
    unfold AtSeat EligibleHr
    rw [husers]

/-- A transition to an open status stores its notices, and they reach everybody whose turn it now is,
but its performer, exactly when the dispatch overlooks nobody. -/
theorem notices_complete_iff (hstep : Steps db req db') (hget : db.evaluationRecords.get? k = some r)
    (hget' : db'.evaluationRecords.get? k = some r') (ha : performedOn db req k = some a)
    (hopen : r'.isOpen = true) :
    (∀ n ∈ notifyForWorkflowAction db req.env r' a, n ∈ db'.notifications) ∧
      ((∀ j, Addressed db' r' j → j ≠ req.userId → ∃ n ∈ notifyForWorkflowAction db req.env r' a,
          n.userId = j ∧ n.evaluationRecordId = some k) ↔
        NobodyOverlooked db r req.userId a) := by
  obtain ⟨user, r₁, huser, hr₁, hchange⟩ := step_record hstep hget
  rw [hget'] at hr₁
  cases hr₁
  rw [ha] at hchange
  have hto : (transitions a).toStatus ∈ openStatuses := by
    rw [← hchange.status_some.2]
    exact of_decide_eq_true hopen
  obtain ⟨husers, hstored⟩ := step_notifies hstep hget hget' ha hto
  have hid : r'.id = k := Table.id_of_get? hget'
  have haddressed : ∀ j, Addressed db' r' j ↔ Addressed db r' j := by
    intro j
    unfold Addressed
    simp only [atSeat_congr husers]
  refine ⟨hstored, ?_⟩
  rw [← getCurrentUser_id huser, ← @complete_iff db req.env req user r r' a hchange hto]
  unfold NoticesComplete
  simp only [haddressed, hid]

end

/-- HR's approval on a full chain tells the deputy. -/
theorem hrApproval_tells_deputy :
    ∃ r', (endState settled (office fullChain)
        (ask 4 (.onRecord 1 .hrApprove) :: submittedBy 1)).evaluationRecords.get? 1 = some r' ∧
      r'.status = .hrApproved ∧ ∃ n ∈ notifyForWorkflowAction
        (endState settled (office fullChain) (submittedBy 1)) someDay r' .hrApprove,
          n.userId = 2 ∧ n.evaluationRecordId = some 1 := by
  have hstep : Steps (endState settled (office fullChain) (submittedBy 1))
      (ask 4 (.onRecord 1 .hrApprove))
      (endState settled (office fullChain) (ask 4 (.onRecord 1 .hrApprove) :: submittedBy 1)) :=
    steps_settled (by decide)
  obtain ⟨r, hget, -⟩ := exists_of_any
    (o := (endState settled (office fullChain) (submittedBy 1)).evaluationRecords.get? 1)
    (p := fun _ => true) (by decide)
  obtain ⟨r', hget', hr'⟩ := exists_of_any
    (o := (endState settled (office fullChain)
      (ask 4 (.onRecord 1 .hrApprove) :: submittedBy 1)).evaluationRecords.get? 1)
    (p := fun r => r.isOpen && (r.status = .hrApproved && ownerAfterHrReview r = 2))
    (by decide)
  rw [Bool.and_eq_true, Bool.and_eq_true, decide_eq_true_eq, decide_eq_true_eq] at hr'
  have hperformed : performedOn (endState settled (office fullChain) (submittedBy 1))
      (ask 4 (.onRecord 1 .hrApprove)) 1 = some .hrApprove := by
    decide
  have hresult := notices_complete_iff hstep hget hget' hperformed hr'.1
  refine ⟨r', hget', hr'.2.1, ?_⟩
  exact hresult.2.mpr trivial 2 ((addressed_hrApproved hr'.2.1).mpr hr'.2.2.symm) (by decide)

/-! ## A chain without a deputy -/

def chainWithoutDeputy : Chain := Chain.withoutDeputy (some 1) 3

/-- HR approves, and the chief executive sends the record back. -/
def returnedByCeo : List Request :=
  [ask 3 (.onRecord 1 (.returnEvaluation "R")), ask 4 (.onRecord 1 .hrApprove)] ++ submittedBy 1

/-- The owner in HR, to whom the record comes back, is told nothing. -/
theorem owner_is_not_told :
    ¬∀ db req db' k r r' a, Steps db req db' → db.evaluationRecords.get? k = some r →
      db'.evaluationRecords.get? k = some r' → performedOn db req k = some a → r'.isOpen = true →
        ∀ j, Addressed db' r' j → j ≠ req.userId →
          ∃ n ∈ notifyForWorkflowAction db req.env r' a, n.userId = j := by
  intro hclaim
  have hstep : Steps (endState settled (office chainWithoutDeputy) returnedByCeo.tail)
      (ask 3 (.onRecord 1 (.returnEvaluation "R")))
      (endState settled (office chainWithoutDeputy) returnedByCeo) :=
    steps_settled (by decide)
  obtain ⟨r, hget, -⟩ := exists_of_any
    (o := (endState settled (office chainWithoutDeputy) returnedByCeo.tail).evaluationRecords.get? 1)
    (p := fun _ => true) (by decide)
  obtain ⟨r', hget', hr'⟩ := exists_of_any
    (o := (endState settled (office chainWithoutDeputy) returnedByCeo).evaluationRecords.get? 1)
    (p := fun r => r.isOpen && (r.status = .submitted && (!r.hrReviewSkipped && r.hrUserId = some 4)))
    (by decide)
  simp only [Bool.and_eq_true, Bool.not_eq_true', decide_eq_true_eq] at hr'
  obtain ⟨hopen, hs, hskip, howner⟩ := hr'
  have hperformed : performedOn (endState settled (office chainWithoutDeputy) returnedByCeo.tail)
      (ask 3 (.onRecord 1 (.returnEvaluation "R"))) 1 = some .ceoReturnNoDeputy := by
    decide
  obtain ⟨n, hn, -⟩ := hclaim _ _ _ 1 r r' _ hstep hget hget' hperformed hopen 4
    ((addressed_submitted hs hskip).mpr (Or.inl howner)) (by decide)
  exact absurd hn List.not_mem_nil

end NexaHR
