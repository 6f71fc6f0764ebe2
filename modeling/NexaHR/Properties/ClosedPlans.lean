import NexaHR.Routers.ImprovementPlans
import NexaHR.System.Installation

/-! # Closed plans, and results that need one

Each request writes at one plan, and asks first whether that plan is open, but for the update of its fields.
The list of results that need a plan and the creation of a plan test almost the same things.

* `WritesOnly`: the plan that a request writes at.
* `closedKept_iff`: a step keeps the closed plans unless it gives a field of one another value.
* `offered_iff`, `createPlan_isOk`: when a result is offered, and when a plan for it is made.
* `comparisons_iff`: the two comparisons of a result with and without a scheme.
* `improvement_plans_iff`: exactly when closed plans last, and exactly when the list and the creation agree.
* `closed_plan_is_edited`: neither holds always.
-/

namespace NexaHR

open Foundations

set_option autoImplicit false

abbrev PlanRun (tr : List (Taken PlanDb PlanRequest)) (p : PlanDb) : Prop := Run (fun _ => True) PlanSteps tr p

/-! ## What is promised -/

/-- The plans that are not open are still there, with their fields and their goals. -/
def ClosedKept (p p' : PlanDb) : Prop :=
  ∀ plan ∈ p.plans, plan.status ≠ .open → plan ∈ p'.plans ∧ p'.goalsOf plan.id = p.goalsOf plan.id

/-- From each moment of a run to each later one the closed plans are kept. -/
def ClosedLasts (tr : List (Taken PlanDb PlanRequest)) : Prop :=
  ∀ new x old, tr = new ++ x :: old → ∀ y ∈ new ++ [x], ClosedKept x.before y.after

/-- Each field that the payload gives has the value that the plan has already. -/
structure Repeats (payload : ImprovementPlanUpdate) (plan : ImprovementPlan) : Prop where
  title : ∀ text, payload.title = some (some text) → stripWhitespace text = plan.title
  reviewDate : ∀ day, payload.reviewDate = some (some day) → day = plan.reviewDate
  ownerUserId : ∀ owner, payload.ownerUserId = some owner → owner = plan.ownerUserId
  summary : ∀ text, payload.summary = some text → text.map stripWhitespace = plan.summary
  followUpEvaluationId : ∀ recordId, payload.followUpEvaluationId = some recordId →
    recordId = plan.followUpEvaluationId

/-- The request gives no field of a closed plan another value. -/
def Harmless (x : Taken PlanDb PlanRequest) : Prop :=
  ∀ planId payload, x.label.call = .updatePlan planId payload →
    ∀ plan, x.before.plans.get? planId = some plan → plan.status ≠ .open → Repeats payload plan

def Offered (p : PlanDb) (user : CurrentUser) (recordId : Nat) : Prop :=
  ∃ limit offset page, listEligibleEvaluations p user limit offset = .ok page ∧
    ∃ item ∈ page.items, item.evaluationRecordId = recordId

/-- Nothing but its record stands in the way of a payload. -/
structure InOrder (p : PlanDb) (payload : ImprovementPlanCreate) : Prop where
  errors : payload.errors = []
  owner : ensureOwnerIsValid p.db payload.ownerUserId = .ok ()
  goals : ∀ goal ∈ payload.goalTexts, goal.1.length ≤ planGoalMax

/-- What only the creation asks: the module is on, and the user is not the subject of the record. -/
def MayCreate (env : PlanEnv) (user : CurrentUser) (r : EvaluationRecord) : Prop :=
  env.improvementPlansRefusal = none ∧ ¬ user.isSubjectOf r

/-- The result of a record with a scheme reaches the cap of the scheme, or a plan may be made for it. -/
def ReachedOrMay (env : PlanEnv) (user : CurrentUser) (r : EvaluationRecord) (pct : Rat) (scheme : ScoringScheme) :
    Prop :=
  scheme.improvementPlanMaxPct ≤ pct ∨ MayCreate env user r

/-- The result of a record without a scheme lies below 75 and below the cap of the rules in force, and a plan
may be made for it, or it reaches 75 and one of the other two fails. -/
def ComparedAlike (db : Database) (env : PlanEnv) (user : CurrentUser) (r : EvaluationRecord) (pct : Rat) : Prop :=
  (pct < 75 ∧ pct < (currentRules db).improvementPlanMaxPct ∧ MayCreate env user r) ∨
    (75 ≤ pct ∧ ((currentRules db).improvementPlanMaxPct ≤ pct ∨ ¬ MayCreate env user r))

/-- Of a finalized result without a plan, the list and the creation judge alike. -/
def JudgedAlike (p : PlanDb) (env : PlanEnv) (user : CurrentUser) (recordId : Nat) : Prop :=
  user.role = .hr → ∀ r, p.db.evaluationRecords.get? recordId = some r → r.status = .finalized →
    hasPlan p r.id = false → ∀ pct, r.finalWeightedPct = some pct →
      (∀ scheme, r.scoringSchemeId.bind p.db.scoringSchemes.get? = some scheme →
          ReachedOrMay env user r pct scheme) ∧
        (r.scoringSchemeId.bind p.db.scoringSchemes.get? = none → ComparedAlike p.db env user r pct)

section

variable {p p' p'' : PlanDb} {env : PlanEnv} {user : CurrentUser} {planId goalId k : Nat}

/-! ## Where a request writes -/

/-- The plans other than one are still there, and the goals of the others are the same. -/
structure WritesOnly (planId : Nat) (p p' : PlanDb) : Prop where
  plans : ∀ plan ∈ p.plans, plan.id ≠ planId → plan ∈ p'.plans
  goals : ∀ k, k ≠ planId → p'.goalsOf k = p.goalsOf k

theorem ClosedKept.of_writesOnly (h : WritesOnly planId p p')
    (hopen : ∀ plan ∈ p.plans, plan.id = planId → plan.status = .open) : ClosedKept p p' := by
  intro plan hplan hclosed
  have hother : plan.id ≠ planId := fun hid => hclosed (hopen plan hplan hid)
  exact ⟨h.plans plan hplan hother, h.goals plan.id hother⟩

theorem ClosedKept.refl (p : PlanDb) : ClosedKept p p := fun _ hplan _ => ⟨hplan, rfl⟩

theorem ClosedKept.trans (h : ClosedKept p p') (h' : ClosedKept p' p'') : ClosedKept p p'' := by
  intro plan hplan hclosed
  obtain ⟨hthere, hgoals⟩ := h plan hplan hclosed
  obtain ⟨hthere', hgoals'⟩ := h' plan hthere hclosed
  exact ⟨hthere', hgoals'.trans hgoals⟩

theorem open_of_get? {plan : ImprovementPlan} (hget : p.plans.get? planId = some plan) (hopen : plan.status = .open) :
    ∀ other ∈ p.plans, other.id = planId → other.status = .open := by
  intro other hother hid
  have hplan : plan.id = planId := Table.id_of_get? hget
  rw [Table.eq_of_id_eq hother (Table.mem_of_get? hget) (hid.trans hplan.symm)]
  exact hopen

theorem goalsOf_insertGoal (goal : String × Nat) (hk : k ≠ planId) (goals : Table ImprovementPlanGoal) :
    (insertGoal planId goals goal).rows.filter (fun g => g.planId = k) = goals.rows.filter fun g => g.planId = k := by
  show (goals.rows ++ [newGoal planId goal.2 goal.1 _]).filter _ = _
  rw [List.filter_append, List.filter_singleton]
  simp [newGoal, hk.symm]

theorem goalsOf_insertGoals (texts : List (String × Nat)) (hk : k ≠ planId) (goals : Table ImprovementPlanGoal) :
    (texts.foldl (insertGoal planId) goals).rows.filter (fun g => g.planId = k) =
      goals.rows.filter fun g => g.planId = k := by
  induction texts generalizing goals with
  | nil => rfl
  | cons goal texts ih =>
    rw [List.foldl_cons, ih]
    exact goalsOf_insertGoal goal hk goals

/-- A goal that stays with its plan is put in place. -/
theorem goalsOf_put {goal : ImprovementPlanGoal} (changed : ImprovementPlanGoal) (hgoal : goal ∈ p.goals)
    (hid : changed.id = goal.id) (hplan : goal.planId = planId) (hstays : changed.planId = planId) (hk : k ≠ planId) :
    (p.goals.put changed).rows.filter (fun g => g.planId = k) = p.goalsOf k := by
  show (p.goals.rows.map fun g => if HasId.id g = HasId.id changed then changed else g).filter _ = _
  unfold PlanDb.goalsOf
  have hsame : ∀ g ∈ p.goals.rows, HasId.id g = HasId.id changed → g.planId = planId := by
    intro g hg heq
    rw [Table.eq_of_id_eq hg hgoal (heq.trans hid)]
    exact hplan
  rw [List.filter_map]
  have hkept : p.goals.rows.filter ((fun g => decide (g.planId = k)) ∘
      fun g => if HasId.id g = HasId.id changed then changed else g) =
        p.goals.rows.filter fun g => g.planId = k := by
    apply List.filter_congr
    intro g hg
    simp only [Function.comp_apply]
    split
    · rename_i heq
      rw [hstays, hsame g hg heq]
    · rfl
  rw [hkept]
  refine (List.map_congr_left ?_).trans (List.map_id _)
  intro g hg
  obtain ⟨hg, hgk⟩ := List.mem_filter.mp hg
  rw [decide_eq_true_eq] at hgk
  rw [if_neg]
  · rfl
  · intro heq
    exact hk (hgk.symm.trans (hsame g hg heq))

/-! ## What each request does -/

theorem createPlan_writes {payload : ImprovementPlanCreate} (h : createPlan p env user payload = .ok p') :
    WritesOnly (p.plans.seq + 1) p p' := by
  simp only [createPlan, bind_eq_ok, pure_eq_ok] at h
  obtain ⟨-, -, -, -, -, -, r, -, -, -, -, -, -, -, -, -, -, -, -, -, rfl⟩ := h
  constructor
  · intro plan hplan _
    exact (Table.mem_insert (newPlan_id r user payload)).mpr (Or.inl hplan)
  · intro k hk
    exact goalsOf_insertGoals payload.goalTexts hk p.goals

theorem updatePlan_ok {payload : ImprovementPlanUpdate} (h : updatePlan p env user planId payload = .ok p') :
    ∃ plan, p.plans.get? planId = some plan ∧ p'.goals = p.goals ∧ p'.plans = p.plans.put (plan.updated payload) := by
  simp only [updatePlan, getPlanOr404, bind_eq_ok, pure_eq_ok, require_eq_ok] at h
  obtain ⟨-, -, -, -, plan, hget, -, -, -, -, -, -, rfl⟩ := h
  exact ⟨plan, hget, rfl, rfl⟩

theorem put_writes {plan : ImprovementPlan} (changed : ImprovementPlan) (hget : p.plans.get? planId = some plan)
    (hid : changed.id = plan.id) (hplans : p'.plans = p.plans.put changed) (hgoals : p'.goals = p.goals) :
    WritesOnly planId p p' := by
  have hplan : plan.id = planId := Table.id_of_get? hget
  constructor
  · intro other hother hne
    have hkey : other.id ≠ HasId.id changed := fun heq => hne (heq.trans (hid.trans hplan))
    have hthere : p.plans.get? other.id = some other := Table.get?_of_mem hother
    rw [← Table.get?_put_ne hkey, ← hplans] at hthere
    exact Table.mem_of_get? hthere
  · intro k _
    unfold PlanDb.goalsOf
    rw [hgoals]

theorem closePlan_writes {status : ImprovementPlanStatus} {eventType : String}
    (h : closePlan status eventType p env user planId = .ok p') :
    WritesOnly planId p p' ∧ ∀ plan ∈ p.plans, plan.id = planId → plan.status = .open := by
  simp only [closePlan, getPlanOr404, bind_eq_ok, pure_eq_ok, require_eq_ok, ensure_eq_ok] at h
  obtain ⟨-, -, plan, hget, -, hopen, rfl⟩ := h
  exact ⟨put_writes { plan with status := status, completedAt := some env.now } hget rfl rfl rfl,
    open_of_get? hget hopen⟩

theorem addGoal_writes {description : String} (h : addGoal p env user planId description = .ok p') :
    WritesOnly planId p p' ∧ ∀ plan ∈ p.plans, plan.id = planId → plan.status = .open := by
  simp only [addGoal, getPlanOr404, ensurePlanOpen, bind_eq_ok, pure_eq_ok, require_eq_ok, ensure_eq_ok] at h
  obtain ⟨-, -, -, -, plan, hget, -, hopen, rfl⟩ := h
  have hid : plan.id = planId := Table.id_of_get? hget
  rw [hid]
  refine ⟨⟨fun other hother _ => hother, ?_⟩, open_of_get? hget hopen⟩
  intro k hk
  exact goalsOf_insertGoal _ hk p.goals

theorem getGoalOr404_eq_ok {goal : ImprovementPlanGoal} :
    getGoalOr404 p planId goalId = .ok goal ↔ p.goals.get? goalId = some goal ∧ goal.planId = planId := by
  simp only [getGoalOr404, bind_eq_ok, pure_eq_ok, require_eq_ok, ensure_eq_ok]
  constructor
  · rintro ⟨_, hget, -, hplan, rfl⟩
    exact ⟨hget, hplan⟩
  · rintro ⟨hget, hplan⟩
    exact ⟨goal, hget, (), hplan, rfl⟩

theorem updateGoal_writes {payload : GoalUpdate} (h : updateGoal p env user planId goalId payload = .ok p') :
    WritesOnly planId p p' ∧ ∀ plan ∈ p.plans, plan.id = planId → plan.status = .open := by
  simp only [updateGoal, getPlanOr404, ensurePlanOpen, bind_eq_ok, pure_eq_ok, require_eq_ok, ensure_eq_ok,
    getGoalOr404_eq_ok] at h
  obtain ⟨-, -, -, -, goal, ⟨hgoal, hplan⟩, plan, hget, -, -, -, hopen, -, -, -, -, rfl⟩ := h
  refine ⟨⟨fun other hother _ => hother, ?_⟩, open_of_get? hget hopen⟩
  intro k hk
  exact goalsOf_put (goal.updated payload) (Table.mem_of_get? hgoal) rfl hplan hplan hk

theorem deleteGoal_writes (h : deleteGoal p env user planId goalId = .ok p') :
    WritesOnly planId p p' ∧ ∀ plan ∈ p.plans, plan.id = planId → plan.status = .open := by
  simp only [deleteGoal, getPlanOr404, ensurePlanOpen, bind_eq_ok, pure_eq_ok, require_eq_ok, ensure_eq_ok,
    getGoalOr404_eq_ok] at h
  obtain ⟨-, -, goal, ⟨hgoal, hplan⟩, plan, hget, -, hopen, rfl⟩ := h
  refine ⟨⟨fun other hother _ => hother, ?_⟩, open_of_get? hget hopen⟩
  intro k hk
  show (p.goals.rows.filter fun g => g.id ≠ goal.id).filter (fun g => g.planId = k) = _
  unfold PlanDb.goalsOf
  rw [List.filter_filter]
  apply List.filter_congr
  intro g hg
  by_cases hgk : g.planId = k
  · have hne : g.id ≠ goal.id := by
      intro heq
      rw [Table.eq_of_id_eq hg (Table.mem_of_get? hgoal) heq, hplan] at hgk
      exact hk hgk.symm
    simp [hgk, hne]
  · simp [hgk]

/-! ## Closed plans -/

theorem getD_eq_self_iff {α β : Type} {given : Option α} {f : α → β} {old : β} :
    (given.map f).getD old = old ↔ ∀ value, given = some value → f value = old := by
  cases given <;> simp

theorem join_getD_eq_self_iff {α β : Type} {given : Option (Option α)} {f : α → β} {old : β} :
    (given.join.map f).getD old = old ↔ ∀ value, given = some (some value) → f value = old := by
  rw [getD_eq_self_iff]
  simp only [Option.join_eq_some_iff]

/-- An update leaves a plan as it is exactly when each field that it gives has the value of the plan. -/
theorem updated_eq_iff {plan : ImprovementPlan} {payload : ImprovementPlanUpdate} :
    plan.updated payload = plan ↔ Repeats payload plan := by
  have hfields : plan.updated payload = plan ↔
      (payload.title.join.map stripWhitespace).getD plan.title = plan.title ∧
        (payload.ownerUserId.map id).getD plan.ownerUserId = plan.ownerUserId ∧
        (payload.reviewDate.join.map id).getD plan.reviewDate = plan.reviewDate ∧
        (payload.summary.map (Option.map stripWhitespace)).getD plan.summary = plan.summary ∧
        (payload.followUpEvaluationId.map id).getD plan.followUpEvaluationId = plan.followUpEvaluationId := by
    cases plan
    simp [ImprovementPlan.updated]
  rw [hfields, join_getD_eq_self_iff, join_getD_eq_self_iff, getD_eq_self_iff, getD_eq_self_iff, getD_eq_self_iff]
  constructor
  · rintro ⟨htitle, howner, hday, hsummary, hfollow⟩
    exact ⟨htitle, hday, howner, hsummary, hfollow⟩
  · intro h
    exact ⟨h.title, h.ownerUserId, h.reviewDate, h.summary, h.followUpEvaluationId⟩

/-- A step keeps the closed plans unless it is an update that gives a field of one another value. -/
theorem closedKept_iff {req : PlanRequest} (h : PlanSteps p req p') : ClosedKept p p' ↔ Harmless ⟨p, req, p'⟩ := by
  simp only [PlanSteps, planStep, bind_eq_ok] at h
  obtain ⟨user, -, hrun⟩ := h
  have hharmless (hcall : ∀ planId payload, req.call ≠ .updatePlan planId payload) : Harmless ⟨p, req, p'⟩ :=
    fun planId payload heq => absurd heq (hcall planId payload)
  cases hcall : req.call with
  | updatePlan planId payload =>
    rw [hcall] at hrun
    obtain ⟨plan, hget, hgoals, hplans⟩ := updatePlan_ok hrun
    constructor
    · intro hkept planId' payload' heq plan' hget' hclosed
      rw [hcall] at heq
      cases heq
      rw [hget] at hget'
      cases hget'
      have hthere := (hkept plan (Table.mem_of_get? hget) hclosed).1
      have hchanged : plan.updated payload ∈ p'.plans := by
        rw [hplans]
        exact Table.mem_put_self (Table.mem_of_get? hget) rfl
      exact updated_eq_iff.mp (Table.eq_of_id_eq hchanged hthere rfl)
    · intro hsame other hother hclosed
      have hwrites : WritesOnly planId p p' := put_writes (plan.updated payload) hget rfl hplans hgoals
      by_cases hid : other.id = planId
      · have hplan : plan.id = planId := Table.id_of_get? hget
        have heq : other = plan := Table.eq_of_id_eq hother (Table.mem_of_get? hget) (hid.trans hplan.symm)
        rw [heq] at hclosed ⊢
        have hunchanged := updated_eq_iff.mpr (hsame planId payload hcall plan hget hclosed)
        constructor
        · rw [hplans, hunchanged]
          exact Table.mem_put_self (Table.mem_of_get? hget) rfl
        · unfold PlanDb.goalsOf
          rw [hgoals]
      · exact ⟨hwrites.plans other hother hid, hwrites.goals other.id hid⟩
  | createPlan payload =>
    rw [hcall] at hrun
    refine iff_of_true (ClosedKept.of_writesOnly (createPlan_writes hrun) ?_) (hharmless (by simp [hcall]))
    intro plan hplan hid
    have hle : plan.id ≤ p.plans.seq := p.plans.le_seq plan hplan
    omega
  | completePlan planId =>
    rw [hcall] at hrun
    obtain ⟨hwrites, hopen⟩ := closePlan_writes hrun
    exact iff_of_true (ClosedKept.of_writesOnly hwrites hopen) (hharmless (by simp [hcall]))
  | cancelPlan planId =>
    rw [hcall] at hrun
    obtain ⟨hwrites, hopen⟩ := closePlan_writes hrun
    exact iff_of_true (ClosedKept.of_writesOnly hwrites hopen) (hharmless (by simp [hcall]))
  | addGoal planId description =>
    rw [hcall] at hrun
    obtain ⟨hwrites, hopen⟩ := addGoal_writes hrun
    exact iff_of_true (ClosedKept.of_writesOnly hwrites hopen) (hharmless (by simp [hcall]))
  | updateGoal planId goalId payload =>
    rw [hcall] at hrun
    obtain ⟨hwrites, hopen⟩ := updateGoal_writes hrun
    exact iff_of_true (ClosedKept.of_writesOnly hwrites hopen) (hharmless (by simp [hcall]))
  | deleteGoal planId goalId =>
    rw [hcall] at hrun
    obtain ⟨hwrites, hopen⟩ := deleteGoal_writes hrun
    exact iff_of_true (ClosedKept.of_writesOnly hwrites hopen) (hharmless (by simp [hcall]))
  | elsewhere operation =>
    rw [hcall] at hrun
    simp only [PlanCall.run, bind_eq_ok, pure_eq_ok] at hrun
    obtain ⟨db, -, rfl⟩ := hrun
    exact iff_of_true (fun plan hplan _ => ⟨hplan, rfl⟩) (hharmless (by simp [hcall]))

/-- Closed plans last exactly when each step keeps them. -/
theorem closedLasts_iff {tr : List (Taken PlanDb PlanRequest)} (h : PlanRun tr p) :
    ClosedLasts tr ↔ ∀ x ∈ tr, ClosedKept x.before x.after := by
  constructor
  · intro hlasts x hx
    obtain ⟨new, old, rfl⟩ := List.append_of_mem hx
    exact hlasts new x old rfl x (by simp)
  · intro hsteps new x old htr y hy
    obtain ⟨later, between, hsplit⟩ := List.append_of_mem hy
    subst htr
    have hfrom := h.from_before
    rw [hsplit] at hfrom
    have hto : Run (· = x.before) PlanSteps (y :: between) y.after := Run.cons hfrom.cut.1 hfrom.cut.2
    refine hto.invariant_of_steps (P := fun s => ClosedKept x.before s)
      (C := fun z => ClosedKept z.before z.after) ?_ ?_ ?_
    · rintro s rfl
      exact ClosedKept.refl _
    · intro s req s' hkept _ hstep
      exact hkept.trans hstep
    · intro z hz
      apply hsteps z
      have hmem : z ∈ new ++ [x] := by
        rw [hsplit]
        exact List.mem_append_right _ hz
      grind

/-! ## Eligible results -/

theorem mem_eligible {r : EvaluationRecord} :
    r ∈ eligible p ↔ r ∈ p.db.evaluationRecords ∧ isEligible p r = true := by
  unfold eligible
  rw [List.mem_insertionSort, List.mem_filter]
  rfl

/-- Some page of the list has the record. -/
theorem offered_iff : Offered p user k ↔
    user.role = .hr ∧ ∃ r, p.db.evaluationRecords.get? k = some r ∧ isEligible p r = true := by
  unfold Offered
  simp only [listEligibleEvaluations, requireRoles, bind_eq_ok, pure_eq_ok, ensure_eq_ok, List.mem_singleton]
  constructor
  · rintro ⟨limit, offset, page, ⟨-, hrole, -, -, rfl⟩, item, hitem, hid⟩
    refine ⟨hrole, ?_⟩
    obtain ⟨r, hr, rfl⟩ := List.mem_map.mp hitem
    obtain ⟨hmem, heligible⟩ := mem_eligible.mp (List.mem_of_mem_drop (List.mem_of_mem_take hr))
    have hget : p.db.evaluationRecords.get? r.id = some r := Table.get?_of_mem hmem
    rw [show r.id = k from hid] at hget
    exact ⟨r, hget, heligible⟩
  · rintro ⟨hrole, r, hget, heligible⟩
    have hmem : r ∈ eligible p := mem_eligible.mpr ⟨Table.mem_of_get? hget, heligible⟩
    obtain ⟨i, hi, hr⟩ := List.getElem_of_mem hmem
    refine ⟨1, i, _, ⟨(), hrole, (), ?_, rfl⟩, eligibleEvaluation p.db r, ?_, Table.id_of_get? hget⟩
    · have hnot : ¬ (i : Int) < 0 := by omega
      unfold pageErrors
      rw [if_neg hnot]
      decide
    · apply List.mem_map_of_mem
      rw [← hr, Int.toNat_natCast, List.drop_eq_getElem_cons hi]
      exact List.mem_cons_self

theorem createPlan_isOk {payload : ImprovementPlanCreate} (hpayload : InOrder p payload) :
    (createPlan p env user payload).isOk = true ↔ user.role = .hr ∧ env.improvementPlansRefusal = none ∧
      ∃ r, p.db.evaluationRecords.get? payload.evaluationRecordId = some r ∧ ¬ user.isSubjectOf r ∧
        r.status = .finalized ∧
          r.finalWeightedPct.any (fun pct => pct < (rulesForRecord p.db r).improvementPlanMaxPct) = true ∧
            hasPlan p r.id = false := by
  have hswitch : ensurePlansEnabled env = .ok () ↔ env.improvementPlansRefusal = none := by
    unfold ensurePlansEnabled
    cases env.improvementPlansRefusal <;> simp
  have hok : (createPlan p env user payload).isOk = true ↔ ∃ p', createPlan p env user payload = .ok p' := by
    cases createPlan p env user payload with
    | error e => simp [Except.isOk, Except.toBool]
    | ok p' => simp [Except.isOk, Except.toBool]
  rw [hok]
  simp only [createPlan, requireRoles, bind_eq_ok, pure_eq_ok, require_eq_ok, ensure_eq_ok, List.mem_singleton,
    ensureHrMayHandle_eq_ok]
  constructor
  · rintro ⟨p', _, hrole, _, -, _, henabled, r, hget, _, ⟨hself, -⟩, _, hfinal, _, hpct, _, -, _, hnone, -⟩
    exact ⟨hrole, hswitch.mp henabled, r, hget, hself, hfinal, hpct, hnone⟩
  · rintro ⟨hrole, henabled, r, hget, hself, hfinal, hpct, hnone⟩
    have hshield : ¬ (user.role = .hr ∧ r.hrPanelIsShielded = true) := by
      simp [EvaluationRecord.hrPanelIsShielded, EvaluationRecord.isOpen_eq, hfinal]
    exact ⟨_, (), hrole, (), hpayload.errors, (), hswitch.mpr henabled, r, hget, (), ⟨hself, hshield⟩, (), hfinal,
      (), hpct, (), hpayload.owner, (), hnone, (), hpayload.goals, rfl⟩

/-- The two comparisons of a result, by the case of the scheme: with one cap, and with two. -/
theorem comparisons_iff {r : EvaluationRecord} {pct : Rat} :
    (pct < listedMaxPct p.db r ↔ MayCreate env user r ∧ pct < (rulesForRecord p.db r).improvementPlanMaxPct) ↔
      (∀ scheme, r.scoringSchemeId.bind p.db.scoringSchemes.get? = some scheme →
          ReachedOrMay env user r pct scheme) ∧
        (r.scoringSchemeId.bind p.db.scoringSchemes.get? = none → ComparedAlike p.db env user r pct) := by
  unfold listedMaxPct rulesForRecord ReachedOrMay ComparedAlike
  cases r.scoringSchemeId.bind p.db.scoringSchemes.get? with
  | some scheme =>
    simp only [Option.map_some, Option.getD_some, Option.some.injEq, forall_eq', reduceCtorEq, false_implies, and_true]
    rw [← not_lt]
    show (pct < scheme.improvementPlanMaxPct ↔ _ ∧ pct < scheme.improvementPlanMaxPct) ↔ _
    tauto
  | none =>
    simp only [Option.map_none, Option.getD_none, reduceCtorEq, false_implies, implies_true, true_and, forall_true_left]
    rw [← not_lt, ← not_lt]
    tauto

/-- The list and the creation agree about a record exactly when they judge its result alike. -/
theorem offered_iff_created {payload : ImprovementPlanCreate} (hpayload : InOrder p payload) :
    (Offered p user payload.evaluationRecordId ↔ (createPlan p env user payload).isOk = true) ↔
      JudgedAlike p env user payload.evaluationRecordId := by
  rw [offered_iff, createPlan_isOk hpayload]
  unfold JudgedAlike
  by_cases hrole : user.role = .hr
  · cases hget : p.db.evaluationRecords.get? payload.evaluationRecordId with
    | none => simp
    | some r =>
      unfold isEligible
      cases hpct : r.finalWeightedPct with
      | none => simp [hpct]
      | some pct =>
        by_cases hfinal : r.status = .finalized
        · cases hplan : hasPlan p r.id with
          | true => simp [hplan]
          | false =>
            simp only [hrole, hfinal, hplan, hpct, true_and, Option.some.injEq, exists_eq_left', Option.any_some,
              decide_true, Bool.true_and, Bool.not_false, Bool.and_true, decide_eq_true_eq, forall_true_left, and_true]
            rw [← and_assoc, show (_ ∧ ¬ user.isSubjectOf r) ↔ MayCreate env user r from Iff.rfl, comparisons_iff]
            constructor
            · rintro halike _ rfl _ _ pct' hpct'
              rw [hpct] at hpct'
              cases hpct'
              exact halike
            · intro halike
              exact halike r rfl hfinal hplan pct hpct
        · simp [hfinal]
  · simp [hrole]


/-! ## Both promises -/

/-- In every run the closed plans last exactly when no update touches them, and in every state the list and
the creation agree about a record exactly when they judge its result alike. -/
theorem improvement_plans_iff {tr : List (Taken PlanDb PlanRequest)} (h : PlanRun tr p) :
    (ClosedLasts tr ↔ ∀ x ∈ tr, Harmless x) ∧
      ∀ env user payload, InOrder p payload →
        ((Offered p user payload.evaluationRecordId ↔ (createPlan p env user payload).isOk = true) ↔
          JudgedAlike p env user payload.evaluationRecordId) := by
  refine ⟨?_, fun env user payload hpayload => offered_iff_created hpayload⟩
  rw [closedLasts_iff h]
  refine h.meets_iff (P := fun _ => True) (fun _ _ => trivial) (fun _ _ => trivial) ?_
  intro s req s' _ hstep
  exact closedKept_iff hstep

end

/-! ## One result and its plan -/

/-- The office with one finalized result below the cap, and no plan yet. -/
def planOffice : PlanDb where
  db := { office fullChain with evaluationRecords := onlyEvaluation 50 }
  plans := Table.empty
  goals := Table.empty

def planDay : PlanEnv := { someDay with improvementPlansRefusal := none }

def planForResult : ImprovementPlanCreate := ⟨1, "T", 10, none, none, ["G"]⟩

def planAsk (call : PlanCall) : PlanRequest := ⟨4, planDay, call⟩

def planSettled (p : PlanDb) (req : PlanRequest) : PlanDb :=
  match planStep p req with
  | .ok p' => p'
  | .error _ => p

theorem planRun_replay {p : PlanDb} {reqs : List PlanRequest}
    (hanswered : ((replay planSettled p reqs).all fun x => (planStep x.before x.label).isOk) = true) :
    PlanRun (replay planSettled p reqs) (endState planSettled p reqs) := by
  apply run_replay trivial
  intro x hx
  have hok := List.all_eq_true.mp hanswered x hx
  rw [after_replay hx]
  unfold PlanSteps planSettled
  cases hstep : planStep x.before x.label with
  | ok p' => rfl
  | error e =>
    rw [hstep] at hok
    cases hok

/-- A plan is made and completed. -/
def madeAndCompleted : List PlanRequest := [planAsk (.completePlan 1), planAsk (.createPlan planForResult)]

def planHr : CurrentUser := ⟨4, "hr", .hr, none⟩

theorem planForResult_inOrder : InOrder planOffice planForResult where
  errors := by decide
  owner := rfl
  goals := by decide

theorem planOffice_record {r : EvaluationRecord} (h : planOffice.db.evaluationRecords.get? 1 = some r) :
    r = evaluationOf 1 50 := Option.some.inj (h.symm.trans rfl)

/-- The completed plan is given the title that it has. -/
def titleRepeated : List PlanRequest := planAsk (.updatePlan 1 { title := some (some "T") }) :: madeAndCompleted

theorem completed_title {plan : ImprovementPlan}
    (h : (endState planSettled planOffice madeAndCompleted).plans.get? 1 = some plan) : plan.title = "T" := by
  have htitle : ((endState planSettled planOffice madeAndCompleted).plans.get? 1).map ImprovementPlan.title =
      some "T" := by
    decide
  rw [h] at htitle
  exact Option.some.inj htitle

theorem madeAndCompleted_lasts :
    ClosedLasts (replay planSettled planOffice titleRepeated) ∧ Offered planOffice planHr 1 := by
  have hrun := @planRun_replay planOffice titleRepeated (by decide)
  constructor
  · apply (improvement_plans_iff hrun).1.mpr
    intro x hx planId payload hcall plan hget _
    simp only [titleRepeated, madeAndCompleted, replay, List.mem_cons, List.not_mem_nil, or_false] at hx
    obtain rfl | rfl | rfl := hx
    · cases hcall
      have htitle := completed_title hget
      constructor <;> simp [htitle]
      decide
    · cases hcall
    · cases hcall
  · have hoffice : PlanRun [] planOffice := Run.nil trivial
    apply ((improvement_plans_iff hoffice).2 planDay planHr planForResult planForResult_inOrder).mpr ?_ |>.mpr
    · decide
    · intro _ r hget _ _ pct hpct
      rw [planOffice_record hget] at hpct ⊢
      cases hpct
      constructor
      · intro scheme hscheme
        cases hscheme
      · intro _
        left
        refine ⟨?_, ?_, rfl, ?_⟩ <;> decide

/-- HR edits a completed plan, and is offered a plan for the own result. -/
theorem closed_plan_is_edited :
    (∃ tr p, PlanRun tr p ∧ ¬ ClosedLasts tr) ∧
      ∃ p env user payload, InOrder p payload ∧
        ¬(Offered p user payload.evaluationRecordId ↔ (createPlan p env user payload).isOk = true) := by
  constructor
  · let reqs := planAsk (.updatePlan 1 { title := some (some "N") }) :: madeAndCompleted
    refine ⟨_, _, @planRun_replay planOffice reqs (by decide), ?_⟩
    intro hlasts
    have hkept := hlasts [] _ _ rfl _ (List.mem_singleton_self _)
    have hedited : ((endState planSettled planOffice madeAndCompleted).plans.get? 1).any (fun plan =>
        plan.status ≠ .open && (endState planSettled planOffice reqs).plans.get? 1 ≠ some plan) = true := by
      decide
    obtain ⟨plan, hget, hplan⟩ := exists_of_any hedited
    simp only [Bool.and_eq_true, decide_eq_true_eq] at hplan
    have hthere : plan ∈ (endState planSettled planOffice reqs).plans :=
      (hkept plan (Table.mem_of_get? hget) hplan.1).1
    have hid : plan.id = 1 := Table.id_of_get? hget
    have hfound : (endState planSettled planOffice reqs).plans.get? plan.id = some plan := Table.get?_of_mem hthere
    rw [hid] at hfound
    exact hplan.2 hfound
  · refine ⟨planOffice, planDay, { planHr with personnelId := some 1 }, planForResult, planForResult_inOrder, ?_⟩
    rw [offered_iff]
    decide

end NexaHR
