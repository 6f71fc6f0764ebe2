import NexaHR.System.RecordRuns

/-! # Returning a record

* `return_unique`: at most one return of the table is open to a user.
* `returnEvaluation_exact`: the endpoint takes that one, or refuses and changes nothing.
* `passes_again`: what was returned goes through every desk again before it is finalized.
-/

namespace NexaHR

open Foundations

set_option autoImplicit false

/-! ## At most one return -/

/-- On no shape and at no status are two returns open to one side of the house. -/
theorem return_unique_of_enabled {s : Shape} {status : EvaluationStatus} {a b : Action}
    (ha : a.isReturn = true) (hb : b.isReturn = true) (hea : s.enabled status a = true)
    (heb : s.enabled status b = true)
    (hside : (transitions a).allowedRole = .hr ↔ (transitions b).allowedRole = .hr) : a = b := by
  have hrow := Shape.forall_enabled
    (P := fun s status a => a.isReturn = true → ∀ b ∈ Action.all, b.isReturn = true →
      s.enabled status b = true →
      ((transitions a).allowedRole = .hr ↔ (transitions b).allowedRole = .hr) → a = b)
    (by decide) hea
  exact hrow ha b b.mem_all hb heb hside

/-- Nobody outside HR acts at its stage, and HR at no other one. -/
theorem allowedRole_hr_iff {a : Action} {role : UserRole}
    (h : mayActAt role (transitions a).allowedRole = true) :
    (transitions a).allowedRole = .hr ↔ role = .hr := by
  constructor
  · intro ha
    rw [ha] at h
    exact (mayActAt_hr role).mp h
  · rintro rfl
    by_contra hne
    unfold mayActAt at h
    rw [if_neg hne] at h
    simp [chainRank] at h

theorem return_unique {r : EvaluationRecord} {user : CurrentUser} {a b : Action}
    (ha : a.isReturn = true) (hb : b.isReturn = true) (hblocka : transitionBlock r a user = none)
    (hblockb : transitionBlock r b user = none) : a = b := by
  have hrolea := allowedRole_hr_iff (transitionBlock_eq_none.mp hblocka).2.1
  have hroleb := allowedRole_hr_iff (transitionBlock_eq_none.mp hblockb).2.1
  exact return_unique_of_enabled ha hb (enabled_of_available hblocka) (enabled_of_available hblockb)
    (hrolea.trans hroleb.symm)

/-! ## The endpoint -/

/-- The comment that a return leaves. -/
def returnComment (user : CurrentUser) (stage : CommentStage) (reason : String) : NewComment where
  commenterUserId := user.id
  stage := stage
  commentText := "برگشت پرونده — دلیل: " ++ reason

theorem doReturn_ok {db : Database} {env : Env} {user : CurrentUser} {r : EvaluationRecord} {a : Action}
    {stage : CommentStage} {reason : String} {w : Work}
    (h : doReturn db env user r a stage reason = .ok w) :
    transitionBlock r a user = none ∧
      w.record = (r.claimedFor a user).moved env (transitions a).toStatus ∧
      w.comments = [returnComment user stage reason] := by
  obtain ⟨hblock, -, -, w₀, hw₀, -, hrecord, hcomments, -⟩ := applyTransition_ok h
  cases hw₀
  exact ⟨hblock, hrecord, hcomments⟩

/-- An answered return is the one that is open to the user. -/
theorem returnEvaluation_exact {db : Database} {req : Request} {user : CurrentUser}
    {r : EvaluationRecord} {reason : String} {w : Work}
    (h : returnEvaluation db req.env user r reason = .ok w) :
    ∃ a stage, (a, stage) ∈ returnActions ∧ returnActionFor r user = some (a, stage) ∧
      transitionBlock r a user = none ∧
      w.record = (r.claimedFor a user).moved req.env (transitions a).toStatus ∧
      w.comments = [returnComment user stage reason] := by
  obtain ⟨choice, hchoice, -⟩ := returnEvaluation_change h
  unfold returnEvaluation returnChoice at h
  rw [hchoice] at h
  simp only [bind_eq_ok, Except.ok.injEq] at h
  obtain ⟨_, -, choice', rfl, h⟩ := h
  obtain ⟨hblock, hrecord, hcomments⟩ := doReturn_ok h
  exact ⟨choice.1, choice.2, List.mem_of_find?_eq_some hchoice, hchoice, hblock, hrecord, hcomments⟩

/-- The request either is refused and changes nothing, or takes the only return that is open to its
user and adds its reason as a comment. -/
def ReturnsExactly (db : Database) (req : Request) (k : Nat) (reason : String) : Prop :=
  (∃ e, step db req = .error e) ∧ settled db req = db ∨
    ∃ user r a stage, getCurrentUser db req.userId = .ok user ∧
      db.evaluationRecords.get? k = some r ∧ (a, stage) ∈ returnActions ∧
      transitionBlock r a user = none ∧
      (∀ entry ∈ returnActions, transitionBlock r entry.1 user = none → entry.1 = a) ∧
      performedOn db req k = some a ∧
      (settled db req).evaluationRecords.get? k =
        some ((r.claimedFor a user).moved req.env (transitions a).toStatus) ∧
      (settled db req).evaluationComments =
        insertComment k db.evaluationComments (returnComment user stage reason)

theorem claimedFor_moved_id (env : Env) (user : CurrentUser) (r : EvaluationRecord) (a : Action) :
    ((r.claimedFor a user).moved env (transitions a).toStatus).id = r.id :=
  (claimedFor_keeps r a user).1

theorem returnsExactly {db : Database} {req : Request} {k : Nat} {reason : String}
    (hop : req.operation = .onRecord k (.returnEvaluation reason)) : ReturnsExactly db req k reason := by
  cases hstep : step db req with
  | error e =>
    left
    refine ⟨⟨e, hstep⟩, ?_⟩
    unfold settled
    rw [hstep]
  | ok db' =>
    right
    have hsettled : settled db req = db' := by
      unfold settled
      rw [hstep]
    rw [hsettled]
    unfold step at hstep
    rw [bind_eq_ok] at hstep
    obtain ⟨user, huser, hrun⟩ := hstep
    rw [hop] at hrun
    have hrun : onRecord db req.env user k (.returnEvaluation reason) = .ok db' := hrun
    unfold onRecord at hrun
    simp only [bind_eq_ok, pure_eq_ok, require_eq_ok] at hrun
    obtain ⟨-, -, -, -, r, hget, w, hw, rfl⟩ := hrun
    have hw : returnEvaluation db req.env user r reason = .ok w := hw
    obtain ⟨a, stage, hmem, hchoice, hblock, hrecord, hcomments⟩ := returnEvaluation_exact hw
    have hid : r.id = k := Table.id_of_get? hget
    have hwid : w.record.id = r.id := by
      rw [hrecord]
      exact claimedFor_moved_id req.env user r a
    refine ⟨user, r, a, stage, huser, hget, hmem, hblock, ?_, ?_, ?_, ?_⟩
    · intro entry hentry hopen
      exact return_unique (isReturn_of_mem hentry) (isReturn_of_mem hmem) hopen hblock
    · rw [performedOn_onRecord hop huser hget]
      simp [RecordOperation.action, hchoice]
    · rw [← hrecord]
      have hput := get?_put_of_id hget hwid
      rw [if_pos hid] at hput
      exact hput
    · show w.comments.foldl (insertComment w.record.id) db.evaluationComments = _
      rw [hcomments, hwid, hid]
      rfl

/-! ## Passing again -/

/-- The newer steps `new` carry the record on from the desk `d`. -/
def CarriedOnFrom (new : List (Taken Database Request)) (k : Nat) (d : EvaluationStatus) : Prop :=
  ∃ y ∈ new, ∃ r user b, y.before.evaluationRecords.get? k = some r ∧ r.status = d ∧
    getCurrentUser y.before y.label.userId = .ok user ∧ performedOn y.before y.label k = some b ∧
    b.isForward = true ∧ transitionBlock r b user = none ∧
    r.shape.route.Next d (transitions b).toStatus

/-- Between a state of a run and a later one, the record was carried on from every desk between. -/
theorem carriedOn_between {new : List (Taken Database Request)} {db₀ db : Database} {k : Nat}
    {r₀ r : EvaluationRecord} {d : EvaluationStatus} (h : Run (· = db₀) Steps new db)
    (hget₀ : db₀.evaluationRecords.get? k = some r₀) (hroute : OnRoute r₀)
    (hget : db.evaluationRecords.get? k = some r) (hd : d ∈ r₀.shape.route.desks)
    (hle : r₀.shape.route.rank r₀.status ≤ r₀.shape.route.rank d)
    (hlt : r₀.shape.route.rank d < r₀.shape.route.rank r.status) : CarriedOnFrom new k d := by
  have hstill : ∀ y ∈ new, ∃ r₁, y.before.evaluationRecords.get? k = some r₁ ∧
      r₁.shape = r₀.shape ∧ OnRoute r₁ := by
    intro y hy
    obtain ⟨⟨old, hold, -⟩, -⟩ := h.step_of_mem hy
    exact record_persists hold hget₀ hroute
  have hmoves : ∀ y ∈ new, r₀.shape.route.Moves (statusOf k y.before) (statusOf k y.after) := by
    intro y hy
    obtain ⟨r₁, hr₁, hshape, hon⟩ := hstill y hy
    rw [← hshape]
    exact step_moves (h.step_of_mem hy).2 hr₁ hon
  rw [← statusOf_eq hget₀] at hle
  rw [← statusOf_eq hget] at hlt
  obtain ⟨y, hy, hbefore, hnext⟩ := Route.crosses h hmoves hd hle hlt
  obtain ⟨r₁, hr₁, hshape, hon⟩ := hstill y hy
  rw [← hbefore, ← hshape] at hnext
  obtain ⟨user, b, huser, hperformed, hforward, hblock, hto⟩ :=
    step_performs (h.step_of_mem hy).2 hr₁ hnext
  rw [hto, hbefore] at hnext
  rw [statusOf_eq hr₁] at hbefore
  exact ⟨y, hy, r₁, user, b, hr₁, hbefore, huser, hperformed, hforward, hblock, hnext⟩

/-- The final document is at the end of every route. -/
theorem rank_lt_finalized {s : Shape} {status : EvaluationStatus} (h : status ∈ s.route.desks)
    (hne : status ≠ .finalized) : s.route.rank status < s.route.rank .finalized := by
  have hall : ∀ s ∈ Shape.all, ∀ status ∈ s.route.desks, status ≠ .finalized →
      s.route.rank status < s.route.rank .finalized := by
    decide
  exact hall s s.mem_all status h hne

/-- No return leaves a finalized record. -/
theorem return_not_from_finalized {a : Action} (ha : a.isReturn = true) :
    .finalized ∉ (transitions a).fromStatuses := by
  cases a <;> first | exact absurd ha (by decide) | decide

/-- What a return means for the run after it. -/
def PassesAgain (new : List (Taken Database Request)) (x : Taken Database Request) (db : Database)
    (k : Nat) : Prop :=
  ∀ a r₀ r, performedOn x.before x.label k = some a → a.isReturn = true →
    x.before.evaluationRecords.get? k = some r₀ → db.evaluationRecords.get? k = some r →
    r.status = .finalized → ∀ d ∈ r₀.shape.route.desks,
      r₀.shape.route.rank (transitions a).toStatus ≤ r₀.shape.route.rank d →
      r₀.shape.route.rank d ≤ r₀.shape.route.rank r₀.status → CarriedOnFrom new k d

theorem passes_again {new old : List (Taken Database Request)} {x : Taken Database Request}
    {db : Database} (h : SystemRun (new ++ x :: old) db) (k : Nat) : PassesAgain new x db k := by
  intro a r₀ r hperformed hreturn hget₀ hget hfinal d hd hle hge
  obtain ⟨hold, hstep⟩ := h.cut
  have hon₀ := onRoute_of_run hold (Table.mem_of_get? hget₀)
  obtain ⟨user, r₁, -, hget₁, hchange⟩ := step_record hstep hget₀
  rw [hperformed] at hchange
  obtain ⟨hblock, hstatus⟩ := hchange.status_some
  have hfrom := (transitionBlock_eq_none.mp hblock).1
  have hsource : r₀.status ∈ r₀.shape.route.desks := by
    rcases hon₀ with hdesk | hcancelled
    · exact hdesk
    · rw [hcancelled] at hfrom
      exact absurd hfrom (cancelled_not_mem_fromStatuses a)
  have hopen : r₀.status ≠ .finalized := by
    intro hf
    rw [hf] at hfrom
    exact return_not_from_finalized hreturn hfrom
  have hlast := rank_lt_finalized hsource hopen
  refine carriedOn_between h.cut_after hget₁ (onRoute_change hon₀ hchange) hget ?_ ?_ ?_
  · rw [hchange.shape_eq]
    exact hd
  · rw [hchange.shape_eq, hstatus]
    exact hle
  · rw [hchange.shape_eq, hfinal]
    omega

/-! ## The result -/

/-- Returns are unambiguous, the endpoint takes the one that is open or changes nothing, and what was
returned passes every desk again that it had passed. -/
theorem returns_are_safe :
    (∀ (r : EvaluationRecord) (user : CurrentUser), ∀ entry ∈ returnActions, ∀ other ∈ returnActions,
      transitionBlock r entry.1 user = none → transitionBlock r other.1 user = none →
        entry = other) ∧
      (∀ db req k reason, req.operation = .onRecord k (.returnEvaluation reason) →
        ReturnsExactly db req k reason) ∧
      ∀ new x old db, SystemRun (new ++ x :: old) db → ∀ k, PassesAgain new x db k := by
  refine ⟨?_, ?_, ?_⟩
  · intro r user entry hentry other hother hblock hblock'
    have haction : entry.1 = other.1 :=
      return_unique (isReturn_of_mem hentry) (isReturn_of_mem hother) hblock hblock'
    have hall : ∀ entry ∈ returnActions, ∀ other ∈ returnActions, entry.1 = other.1 →
        entry = other := by
      decide
    exact hall entry hentry other hother haction
  · intro db req k reason hop
    exact returnsExactly hop
  · intro new x old db h k
    exact passes_again h k

end NexaHR
