import NexaHR.System.ConfirmedActions
import NexaHR.System.Installation

/-! # The assistant advances a record as the endpoints do

`advance_evaluation`, confirmed by the user, and the request that he would send himself.

* `AdvanceAction`: the actions of the tool, each with the request that it stands for.
* `advanceEvaluation_iff`: the tool against the request.
* `advance_refines_endpoint`: the confirmation against the request.
-/

namespace NexaHR

open Foundations

set_option autoImplicit false

/-! ## Actions and their requests -/

inductive AdvanceAction
  | submit | hrApprove | deputyApprove | ceoFinalize | «return» | cancel | hrClaim
  deriving DecidableEq, Repr

namespace AdvanceAction

def name : AdvanceAction → String
  | submit => "submit"
  | hrApprove => "hr_approve"
  | deputyApprove => "deputy_approve"
  | ceoFinalize => "ceo_finalize"
  | «return» => "return"
  | cancel => "cancel"
  | hrClaim => "hr_claim"

/-- The endpoint that the user would call. -/
def operation (reason : String) : AdvanceAction → RecordOperation
  | submit => .submitEvaluation
  | hrApprove => .hrApprove
  | deputyApprove => .deputyApprove
  | ceoFinalize => .ceoFinalize
  | «return» => .returnEvaluation reason
  | cancel => .cancelEvaluation reason
  | hrClaim => .hrClaim

end AdvanceAction

/-- The request of the user for the action, with the reason as the schema of the endpoint strips it. -/
def endpointRequest (env : Env) (userId : Nat) (action : AdvanceAction) (a : AdvanceArguments) : Request where
  userId := userId
  env := env
  operation := .onRecord a.evaluationId (action.operation (strip (a.reason.getD "")))

/-- The events of one record. -/
def workflowLog (db : Database) (recordId : Nat) : List AuditLog :=
  db.auditLog.filter fun entry => entry.evaluationRecordId = some recordId

/-! ## The tool -/

section

variable {schemaError : String → String} {db db' : Database} {env : Env} {user : CurrentUser}
  {a : AdvanceArguments} {action : AdvanceAction}

theorem ne_empty_of_length {reason : String} (h : lengthError "دلیل" reason 1000 = []) : reason ≠ "" := by
  rintro rfl
  cases h

/-- An endpoint is its guard, its schema and its own function. -/
theorem onRecord_ok_iff {k : Nat} {op : RecordOperation} :
    onRecord db env user k op = .ok db' ↔
      op.guard env user = .ok () ∧ op.payloadErrors = [] ∧ callEndpoint db k (op.run db env user) = .ok db' := by
  unfold onRecord callEndpoint
  simp only [bind_eq_ok, ensure_eq_ok]
  constructor
  · rintro ⟨_, hguard, _, hpayload, hrun⟩
    exact ⟨hguard, hpayload, hrun⟩
  · rintro ⟨hguard, hpayload, hrun⟩
    exact ⟨(), hguard, (), hpayload, hrun⟩

/-- A row without a reason asks what the endpoint asks. -/
theorem plainRow_iff {spec : AdvanceSpec} {op : RecordOperation} {reason : String} {k : Nat}
    (hguard : op.guard env user = .ok () ↔ spec.may user.role = true) (hpayload : op.payloadErrors = [])
    (hneeds : spec.needsReason = false)
    (hrun : spec.run db env user k reason = refusing (callEndpoint db k (op.run db env user))) :
    (spec.may user.role = true ∧ (spec.needsReason = true → reason ≠ "") ∧
        spec.run db env user k reason = .ok db') ↔
      op.guard env user = .ok () ∧ op.payloadErrors = [] ∧ callEndpoint db k (op.run db env user) = .ok db' := by
  rw [hguard, hpayload, hneeds, hrun, refusing_eq_ok]
  simp

/-- A row with a reason asks in two places what the endpoint's schema asks in one. -/
theorem reasonRow_iff {spec : AdvanceSpec} {op : RecordOperation} {reason : String} {k : Nat}
    (hguard : op.guard env user = .ok () ↔ spec.may user.role = true)
    (hpayload : op.payloadErrors = lengthError "دلیل" reason 1000) (hneeds : spec.needsReason = true)
    (hrun : spec.run db env user k reason =
      withReason schemaError reason (callEndpoint db k (op.run db env user))) :
    (spec.may user.role = true ∧ (spec.needsReason = true → reason ≠ "") ∧
        spec.run db env user k reason = .ok db') ↔
      op.guard env user = .ok () ∧ op.payloadErrors = [] ∧ callEndpoint db k (op.run db env user) = .ok db' := by
  rw [hguard, hpayload, hneeds, hrun, withReason_eq_ok]
  constructor
  · rintro ⟨hmay, -, hlength, hcall⟩
    exact ⟨hmay, hlength, hcall⟩
  · rintro ⟨hmay, hlength, hcall⟩
    exact ⟨hmay, fun _ => ne_empty_of_length hlength, hlength, hcall⟩

theorem payloadErrors_returnEvaluation (reason : String) :
    (RecordOperation.returnEvaluation reason).payloadErrors = lengthError "دلیل" reason 1000 := rfl

theorem payloadErrors_cancelEvaluation (reason : String) :
    (RecordOperation.cancelEvaluation reason).payloadErrors = lengthError "دلیل" reason 1000 := rfl

theorem requireRoles_iff (roles : List UserRole) :
    requireRoles user roles = .ok () ↔ exactly roles user.role = true := by
  simp [requireRoles, exactly]

theorem requireChainStage_iff (stageRole : UserRole) :
    requireChainStage user stageRole = .ok () ↔ atStage stageRole user.role = true := by
  simp [requireChainStage, atStage]

/-- The tool answers where the endpoint answers, and leaves what it leaves. -/
theorem advanceEvaluation_iff (haction : strip (a.action.getD "") = action.name) :
    (∃ summary, advanceEvaluation schemaError db env user a = .ok (db', summary)) ↔
      onRecord db env user a.evaluationId (action.operation (strip (a.reason.getD ""))) = .ok db' := by
  rw [onRecord_ok_iff]
  cases action with
  | submit =>
    rw [advanceEvaluation_ok_iff _ haction (by simp [advanceTable, AdvanceAction.name]; rfl)]
    exact plainRow_iff (requireChainStage_iff _) rfl rfl rfl
  | hrApprove =>
    rw [advanceEvaluation_ok_iff _ haction (by simp [advanceTable, AdvanceAction.name]; rfl)]
    exact plainRow_iff (requireRoles_iff _) rfl rfl rfl
  | deputyApprove =>
    rw [advanceEvaluation_ok_iff _ haction (by simp [advanceTable, AdvanceAction.name]; rfl)]
    exact plainRow_iff (requireChainStage_iff _) rfl rfl rfl
  | ceoFinalize =>
    rw [advanceEvaluation_ok_iff _ haction (by simp [advanceTable, AdvanceAction.name]; rfl)]
    exact plainRow_iff (requireChainStage_iff _) rfl rfl rfl
  | «return» =>
    rw [advanceEvaluation_ok_iff _ haction (by simp [advanceTable, AdvanceAction.name]; rfl)]
    exact reasonRow_iff (requireRoles_iff _) (payloadErrors_returnEvaluation _) rfl
      (by dsimp only [AdvanceAction.operation, RecordOperation.run])
  | cancel =>
    rw [advanceEvaluation_ok_iff _ haction (by simp [advanceTable, AdvanceAction.name]; rfl)]
    exact reasonRow_iff (requireRoles_iff _) (payloadErrors_cancelEvaluation _) rfl
      (by dsimp only [AdvanceAction.operation, RecordOperation.run])
  | hrClaim =>
    rw [advanceEvaluation_ok_iff _ haction (by simp [advanceTable, AdvanceAction.name]; rfl)]
    exact plainRow_iff (requireRoles_iff _) rfl rfl rfl

end

/-! ## The confirmation -/

section

variable {schemaError : String → String} {reads : String → Except String AdvanceArguments} {toolbox : Toolbox}
  {s : AssistantTables} {env : ConfirmationEnv} {userId pendingId : Nat} {row : AiPendingAction}
  {a : AdvanceArguments} {action : AdvanceAction}

theorem step_endpointRequest {db : Database} {user : CurrentUser} (huser : getCurrentUser db userId = .ok user)
    (env : Env) :
    step db (endpointRequest env userId action a) =
      onRecord db env user a.evaluationId (action.operation (strip (a.reason.getD ""))) := by
  unfold step endpointRequest
  rw [huser]
  rfl

/-- What both ways leave, but for events of the assistant's own, which name no record. -/
structure SameButEvents (db db' : Database) (entries : List AuditLog) : Prop where
  left : db' = db.log entries
  own : ∀ entry ∈ entries, entry.evaluationRecordId = none

theorem SameButEvents.workflowLog_eq {db db' : Database} {entries : List AuditLog}
    (h : SameButEvents db db' entries) (recordId : Nat) : workflowLog db' recordId = workflowLog db recordId := by
  have hnone : (entries.filter fun entry => entry.evaluationRecordId = some recordId) = [] := by
    rw [List.filter_eq_nil_iff]
    intro entry hentry
    simp [h.own entry hentry]
  rw [h.left]
  unfold workflowLog Database.log
  rw [List.filter_append, hnone, List.append_nil]

/-- A failed tool leaves the tables, but for the event of the failure. -/
theorem runTool_failed {tool : Tool} {db : Database} {actions : Table AiPendingAction} {user : CurrentUser}
    (h : (tool.run db env.toEnv user row.argumentsJson).isOk = false) :
    ∃ entries, SameButEvents db (runTool tool ⟨db, actions⟩ env user row).2.db entries := by
  unfold runTool
  dsimp only
  split
  next hrun =>
    rw [hrun] at h
    cases h
  next hrun => exact ⟨_, rfl, by simp [directoryEvent]⟩
  next hrun => exact ⟨[], by simp [Database.log], by simp⟩

theorem runTool_done {tool : Tool} {db db' : Database} {actions : Table AiPendingAction} {user : CurrentUser}
    {summary : String} (h : tool.run db env.toEnv user row.argumentsJson = .ok (db', summary)) :
    ∃ entries, SameButEvents db' (runTool tool ⟨db, actions⟩ env user row).2.db entries := by
  unfold runTool
  dsimp only
  rw [h]
  exact ⟨_, rfl, by simp [directoryEvent]⟩

/-- A confirmed action either does what the user's own request does, or fails where that is refused. -/
theorem confirmed_cases (hname : row.toolName = advanceTool.name)
    (htool : toolbox advanceTool.name = some (advanceHandler schemaError reads))
    (hconfirms : Confirms toolbox s env userId pendingId row) (hreads : reads row.argumentsJson = .ok a)
    (haction : strip (a.action.getD "") = action.name) :
    ((confirm toolbox s env userId pendingId).1.isOk =
        (step s.db (endpointRequest env.toEnv userId action a)).isOk) ∧
      ∃ entries, SameButEvents (settled s.db (endpointRequest env.toEnv userId action a))
        (confirm toolbox s env userId pendingId).2.db entries := by
  have hblank : strip advanceTool.name = advanceTool.name := by decide
  have hstrip : toolbox (strip row.toolName) = some (advanceHandler schemaError reads) := by
    rw [hname, hblank, htool]
  obtain ⟨user, actions, huser, hrow, hconfirm⟩ := confirm_eq_runTool hconfirms hstrip
  have hrun : (advanceHandler schemaError reads).run s.db env.toEnv user row.argumentsJson =
      advanceEvaluation schemaError s.db env.toEnv user a := by
    unfold advanceHandler
    dsimp only
    rw [hreads]
  have hiff := fun db' => @advanceEvaluation_iff schemaError s.db db' env.toEnv user a action haction
  rw [hconfirm, runTool_isOk hrow, hrun]
  unfold settled
  rw [step_endpointRequest huser]
  cases hendpoint : onRecord s.db env.toEnv user a.evaluationId
      (action.operation (strip (a.reason.getD ""))) with
  | ok db' =>
    obtain ⟨summary, hdone⟩ := (hiff db').mpr hendpoint
    rw [hdone]
    exact ⟨rfl, runTool_done (hrun.trans hdone)⟩
  | error e =>
    have hfailed : (advanceEvaluation schemaError s.db env.toEnv user a).isOk = false := by
      cases hdone : advanceEvaluation schemaError s.db env.toEnv user a with
      | error failure => rfl
      | ok answer =>
        have h := (hiff answer.1).mp ⟨answer.2, hdone⟩
        rw [hendpoint] at h
        cases h
    refine ⟨hfailed, runTool_failed ?_⟩
    rw [hrun, hfailed]

/-- The confirmation of an action succeeds exactly where the user's own request would, and leaves the same
record, result, comments, notifications and events of every record. -/
theorem advance_refines_endpoint (hname : row.toolName = advanceTool.name)
    (htool : toolbox advanceTool.name = some (advanceHandler schemaError reads))
    (hconfirms : Confirms toolbox s env userId pendingId row) (hreads : reads row.argumentsJson = .ok a)
    (haction : strip (a.action.getD "") = action.name) :
    ((confirm toolbox s env userId pendingId).1.isOk =
        (step s.db (endpointRequest env.toEnv userId action a)).isOk) ∧
      (∃ entries, SameButEvents (settled s.db (endpointRequest env.toEnv userId action a))
        (confirm toolbox s env userId pendingId).2.db entries) ∧
      ∀ recordId, workflowLog (confirm toolbox s env userId pendingId).2.db recordId =
        workflowLog (settled s.db (endpointRequest env.toEnv userId action a)) recordId := by
  obtain ⟨hanswer, entries, hsame⟩ := confirmed_cases hname htool hconfirms hreads haction
  exact ⟨hanswer, ⟨entries, hsame⟩, hsame.workflowLog_eq⟩

end

/-! ### A confirmed approval -/

/-- The stored arguments of one approval, and how they read. -/
def approvalArguments : String := "\x7b\"evaluation_id\": 1, \"action\": \"hr_approve\"\x7d"

def readsApproval (argumentsJson : String) : Except String AdvanceArguments :=
  if argumentsJson = approvalArguments then .ok ⟨1, some "hr_approve", none⟩ else .error "missing arguments"

def approvalToolbox : Toolbox := fun name =>
  if name = advanceTool.name then some (advanceHandler id readsApproval) else none

/-- The office with one record that waits for HR, and a proposal to approve it. -/
def approvalProposed : AssistantTables where
  db :=
    { office fullChain with
      evaluationRecords :=
        Table.ofRows [{ evaluationOf 1 80 with status := .submitted, finalizedAt := none }] (List.nodup_singleton _) }
  actions :=
    Table.ofRows [newAction 0 ⟨4, "hr", .hr, none⟩ 1 advanceTool approvalArguments 1] (List.nodup_singleton _)

def approvalDay : ConfirmationEnv :=
  { someDay with
    config := ⟨true, true⟩
    access := fun _ => some ⟨true, true⟩
    hasKey := fun _ => true
    conversationOwner := fun _ => some 4 }

theorem approval_is_the_endpoints :
    (confirm approvalToolbox approvalProposed approvalDay 4 1).1.isOk = true ∧
      ∃ entries, SameButEvents
        (settled approvalProposed.db
          (endpointRequest approvalDay.toEnv 4 .hrApprove ⟨1, some "hr_approve", none⟩))
        (confirm approvalToolbox approvalProposed approvalDay 4 1).2.db entries := by
  have hconfirms : Confirms approvalToolbox approvalProposed approvalDay 4 1
      (newAction 0 ⟨4, "hr", .hr, none⟩ 1 advanceTool approvalArguments 1) :=
    ⟨⟨4, "hr", .hr, none⟩, rfl, rfl, by decide⟩
  have h := @advance_refines_endpoint id readsApproval _ _ _ _ _ _ _ .hrApprove rfl rfl hconfirms rfl (by decide)
  refine ⟨?_, h.2.1⟩
  rw [h.1]
  decide

end NexaHR
