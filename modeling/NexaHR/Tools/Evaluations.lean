import NexaHR.Routers.Evaluations
import NexaHR.Routers.Views
import NexaHR.Services.Confirmations

/-! # The assistant's tool for the workflow

`advance_evaluation` of `services/ai/tools/evaluations.py`. Its table names, for every action, who may ask for
it and which endpoint runs. The tool calls the endpoints' own functions, without the guards that a request
meets before them.

* `ToolFailure`: how a tool fails.
* `callEndpoint`: an endpoint's function, from the record to the commit.
* `advanceTable`, `advanceEvaluation`: the table and the tool.
-/

namespace NexaHR

open Foundations

set_option autoImplicit false

/-! ## Tools that fail -/

/-- A tool is refused as an endpoint refuses, or ends with any other error. -/
inductive ToolFailure
  | refused (e : HTTPException)
  | crashed (text : String)
  deriving DecidableEq

def refusing {α : Type} : Except HTTPException α → Except ToolFailure α
  | .ok a => .ok a
  | .error e => .error (.refused e)

@[simp] theorem refusing_eq_ok {α : Type} {x : Except HTTPException α} {a : α} :
    refusing x = .ok a ↔ x = .ok a := by
  cases x with
  | ok b => simp [refusing]
  | error e => simp [refusing]

/-! ## The table -/

/-- An endpoint's own function. -/
def callEndpoint (db : Database) (evaluationId : Nat) (endpoint : EvaluationRecord → Except HTTPException Work) :
    Except HTTPException Database := do
  let r ← require (db.evaluationRecords.get? evaluationId) evaluationNotFound
  let w ← endpoint r
  pure (w.commit db)

/-- `_Advance`: who may ask, what runs, and whether a reason is due. -/
structure AdvanceSpec where
  may : UserRole → Bool
  run : Database → Env → CurrentUser → Nat → String → Except ToolFailure Database
  needsReason : Bool := false

/-- `_stage`: a superior may do the work of a lower stage. -/
def atStage (stageRole : UserRole) (role : UserRole) : Bool := mayActAt role stageRole

/-- `_exact` -/
def exactly (roles : List UserRole) (role : UserRole) : Bool := decide (role ∈ roles)

section

variable (schemaError : String → String)

/-- A body with a reason is made in the tool, so what its schema refuses is an error of the tool's own. -/
def withReason (reason : String) (x : Except HTTPException Database) : Except ToolFailure Database :=
  if lengthError "دلیل" reason 1000 = [] then refusing x else .error (.crashed (schemaError reason))

/-- `_ADVANCE` -/
def advanceTable : List (String × AdvanceSpec) :=
  [("submit",
      { may := atStage .unitSupervisor
        run := fun db env user k _ => refusing (callEndpoint db k (submitEvaluation db env user)) }),
    ("hr_approve",
      { may := exactly [.hr]
        run := fun db env user k _ => refusing (callEndpoint db k (hrApprove db env user)) }),
    ("deputy_approve",
      { may := atStage .deputy
        run := fun db env user k _ => refusing (callEndpoint db k (deputyApprove db env user)) }),
    ("ceo_finalize",
      { may := atStage .ceo
        run := fun db env user k _ => refusing (callEndpoint db k (ceoFinalize db env user)) }),
    ("return",
      { may := exactly [.hr, .deputy, .ceo]
        run := fun db env user k reason =>
          withReason schemaError reason
            (callEndpoint db k fun r => returnEvaluation db env user r reason)
        needsReason := true }),
    ("cancel",
      { may := exactly [.hr, .deputy, .ceo]
        run := fun db env user k reason =>
          withReason schemaError reason
            (callEndpoint db k fun r => cancelEvaluation db env user r reason)
        needsReason := true }),
    ("hr_claim",
      { may := exactly [.hr]
        run := fun db env user k _ => refusing (callEndpoint db k (hrClaim db env user)) })]

/-! ## The tool -/

structure AdvanceArguments where
  evaluationId : Nat
  action : Option String
  reason : Option String := none
  deriving DecidableEq

def advanceTool : ToolSpec where
  name := "advance_evaluation"
  risky := true
  guardedInline := true

def unknownAdvance : HTTPException :=
  ⟨400, "اقدام نامعتبر است؛ یکی از این‌ها: " ++
    "، ".intercalate ((advanceTable schemaError).map Prod.fst), none⟩

def reasonRequired : HTTPException := ⟨400, "برای برگشت یا لغو، ذکر دلیل الزامی است", none⟩

def caseNotFound : HTTPException := ⟨404, "پروندهٔ ارزیابی پیدا نشد", none⟩

/-- `_subject_name` -/
def subjectNameOr (db : Database) (r : EvaluationRecord) : String :=
  ((db.personnel.get? r.subjectPersonnelId).map Personnel.fullName).getD "?"

def advanceSummary (db : Database) (before after : EvaluationRecord) : String :=
  "پروندهٔ " ++ after.evaluationCode ++ " (" ++ subjectNameOr db after ++ ") " ++
    "از «" ++ statusLabel before.status ++ "» " ++ "به «" ++ statusLabel after.status ++ "» رفت"

/-- `advance_evaluation`: the database that the endpoint left, and the summary. -/
def advanceEvaluation (db : Database) (env : Env) (user : CurrentUser) (a : AdvanceArguments) :
    Except ToolFailure (Database × String) := do
  let action := strip (a.action.getD "")
  let reason := strip (a.reason.getD "")
  let spec ← refusing (require ((advanceTable schemaError).lookup action) (unknownAdvance schemaError))
  refusing (ensure (spec.may user.role = true) accessRefusal)
  refusing (ensure (spec.needsReason = true → reason ≠ "") reasonRequired)
  let before ← refusing (require (db.evaluationRecords.get? a.evaluationId) caseNotFound)
  let db' ← spec.run db env user a.evaluationId reason
  let after ← refusing (require (db'.evaluationRecords.get? a.evaluationId) caseNotFound)
  pure (db', advanceSummary db' before after)

end

/-! ## What the tool does -/

/-- A found record is found after a commit as well. -/
theorem commit_get?_isSome {db : Database} {k : Nat} {r : EvaluationRecord} (w : Work)
    (hget : db.evaluationRecords.get? k = some r) :
    ∃ r', (w.commit db).evaluationRecords.get? k = some r' := by
  show ∃ r', (db.evaluationRecords.put w.record).get? k = some r'
  rw [Table.get?_put, hget]
  exact ⟨_, rfl⟩

section

variable {schemaError : String → String} {db db' : Database} {env : Env} {user : CurrentUser}
  {a : AdvanceArguments} {spec : AdvanceSpec} {k : Nat} {reason : String}
  {endpoint : EvaluationRecord → Except HTTPException Work}

/-- The record was there, and still is. -/
theorem callEndpoint_get? (h : callEndpoint db k endpoint = .ok db') :
    (∃ r, db.evaluationRecords.get? k = some r) ∧ ∃ r', db'.evaluationRecords.get? k = some r' := by
  unfold callEndpoint at h
  simp only [bind_eq_ok, pure_eq_ok, require_eq_ok] at h
  obtain ⟨r, hget, w, -, rfl⟩ := h
  exact ⟨⟨r, hget⟩, commit_get?_isSome w hget⟩

@[simp] theorem withReason_eq_ok {x : Except HTTPException Database} :
    withReason schemaError reason x = .ok db' ↔ lengthError "دلیل" reason 1000 = [] ∧ x = .ok db' := by
  unfold withReason
  split
  next h => simp [h]
  next h => simp [h]

/-- Every row of the table runs an endpoint on the record. -/
theorem advanceTable_calls (action : String) (hspec : (action, spec) ∈ advanceTable schemaError)
    (h : spec.run db env user k reason = .ok db') :
    ∃ endpoint, callEndpoint db k endpoint = .ok db' := by
  simp only [advanceTable, List.mem_cons, Prod.mk.injEq, List.not_mem_nil, or_false] at hspec
  rcases hspec with ⟨-, rfl⟩ | ⟨-, rfl⟩ | ⟨-, rfl⟩ | ⟨-, rfl⟩ | ⟨-, rfl⟩ | ⟨-, rfl⟩ | ⟨-, rfl⟩
  · exact ⟨_, refusing_eq_ok.mp h⟩
  · exact ⟨_, refusing_eq_ok.mp h⟩
  · exact ⟨_, refusing_eq_ok.mp h⟩
  · exact ⟨_, refusing_eq_ok.mp h⟩
  · exact ⟨_, (withReason_eq_ok.mp h).2⟩
  · exact ⟨_, (withReason_eq_ok.mp h).2⟩
  · exact ⟨_, refusing_eq_ok.mp h⟩

/-- The tool answers exactly where the row of its table lets the user ask and the endpoint answers. -/
theorem advanceEvaluation_ok_iff (action : String) (haction : strip (a.action.getD "") = action)
    (hspec : (advanceTable schemaError).lookup action = some spec) :
    (∃ summary, advanceEvaluation schemaError db env user a = .ok (db', summary)) ↔
      spec.may user.role = true ∧ (spec.needsReason = true → strip (a.reason.getD "") ≠ "") ∧
        spec.run db env user a.evaluationId (strip (a.reason.getD "")) = .ok db' := by
  unfold advanceEvaluation
  simp only [bind_eq_ok, pure_eq_ok, refusing_eq_ok, require_eq_ok, ensure_eq_ok, haction, hspec,
    Option.some.injEq, exists_eq_left', Prod.mk.injEq]
  constructor
  · rintro ⟨summary, _, hmay, _, hreason, before, -, d, hrun, after, -, rfl, -⟩
    exact ⟨hmay, hreason, hrun⟩
  · rintro ⟨hmay, hreason, hrun⟩
    obtain ⟨before, after, hrows, -⟩ := List.lookup_eq_some_iff.mp hspec
    have hmem : (action, spec) ∈ advanceTable schemaError := by
      rw [hrows]
      simp
    obtain ⟨endpoint, hcall⟩ := advanceTable_calls action hmem hrun
    obtain ⟨⟨before, hbefore⟩, after, hafter⟩ := callEndpoint_get? hcall
    exact ⟨_, (), hmay, (), hreason, before, hbefore, db', hrun, after, hafter, rfl, rfl⟩

end

end NexaHR
