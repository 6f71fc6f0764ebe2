import NexaHR.Services.Confirmations
import NexaHR.System.Step
import NexaHR.Tools.Evaluations

/-! # A confirmation from its request to its answer

`confirm_pending` of `api/routers/ai.py` with `confirm`, where no other request comes in between: the checks,
the claim, the tool and its outcome.

* `Tool`, `Toolbox`: the tools with what they do.
* `takeForExecution`: everything that comes before the tool.
* `confirm`: the answer, and the tables that it leaves.
* `Confirms`: the user's confirmation is accepted, and the tool runs.
-/

namespace NexaHR

open Foundations

set_option autoImplicit false

/-! ## Tools -/

/-- A tool with its handler, which takes the stored arguments. One that fails has committed nothing. -/
structure Tool where
  spec : ToolSpec
  run : Database → Env → CurrentUser → String → Except ToolFailure (Database × String)

abbrev Toolbox : Type := String → Option Tool

def Toolbox.registry (toolbox : Toolbox) : Registry := fun name => (toolbox name).map Tool.spec

/-- The handler of `advance_evaluation`. Arguments that are not the function's are an error of the call. -/
def advanceHandler (schemaError : String → String) (reads : String → Except String AdvanceArguments) : Tool where
  spec := advanceTool
  run := fun db env user argumentsJson =>
    match reads argumentsJson with
    | .ok a => advanceEvaluation schemaError db env user a
    | .error text => .error (.crashed text)

/-! ## The request -/

structure AssistantTables where
  db : Database
  actions : Table AiPendingAction

/-- What a confirmation reads besides: the settings, and the assistant's rows of the users. -/
structure ConfirmationEnv extends Env where
  config : AiSettings
  access : Nat → Option AiUserAccess
  hasKey : Nat → Bool
  conversationOwner : Nat → Option Nat

/-- `_resolve` -/
def resolve (env : ConfirmationEnv) (user : CurrentUser) : Except HTTPException Unit := do
  ensure (env.config.enabled = true) ⟨403, "دستیار هوشمند در این سامانه فعال نیست", none⟩
  ensure ((env.access user.id).any AiUserAccess.enabled = true)
    ⟨403, "دستیار هوشمند برای حساب شما فعال نشده است. از مدیر سامانه بخواهید فعالش کند.", none⟩
  ensure (env.hasKey user.id = true)
    ⟨503, "کلید سرویس هوش مصنوعی تنظیم نشده است. مدیر سامانه باید آن را در پنل مدیریت وارد کند.", none⟩

/-- A part of the request that may end it, and the rest. -/
def andThen {α σ : Type} (result : Except HTTPException Unit × σ) (rest : σ → Except HTTPException α × σ) :
    Except HTTPException α × σ :=
  match result.1 with
  | .ok () => rest result.2
  | .error e => (.error e, result.2)

/-- The row that the user may have executed, with the claim on it. -/
def takeForExecution (registry : Registry) (actions : Table AiPendingAction) (env : ConfirmationEnv)
    (user : CurrentUser) (pendingId : Nat) : Except HTTPException AiPendingAction × Table AiPendingAction :=
  match pendingOr404 actions pendingId user with
  | .error e => (.error e, actions)
  | .ok row =>
    andThen
      (ensureDecidable actions env.now row user env.config (env.access user.id)
        (env.conversationOwner row.conversationId))
      fun actions =>
        andThen (authorise registry actions row user env.capabilities env.config (env.access user.id)) fun actions =>
          andThen (claimForExecution actions row) fun actions => (.ok row, actions)

/-- The tool, its outcome in the row, and the event. -/
def runTool (tool : Tool) (s : AssistantTables) (env : ConfirmationEnv) (user : CurrentUser)
    (row : AiPendingAction) : Except HTTPException String × AssistantTables :=
  match tool.run s.db env.toEnv user row.argumentsJson with
  | .ok (db, summary) =>
    let recorded := recordOutcome s.actions env.now row (.done summary)
    (recorded.1, ⟨db.log [directoryEvent env.toEnv user "ai_action_confirmed"], recorded.2⟩)
  | .error (.refused e) =>
    let recorded := recordOutcome s.actions env.now row (.refused e)
    (recorded.1, ⟨s.db.log [directoryEvent env.toEnv user "ai_action_failed"], recorded.2⟩)
  | .error (.crashed text) =>
    let recorded := recordOutcome s.actions env.now row (.crashed text)
    (recorded.1, ⟨s.db, recorded.2⟩)

def confirm (toolbox : Toolbox) (s : AssistantTables) (env : ConfirmationEnv) (userId pendingId : Nat) :
    Except HTTPException String × AssistantTables :=
  match getCurrentUser s.db userId with
  | .error e => (.error e, s)
  | .ok user =>
    match resolve env user with
    | .error e => (.error e, s)
    | .ok () =>
      match takeForExecution toolbox.registry s.actions env user pendingId with
      | (.error e, actions) => (.error e, ⟨s.db, actions⟩)
      | (.ok row, actions) =>
        match toolbox (strip row.toolName) with
        -- not reached: the tool was found when the user was authorised
        | none => (.error internalError, ⟨s.db, actions⟩)
        | some tool => runTool tool ⟨s.db, actions⟩ env user row

/-- The user's confirmation of the action is accepted: the row is his to have executed, and is claimed. -/
def Confirms (toolbox : Toolbox) (s : AssistantTables) (env : ConfirmationEnv) (userId pendingId : Nat)
    (row : AiPendingAction) : Prop :=
  ∃ user, getCurrentUser s.db userId = .ok user ∧ resolve env user = .ok () ∧
    (takeForExecution toolbox.registry s.actions env user pendingId).1 = .ok row

/-! ## What a confirmation does -/

section

variable {toolbox : Toolbox} {s : AssistantTables} {env : ConfirmationEnv} {user : CurrentUser}
  {userId pendingId : Nat} {row : AiPendingAction} {actions : Table AiPendingAction} {tool : Tool}

theorem andThen_ok {α σ : Type} {result : Except HTTPException Unit × σ} {t : σ} {a : α}
    {rest : σ → Except HTTPException α × σ} (h : andThen result rest = (.ok a, t)) :
    result.1 = .ok () ∧ rest result.2 = (.ok a, t) := by
  unfold andThen at h
  cases hresult : result.1 with
  | ok u =>
    rw [hresult] at h
    exact ⟨rfl, h⟩
  | error e =>
    rw [hresult] at h
    cases congrArg Prod.fst h

/-- A claimed row is there to take the outcome. -/
theorem claimForExecution_isSome (h : (claimForExecution actions row).1 = .ok ()) :
    ((claimForExecution actions row).2.get? row.id).isSome = true := by
  unfold claimForExecution updateIfPending at h ⊢
  cases hget : actions.get? row.id with
  | none =>
    rw [hget] at h
    cases h
  | some current =>
    rw [hget] at h
    dsimp only at h ⊢
    by_cases hpending : current.status = .pending
    · rw [if_pos hpending, Table.get?_put, hget]
      rfl
    · rw [if_neg hpending] at h
      cases h

theorem takeForExecution_ok {registry : Registry} {taken : Table AiPendingAction}
    (h : takeForExecution registry actions env user pendingId = (.ok row, taken)) :
    (taken.get? row.id).isSome = true := by
  unfold takeForExecution at h
  split at h
  next => cases congrArg Prod.fst h
  next found _ =>
    obtain ⟨-, h⟩ := andThen_ok h
    obtain ⟨-, h⟩ := andThen_ok h
    obtain ⟨hclaim, h⟩ := andThen_ok h
    obtain ⟨hrow, rfl⟩ := Prod.mk.inj h
    cases Except.ok.inj hrow
    exact claimForExecution_isSome hclaim

/-- An accepted confirmation runs the tool of the row. -/
theorem confirm_eq_runTool (h : Confirms toolbox s env userId pendingId row)
    (htool : toolbox (strip row.toolName) = some tool) :
    ∃ user actions, getCurrentUser s.db userId = .ok user ∧ (actions.get? row.id).isSome = true ∧
      confirm toolbox s env userId pendingId = runTool tool ⟨s.db, actions⟩ env user row := by
  obtain ⟨user, huser, hresolve, htake⟩ := h
  have htaken : takeForExecution toolbox.registry s.actions env user pendingId =
      (.ok row, (takeForExecution toolbox.registry s.actions env user pendingId).2) := Prod.ext htake rfl
  refine ⟨user, _, huser, takeForExecution_ok htaken, ?_⟩
  unfold confirm
  rw [huser]
  dsimp only
  rw [hresolve]
  dsimp only
  rw [htaken]
  dsimp only
  rw [htool]

theorem recordOutcome_of_isSome (now : Nat) (outcome : Outcome) (h : (actions.get? row.id).isSome = true) :
    (recordOutcome actions now row outcome).1 =
      match outcome with
      | .done summary => .ok summary
      | .refused e => .error e
      | .crashed _ => .error executionFailed := by
  unfold recordOutcome
  rw [if_pos h]
  cases outcome with
  | done summary => rfl
  | refused e => rfl
  | crashed text => rfl

/-- The answer tells whether the tool succeeded. -/
theorem runTool_isOk (h : (actions.get? row.id).isSome = true) (db : Database) :
    (runTool tool ⟨db, actions⟩ env user row).1.isOk = (tool.run db env.toEnv user row.argumentsJson).isOk := by
  unfold runTool
  dsimp only
  split
  next hrun =>
    rw [hrun]
    dsimp only
    rw [recordOutcome_of_isSome _ _ h]
    rfl
  next hrun =>
    rw [hrun]
    dsimp only
    rw [recordOutcome_of_isSome _ _ h]
    rfl
  next hrun =>
    rw [hrun]
    dsimp only
    rw [recordOutcome_of_isSome _ _ h]
    rfl

end

end NexaHR
