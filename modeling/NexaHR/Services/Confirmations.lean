import NexaHR.Foundations.Checks
import NexaHR.Models.Database
import NexaHR.Models.Platform
import NexaHR.Services.Evaluation

/-! # Confirming what the assistant proposes

`services/ai/confirmations.py`, with the guard of `services/ai/tools/base.py` and the proposal of
`services/ai/orchestrator.py`. The assistant only proposes; a request of the user runs the tool. Such a
request reads the row once and works on with what it read, and other requests commit in between. So each part
between two commits is a function of its own: what it answers, and the rows it leaves.

* `proposeAction`: a row for a tool that needs a confirmation.
* `pendingOr404`, `ensureDecidable`, `authorise`, `claimForExecution`, `recordOutcome`: the parts of `confirm`.
* `rejectPending`: the second part of `reject`.
* `purgeDecidedActions`: the nightly purge.
-/

namespace NexaHR

open Foundations

set_option autoImplicit false

/-! ## Rows -/

inductive ActionStatus
  | pending | executing | confirmed | rejected | expired | failed
  deriving DecidableEq, Repr

/-- What a proposal says, and never changes. -/
structure Proposal where
  conversationId : Nat
  userId : Nat
  toolName : String
  argumentsJson : String
  createdAt : Nat
  expiresAt : Nat
  deriving DecidableEq

structure AiPendingAction extends Proposal where
  id : Nat
  status : ActionStatus := .pending
  resultText : String := ""
  decidedAt : Option Nat := none
  deriving DecidableEq

instance : HasId AiPendingAction := ⟨AiPendingAction.id⟩

structure AiSettings where
  enabled : Bool
  allowWriteActions : Bool
  deriving DecidableEq

structure AiUserAccess where
  enabled : Bool
  allowWriteActions : Bool
  deriving DecidableEq

/-! ## Tools -/

structure ToolSpec where
  name : String
  readOnly : Bool := false
  risky : Bool := false
  capabilities : List Capability := []
  roles : List UserRole := []
  guardedInline : Bool := false
  deriving DecidableEq

abbrev Registry : Type := String → Option ToolSpec

def getTool (registry : Registry) (name : String) : Option ToolSpec := registry (strip name)

def isAllowed (spec : ToolSpec) (user : CurrentUser) (caps : List Capability) : Bool :=
  if spec.guardedInline && spec.capabilities.isEmpty && spec.roles.isEmpty then true
  else if spec.capabilities.isEmpty && spec.roles.isEmpty then false
  else if spec.capabilities.any caps.contains then true
  else spec.roles.contains user.role

def toolForbidden : HTTPException := ⟨403, "شما اجازهٔ این کار را ندارید؛ دستیار هم همان محدودیت را دارد.", none⟩

/-- `guard` of the tools. -/
def guardTool (spec : ToolSpec) (user : CurrentUser) (caps : List Capability) : Except HTTPException Unit :=
  ensure (isAllowed spec user caps = true) toolForbidden

/-! ## Proposals -/

def pendingTtlHours : Nat := 24

def hours (n : Nat) : Nat := n * 3600

def newAction (now : Nat) (user : CurrentUser) (conversationId : Nat) (spec : ToolSpec)
    (argumentsJson : String) (id : Nat) : AiPendingAction where
  conversationId := conversationId
  userId := user.id
  toolName := spec.name
  argumentsJson := argumentsJson
  createdAt := now
  expiresAt := now + hours pendingTtlHours
  id := id

theorem newAction_id (now : Nat) (user : CurrentUser) (conversationId : Nat) (spec : ToolSpec)
    (argumentsJson : String) (id : Nat) :
    HasId.id (newAction now user conversationId spec argumentsJson id) = id := rfl

/-- A risky tool is proposed where the user may use it. Other calls of the model make no row. -/
def proposeAction (actions : Table AiPendingAction) (now : Nat) (user : CurrentUser) (caps : List Capability)
    (allowWrites : Bool) (conversationId : Nat) (spec : ToolSpec) (argumentsJson : String) :
    Table AiPendingAction :=
  if spec.risky && allowWrites && isAllowed spec user caps then
    actions.insert (newAction now user conversationId spec argumentsJson)
      (newAction_id now user conversationId spec argumentsJson)
  else actions

/-! ## Checks -/

def proposalNotFound : HTTPException := ⟨404, "این پیشنهاد پیدا نشد", none⟩

def alreadyDecided : HTTPException := ⟨409, "این پیشنهاد قبلاً تعیین تکلیف شده است", none⟩

def proposalExpired : HTTPException :=
  ⟨410, "این پیشنهاد منقضی شده است؛ از دستیار بخواهید تازه بسازد", none⟩

def assistantOff : HTTPException := ⟨403, "دستیار برای حساب شما دیگر فعال نیست", none⟩

def conversationNotFound : HTTPException := ⟨404, "گفت‌وگوی این پیشنهاد پیدا نشد", none⟩

def toolGone : HTTPException := ⟨400, "این کنش دیگر در سامانه وجود ندارد", none⟩

def writesForbidden : HTTPException := ⟨403, "اجازهٔ تغییر داده ندارید", none⟩

/-- What the server answers where nothing catches the error. -/
def internalError : HTTPException := ⟨500, "Internal Server Error", none⟩

def pendingOr404 (actions : Table AiPendingAction) (pendingId : Nat) (user : CurrentUser) :
    Except HTTPException AiPendingAction := do
  let row ← require (actions.get? pendingId) proposalNotFound
  ensure (row.userId = user.id) proposalNotFound
  pure row

/-- The mapper writes the columns that were assigned, whatever the row's status is by then. -/
def writeAction (actions : Table AiPendingAction) (pendingId : Nat)
    (assign : AiPendingAction → AiPendingAction) : Table AiPendingAction :=
  match actions.get? pendingId with
  | none => actions
  | some row => actions.put (assign row)

def AiPendingAction.withStatus (status : ActionStatus) (row : AiPendingAction) : AiPendingAction :=
  { row with status := status }

/-- The row is marked as expired, and `e` is answered; a row that is gone by then is an error of its own. -/
def expireAction (actions : Table AiPendingAction) (row : AiPendingAction) (e : HTTPException) :
    HTTPException × Table AiPendingAction :=
  if (actions.get? row.id).isSome then
    (e, writeAction actions row.id (AiPendingAction.withStatus .expired))
  else (internalError, actions)

/-- `_ensure_decidable`. `owner` is the owner of the row's conversation, if there is one. -/
def ensureDecidable (actions : Table AiPendingAction) (now : Nat) (row : AiPendingAction) (user : CurrentUser)
    (config : AiSettings) (access : Option AiUserAccess) (owner : Option Nat) :
    Except HTTPException Unit × Table AiPendingAction :=
  if row.status ≠ .pending then (.error alreadyDecided, actions)
  else if row.expiresAt < now then
    let expired := expireAction actions row proposalExpired
    (.error expired.1, expired.2)
  else if !config.enabled || !access.any AiUserAccess.enabled then (.error assistantOff, actions)
  else if owner ≠ some user.id then (.error conversationNotFound, actions)
  else (.ok (), actions)

/-- What `confirm` asks between the row's checks and the claim. -/
def authorise (registry : Registry) (actions : Table AiPendingAction) (row : AiPendingAction)
    (user : CurrentUser) (caps : List Capability) (config : AiSettings) (access : Option AiUserAccess) :
    Except HTTPException Unit × Table AiPendingAction :=
  match getTool registry row.toolName with
  | none =>
    let expired := expireAction actions row toolGone
    (.error expired.1, expired.2)
  | some spec =>
    if !(config.allowWriteActions && access.any AiUserAccess.allowWriteActions) || spec.readOnly then
      (.error writesForbidden, actions)
    else (guardTool spec user caps, actions)

/-! ## Claims -/

/-- The conditional update: it writes only where the status still is "pending". -/
def updateIfPending (actions : Table AiPendingAction) (pendingId : Nat)
    (assign : AiPendingAction → AiPendingAction) : Except HTTPException Unit × Table AiPendingAction :=
  match actions.get? pendingId with
  | none => (.error alreadyDecided, actions)
  | some row =>
    if row.status = .pending then (.ok (), actions.put (assign row)) else (.error alreadyDecided, actions)

def claimForExecution (actions : Table AiPendingAction) (row : AiPendingAction) :
    Except HTTPException Unit × Table AiPendingAction :=
  updateIfPending actions row.id (AiPendingAction.withStatus .executing)

/-- The update of `reject`. -/
def rejectPending (actions : Table AiPendingAction) (now : Nat) (row : AiPendingAction) :
    Except HTTPException Unit × Table AiPendingAction :=
  updateIfPending actions row.id fun current =>
    { current with status := .rejected, decidedAt := some now }

/-! ## Outcomes -/

/-- How the tool ends. -/
inductive Outcome
  | done (summary : String)
  | refused (e : HTTPException)
  | crashed (text : String)
  deriving DecidableEq

def executionFailed : HTTPException := ⟨500, "اجرای این کنش شکست خورد؛ جزئیات در گزارش رویدادها ثبت شد", none⟩

def orDone (summary : String) : String := if summary = "" then "انجام شد" else summary

def AiPendingAction.decided (status : ActionStatus) (resultText : String) (now : Nat) (row : AiPendingAction) :
    AiPendingAction :=
  { row with status := status, resultText := resultText, decidedAt := some now }

/-- The outcome goes into the row. The answer is the tool's summary, or its error. -/
def recordOutcome (actions : Table AiPendingAction) (now : Nat) (row : AiPendingAction) (outcome : Outcome) :
    Except HTTPException String × Table AiPendingAction :=
  if (actions.get? row.id).isSome then
    match outcome with
    | .done summary =>
      (.ok summary, writeAction actions row.id (AiPendingAction.decided .confirmed (orDone summary) now))
    | .refused e => (.error e, writeAction actions row.id (AiPendingAction.decided .failed e.detail now))
    | .crashed text =>
      (.error executionFailed,
        writeAction actions row.id
          (AiPendingAction.decided .failed (String.ofList (text.toList.take 200)) now))
  else (.error internalError, actions)

def pendingRetentionDays : Nat := 30

def purgeDecidedActions (actions : Table AiPendingAction) (now : Nat) : Table AiPendingAction :=
  let cutoff := now - days pendingRetentionDays
  actions.filter fun row =>
    !((row.status ≠ .pending && row.createdAt < cutoff) || (row.status = .pending && row.expiresAt < cutoff))

end NexaHR
