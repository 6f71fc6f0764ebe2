import NexaHR.Foundations.Claim
import NexaHR.Foundations.Lasting
import NexaHR.Services.Confirmations

/-! # Confirmations as a system

The proposed actions, and the requests that are under way. A request is at a stage; between two stages any
other request may take a step, the purge may run, a conversation may be deleted and the process of a request
may die. What a step reads of other tables is whatever it finds at its time.

* `RequestStage`: how far a request has come, with the row as it read it.
* `AssistantCall`: the steps.
* `AssistantRun`: a run from a state where no request is under way.
* `Advance`, `StepEffect`: what a step can do to the request and to the rows.
-/

namespace NexaHR

open Foundations

set_option autoImplicit false

/-- What `confirm` has read: the settings, the access of the user and the row. -/
structure Confirming where
  user : CurrentUser
  config : AiSettings
  access : Option AiUserAccess
  row : AiPendingAction

/-- The stages of `confirm`, and the one of `reject`. `checkedAt` is the time of the expiry check. -/
inductive RequestStage
  | found (request : Confirming)
  | decidable (request : Confirming) (checkedAt : Nat)
  | authorised (request : Confirming) (checkedAt : Nat)
  | claimed (request : Confirming) (checkedAt : Nat)
  | executed (request : Confirming) (outcome : Outcome)
  | rejecting (user : CurrentUser) (row : AiPendingAction)

/-- The row that the request works on. -/
def RequestStage.row : RequestStage → AiPendingAction
  | found request | decidable request _ | authorised request _ | claimed request _ | executed request _ =>
    request.row
  | rejecting _ row => row

def RequestStage.user : RequestStage → CurrentUser
  | found request | decidable request _ | authorised request _ | claimed request _ | executed request _ =>
    request.user
  | rejecting user _ => user

structure Assistant where
  actions : Table AiPendingAction
  requests : Nat → Option RequestStage
  clock : Nat

namespace Assistant

def withStage (s : Assistant) (r : Nat) (stage : Option RequestStage) : Assistant :=
  { s with requests := fun r' => if r' = r then stage else s.requests r' }

def withActions (s : Assistant) (actions : Table AiPendingAction) : Assistant := { s with actions := actions }

end Assistant

/-- What a step reads of the other tables, and the time. -/
structure AssistantEnv where
  now : Nat
  config : AiSettings
  access : Nat → Option AiUserAccess
  hasKey : Nat → Bool
  conversationOwner : Nat → Option Nat
  capabilities : Nat → List Capability

/-- The steps. `r` is the number of a request; a request that has ended is no more under way. -/
inductive AssistantCall
  | propose (user : CurrentUser) (allowWrites : Bool) (conversationId : Nat) (spec : ToolSpec)
      (argumentsJson : String)
  | confirm (r : Nat) (user : CurrentUser) (pendingId : Nat)
  | ensureDecidable (r : Nat)
  | authorise (r : Nat)
  | claim (r : Nat)
  | execute (r : Nat) (outcome : Outcome)
  | record (r : Nat)
  | reject (r : Nat) (user : CurrentUser) (pendingId : Nat)
  | rejectPending (r : Nat)
  | purge
  | deleteConversation (conversationId : Nat)
  | die (r : Nat)

structure AssistantStep where
  env : AssistantEnv
  call : AssistantCall

/-- The request goes on to its next stage, or ends where it was refused. -/
def Assistant.goOn (s : Assistant) (r : Nat) (result : Except HTTPException Unit × Table AiPendingAction)
    (next : RequestStage) : Assistant :=
  match result.1 with
  | .ok () => (s.withActions result.2).withStage r (some next)
  | .error _ => (s.withActions result.2).withStage r none

/-- `_resolve`: the assistant is on, and on for the user, and has a key. -/
def assistantOn (env : AssistantEnv) (user : CurrentUser) : Bool :=
  env.config.enabled && (env.access user.id).any AiUserAccess.enabled && env.hasKey user.id

def AssistantCall.run (registry : Registry) (s : Assistant) (env : AssistantEnv) : AssistantCall → Assistant
  | propose user allowWrites conversationId spec argumentsJson =>
    s.withActions (proposeAction s.actions env.now user (env.capabilities user.id) allowWrites conversationId
      spec argumentsJson)
  | confirm r user pendingId =>
    match s.requests r, assistantOn env user, pendingOr404 s.actions pendingId user with
    | none, true, .ok row => s.withStage r (some (.found ⟨user, env.config, env.access user.id, row⟩))
    | _, _, _ => s
  | ensureDecidable r =>
    match s.requests r with
    | some (.found request) =>
      s.goOn r
        (NexaHR.ensureDecidable s.actions env.now request.row request.user request.config request.access
          (env.conversationOwner request.row.conversationId))
        (.decidable request env.now)
    | _ => s
  | authorise r =>
    match s.requests r with
    | some (.decidable request checkedAt) =>
      s.goOn r
        (NexaHR.authorise registry s.actions request.row request.user (env.capabilities request.user.id)
          request.config request.access)
        (.authorised request checkedAt)
    | _ => s
  | claim r =>
    match s.requests r with
    | some (.authorised request checkedAt) =>
      s.goOn r (claimForExecution s.actions request.row) (.claimed request checkedAt)
    | _ => s
  | execute r outcome =>
    match s.requests r with
    | some (.claimed request _) =>
      -- the row is read again before the tool runs, for its arguments
      if (s.actions.get? request.row.id).isSome then s.withStage r (some (.executed request outcome))
      else s.withStage r none
    | _ => s
  | record r =>
    match s.requests r with
    | some (.executed request outcome) =>
      (s.withActions (recordOutcome s.actions env.now request.row outcome).2).withStage r none
    | _ => s
  | reject r user pendingId =>
    match s.requests r, assistantOn env user, pendingOr404 s.actions pendingId user with
    | none, true, .ok row =>
      if row.status = .pending then s.withStage r (some (.rejecting user row)) else s
    | _, _, _ => s
  | rejectPending r =>
    match s.requests r with
    | some (.rejecting _ row) =>
      (s.withActions (NexaHR.rejectPending s.actions env.now row).2).withStage r none
    | _ => s
  | purge => s.withActions (purgeDecidedActions s.actions env.now)
  | deleteConversation conversationId =>
    s.withActions (s.actions.filter fun row => row.conversationId ≠ conversationId)
  | die r => s.withStage r none

/-- No step is earlier than the one before it. -/
def AssistantSteps (registry : Registry) (s : Assistant) (e : AssistantStep) (s' : Assistant) : Prop :=
  s.clock ≤ e.env.now ∧ s' = { e.call.run registry s e.env with clock := e.env.now }

abbrev AssistantRun (registry : Registry) (tr : List (Taken Assistant AssistantStep)) (s : Assistant) : Prop :=
  Run (fun s => ∀ r, s.requests r = none) (AssistantSteps registry) tr s

/-- The tool of an action runs: the request that runs it, with the time of its expiry check. -/
def executionAt (x : Taken Assistant AssistantStep) : Option (Confirming × Nat) :=
  match x.label.call with
  | .execute r _ =>
    match x.before.requests r with
    | some (.claimed request checkedAt) =>
      if (x.before.actions.get? request.row.id).isSome then some (request, checkedAt) else none
    | _ => none
  | _ => none

/-- The tool of the action `k` runs. -/
def executes (k : Nat) (x : Taken Assistant AssistantStep) : Bool :=
  (executionAt x).any fun execution => execution.1.row.id = k

/-! ## What a step can do -/

/-- The next stage of the request `r`, where no row is written. -/
inductive Advance (registry : Registry) (s : Assistant) (now r : Nat) : Option RequestStage → Prop
  | ended : Advance registry s now r none
  | found (request : Confirming) (hget : s.actions.get? request.row.id = some request.row)
      (howner : request.row.userId = request.user.id) : Advance registry s now r (some (.found request))
  | decidable (request : Confirming) (hstage : s.requests r = some (.found request))
      (htime : now ≤ request.row.expiresAt) : Advance registry s now r (some (.decidable request now))
  | authorised (request : Confirming) (checkedAt : Nat)
      (hstage : s.requests r = some (.decidable request checkedAt))
      (hknown : getTool registry request.row.toolName ≠ none) :
      Advance registry s now r (some (.authorised request checkedAt))
  | executed (request : Confirming) (checkedAt : Nat) (outcome : Outcome)
      (hstage : s.requests r = some (.claimed request checkedAt)) :
      Advance registry s now r (some (.executed request outcome))
  | rejecting (user : CurrentUser) (row : AiPendingAction) (hget : s.actions.get? row.id = some row)
      (howner : row.userId = user.id) : Advance registry s now r (some (.rejecting user row))

inductive StepEffect (registry : Registry) (s : Assistant) (now : Nat) (s' : Assistant) : Prop
  | kept (hactions : s'.actions = s.actions) (hrequests : s'.requests = s.requests)
  | advanced (r : Nat) (next : Option RequestStage) (hnext : Advance registry s now r next)
      (hactions : s'.actions = s.actions) (hrequests : s'.requests = (s.withStage r next).requests)
  | proposed (mk : Nat → AiPendingAction) (hmk : ∀ n, HasId.id (mk n) = n)
      (hpending : ∀ n, (mk n).status = .pending) (hactions : s'.actions = s.actions.insert mk hmk)
      (hrequests : s'.requests = s.requests)
  | deleted (keep : AiPendingAction → Bool) (hactions : s'.actions = s.actions.filter keep)
      (hrequests : s'.requests = s.requests)
  | expired (r : Nat) (stage : RequestStage) (hstage : s.requests r = some stage)
      (hcause : stage.row.expiresAt < now ∨ getTool registry stage.row.toolName = none)
      (row : AiPendingAction) (hget : s.actions.get? stage.row.id = some row)
      (hactions : s'.actions = s.actions.put (row.withStatus .expired))
      (hrequests : s'.requests = (s.withStage r none).requests)
  | claimed (r : Nat) (request : Confirming) (checkedAt : Nat)
      (hstage : s.requests r = some (.authorised request checkedAt)) (row : AiPendingAction)
      (hget : s.actions.get? request.row.id = some row) (hpending : row.status = .pending)
      (hactions : s'.actions = s.actions.put (row.withStatus .executing))
      (hrequests : s'.requests = (s.withStage r (some (.claimed request checkedAt))).requests)
  | rejected (r : Nat) (row : AiPendingAction) (hget : s.actions.get? row.id = some row)
      (hpending : row.status = .pending)
      (hactions : s'.actions = s.actions.put { row with status := .rejected, decidedAt := some now })
      (hrequests : s'.requests = (s.withStage r none).requests)
  | recorded (r : Nat) (request : Confirming) (outcome : Outcome)
      (hstage : s.requests r = some (.executed request outcome)) (row : AiPendingAction)
      (hget : s.actions.get? request.row.id = some row) (status : ActionStatus) (text : String)
      (hdecided : status = .confirmed ∨ status = .failed)
      (hactions : s'.actions = s.actions.put (row.decided status text now))
      (hrequests : s'.requests = (s.withStage r none).requests)

section

variable {registry : Registry} {s s' : Assistant} {now r : Nat} {row : AiPendingAction}

theorem pendingOr404_ok {actions : Table AiPendingAction} {pendingId : Nat} {user : CurrentUser}
    (h : pendingOr404 actions pendingId user = .ok row) :
    actions.get? row.id = some row ∧ row.userId = user.id := by
  unfold pendingOr404 at h
  simp only [bind_eq_ok, pure_eq_ok, require_eq_ok, ensure_eq_ok] at h
  obtain ⟨found, hget, _, howner, rfl⟩ := h
  have hid : found.id = pendingId := Table.id_of_get? hget
  rw [hid]
  exact ⟨hget, howner⟩

/-- The row is marked, or was gone. -/
theorem expireAction_effect {stage : RequestStage} (e : HTTPException) (hstage : s.requests r = some stage)
    (hcause : stage.row.expiresAt < now ∨ getTool registry stage.row.toolName = none) :
    StepEffect registry s now ((s.withActions (expireAction s.actions stage.row e).2).withStage r none) := by
  unfold expireAction writeAction
  cases hget : s.actions.get? stage.row.id with
  | none => exact StepEffect.advanced r none Advance.ended rfl rfl
  | some row => exact StepEffect.expired r stage hstage hcause row hget rfl rfl

theorem ensureDecidable_effect {request : Confirming} (owner : Option Nat)
    (hstage : s.requests r = some (.found request)) :
    StepEffect registry s now
      (s.goOn r
        (ensureDecidable s.actions now request.row request.user request.config request.access owner)
        (.decidable request now)) := by
  have hended : StepEffect registry s now (s.withStage r none) :=
    StepEffect.advanced r none Advance.ended rfl rfl
  unfold ensureDecidable
  by_cases hpending : request.row.status ≠ .pending
  · rw [if_pos hpending]
    exact hended
  rw [if_neg hpending]
  by_cases hlate : request.row.expiresAt < now
  · rw [if_pos hlate]
    exact expireAction_effect proposalExpired hstage (Or.inl hlate)
  rw [if_neg hlate]
  split
  · exact hended
  split
  · exact hended
  · exact StepEffect.advanced r _ (Advance.decidable request hstage (Nat.le_of_not_lt hlate)) rfl rfl

theorem authorise_effect {request : Confirming} {checkedAt : Nat} (caps : List Capability)
    (hstage : s.requests r = some (.decidable request checkedAt)) :
    StepEffect registry s now
      (s.goOn r (authorise registry s.actions request.row request.user caps request.config request.access)
        (.authorised request checkedAt)) := by
  have hended : StepEffect registry s now (s.withStage r none) :=
    StepEffect.advanced r none Advance.ended rfl rfl
  unfold authorise
  cases htool : getTool registry request.row.toolName with
  | none => exact expireAction_effect toolGone hstage (Or.inr htool)
  | some spec =>
    dsimp only
    split
    · exact hended
    · unfold Assistant.goOn
      cases hguard : guardTool spec request.user caps with
      | error e => exact hended
      | ok _ =>
        refine StepEffect.advanced r _ (Advance.authorised request checkedAt hstage ?_) rfl rfl
        rw [htool]
        exact Option.some_ne_none spec

theorem claim_effect {request : Confirming} {checkedAt : Nat}
    (hstage : s.requests r = some (.authorised request checkedAt)) :
    StepEffect registry s now
      (s.goOn r (claimForExecution s.actions request.row) (.claimed request checkedAt)) := by
  have hended : StepEffect registry s now (s.withStage r none) :=
    StepEffect.advanced r none Advance.ended rfl rfl
  unfold claimForExecution updateIfPending
  cases hget : s.actions.get? request.row.id with
  | none => exact hended
  | some row =>
    dsimp only
    by_cases hpending : row.status = .pending
    · rw [if_pos hpending]
      exact StepEffect.claimed r request checkedAt hstage row hget hpending rfl rfl
    · rw [if_neg hpending]
      exact hended

theorem rejectPending_effect (row : AiPendingAction) :
    StepEffect registry s now ((s.withActions (rejectPending s.actions now row).2).withStage r none) := by
  have hended : StepEffect registry s now (s.withStage r none) :=
    StepEffect.advanced r none Advance.ended rfl rfl
  unfold rejectPending updateIfPending
  cases hget : s.actions.get? row.id with
  | none => exact hended
  | some current =>
    dsimp only
    by_cases hpending : current.status = .pending
    · rw [if_pos hpending]
      have hid : current.id = row.id := Table.id_of_get? hget
      exact StepEffect.rejected r current (by rw [hid]; exact hget) hpending rfl rfl
    · rw [if_neg hpending]
      exact hended

theorem recordOutcome_effect {request : Confirming} {outcome : Outcome}
    (hstage : s.requests r = some (.executed request outcome)) :
    StepEffect registry s now
      ((s.withActions (recordOutcome s.actions now request.row outcome).2).withStage r none) := by
  unfold recordOutcome writeAction
  cases hget : s.actions.get? request.row.id with
  | none => exact StepEffect.advanced r none Advance.ended rfl rfl
  | some row =>
    cases outcome with
    | done summary => exact StepEffect.recorded r request _ hstage row hget _ _ (Or.inl rfl) rfl rfl
    | refused e => exact StepEffect.recorded r request _ hstage row hget _ _ (Or.inr rfl) rfl rfl
    | crashed text => exact StepEffect.recorded r request _ hstage row hget _ _ (Or.inr rfl) rfl rfl

theorem proposeAction_effect (user : CurrentUser) (caps : List Capability) (allowWrites : Bool)
    (conversationId : Nat) (spec : ToolSpec) (argumentsJson : String) :
    StepEffect registry s now
      (s.withActions (proposeAction s.actions now user caps allowWrites conversationId spec argumentsJson)) := by
  unfold proposeAction
  split
  · exact StepEffect.proposed _ (newAction_id now user conversationId spec argumentsJson) (fun _ => rfl) rfl rfl
  · exact StepEffect.kept rfl rfl

theorem AssistantCall.effect (registry : Registry) (s : Assistant) (env : AssistantEnv)
    (call : AssistantCall) : StepEffect registry s env.now (call.run registry s env) := by
  have hkept : StepEffect registry s env.now s := StepEffect.kept rfl rfl
  cases call with
  | propose user allowWrites conversationId spec argumentsJson => exact proposeAction_effect _ _ _ _ _ _
  | confirm r user pendingId =>
    dsimp only [AssistantCall.run]
    split
    next row _ _ hfound =>
      obtain ⟨hget, howner⟩ := pendingOr404_ok hfound
      exact StepEffect.advanced r _ (Advance.found ⟨user, _, _, row⟩ hget howner) rfl rfl
    next => exact hkept
  | ensureDecidable r =>
    dsimp only [AssistantCall.run]
    split
    next request hstage => exact ensureDecidable_effect _ hstage
    next => exact hkept
  | authorise r =>
    dsimp only [AssistantCall.run]
    split
    next request checkedAt hstage => exact authorise_effect _ hstage
    next => exact hkept
  | claim r =>
    dsimp only [AssistantCall.run]
    split
    next request checkedAt hstage => exact claim_effect hstage
    next => exact hkept
  | execute r outcome =>
    dsimp only [AssistantCall.run]
    split
    next request checkedAt hstage =>
      split
      · exact StepEffect.advanced r _ (Advance.executed request checkedAt outcome hstage) rfl rfl
      · exact StepEffect.advanced r none Advance.ended rfl rfl
    next => exact hkept
  | record r =>
    dsimp only [AssistantCall.run]
    split
    next request outcome hstage => exact recordOutcome_effect hstage
    next => exact hkept
  | reject r user pendingId =>
    dsimp only [AssistantCall.run]
    split
    next row _ _ hfound =>
      obtain ⟨hget, howner⟩ := pendingOr404_ok hfound
      split
      · exact StepEffect.advanced r _ (Advance.rejecting user row hget howner) rfl rfl
      · exact hkept
    next => exact hkept
  | rejectPending r =>
    dsimp only [AssistantCall.run]
    split
    next user row hstage => exact rejectPending_effect row
    next => exact hkept
  | purge => exact StepEffect.deleted _ rfl rfl
  | deleteConversation conversationId => exact StepEffect.deleted _ rfl rfl
  | die r => exact StepEffect.advanced r none Advance.ended rfl rfl

theorem stepEffect_of_steps {e : AssistantStep} (h : AssistantSteps registry s e s') :
    StepEffect registry s e.env.now s' ∧ s'.clock = e.env.now := by
  obtain ⟨-, rfl⟩ := h
  refine ⟨?_, rfl⟩
  cases AssistantCall.effect registry s e.env e.call with
  | kept hactions hrequests => exact StepEffect.kept hactions hrequests
  | advanced r next hnext hactions hrequests => exact StepEffect.advanced r next hnext hactions hrequests
  | proposed mk hmk hpending hactions hrequests => exact StepEffect.proposed mk hmk hpending hactions hrequests
  | deleted keep hactions hrequests => exact StepEffect.deleted keep hactions hrequests
  | expired r stage hstage hcause row hget hactions hrequests =>
    exact StepEffect.expired r stage hstage hcause row hget hactions hrequests
  | claimed r request checkedAt hstage row hget hpending hactions hrequests =>
    exact StepEffect.claimed r request checkedAt hstage row hget hpending hactions hrequests
  | rejected r row hget hpending hactions hrequests =>
    exact StepEffect.rejected r row hget hpending hactions hrequests
  | recorded r request outcome hstage row hget status text hdecided hactions hrequests =>
    exact StepEffect.recorded r request outcome hstage row hget status text hdecided hactions hrequests

end

end NexaHR
