import NexaHR.System.FormSteps
import NexaHR.System.OtherTables
import NexaHR.Tools.Framework

/-! # The versions of the rules as a system

Versions are drafted, previewed, activated and deleted by requests to the API, and by the assistant for its
user. The assistant's tools end in the same changes as the endpoints.

* `SchemeCall`: every request of the API, the preview, and the assistant's two tools.
* `steps_of_schemeSteps`: a step changes nothing, or is a step of the system.
* `SchemesChange`: what a step does to the versions.
-/

namespace NexaHR

open Foundations

set_option autoImplicit false

inductive SchemeCall
  | http (operation : Operation)
  | preview (payload : SchemeInput) (limit : Int)
  | draftTool (arguments : DraftArguments)
  | activationTool (schemeId : Nat)

structure SchemeRequest where
  userId : Nat
  env : Env
  call : SchemeCall

def SchemeCall.run (db : Database) (env : Env) (user : CurrentUser) :
    SchemeCall → Except HTTPException Database
  | http operation => operation.run db env user
  | preview payload limit => do
    let _ ← previewScheme db env payload limit
    pure db
  | draftTool arguments => createSchemeDraft db env user arguments
  | activationTool schemeId => activateSchemeById db env user schemeId

def schemeStep (db : Database) (req : SchemeRequest) : Except HTTPException Database := do
  let user ← getCurrentUser db req.userId
  req.call.run db req.env user

/-- The request is answered. A refused request changes nothing. -/
def SchemeSteps (db : Database) (req : SchemeRequest) (db' : Database) : Prop := schemeStep db req = .ok db'

def Operation.draft : Operation → Option SchemeInput
  | createScheme payload => some payload
  | _ => none

theorem Operation.draft_eq_some {operation : Operation} {p : SchemeInput} (h : operation.draft = some p) :
    operation = .createScheme p := by
  cases operation with
  | createScheme payload => rw [← Option.some.inj h]
  | _ => cases h

/-- The input of the draft that a request makes. -/
def SchemeRequest.draft (req : SchemeRequest) (db : Database) : Option SchemeInput :=
  match req.call with
  | .http operation => operation.draft
  | .preview _ _ => none
  | .draftTool arguments => some (arguments.payload (nextVersion db))
  | .activationTool _ => none

section

variable {db db' : Database} {req : SchemeRequest} {user : CurrentUser} {env : Env}

/-! ## The assistant -/

theorem createSchemeDraft_ok {a : DraftArguments} (h : createSchemeDraft db env user a = .ok db') :
    createScheme db env user (a.payload (nextVersion db)) = .ok db' := by
  simp only [createSchemeDraft, bind_eq_ok] at h
  obtain ⟨-, -, -, -, hcreated⟩ := h
  exact hcreated

/-- The guard of the tool asks for what the endpoint asks for. -/
theorem activateSchemeById_ok {schemeId : Nat} (h : activateSchemeById db env user schemeId = .ok db') :
    activateScheme db env user schemeId = .ok db' := by
  simp only [activateSchemeById, guardTool, bind_eq_ok, require_eq_ok, ensure_eq_ok] at h
  obtain ⟨-, hallowed, scheme, hget, hactivated⟩ := h
  have hcapability : Capability.manageScoring ∈ env.capabilities := by
    simpa [isAllowed, schemeActivationTool] using hallowed
  simp only [activateScheme, requireCapability, bind_eq_ok, require_eq_ok, ensure_eq_ok]
  exact ⟨(), hcapability, scheme, hget, hactivated⟩

theorem steps_of_draft {p : SchemeInput} (h : SchemeSteps db req db') (hp : req.draft db = some p) :
    Steps db ⟨req.userId, req.env, .createScheme p⟩ db' := by
  have hrun : schemeStep db req = .ok db' := h
  simp only [schemeStep, bind_eq_ok] at hrun
  obtain ⟨user, huser, hrun⟩ := hrun
  have hcreated : createScheme db req.env user p = .ok db' := by
    unfold SchemeRequest.draft at hp
    cases hcall : req.call with
    | http operation =>
      rw [hcall] at hp hrun
      have hop : operation = .createScheme p := Operation.draft_eq_some hp
      rw [hop] at hrun
      exact hrun
    | preview payload limit => simp only [hcall, reduceCtorEq] at hp
    | draftTool arguments =>
      rw [hcall] at hp hrun
      have hpayload : arguments.payload (nextVersion db) = p := Option.some.inj hp
      rw [← hpayload]
      exact createSchemeDraft_ok hrun
    | activationTool schemeId => simp only [hcall, reduceCtorEq] at hp
  show step db ⟨req.userId, req.env, .createScheme p⟩ = .ok db'
  simp only [step, bind_eq_ok]
  exact ⟨user, huser, hcreated⟩

/-- A step changes nothing, or is a step of the system. -/
theorem steps_of_schemeSteps (h : SchemeSteps db req db') :
    db' = db ∨ ∃ operation, Steps db ⟨req.userId, req.env, operation⟩ db' := by
  have hrun : schemeStep db req = .ok db' := h
  simp only [schemeStep, bind_eq_ok] at hrun
  obtain ⟨user, huser, hrun⟩ := hrun
  have hsteps : ∀ operation, Operation.run db req.env user operation = .ok db' →
      Steps db ⟨req.userId, req.env, operation⟩ db' := by
    intro operation hop
    show step db ⟨req.userId, req.env, operation⟩ = .ok db'
    simp only [step, bind_eq_ok]
    exact ⟨user, huser, hop⟩
  cases hcall : req.call with
  | http operation =>
    rw [hcall] at hrun
    exact Or.inr ⟨operation, hsteps operation hrun⟩
  | preview payload limit =>
    rw [hcall] at hrun
    simp only [SchemeCall.run, bind_eq_ok, pure_eq_ok] at hrun
    obtain ⟨-, -, rfl⟩ := hrun
    exact Or.inl rfl
  | draftTool arguments =>
    rw [hcall] at hrun
    exact Or.inr ⟨.createScheme (arguments.payload (nextVersion db)), hsteps _ (createSchemeDraft_ok hrun)⟩
  | activationTool schemeId =>
    rw [hcall] at hrun
    exact Or.inr ⟨.activateScheme schemeId, hsteps _ (activateSchemeById_ok hrun)⟩

/-! ## What a step does -/

theorem switchActive_id (schemeId actorUserId : Nat) (scheme : ScoringScheme) :
    HasId.id (switchActive schemeId actorUserId scheme) = HasId.id scheme := by
  unfold switchActive
  split
  · rfl
  · split <;> rfl

/-- The four ways the table of versions goes on. -/
inductive SchemesChange (db : Database) (user : CurrentUser) : Operation → Table ScoringScheme → Prop
  | kept (operation : Operation) (hother : operation.editsSchemes = false) :
    SchemesChange db user operation db.scoringSchemes
  | drafted (p : SchemeInput) (haccepted : p.errors = []) (hne : p.thresholds ≠ []) :
    SchemesChange db user (.createScheme p)
      (db.scoringSchemes.insert (newScheme p hne (nextVersion db) user.id)
        (newScheme_id p hne (nextVersion db) user.id))
  | activated (scheme : ScoringScheme) (hget : scheme ∈ db.scoringSchemes) (hdraft : scheme.status = .draft)
    (hother : scheme.createdByUserId ≠ some user.id) (hvalid : ensureSchemeIsValid scheme = .ok ()) :
    SchemesChange db user (.activateScheme scheme.id)
      (db.scoringSchemes.map (switchActive scheme.id user.id) (switchActive_id scheme.id user.id))
  | deleted (scheme : ScoringScheme) (hget : scheme ∈ db.scoringSchemes) (hdraft : scheme.status = .draft) :
    SchemesChange db user (.deleteDraft scheme.id)
      (db.scoringSchemes.filter fun other => other.id ≠ scheme.id)

theorem SchemesChange.of_createScheme {p : SchemeInput} {schemes : Table ScoringScheme}
    (h : SchemesChange db user (.createScheme p) schemes) :
    p.errors = [] ∧ ∃ hne : p.thresholds ≠ [],
      schemes = db.scoringSchemes.insert (newScheme p hne (nextVersion db) user.id)
        (newScheme_id p hne (nextVersion db) user.id) := by
  cases h with
  | kept _ hother => cases hother
  | drafted p haccepted hne => exact ⟨haccepted, hne, rfl⟩

theorem schemesChange_of_steps {req : Request} (h : Steps db req db') :
    ∃ user, getCurrentUser db req.userId = .ok user ∧
      SchemesChange db user req.operation db'.scoringSchemes := by
  have hstep : step db req = .ok db' := h
  simp only [step, bind_eq_ok] at hstep
  obtain ⟨user, huser, hrun⟩ := hstep
  refine ⟨user, huser, ?_⟩
  cases hop : req.operation with
  | createScheme p =>
    rw [hop] at hrun
    simp only [Operation.run, createScheme, bind_eq_ok, ensure_eq_ok] at hrun
    obtain ⟨-, -, -, haccepted, hrun⟩ := hrun
    split at hrun
    next hne =>
      rw [pure_eq_ok] at hrun
      rw [← hrun]
      exact SchemesChange.drafted p haccepted hne
    next => cases hrun
  | activateScheme schemeId =>
    rw [hop] at hrun
    simp only [Operation.run, activateScheme, activate, bind_eq_ok, pure_eq_ok, require_eq_ok,
      ensure_eq_ok] at hrun
    obtain ⟨-, -, scheme, hget, activated, ⟨-, hdraft, -, hother, _, hvalid, rfl⟩, rfl⟩ := hrun
    have hid : scheme.id = schemeId := Table.id_of_get? hget
    subst hid
    exact SchemesChange.activated scheme (Table.mem_of_get? hget) hdraft hother hvalid
  | deleteDraft schemeId =>
    rw [hop] at hrun
    simp only [Operation.run, deleteDraft, bind_eq_ok, pure_eq_ok, require_eq_ok, ensure_eq_ok] at hrun
    obtain ⟨-, -, scheme, hget, -, hdraft, rfl⟩ := hrun
    have hid : scheme.id = schemeId := Table.id_of_get? hget
    subst hid
    exact SchemesChange.deleted scheme (Table.mem_of_get? hget) hdraft
  | _ =>
    rw [hop] at hrun
    rw [(Operation.run_keepsOthers hrun).scoringSchemes.resolve_left Bool.false_ne_true]
    exact SchemesChange.kept _ rfl

end

end NexaHR
