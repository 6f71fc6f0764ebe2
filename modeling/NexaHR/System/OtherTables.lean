import NexaHR.Foundations.TwoStates
import NexaHR.System.AccountSteps
import NexaHR.System.FormSteps

/-! # Tables that a request is not about

Five tables are written by a few kinds of requests only: the indicators, the versions of the rules, the
accounts, the people and the units. And two databases may agree in every table but the records, where the records
are related row by row: what a query may not tell apart is stated about two such databases.

* `KeepsOthers`: what an operation of another kind leaves alone.
* `Operation.run_keepsOthers`: every answered request does.
* `OtherRecords R db db'`: the records of `db'` stand in the relation `R` to those of `db`.
* `OtherRecords.mapped`: the records rewritten one by one.
* `OtherRecords.filter_eq`: a query that keeps only what `R` leaves alone.
-/

namespace NexaHR

open Foundations

set_option autoImplicit false

/-! ## Kinds of operations -/

/-- The operation edits indicators. -/
def Operation.editsForm : Operation → Bool
  | createIndicator _ _ _ | updateIndicator _ _ | replaceIndicator _ _ _ _ | deleteIndicator _
  | reorderIndicators _ _ => true
  | _ => false

/-- The operation edits versions of the rules. -/
def Operation.editsSchemes : Operation → Bool
  | createScheme _ | activateScheme _ | deleteDraft _ => true
  | _ => false

/-- The operation edits accounts. -/
def Operation.editsAccounts : Operation → Bool
  | createUser _ | updateUser _ _ | deleteUser _ | createPersonnel _ _ | importPersonnel _
  | updatePersonnel _ _ => true
  | _ => false

/-- The operation edits people. -/
def Operation.editsPeople : Operation → Bool
  | createPersonnel _ _ | importPersonnel _ | updatePersonnel _ _ | updateOrgUnit _ _ => true
  | _ => false

/-- The operation edits units. -/
def Operation.editsUnits : Operation → Bool
  | createOrgUnit _ _ | updateOrgUnit _ _ | deleteOrgUnit _ => true
  | _ => false

structure KeepsOthers (op : Operation) (db db' : Database) : Prop where
  indicators : op.editsForm = true ∨ db'.indicators = db.indicators
  scoringSchemes : op.editsSchemes = true ∨ db'.scoringSchemes = db.scoringSchemes
  users : op.editsAccounts = true ∨ db'.users = db.users
  personnel : op.editsPeople = true ∨ db'.personnel = db.personnel
  orgUnits : op.editsUnits = true ∨ db'.orgUnits = db.orgUnits

section

variable {db db' : Database} {user : CurrentUser}

/-! ## Every operation -/

theorem updatePersonnel_form {env : Env} {personnelId : Nat} {payload : PersonnelUpdate}
    (h : updatePersonnel db env user personnelId payload = .ok db') :
    db'.indicators = db.indicators ∧ db'.scoringSchemes = db.scoringSchemes ∧ db'.orgUnits = db.orgUnits := by
  let req : Request := ⟨user.id, env, .updatePersonnel personnelId payload⟩
  obtain ⟨_, -, -, -, _, _, _, _, _, _, -, -, -, rfl⟩ := @updatePersonnel_ok _ _ req _ _ _ h
  exact ⟨rfl, rfl, rfl⟩

/-! ### The units -/

theorem insertOwnAccount_units (db : Database) (username : Option String) (personnelId : Nat) :
    (insertOwnAccount db username personnelId).orgUnits = db.orgUnits := by
  unfold insertOwnAccount
  split <;> rfl

theorem writeAccess_units (personnelId : Nat) (chain : Chain) (userId : Nat) :
    (writeAccess db personnelId chain userId).orgUnits = db.orgUnits := by
  unfold writeAccess
  split <;> rfl

theorem insertAccess_units (chain : Option Chain) (personnelId userId : Nat) :
    (insertAccess db chain personnelId userId).orgUnits = db.orgUnits := by
  unfold insertAccess
  split <;> rfl

theorem importRow_units (env : Env) (row : ImportRow) :
    (importRow env user db row).orgUnits = db.orgUnits :=
  (insertOwnAccount_units _ _ _).trans (insertAccess_units _ _ _)

theorem importRows_units (env : Env) (rows : List ImportRow) :
    (rows.foldl (importRow env user) db).orgUnits = db.orgUnits := by
  induction rows generalizing db with
  | nil => rfl
  | cons row rows ih =>
    rw [List.foldl_cons, ih]
    exact importRow_units env row

theorem openRecords_units (env : Env) (accesses : List EvaluationAccess) :
    (openRecords db env accesses).orgUnits = db.orgUnits := by
  have hrest := congrArg Database.orgUnits (openRecords_rest env accesses : _ = db)
  exact hrest

/-- A request writes one of these tables only when it is about it. -/
theorem Operation.run_keepsOthers {op : Operation} {env : Env} (h : op.run db env user = .ok db') :
    KeepsOthers op db db' := by
  cases op with
  | onRecord k op =>
    simp only [Operation.run, NexaHR.onRecord, bind_eq_ok, pure_eq_ok] at h
    obtain ⟨-, -, -, -, r, -, w, -, rfl⟩ := h
    exact ⟨Or.inr rfl, Or.inr rfl, Or.inr rfl, Or.inr rfl, Or.inr rfl⟩
  | createEvaluation personnelId =>
    obtain ⟨access, log, notifications, -, -, rfl⟩ := createEvaluation_ok h
    exact ⟨Or.inr (openRecords_form _ _).1, Or.inr (openRecords_form _ _).2.2,
      Or.inr (openRecords_users _ _), Or.inr (openRecords_personnel _ _), Or.inr (openRecords_units _ _)⟩
  | runBulkCreate cohort =>
    obtain ⟨log, notifications, rfl⟩ := runBulkCreate_ok h
    exact ⟨Or.inr (openRecords_form _ _).1, Or.inr (openRecords_form _ _).2.2,
      Or.inr (openRecords_users _ _), Or.inr (openRecords_personnel _ _), Or.inr (openRecords_units _ _)⟩
  | createUser payload =>
    simp only [Operation.run, NexaHR.createUser, bind_eq_ok, pure_eq_ok] at h
    obtain ⟨-, -, -, -, -, -, -, -, rfl⟩ := h
    exact ⟨Or.inr rfl, Or.inr rfl, Or.inl rfl, Or.inr rfl, Or.inr rfl⟩
  | updateUser userId payload =>
    simp only [Operation.run, NexaHR.updateUser, bind_eq_ok, pure_eq_ok] at h
    obtain ⟨-, -, u, -, -, -, -, -, -, -, -, -, rfl⟩ := h
    exact ⟨Or.inr rfl, Or.inr rfl, Or.inl rfl, Or.inr rfl, Or.inr rfl⟩
  | deleteUser userId =>
    simp only [Operation.run, NexaHR.deleteUser, bind_eq_ok, pure_eq_ok] at h
    obtain ⟨-, -, u, -, -, -, -, -, -, -, rfl⟩ := h
    exact ⟨Or.inr rfl, Or.inr rfl, Or.inl rfl, Or.inr rfl, Or.inr rfl⟩
  | upsertAccess personnelId payload =>
    simp only [Operation.run, NexaHR.upsertAccess, bind_eq_ok, pure_eq_ok] at h
    obtain ⟨-, -, person, -, -, -, -, -, -, -, -, -, -, -, chain, -, rfl⟩ := h
    exact ⟨Or.inr (writeAccess_form _ _ _).1, Or.inr (writeAccess_form _ _ _).2.2,
      Or.inr (writeAccess_users _ _ _), Or.inr (writeAccess_personnel _ _ _), Or.inr (writeAccess_units _ _ _)⟩
  | createPersonnel payload username =>
    simp only [Operation.run, NexaHR.createPersonnel, bind_eq_ok, pure_eq_ok] at h
    obtain ⟨-, -, -, -, -, -, -, -, rfl⟩ := h
    exact ⟨Or.inr (insertOwnAccount_form _ _ _).1, Or.inr (insertOwnAccount_form _ _ _).2.2,
      Or.inl rfl, Or.inl rfl, Or.inr (insertOwnAccount_units _ _ _)⟩
  | importPersonnel rows =>
    simp only [Operation.run, NexaHR.importPersonnel, bind_eq_ok, pure_eq_ok] at h
    obtain ⟨-, -, -, -, rfl⟩ := h
    exact ⟨Or.inr (importRows_form _ _).1, Or.inr (importRows_form _ _).2.2, Or.inl rfl, Or.inl rfl, Or.inr (importRows_units _ _)⟩
  | updatePersonnel personnelId payload =>
    exact ⟨Or.inr (updatePersonnel_form h).1, Or.inr (updatePersonnel_form h).2.1, Or.inl rfl, Or.inl rfl, Or.inr (updatePersonnel_form h).2.2⟩
  | createOrgUnit site name =>
    obtain ⟨-, _, rfl⟩ := createOrgUnit_ok h
    exact ⟨Or.inr rfl, Or.inr rfl, Or.inr rfl, Or.inr rfl, Or.inl rfl⟩
  | updateOrgUnit unitId payload =>
    obtain ⟨_, -, -, -, _, rfl⟩ := updateOrgUnit_ok h
    exact ⟨Or.inr rfl, Or.inr rfl, Or.inr rfl, Or.inl rfl, Or.inl rfl⟩
  | deleteOrgUnit unitId =>
    obtain ⟨_, -, -, _, rfl⟩ := deleteOrgUnit_ok h
    exact ⟨Or.inr rfl, Or.inr rfl, Or.inr rfl, Or.inr rfl, Or.inl rfl⟩
  | createPeriod name startsOn endsOn =>
    simp only [Operation.run, NexaHR.createPeriod, bind_eq_ok, pure_eq_ok] at h
    obtain ⟨-, -, -, -, -, -, rfl⟩ := h
    exact ⟨Or.inr rfl, Or.inr rfl, Or.inr rfl, Or.inr rfl, Or.inr rfl⟩
  | updatePeriod periodId name startsOn endsOn =>
    simp only [Operation.run, NexaHR.updatePeriod, bind_eq_ok, pure_eq_ok] at h
    obtain ⟨-, -, -, -, -, -, -, -, -, -, rfl⟩ := h
    exact ⟨Or.inr rfl, Or.inr rfl, Or.inr rfl, Or.inr rfl, Or.inr rfl⟩
  | closePeriod periodId force =>
    simp only [Operation.run, NexaHR.closePeriod, bind_eq_ok, pure_eq_ok] at h
    obtain ⟨-, -, -, -, -, -, -, -, rfl⟩ := h
    exact ⟨Or.inr rfl, Or.inr rfl, Or.inr rfl, Or.inr rfl, Or.inr rfl⟩
  | deletePeriod periodId =>
    simp only [Operation.run, NexaHR.deletePeriod, bind_eq_ok, pure_eq_ok] at h
    obtain ⟨-, -, -, -, -, -, -, -, rfl⟩ := h
    exact ⟨Or.inr rfl, Or.inr rfl, Or.inr rfl, Or.inr rfl, Or.inr rfl⟩
  | createIndicator «section» category description =>
    simp only [Operation.run, NexaHR.createIndicator, bind_eq_ok, pure_eq_ok] at h
    obtain ⟨-, -, rfl⟩ := h
    exact ⟨Or.inl rfl, Or.inr rfl, Or.inr rfl, Or.inr rfl, Or.inr rfl⟩
  | updateIndicator indicatorId payload =>
    simp only [Operation.run, NexaHR.updateIndicator, bind_eq_ok, pure_eq_ok] at h
    obtain ⟨-, -, i, -, -, -, rfl⟩ := h
    refine ⟨Or.inl rfl, Or.inr ?_, Or.inr ?_, Or.inr ?_, Or.inr ?_⟩ <;> split <;> rfl
  | replaceIndicator indicatorId category description reason =>
    simp only [Operation.run, NexaHR.replaceIndicator, bind_eq_ok, pure_eq_ok] at h
    obtain ⟨-, -, old, -, -, -, rfl⟩ := h
    exact ⟨Or.inl rfl, Or.inr rfl, Or.inr rfl, Or.inr rfl, Or.inr rfl⟩
  | deleteIndicator indicatorId =>
    simp only [Operation.run, NexaHR.deleteIndicator, bind_eq_ok, pure_eq_ok] at h
    obtain ⟨-, -, i, -, -, -, -, -, rfl⟩ := h
    exact ⟨Or.inl rfl, Or.inr rfl, Or.inr rfl, Or.inr rfl, Or.inr rfl⟩
  | reorderIndicators «section» orderedIds =>
    simp only [Operation.run, NexaHR.reorderIndicators, bind_eq_ok, pure_eq_ok] at h
    obtain ⟨-, -, -, -, rfl⟩ := h
    exact ⟨Or.inl rfl, Or.inr rfl, Or.inr rfl, Or.inr rfl, Or.inr rfl⟩
  | createScheme payload =>
    simp only [Operation.run, NexaHR.createScheme, bind_eq_ok] at h
    obtain ⟨-, -, -, -, h⟩ := h
    split at h
    · cases h
      exact ⟨Or.inr rfl, Or.inl rfl, Or.inr rfl, Or.inr rfl, Or.inr rfl⟩
    · cases h
  | activateScheme schemeId =>
    simp only [Operation.run, NexaHR.activateScheme, activate, bind_eq_ok, pure_eq_ok] at h
    obtain ⟨-, -, scheme, -, _, ⟨-, -, -, -, -, -, rfl⟩, rfl⟩ := h
    exact ⟨Or.inr rfl, Or.inl rfl, Or.inr rfl, Or.inr rfl, Or.inr rfl⟩
  | deleteDraft schemeId =>
    simp only [Operation.run, NexaHR.deleteDraft, bind_eq_ok, pure_eq_ok] at h
    obtain ⟨-, -, scheme, -, -, -, rfl⟩ := h
    exact ⟨Or.inr rfl, Or.inl rfl, Or.inr rfl, Or.inr rfl, Or.inr rfl⟩

end

/-! ## Other records -/

structure OtherRecords (R : EvaluationRecord → EvaluationRecord → Prop) (db db' : Database) : Prop where
  rest : { db' with evaluationRecords := db.evaluationRecords } = db
  seq : db'.evaluationRecords.seq = db.evaluationRecords.seq
  rows : List.Forall₂ R db.evaluationRecords.rows db'.evaluationRecords.rows

namespace OtherRecords

variable {R : EvaluationRecord → EvaluationRecord → Prop} {db db' : Database}

theorem eq_records (h : OtherRecords R db db') :
    db' = { db with evaluationRecords := db'.evaluationRecords } := by
  have hrest := congrArg (fun d => { d with evaluationRecords := db'.evaluationRecords }) h.rest
  exact hrest

theorem personnel_eq (h : OtherRecords R db db') : db'.personnel = db.personnel := by
  rw [h.eq_records]

theorem get?_rel (h : OtherRecords R db db') (hid : ∀ r r', R r r' → r'.id = r.id) (k : Nat) :
    Option.Rel R (db.evaluationRecords.get? k) (db'.evaluationRecords.get? k) := by
  apply find?_of_forall₂ h.rows
  intro r r' hr
  show (r'.id == k) = (r.id == k)
  rw [hid r r' hr]

theorem filter_eq (h : OtherRecords R db db') {keep : EvaluationRecord → Bool}
    (hsame : ∀ r r', R r r' → keep r' = keep r)
    (hkept : ∀ r ∈ db.evaluationRecords, ∀ r', R r r' → keep r = true → r' = r) :
    db'.evaluationRecords.rows.filter keep = db.evaluationRecords.rows.filter keep :=
  filter_eq_of_forall₂ h.rows hsame hkept

theorem mapped (db : Database) (f : EvaluationRecord → EvaluationRecord)
    (hid : ∀ r, HasId.id (f r) = HasId.id r) (hf : ∀ r, R r (f r)) :
    OtherRecords R db { db with evaluationRecords := db.evaluationRecords.map f hid } where
  rest := rfl
  seq := rfl
  rows := by
    show List.Forall₂ R db.evaluationRecords.rows (db.evaluationRecords.rows.map f)
    rw [List.forall₂_map_right_iff, List.forall₂_same]
    intro r _
    exact hf r

end OtherRecords

end NexaHR
