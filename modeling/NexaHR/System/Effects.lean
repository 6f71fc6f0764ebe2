import NexaHR.System.Changes

/-! # What a request does to the tables

Every answered request has one of twelve effects. `Effect` lists them with all that the endpoint
had checked about other tables, so that an invariant of the database is one short case per effect;
the audit log and the notifications are left open.

* `openRecords`: the drafts that are opened for a list of access rows.
* `Effect`: the effects, with the transition that was taken on each record.
* `effect_of_steps`: no request does anything else.
-/

namespace NexaHR

open Foundations

set_option autoImplicit false

def Database.withLogs (db : Database) (auditLog : List AuditLog) (notifications : List Notification) :
    Database :=
  { db with auditLog := auditLog, notifications := notifications }

/-! ## Opening -/

/-- A draft for each access row, stamped with the current form and rules. -/
def openRecords (db : Database) (env : Env) (accesses : List EvaluationAccess) : Database :=
  accesses.foldl
    (fun d access =>
      insertRecord d (openingOf db env (ensureFramework db).1) access
        (subjectBelongsToHr db access.personnelId))
    (ensureFramework db).2

/-- The access rows that a request opens records for. -/
def openedBy (db : Database) (req : Request) : List EvaluationAccess :=
  match req.operation with
  | .createEvaluation personnelId => (db.accessOf personnelId).toList
  | .runBulkCreate cohort => plannedAccess db (loadCohort db cohort)
  | _ => []

/-- The row `access` of `db` after its lowest seat was cleared. -/
def EvaluationAccess.cleared (access : EvaluationAccess) (user : CurrentUser) : EvaluationAccess :=
  { access with chain := access.chain.clearSupervisor, updatedByUserId := some user.id }

/-- An occupant of a seat is an active user whose role may act there. -/
def IsLive (db : Database) (seat : ChainSeat) (userId : Nat) : Prop :=
  ∃ u, db.users.get? userId = some u ∧ u.isActive = true ∧ mayActAt u.role (seatRole seat) = true

/-- Indicators that a score names stay, in their section. -/
def KeepsScored (db : Database) (indicators : Table Indicator) : Prop :=
  ∀ k i, db.indicators.get? k = some i → scoredCount db k ≠ 0 →
    ∃ i', indicators.get? k = some i' ∧ i'.section = i.section

/-- Versions of the rules that are no drafts stay, with their rules; one of them stays active. -/
structure KeepsSchemes (db : Database) (schemes : Table ScoringScheme) : Prop where
  rules : ∀ k scheme, db.scoringSchemes.get? k = some scheme → scheme.status ≠ .draft →
    ∃ scheme', schemes.get? k = some scheme' ∧ scheme'.status ≠ .draft ∧
      rulesFrom scheme' = rulesFrom scheme
  active : (∃ scheme ∈ db.scoringSchemes, scheme.status = .active) →
    ∃ scheme ∈ schemes, scheme.status = .active

/-! ## The effects -/

inductive Effect (db : Database) (req : Request) (user : CurrentUser) :
    (Nat → Option Action) → Database → Prop
  | onRecord (k : Nat) (op : RecordOperation) (hop : req.operation = .onRecord k op)
      (r : EvaluationRecord) (hget : db.evaluationRecords.get? k = some r) (w : Work)
      (hrun : op.run db req.env user r = .ok w)
      (hchange : Change db req user r (op.action user r) w.record)
      (comments : Table EvaluationComment) :
      Effect db req user (fun j => if k = j then op.action user r else none)
        { db with
          evaluationRecords := db.evaluationRecords.put w.record
          evaluationComments := comments }
  | opened (haccess : ∀ access ∈ openedBy db req, access ∈ db.evaluationAccess)
      (hseats : ∀ access ∈ openedBy db req, inactiveSeatLabels db access.chain = []) :
      Effect db req user (fun _ => none) (openRecords db req.env (openedBy db req))
  | userAdded (username : String) (fullName : Option String) (role : UserRole)
      (personnelId : Option Nat)
      (hperson : ∀ p, personnelId = some p → (db.personnel.get? p).isSome = true) :
      Effect db req user (fun _ => none) (insertUser db username fullName role personnelId)
  | userUpdated (userId : Nat) (payload : UserUpdate) (hop : req.operation = .updateUser userId payload)
      (u : User) (hget : db.users.get? userId = some u)
      (hseats : ensureSeatsAreKept db u payload = .ok ()) (hlink : ensureMayLink db u payload = .ok ()) :
      Effect db req user (fun _ => none) { db with users := db.users.put (u.updated payload) }
  | userDeleted (u : User) (hget : u ∈ db.users) (hfree : isReferenced db u.id = false) :
      Effect db req user (fun _ => none) { db with users := db.users.filter fun v => v.id ≠ u.id }
  | accessWritten (personnelId : Nat) (hperson : (db.personnel.get? personnelId).isSome = true)
      (chain : Chain)
      (hlive : ∀ seat userId, chain.seat seat = some userId → IsLive db seat userId)
      (hother : ∀ u ∈ db.users, u.id ∈ chain.occupants → u.personnelId ≠ some personnelId) :
      Effect db req user (fun _ => none) (writeAccess db personnelId chain user.id)
  | personAdded (p : PersonnelFields) (username : Option String) :
      Effect db req user (fun _ => none)
        (insertOwnAccount (insertPersonnel db p .active) username (insertPersonnel db p .active).personnel.seq)
  | imported (rows : List ImportRow)
      (hlive : ∀ row ∈ rows, ∀ chain, row.chain = some chain → ∀ seat userId,
        chain.seat seat = some userId → IsLive db seat userId) :
      Effect db req user (fun _ => none) (rows.foldl (importRow req.env user) db)
  | personUpdated (personnelId : Nat) (payload : PersonnelUpdate)
      (hop : req.operation = .updatePersonnel personnelId payload)
      (people : Table Personnel) (hseq : people.seq = db.personnel.seq)
      (hpeople : ∀ k, (people.get? k).isSome = (db.personnel.get? k).isSome)
      (records : Table EvaluationRecord)
      (hrecords : (departing db req).bind db.openRecordOf = none ∧ records = db.evaluationRecords ∨
        ∃ r w, (departing db req).bind db.openRecordOf = some r ∧
          records = db.evaluationRecords.put w ∧
          Change db req user r (some .cancelOnSeparation) w)
      (comments : Table EvaluationComment) (users : Table User)
      (husers : users = db.users ∨ (departing db req).isSome = true ∧
        ∃ account ∈ db.users, users = db.users.put { account with isActive := false })
      (accesses : Table EvaluationAccess)
      (haccesses : accesses = db.evaluationAccess ∨
        ∃ access ∈ db.evaluationAccess, accesses = db.evaluationAccess.put (access.cleared user)) :
      Effect db req user
        (fun j => if ((departing db req).bind db.openRecordOf).map EvaluationRecord.id = some j then
          some .cancelOnSeparation else none)
        { db with
          personnel := people
          evaluationRecords := records
          evaluationComments := comments
          users := users
          evaluationAccess := accesses }
  | elsewhere (orgUnits : Table OrgUnit) (people : Table Personnel)
      (hseq : people.seq = db.personnel.seq)
      (hpeople : ∀ k, (people.get? k).isSome = (db.personnel.get? k).isSome)
      (evaluationPeriods : Table EvaluationPeriod) :
      Effect db req user (fun _ => none)
        { db with orgUnits := orgUnits, personnel := people, evaluationPeriods := evaluationPeriods }
  | formEdited (indicators : Table Indicator) (hform : KeepsScored db indicators) :
      Effect db req user (fun _ => none) { db with indicators := indicators }
  | formPublished (hop : req.operation.changesMembership db = true) (indicators : Table Indicator)
      (hform : KeepsScored db indicators)
      (changeKind : String) (changeNote : Option String) :
      Effect db req user (fun _ => none)
        (publish { db with indicators := indicators } user changeKind changeNote)
  | schemesChanged (schemes : Table ScoringScheme) (hschemes : KeepsSchemes db schemes) :
      Effect db req user (fun _ => none) { db with scoringSchemes := schemes }

/-- The database that an answered request leaves, up to its logs. -/
def Leads (db : Database) (req : Request) (user : CurrentUser) (performed : Nat → Option Action)
    (db' : Database) : Prop :=
  ∃ d log notifications, Effect db req user performed d ∧ db' = d.withLogs log notifications

section

variable {db db' : Database} {req : Request} {user : CurrentUser}

/-! ## Records -/

theorem onRecord_leads {k : Nat} {op : RecordOperation} (hop : req.operation = .onRecord k op)
    (h : onRecord db req.env user k op = .ok db') :
    ∃ r, db.evaluationRecords.get? k = some r ∧
      Leads db req user (fun j => if k = j then op.action user r else none) db' := by
  unfold onRecord at h
  simp only [bind_eq_ok, pure_eq_ok, require_eq_ok] at h
  obtain ⟨_, hguard, -, -, r, hget, w, hrun, rfl⟩ := h
  have hid : r.id = k := Table.id_of_get? hget
  have hchange := op.run_change (by rw [hid]; exact hop) hguard hrun
  exact ⟨r, hget, _, _, _, Effect.onRecord k op hop r hget w hrun hchange _, rfl⟩

theorem accessOf_spec {personnelId : Nat} {access : EvaluationAccess}
    (h : db.accessOf personnelId = some access) :
    access ∈ db.evaluationAccess ∧ access.personnelId = personnelId :=
  ⟨List.mem_of_find?_eq_some h, by simpa using List.find?_some h⟩

theorem createEvaluation_ok {env : Env} {personnelId : Nat}
    (h : createEvaluation db env user personnelId = .ok db') :
    ∃ access log notifications, db.accessOf personnelId = some access ∧
      inactiveSeatLabels db access.chain = [] ∧
      db' = (openRecords db env [access]).withLogs log notifications := by
  unfold createEvaluation at h
  simp only [bind_eq_ok, pure_eq_ok, require_eq_ok, ensure_eq_ok] at h
  obtain ⟨-, -, _, -, -, -, access, haccess, -, hseats, -, -, -, -, rfl⟩ := h
  obtain ⟨-, rfl⟩ := accessOf_spec haccess
  exact ⟨access, _, _, haccess, hseats, rfl⟩

theorem createEvaluation_leads {personnelId : Nat}
    (hop : req.operation = .createEvaluation personnelId)
    (h : createEvaluation db req.env user personnelId = .ok db') :
    Leads db req user (fun _ => none) db' := by
  obtain ⟨access, log, notifications, haccess, hseats, rfl⟩ := createEvaluation_ok h
  have hopened : openedBy db req = [access] := by simp [openedBy, hop, haccess]
  have hmem := (accessOf_spec haccess).1
  have heffect : Effect db req user (fun _ => none) (openRecords db req.env (openedBy db req)) :=
    Effect.opened (by rw [hopened]; simpa using hmem) (by rw [hopened]; simpa using hseats)
  rw [hopened] at heffect
  exact ⟨_, _, _, heffect, rfl⟩

/-- The plan opens records for access rows whose seats are all active. -/
theorem mem_plannedAccess {people : List Personnel} {access : EvaluationAccess}
    (h : access ∈ plannedAccess db people) :
    access ∈ db.evaluationAccess ∧ inactiveSeatLabels db access.chain = [] := by
  unfold plannedAccess at h
  obtain ⟨person, hperson, haccess⟩ := List.mem_filterMap.mp h
  have hplan : planOne db person = .created := by simpa using (List.mem_filter.mp hperson).2
  refine ⟨(accessOf_spec haccess).1, ?_⟩
  unfold planOne at hplan
  split at hplan
  · cases hplan
  · split at hplan
    · cases hplan
    · rw [haccess] at hplan
      simp only at hplan
      split at hplan
      next hseats => exact hseats
      next => cases hplan

theorem runBulkCreate_ok {env : Env} {cohort : CohortFilter}
    (h : runBulkCreate db env user cohort = .ok db') :
    ∃ log notifications,
      db' = (openRecords db env (plannedAccess db (loadCohort db cohort))).withLogs log notifications := by
  unfold runBulkCreate at h
  simp only [bind_eq_ok, pure_eq_ok] at h
  obtain ⟨-, -, -, -, rfl⟩ := h
  exact ⟨_, _, rfl⟩

theorem runBulkCreate_leads {cohort : CohortFilter} (hop : req.operation = .runBulkCreate cohort)
    (h : runBulkCreate db req.env user cohort = .ok db') : Leads db req user (fun _ => none) db' := by
  obtain ⟨log, notifications, rfl⟩ := runBulkCreate_ok h
  have hopened : openedBy db req = plannedAccess db (loadCohort db cohort) := by
    simp [openedBy, hop]
  have heffect : Effect db req user (fun _ => none) (openRecords db req.env (openedBy db req)) := by
    refine Effect.opened ?_ ?_
    · intro access ha
      rw [hopened] at ha
      exact (mem_plannedAccess ha).1
    · intro access ha
      rw [hopened] at ha
      exact (mem_plannedAccess ha).2
  rw [hopened] at heffect
  exact ⟨_, _, _, heffect, rfl⟩

/-! ## Accounts -/

theorem createUser_leads {payload : UserCreate} (h : createUser db req.env user payload = .ok db') :
    Leads db req user (fun _ => none) db' := by
  unfold createUser at h
  simp only [bind_eq_ok, pure_eq_ok] at h
  obtain ⟨-, -, -, -, -, -, _, hlink, rfl⟩ := h
  refine ⟨_, _, _, Effect.userAdded payload.username (payload.fullName.filter (· ≠ "")) payload.role
    payload.personnelId ?_, rfl⟩
  intro p hp
  rw [hp] at hlink
  simp only [ensureNewLink, ensureLinkable, bind_eq_ok, ensure_eq_ok] at hlink
  obtain ⟨-, hperson, -⟩ := hlink
  exact hperson

theorem updateUser_leads {userId : Nat} {payload : UserUpdate}
    (hop : req.operation = .updateUser userId payload)
    (h : updateUser db req.env user userId payload = .ok db') :
    Leads db req user (fun _ => none) db' := by
  unfold updateUser at h
  simp only [bind_eq_ok, pure_eq_ok, require_eq_ok] at h
  obtain ⟨-, -, u, hget, -, -, _, hseats, _, hlink, -, -, rfl⟩ := h
  exact ⟨_, _, _, Effect.userUpdated userId payload hop u hget hseats hlink, rfl⟩

theorem deleteUser_leads {userId : Nat} (h : deleteUser db req.env user userId = .ok db') :
    Leads db req user (fun _ => none) db' := by
  unfold deleteUser at h
  simp only [bind_eq_ok, pure_eq_ok, require_eq_ok, ensure_eq_ok] at h
  obtain ⟨-, -, u, hget, -, -, -, -, -, hfree, rfl⟩ := h
  exact ⟨_, _, _, Effect.userDeleted u (Table.mem_of_get? hget) hfree, rfl⟩

/-! ## Access rows -/

theorem ensureActiveUserWithRole_ok {seat : ChainSeat} {userId : Nat} {x : Unit}
    (h : ensureActiveUserWithRole db seat userId = .ok x) : IsLive db seat userId := by
  unfold ensureActiveUserWithRole at h
  simp only [bind_eq_ok, require_eq_ok, ensure_eq_ok] at h
  obtain ⟨u, hu, hmay⟩ := h
  obtain ⟨hget, hactive⟩ := Option.filter_eq_some_iff.mp hu
  exact ⟨u, hget, hactive, hmay⟩

theorem ensureSeatIsLive_ok {seat : ChainSeat} {userId : Option Nat} {x : Unit}
    (h : ensureSeatIsLive db seat userId = .ok x) {k : Nat} (hk : userId = some k) :
    IsLive db seat k := by
  rw [hk] at h
  exact ensureActiveUserWithRole_ok h

theorem upsertAccess_leads {personnelId : Nat} {payload : EvaluationAccessUpsert}
    (h : upsertAccess db req.env user personnelId payload = .ok db') :
    Leads db req user (fun _ => none) db' := by
  unfold upsertAccess at h
  simp only [bind_eq_ok, pure_eq_ok, require_eq_ok] at h
  obtain ⟨-, -, person, hperson, -, -, _, hsupervisor, _, hdeputy, _, hceo, _, hother, chain, hchain,
    rfl⟩ := h
  obtain ⟨hcs, hcd, hcc⟩ := ensureChainStagesAreNotRedundant_ok hchain
  refine ⟨_, _, _, Effect.accessWritten personnelId (by rw [hperson]; rfl) chain ?_ ?_, rfl⟩
  · intro seat userId hseat
    cases seat with
    | unitSupervisor => exact ensureSeatIsLive_ok hsupervisor (hcs ▸ hseat)
    | deputy => exact ensureSeatIsLive_ok hdeputy (hcd ▸ hseat)
    | ceo =>
      have hid : chain.ceoUserId = userId := by simpa using hseat
      rw [← hid, hcc]
      exact ensureActiveUserWithRole_ok hceo
  · intro u hu hocc
    refine ensureEvaluatorsAreNotTheSubject_ok hother hu ?_
    obtain ⟨seat, hseat⟩ := Chain.mem_occupants.mp hocc
    rw [← hcs, ← hcd, ← hcc, ← hseat]
    cases seat <;> simp

/-! ## People -/

theorem createPersonnel_leads {payload : PersonnelFields} {username : Option String}
    (h : createPersonnel db req.env user payload username = .ok db') :
    Leads db req user (fun _ => none) db' := by
  unfold createPersonnel at h
  simp only [bind_eq_ok, pure_eq_ok] at h
  obtain ⟨-, -, -, -, -, -, -, -, rfl⟩ := h
  exact ⟨_, _, _, Effect.personAdded payload username, rfl⟩

theorem mem_validRows {above rows : List ImportRow} {row : ImportRow}
    (h : row ∈ validRows db above rows) : ∃ above', row.ok db above' = true := by
  induction rows generalizing above with
  | nil => cases h
  | cons first rows ih =>
    unfold validRows at h
    split at h
    next hok =>
      rcases List.mem_cons.mp h with rfl | h
      · exact ⟨above, hok⟩
      · exact ih h
    next => exact ih h

theorem isResolved_isLive {seat : ChainSeat} {userId : Option Nat}
    (h : isResolved db seat userId = true) {k : Nat} (hk : userId = some k) : IsLive db seat k := by
  unfold isResolved at h
  rw [hk, Option.all_some] at h
  cases hu : db.users.get? k with
  | none => simp [hu] at h
  | some u =>
    rw [hu, Option.any_some, Bool.and_eq_true] at h
    exact ⟨u, hu, h.1, h.2⟩

/-- The chain of a row has the row's seats. -/
theorem ImportRow.chain_eq {row : ImportRow} {chain : Chain} (h : row.chain = some chain) :
    chain.unitSupervisorUserId = row.unitSupervisorUserId ∧ chain.deputyUserId = row.deputyUserId ∧
      some chain.ceoUserId = row.ceoUserId := by
  unfold ImportRow.chain at h
  split at h
  · cases h
  next ceoUserId hceo =>
    split at h
    · split at h
      · split at h
        · cases h
          exact ⟨rfl, rfl, hceo.symm⟩
        · cases h
      · cases h
    · cases h

/-- A row without errors seats active users whose roles may act there. -/
theorem ImportRow.isLive_of_ok {row : ImportRow} {above : List ImportRow}
    (h : row.ok db above = true) {chain : Chain} (hchain : row.chain = some chain) {seat : ChainSeat}
    {userId : Nat} (hseat : chain.seat seat = some userId) : IsLive db seat userId := by
  obtain ⟨hsup, hdep, hceo⟩ := ImportRow.chain_eq hchain
  unfold ImportRow.ok at h
  simp only [Bool.and_eq_true] at h
  obtain ⟨⟨⟨⟨⟨-, hs⟩, hd⟩, hc⟩, -⟩, -⟩ := h
  cases seat with
  | unitSupervisor => exact isResolved_isLive hs (hsup ▸ hseat)
  | deputy => exact isResolved_isLive hd (hdep ▸ hseat)
  | ceo => exact isResolved_isLive hc (hceo ▸ hseat)

theorem importPersonnel_leads {rows : List ImportRow}
    (h : importPersonnel db req.env user rows = .ok db') : Leads db req user (fun _ => none) db' := by
  unfold importPersonnel at h
  simp only [bind_eq_ok, pure_eq_ok] at h
  obtain ⟨-, -, -, -, rfl⟩ := h
  refine ⟨_, _, _, Effect.imported (validRows db [] rows) ?_, rfl⟩
  intro row hrow chain hchain seat userId hseat
  obtain ⟨above, hok⟩ := mem_validRows hrow
  exact ImportRow.isLive_of_ok hok hchain hseat

/-- The open record of the person is cancelled, whatever else was written before. -/
theorem cancelOnDeparture_ok {person : Personnel} {d : Database}
    (h : cancelOnDeparture db req.env user person = .ok d) (db₀ : Database) :
    db.openRecordOf person.id = none ∧ d = db ∨
      ∃ r w comments log notifications, db.openRecordOf person.id = some r ∧
        Change db₀ req user r (some .cancelOnSeparation) w ∧
        d = ({ db with
          evaluationRecords := db.evaluationRecords.put w
          evaluationComments := comments } : Database).withLogs log notifications := by
  unfold cancelOnDeparture at h
  split at h
  next hnone =>
    cases h
    exact Or.inl ⟨hnone, rfl⟩
  next r hsome =>
    simp only [bind_eq_ok, pure_eq_ok] at h
    obtain ⟨w, hw, rfl⟩ := h
    obtain ⟨hblock, hself, -, w₀, hw₀, -, hrecord, -, -⟩ := applyTransition_ok hw
    cases hw₀
    refine Or.inr ⟨r, w.record, _, _, _, hsome, ?_, rfl⟩
    rw [hrecord]
    exact Change.moved .cancelOnSeparation hblock (Or.inl (hself rfl)) (fun hto => by cases hto) _
      (Prepared.plain rfl (by decide))

theorem closeAccount_eq (db : Database) (env : Env) (user : CurrentUser) (person : Personnel) :
    ∃ users log notifications,
      (users = db.users ∨ ∃ account ∈ db.users, users = db.users.put { account with isActive := false }) ∧
      closeAccount db env user person =
        ({ db with users := users } : Database).withLogs log notifications := by
  unfold closeAccount
  split
  · exact ⟨db.users, db.auditLog, db.notifications, Or.inl rfl, rfl⟩
  next account haccount =>
    have hmem : account ∈ db.users := List.mem_of_find?_eq_some haccount
    cases account.isActive with
    | true => exact ⟨_, _, _, Or.inr ⟨account, hmem, rfl⟩, rfl⟩
    | false => exact ⟨db.users, db.auditLog, _, Or.inl rfl, rfl⟩

theorem clearManagersSupervisor_eq (db : Database) (env : Env) (user : CurrentUser)
    (person : Personnel) :
    ∃ accesses log,
      (accesses = db.evaluationAccess ∨
        ∃ access ∈ db.evaluationAccess, accesses = db.evaluationAccess.put (access.cleared user)) ∧
      clearManagersSupervisor db env user person =
        ({ db with evaluationAccess := accesses } : Database).withLogs log db.notifications := by
  unfold clearManagersSupervisor
  split
  · exact ⟨db.evaluationAccess, db.auditLog, Or.inl rfl, rfl⟩
  next access haccess =>
    have hmem : access ∈ db.evaluationAccess := List.mem_of_find?_eq_some haccess
    split
    · exact ⟨_, _, Or.inr ⟨access, hmem, rfl⟩, rfl⟩
    · exact ⟨db.evaluationAccess, db.auditLog, Or.inl rfl, rfl⟩

/-- What leaving does to the records and the accounts. -/
theorem closeOutIfLeaving_ok {leaving : Bool} {person : Personnel} {d : Database}
    (h : closeOutIfLeaving db req.env user leaving person = .ok d) (db₀ : Database) :
    ∃ records comments users log notifications,
      ((if leaving then db.openRecordOf person.id else none) = none ∧ records = db.evaluationRecords ∨
        ∃ r w, (if leaving then db.openRecordOf person.id else none) = some r ∧
          records = db.evaluationRecords.put w ∧ Change db₀ req user r (some .cancelOnSeparation) w) ∧
      (users = db.users ∨ leaving = true ∧
        ∃ account ∈ db.users, users = db.users.put { account with isActive := false }) ∧
      d = ({ db with
        evaluationRecords := records
        evaluationComments := comments
        users := users } : Database).withLogs log notifications := by
  unfold closeOutIfLeaving at h
  cases leaving with
  | false =>
    cases h
    exact ⟨_, _, _, db.auditLog, db.notifications, Or.inl ⟨rfl, rfl⟩, Or.inl rfl, rfl⟩
  | true =>
    rw [if_pos rfl] at h
    unfold closeOutDeparture at h
    simp only [bind_eq_ok, pure_eq_ok] at h
    obtain ⟨cancelled, hcancelled, rfl⟩ := h
    obtain ⟨users, log, notifications, husers, hclose⟩ :=
      closeAccount_eq cancelled req.env user person
    have husers' : users = cancelled.users ∨ true = true ∧
        ∃ account ∈ cancelled.users, users = cancelled.users.put { account with isActive := false } := by
      rcases husers with rfl | haccount
      · exact Or.inl rfl
      · exact Or.inr ⟨rfl, haccount⟩
    rcases cancelOnDeparture_ok hcancelled db₀ with
      ⟨hnone, rfl⟩ | ⟨r, w, comments, log', notifications', hsome, hchange, rfl⟩
    · exact ⟨_, _, users, log, notifications, Or.inl ⟨hnone, rfl⟩, husers', hclose⟩
    · exact ⟨_, comments, users, log, notifications, Or.inr ⟨r, w, hsome, rfl, hchange⟩, husers', hclose⟩

theorem get?_put_isSome {α : Type} [HasId α] (t : Table α) (b : α) (k : Nat) :
    ((t.put b).get? k).isSome = (t.get? k).isSome := by
  rw [Table.put, Table.get?_map, Option.isSome_map]

/-- What an update of a person wrote: the person, and for somebody who leaves an open record and an account. -/
theorem updatePersonnel_ok {personnelId : Nat} {payload : PersonnelUpdate}
    (h : updatePersonnel db req.env user personnelId payload = .ok db') :
    ∃ person, db.personnel.get? personnelId = some person ∧
      ¬(person.isLeaving payload = true ∧ payload.separationReason.join = none) ∧
      (person.updated req.env payload).contractStartDate < (person.updated req.env payload).contractEndDate ∧
      ∃ records comments users accesses log notifications,
        ((if person.isLeaving payload then db.openRecordOf person.id else none) = none ∧
            records = db.evaluationRecords ∨
          ∃ r w, (if person.isLeaving payload then db.openRecordOf person.id else none) = some r ∧
            records = db.evaluationRecords.put w ∧ Change db req user r (some .cancelOnSeparation) w) ∧
        (users = db.users ∨ person.isLeaving payload = true ∧
          ∃ account ∈ db.users, users = db.users.put { account with isActive := false }) ∧
        (accesses = db.evaluationAccess ∨
          ∃ access ∈ db.evaluationAccess, accesses = db.evaluationAccess.put (access.cleared user)) ∧
        db' = ({ db with
          personnel := db.personnel.put (person.updated req.env payload)
          evaluationRecords := records
          evaluationComments := comments
          users := users
          evaluationAccess := accesses } : Database).withLogs log notifications := by
  unfold updatePersonnel at h
  simp only [bind_eq_ok, pure_eq_ok, require_eq_ok, ensure_eq_ok] at h
  obtain ⟨-, -, person, hget, -, -, -, -, -, hreason, -, horder, closed, hclosed, rfl⟩ := h
  obtain ⟨records, comments, users, log, notifications, hrecords, husers, rfl⟩ :=
    closeOutIfLeaving_ok hclosed db
  obtain ⟨accesses, log', haccesses, hclear⟩ :=
    clearManagersSupervisor_eq _ req.env user (person.updated req.env payload)
  rw [hclear]
  exact ⟨person, hget, hreason, horder, records, comments, users, accesses, log', notifications, hrecords, husers,
    haccesses, rfl⟩

theorem updatePersonnel_leads {personnelId : Nat} {payload : PersonnelUpdate}
    (hop : req.operation = .updatePersonnel personnelId payload)
    (h : updatePersonnel db req.env user personnelId payload = .ok db') :
    Leads db req user
      (fun j => if ((departing db req).bind db.openRecordOf).map EvaluationRecord.id = some j then
        some .cancelOnSeparation else none) db' := by
  obtain ⟨person, hget, -, -, records, comments, users, accesses, _, _, hrecords, husers, haccesses, rfl⟩ :=
    updatePersonnel_ok h
  have hid : person.id = personnelId := Table.id_of_get? hget
  have hdeparting : departing db req = if person.isLeaving payload then some person.id else none := by
    simp only [departing, hop, hget, Option.filter_some]
    cases person.isLeaving payload <;> rfl
  have hpeople : ∀ k, ((db.personnel.put (person.updated req.env payload)).get? k).isSome =
      (db.personnel.get? k).isSome := get?_put_isSome _ _
  have hopenRecord : (departing db req).bind db.openRecordOf =
      if person.isLeaving payload then db.openRecordOf person.id else none := by
    rw [hdeparting]
    cases person.isLeaving payload <;> rfl
  have hleft : person.isLeaving payload = true → (departing db req).isSome = true := by
    intro hleaving
    rw [hdeparting, if_pos hleaving]
    rfl
  refine ⟨_, _, _, Effect.personUpdated personnelId payload hop
    (db.personnel.put (person.updated req.env payload)) rfl hpeople records ?_ comments users ?_ accesses
    haccesses, rfl⟩
  · rw [hopenRecord]
    exact hrecords
  · rcases husers with husers | ⟨hleaving, haccount⟩
    · exact Or.inl husers
    · exact Or.inr ⟨hleft hleaving, haccount⟩

/-! ## Units and periods -/

theorem elsewhere_leads {orgUnits : Table OrgUnit} {people : Table Personnel}
    {evaluationPeriods : Table EvaluationPeriod} {log : List AuditLog}
    {notifications : List Notification}
    (h : db' = ({ db with
      orgUnits := orgUnits
      personnel := people
      evaluationPeriods := evaluationPeriods } : Database).withLogs log notifications)
    (hseq : people.seq = db.personnel.seq)
    (hpeople : ∀ k, (people.get? k).isSome = (db.personnel.get? k).isSome) :
    Leads db req user (fun _ => none) db' :=
  ⟨_, _, _, Effect.elsewhere orgUnits people hseq hpeople evaluationPeriods, h⟩

theorem createOrgUnit_leads {site : Option String} {name : String}
    (h : createOrgUnit db req.env user site name = .ok db') : Leads db req user (fun _ => none) db' := by
  obtain ⟨-, _, rfl⟩ := createOrgUnit_ok h
  exact elsewhere_leads rfl rfl fun _ => rfl

theorem updateOrgUnit_leads {unitId : Nat} {payload : OrgUnitUpdate}
    (h : updateOrgUnit db req.env user unitId payload = .ok db') :
    Leads db req user (fun _ => none) db' := by
  obtain ⟨_, -, -, -, _, rfl⟩ := updateOrgUnit_ok h
  refine elsewhere_leads rfl rfl ?_
  intro k
  rw [Table.get?_map, Option.isSome_map]

theorem deleteOrgUnit_leads {unitId : Nat} (h : deleteOrgUnit db req.env user unitId = .ok db') :
    Leads db req user (fun _ => none) db' := by
  obtain ⟨_, -, -, _, rfl⟩ := deleteOrgUnit_ok h
  exact elsewhere_leads rfl rfl fun _ => rfl

theorem createPeriod_leads {name : String} {startsOn endsOn : Nat}
    (h : createPeriod db req.env user name startsOn endsOn = .ok db') :
    Leads db req user (fun _ => none) db' := by
  unfold createPeriod at h
  simp only [bind_eq_ok, pure_eq_ok] at h
  obtain ⟨-, -, -, -, -, -, rfl⟩ := h
  exact elsewhere_leads rfl rfl fun _ => rfl

theorem updatePeriod_leads {periodId : Nat} {name : Option String} {startsOn endsOn : Option Nat}
    (h : updatePeriod db req.env user periodId name startsOn endsOn = .ok db') :
    Leads db req user (fun _ => none) db' := by
  unfold updatePeriod at h
  simp only [bind_eq_ok, pure_eq_ok] at h
  obtain ⟨-, -, -, -, _, -, -, -, -, -, rfl⟩ := h
  exact elsewhere_leads rfl rfl fun _ => rfl

theorem closePeriod_leads {periodId : Nat} {force : Bool}
    (h : closePeriod db req.env user periodId force = .ok db') :
    Leads db req user (fun _ => none) db' := by
  unfold closePeriod at h
  simp only [bind_eq_ok, pure_eq_ok] at h
  obtain ⟨-, -, _, -, -, -, -, -, rfl⟩ := h
  exact elsewhere_leads rfl rfl fun _ => rfl

theorem deletePeriod_leads {periodId : Nat} (h : deletePeriod db req.env user periodId = .ok db') :
    Leads db req user (fun _ => none) db' := by
  unfold deletePeriod at h
  simp only [bind_eq_ok, pure_eq_ok] at h
  obtain ⟨-, -, -, -, _, -, -, -, rfl⟩ := h
  exact elsewhere_leads rfl rfl fun _ => rfl

/-! ## The form -/

theorem keepsScored_insert (mk : Nat → Indicator) (hmk : ∀ n, HasId.id (mk n) = n) :
    KeepsScored db (db.indicators.insert mk hmk) := by
  intro k i hget _
  exact ⟨i, Table.get?_insert_of_get? hmk hget, rfl⟩

theorem keepsScored_map (f : Indicator → Indicator) (hf : ∀ i, HasId.id (f i) = HasId.id i)
    (hsection : ∀ i ∈ db.indicators, (f i).section = i.section) :
    KeepsScored db (db.indicators.map f hf) := by
  intro k i hget _
  refine ⟨f i, ?_, hsection i (Table.mem_of_get? hget)⟩
  rw [Table.get?_map, hget]
  rfl

/-- An indicator that is rewritten stays in its section. -/
theorem keepsScored_put {i i' : Indicator} (hi : i ∈ db.indicators) (hid : i'.id = i.id)
    (hsection : i'.section = i.section) : KeepsScored db (db.indicators.put i') := by
  refine keepsScored_map _ _ ?_
  intro j hj
  by_cases hj' : HasId.id j = HasId.id i'
  · have hji : j = i := Table.eq_of_id_eq hj hi (hj'.trans hid)
    rw [if_pos hj', hsection, hji]
  · rw [if_neg hj']

/-- A new version of the form was published over the indicators. -/
def Published (db : Database) (user : CurrentUser) (db' : Database) : Prop :=
  ∃ indicators changeKind changeNote log notifications, KeepsScored db indicators ∧
    db' = (publish { db with indicators := indicators } user changeKind changeNote).withLogs log
      notifications

theorem published_leads (hop : req.operation.changesMembership db = true) (h : Published db user db') :
    Leads db req user (fun _ => none) db' := by
  obtain ⟨indicators, changeKind, changeNote, log, notifications, hform, rfl⟩ := h
  exact ⟨_, _, _, Effect.formPublished hop indicators hform changeKind changeNote, rfl⟩

theorem createIndicator_published {env : Env} {«section» : IndicatorSection}
    {category description : String}
    (h : createIndicator db env user «section» category description = .ok db') :
    Published db user db' := by
  unfold createIndicator at h
  simp only [bind_eq_ok, pure_eq_ok] at h
  obtain ⟨-, -, rfl⟩ := h
  exact ⟨_, "indicator_added", none, _, _, keepsScored_insert _ fun _ => rfl, rfl⟩

/-- An update publishes exactly when it switches the indicator on or off. -/
theorem updateIndicator_ok {env : Env} {indicatorId : Nat} {payload : IndicatorUpdate}
    (h : updateIndicator db env user indicatorId payload = .ok db') :
    if (Operation.updateIndicator indicatorId payload).changesMembership db = true then
      Published db user db'
    else ∃ indicators log, KeepsScored db indicators ∧
      db' = ({ db with indicators := indicators } : Database).withLogs log db.notifications := by
  unfold updateIndicator at h
  simp only [bind_eq_ok, pure_eq_ok, require_eq_ok] at h
  obtain ⟨-, -, i, hget, -, -, rfl⟩ := h
  have hform : KeepsScored db (db.indicators.put (i.updated payload)) :=
    keepsScored_put (Table.mem_of_get? hget) rfl rfl
  simp only [Operation.changesMembership, hget, Option.any_some, decide_eq_true_eq, ne_eq, ite_not]
  split
  · exact ⟨_, _, hform, rfl⟩
  · exact ⟨_, _, none, _, _, hform, rfl⟩

theorem replaceIndicator_published {env : Env} {indicatorId : Nat}
    {category description reason : String}
    (h : replaceIndicator db env user indicatorId category description reason = .ok db') :
    Published db user db' := by
  unfold replaceIndicator at h
  simp only [bind_eq_ok, pure_eq_ok, require_eq_ok] at h
  obtain ⟨-, -, old, hget, -, -, rfl⟩ := h
  have hretired : KeepsScored db (db.indicators.put { old with isActive := false }) :=
    keepsScored_put (Table.mem_of_get? hget) rfl rfl
  refine ⟨(db.indicators.put { old with isActive := false }).insert _ fun _ => rfl,
    "indicator_replaced", some reason, _, _, ?_, rfl⟩
  intro k i hi hscored
  obtain ⟨i', hi', hsection⟩ := hretired k i hi hscored
  exact ⟨i', Table.get?_insert_of_get? _ hi', hsection⟩

theorem deleteIndicator_published {env : Env} {indicatorId : Nat}
    (h : deleteIndicator db env user indicatorId = .ok db') : Published db user db' := by
  unfold deleteIndicator at h
  simp only [bind_eq_ok, pure_eq_ok, require_eq_ok, ensure_eq_ok] at h
  obtain ⟨-, -, i, hget, -, hunscored, -, -, rfl⟩ := h
  have hid : i.id = indicatorId := Table.id_of_get? hget
  refine ⟨db.indicators.filter fun j => j.id ≠ i.id, "indicator_deleted", none, _, _, ?_, rfl⟩
  intro k j hj hscored
  have hjk : j.id = k := Table.id_of_get? hj
  have hne : j.id ≠ i.id := by
    rw [hjk, hid]
    rintro rfl
    exact hscored hunscored
  refine ⟨j, ?_, rfl⟩
  rw [Table.get?_filter, hj, Option.filter_some]
  simp [hne]

theorem updateIndicator_leads {indicatorId : Nat} {payload : IndicatorUpdate}
    (hop : req.operation = .updateIndicator indicatorId payload)
    (h : updateIndicator db req.env user indicatorId payload = .ok db') :
    Leads db req user (fun _ => none) db' := by
  have hok := updateIndicator_ok h
  split at hok
  next hchanges =>
    rw [← hop] at hchanges
    exact published_leads hchanges hok
  next =>
    obtain ⟨indicators, log, hform, rfl⟩ := hok
    exact ⟨_, _, _, Effect.formEdited indicators hform, rfl⟩

theorem reorderIndicators_leads {«section» : IndicatorSection} {orderedIds : List Nat}
    (h : reorderIndicators db req.env user «section» orderedIds = .ok db') :
    Leads db req user (fun _ => none) db' := by
  unfold reorderIndicators at h
  simp only [bind_eq_ok, pure_eq_ok] at h
  obtain ⟨-, -, -, -, rfl⟩ := h
  refine ⟨_, _, _, Effect.formEdited _ (keepsScored_map _ (reordered_id «section» orderedIds) ?_), rfl⟩
  intro i _
  unfold reordered
  split <;> rfl

/-! ## The rules -/

theorem createScheme_leads {payload : SchemeInput} (h : createScheme db req.env user payload = .ok db') :
    Leads db req user (fun _ => none) db' := by
  unfold createScheme at h
  simp only [bind_eq_ok] at h
  obtain ⟨-, -, -, -, h⟩ := h
  split at h
  next hne =>
    rw [pure_eq_ok] at h
    subst h
    refine ⟨_, _, _, Effect.schemesChanged (db.scoringSchemes.insert _
      (newScheme_id payload hne (nextVersion db) user.id)) ⟨?_, ?_⟩, rfl⟩
    · intro k scheme hget hdraft
      exact ⟨scheme, Table.get?_insert_of_get? _ hget, hdraft, rfl⟩
    · rintro ⟨scheme, hscheme, hactive⟩
      exact ⟨scheme, (Table.mem_insert _).mpr (Or.inl hscheme), hactive⟩
  next => cases h

theorem switchActive_spec (schemeId actorUserId : Nat) (scheme : ScoringScheme) :
    rulesFrom (switchActive schemeId actorUserId scheme) = rulesFrom scheme ∧
      (scheme.status ≠ .draft → (switchActive schemeId actorUserId scheme).status ≠ .draft) := by
  unfold switchActive
  split
  · exact ⟨rfl, fun _ h => by cases h⟩
  · split
    · exact ⟨rfl, fun _ h => by cases h⟩
    · exact ⟨rfl, id⟩

theorem activateScheme_leads {schemeId : Nat} (h : activateScheme db req.env user schemeId = .ok db') :
    Leads db req user (fun _ => none) db' := by
  unfold activateScheme activate at h
  simp only [bind_eq_ok, pure_eq_ok, require_eq_ok] at h
  obtain ⟨-, -, scheme, hget, _, ⟨-, -, -, -, -, -, rfl⟩, rfl⟩ := h
  refine ⟨_, _, _, Effect.schemesChanged (db.scoringSchemes.map _ _) ⟨?_, ?_⟩, rfl⟩
  · intro k other hother hdraft
    obtain ⟨hrules, hstatus⟩ := switchActive_spec scheme.id user.id other
    refine ⟨_, ?_, hstatus hdraft, hrules⟩
    rw [Table.get?_map, hother]
    rfl
  · intro _
    refine ⟨_, Table.mem_map.mpr ⟨scheme, Table.mem_of_get? hget, rfl⟩, ?_⟩
    unfold switchActive
    rw [if_pos rfl]

theorem deleteDraft_leads {schemeId : Nat} (h : deleteDraft db req.env user schemeId = .ok db') :
    Leads db req user (fun _ => none) db' := by
  unfold deleteDraft at h
  simp only [bind_eq_ok, pure_eq_ok, require_eq_ok, ensure_eq_ok] at h
  obtain ⟨-, -, scheme, hget, -, hdraft, rfl⟩ := h
  have hmem := Table.mem_of_get? hget
  have hkept : ∀ other ∈ db.scoringSchemes, other.status ≠ .draft → other.id ≠ scheme.id := by
    intro other hother hnot hid
    rw [Table.eq_of_id_eq hother hmem hid] at hnot
    exact hnot hdraft
  refine ⟨_, _, _, Effect.schemesChanged
    (db.scoringSchemes.filter fun other => other.id ≠ scheme.id) ⟨?_, ?_⟩, rfl⟩
  · intro k other hother hnot
    refine ⟨other, ?_, hnot, rfl⟩
    rw [Table.get?_filter, hother, Option.filter_some]
    simp [hkept other (Table.mem_of_get? hother) hnot]
  · rintro ⟨other, hother, hactive⟩
    have hne := hkept other hother (by rw [hactive]; decide)
    exact ⟨other, Table.mem_filter.mpr ⟨hother, by simpa using hne⟩, hactive⟩

/-! ## Every request -/

theorem performedOn_onRecord {k : Nat} {op : RecordOperation} {r : EvaluationRecord}
    (hop : req.operation = .onRecord k op) (huser : getCurrentUser db req.userId = .ok user)
    (hget : db.evaluationRecords.get? k = some r) :
    performedOn db req = fun j => if k = j then op.action user r else none := by
  obtain ⟨u, hu, -, rfl⟩ := getCurrentUser_ok huser
  have huserOf : userOf db req = some u.toCurrent := by
    unfold userOf
    rw [hu]
    rfl
  funext j
  unfold performedOn
  rw [hop]
  by_cases hj : k = j
  · subst hj
    simp [huserOf, hget]
  · simp [hj]

theorem performedOn_updatePersonnel {personnelId : Nat} {payload : PersonnelUpdate}
    (hop : req.operation = .updatePersonnel personnelId payload) :
    performedOn db req = fun j =>
      if ((departing db req).bind db.openRecordOf).map EvaluationRecord.id = some j then
        some .cancelOnSeparation else none := by
  funext j
  unfold performedOn
  rw [hop]

theorem performedOn_none (hrecord : ∀ k op, req.operation ≠ .onRecord k op)
    (hperson : departing db req = none) : performedOn db req = fun _ => none := by
  funext j
  unfold performedOn
  split
  next k op hop => exact absurd hop (hrecord k op)
  next => simp [hperson]

/-- The requests that take no transition. -/
theorem quiet_leads {op : Operation} (hop : req.operation = op)
    (hrecord : ∀ k o, op ≠ .onRecord k o) (hperson : ∀ k p, op ≠ .updatePersonnel k p)
    (h : op.run db req.env user = .ok db') : Leads db req user (fun _ => none) db' := by
  cases op with
  | onRecord k o => exact absurd rfl (hrecord k o)
  | createEvaluation personnelId => exact createEvaluation_leads hop h
  | runBulkCreate cohort => exact runBulkCreate_leads hop h
  | createUser payload => exact createUser_leads h
  | updateUser userId payload => exact updateUser_leads hop h
  | deleteUser userId => exact deleteUser_leads h
  | upsertAccess personnelId payload => exact upsertAccess_leads h
  | createPersonnel payload username => exact createPersonnel_leads h
  | importPersonnel rows => exact importPersonnel_leads h
  | updatePersonnel personnelId payload => exact absurd rfl (hperson personnelId payload)
  | createOrgUnit site name => exact createOrgUnit_leads h
  | updateOrgUnit unitId payload => exact updateOrgUnit_leads h
  | deleteOrgUnit unitId => exact deleteOrgUnit_leads h
  | createPeriod name startsOn endsOn => exact createPeriod_leads h
  | updatePeriod periodId name startsOn endsOn => exact updatePeriod_leads h
  | closePeriod periodId force => exact closePeriod_leads h
  | deletePeriod periodId => exact deletePeriod_leads h
  | createIndicator «section» category description =>
    exact published_leads (by rw [hop]; rfl) (createIndicator_published h)
  | updateIndicator indicatorId payload => exact updateIndicator_leads hop h
  | replaceIndicator indicatorId category description reason =>
    exact published_leads (by rw [hop]; rfl) (replaceIndicator_published h)
  | deleteIndicator indicatorId => exact published_leads (by rw [hop]; rfl) (deleteIndicator_published h)
  | reorderIndicators «section» orderedIds => exact reorderIndicators_leads h
  | createScheme payload => exact createScheme_leads h
  | activateScheme schemeId => exact activateScheme_leads h
  | deleteDraft schemeId => exact deleteDraft_leads h

/-- No request does anything else. -/
theorem effect_of_steps (h : Steps db req db') :
    ∃ user, getCurrentUser db req.userId = .ok user ∧ Leads db req user (performedOn db req) db' := by
  unfold Steps step at h
  rw [bind_eq_ok] at h
  obtain ⟨user, huser, h⟩ := h
  refine ⟨user, huser, ?_⟩
  by_cases hrecord : ∃ k op, req.operation = .onRecord k op
  · obtain ⟨k, op, hop⟩ := hrecord
    rw [hop] at h
    obtain ⟨r, hget, hleads⟩ := onRecord_leads hop h
    rw [performedOn_onRecord hop huser hget]
    exact hleads
  · by_cases hperson : ∃ personnelId payload, req.operation = .updatePersonnel personnelId payload
    · obtain ⟨personnelId, payload, hop⟩ := hperson
      rw [hop] at h
      rw [performedOn_updatePersonnel hop]
      exact updatePersonnel_leads hop h
    · have hstays : departing db req = none := by
        unfold departing
        split
        next personnelId payload hop => exact absurd ⟨personnelId, payload, hop⟩ hperson
        next => rfl
      rw [performedOn_none (fun k op hop => hrecord ⟨k, op, hop⟩) hstays]
      exact quiet_leads rfl (fun k op hop => hrecord ⟨k, op, hop⟩)
        (fun k p hop => hperson ⟨k, p, hop⟩) h

end

end NexaHR
