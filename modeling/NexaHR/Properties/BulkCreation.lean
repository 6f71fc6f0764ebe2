import NexaHR.Foundations.TwoStates
import NexaHR.System.Installation
import NexaHR.System.OpenRecords

/-! # A cohort and its scorers

HR opens records for a cohort, a scorer opens one by hand. Both ask for an active person with active seats
and without an open record, but only the scorer's own request asks for the scorer's role.

* `newRecords`: the records that a later state has more.
* `OpensAlike`: both ways open a record for a person, or neither, and the same one.
* `ScorerUnfit`: the scorer has lost the role of the seat.
* `bulk_creation_agrees`: the two ways differ exactly there; a cohort is opened as planned, and once.
-/

namespace NexaHR

open Foundations

set_option autoImplicit false

/-- The records of a later state that were not there. -/
def newRecords (db db' : Database) : List EvaluationRecord :=
  db'.evaluationRecords.rows.filter fun r => (db.evaluationRecords.get? r.id).isNone

/-- The scorer that the access row of the person names opens a record by hand. -/
def OpensByHand (db : Database) (env : Env) (personnelId : Nat) (db' : Database) : Prop :=
  ∃ access scorer, db.accessOf personnelId = some access ∧ access.chain.scorer = some scorer ∧
    Steps db ⟨scorer, env, .createEvaluation personnelId⟩ db'

/-- The same draft under another key: the same seats, form, rules, period and times. -/
def SameButKey (r r' : EvaluationRecord) : Prop :=
  r' = { r with id := r'.id, evaluationCode := r'.evaluationCode }

/-- The cohort gets a draft for the person exactly when the scorer could open one, and the same one. -/
structure OpensAlike (db : Database) (env : Env) (cohort : CohortFilter) (person : Personnel) : Prop where
  together : (∃ r ∈ newRecords db (execute db env cohort).1,
      r.subjectPersonnelId = person.id ∧ r.status = .draft) ↔ ∃ db', OpensByHand db env person.id db'
  alike : ∀ r ∈ newRecords db (execute db env cohort).1, r.subjectPersonnelId = person.id →
    ∀ db', OpensByHand db env person.id db' → ∃ r', newRecords db db' = [r'] ∧ SameButKey r r'

/-- What the report says of a record. -/
def PersonPlan.record (p : PersonPlan) : Nat × Option Nat × Option String :=
  (p.personnelId, p.evaluationId, p.evaluationCode)

def EvaluationRecord.reported (r : EvaluationRecord) : Nat × Option Nat × Option String :=
  (r.subjectPersonnelId, some r.id, some r.evaluationCode)

/-- The plan without the record, which is not known before. -/
def PersonPlan.announced (p : PersonPlan) : Nat × String × String × BulkOutcome × Option Nat :=
  (p.personnelId, p.fullName, p.orgUnit, p.outcome, p.assigneeUserId)

/-- The real run does what the dry run announces, and reports the records that are new. -/
structure CreatesAsPlanned (db : Database) (env : Env) (cohort : CohortFilter) : Prop where
  announced : (execute db env cohort).2.map PersonPlan.announced = (plan db cohort).map PersonPlan.announced
  created : (newRecords db (execute db env cohort).1).map EvaluationRecord.subjectPersonnelId =
    ((plan db cohort).filter fun p => p.outcome = .created).map PersonPlan.personnelId
  reported : (newRecords db (execute db env cohort).1).map EvaluationRecord.reported =
    ((execute db env cohort).2.filter fun p => p.outcome = .created).map PersonPlan.record

/-- A record may be opened for the person, but not by the scorer: the account in the scoring seat has a
role that may not act there. -/
def ScorerUnfit (db : Database) (person : Personnel) : Prop :=
  person.status = .active ∧ db.openRecordOf person.id = none ∧
    ∃ access, db.accessOf person.id = some access ∧ inactiveSeatLabels db access.chain = [] ∧
      ∃ scorer u, access.chain.scorer = some scorer ∧ db.users.get? scorer = some u ∧
        mayActAt u.role (seatRole (scorerField access.chain.unitSupervisorUserId
          access.chain.deputyUserId)) = false

section

variable {db db' d : Database} {env : Env} {cohort : CohortFilter} {person : Personnel}
  {access : EvaluationAccess} {o : Opening}

/-! ## New records -/

theorem mem_newRecords {r : EvaluationRecord} :
    r ∈ newRecords db db' ↔ r ∈ db'.evaluationRecords ∧ db.evaluationRecords.get? r.id = none := by
  unfold newRecords
  rw [List.mem_filter, Option.isNone_iff_eq_none, Table.mem_def]

/-- Records that are appended under keys above the old ones are the new ones. -/
theorem newRecords_of_rows {drafts : List EvaluationRecord}
    (hrows : db'.evaluationRecords.rows = db.evaluationRecords.rows ++ drafts)
    (hids : ∀ r ∈ drafts, db.evaluationRecords.seq < r.id) : newRecords db db' = drafts := by
  unfold newRecords
  rw [hrows, List.filter_append]
  have hold : (db.evaluationRecords.rows.filter fun r => (db.evaluationRecords.get? r.id).isNone) = [] := by
    rw [List.filter_eq_nil_iff]
    intro r hr
    rw [show db.evaluationRecords.get? r.id = some r from Table.get?_of_mem hr]
    exact Bool.false_ne_true
  have hnew : (drafts.filter fun r => (db.evaluationRecords.get? r.id).isNone) = drafts := by
    rw [List.filter_eq_self]
    intro r hr
    cases hget : db.evaluationRecords.get? r.id with
    | none => rfl
    | some old =>
      have hle := Table.le_seq_of_get? hget
      have hlt := hids r hr
      omega
  rw [hold, hnew, List.nil_append]

/-- The draft that an opening makes of an access row. -/
def IsDraftOf (o : Opening) (hrReviewSkipped : Bool) (access : EvaluationAccess) (r : EvaluationRecord) :
    Prop :=
  r = newRecord o access hrReviewSkipped r.evaluationCode r.id

/-- A draft is appended for each access row, in order, under keys above the old ones. -/
theorem insertRecords_rows (skipped : EvaluationAccess → Bool) (accesses : List EvaluationAccess)
    (d : Database) :
    ∃ drafts, (accesses.foldl (fun d access => insertRecord d o access (skipped access))
        d).evaluationRecords.rows = d.evaluationRecords.rows ++ drafts ∧
      (∀ r ∈ drafts, d.evaluationRecords.seq < r.id) ∧
        List.Forall₂ (fun access r => IsDraftOf o (skipped access) access r) accesses drafts := by
  induction accesses generalizing d with
  | nil => exact ⟨[], (List.append_nil _).symm, fun r hr => absurd hr List.not_mem_nil, .nil⟩
  | cons access accesses ih =>
    let r := newRecord o access (skipped access) (evaluationCode (d.evaluationCodeSeq + 1))
      (d.evaluationRecords.seq + 1)
    obtain ⟨drafts, hrows, hids, hdrafts⟩ := ih (insertRecord d o access (skipped access))
    have hseq : (insertRecord d o access (skipped access)).evaluationRecords.seq =
        d.evaluationRecords.seq + 1 := rfl
    rw [hseq] at hids
    refine ⟨r :: drafts, ?_, ?_, .cons rfl hdrafts⟩
    · rw [List.foldl_cons, hrows]
      show (d.evaluationRecords.rows ++ [r]) ++ drafts = _
      simp
    · intro r' hr'
      rcases List.mem_cons.mp hr' with rfl | hr'
      · exact Nat.lt_succ_self _
      · have hlt := hids r' hr'
        omega

/-- What a request that opens records adds. -/
theorem newRecords_openRecords (db : Database) (env : Env) (accesses : List EvaluationAccess) :
    List.Forall₂
      (fun access r => IsDraftOf (openingOf db env (ensureFramework db).1)
        (subjectBelongsToHr db access.personnelId) access r)
      accesses (newRecords db (openRecords db env accesses)) := by
  obtain ⟨drafts, hrows, hids, hdrafts⟩ :=
    @insertRecords_rows (openingOf db env (ensureFramework db).1)
      (fun access => subjectBelongsToHr db access.personnelId) accesses (ensureFramework db).2
  rw [@ensureFramework_records db] at hrows hids
  have hnew : newRecords db (openRecords db env accesses) = drafts := newRecords_of_rows hrows hids
  rw [hnew]
  exact hdrafts

theorem newRecords_withLogs {log : List AuditLog} {notifications : List Notification} :
    newRecords db (db'.withLogs log notifications) = newRecords db db' := rfl

/-! ## By hand -/

theorem mayActAt_unitSupervisor {role : UserRole} {seat : ChainSeat}
    (h : mayActAt role (seatRole seat) = true) : mayActAt role .unitSupervisor = true := by
  cases role <;> cases seat <;> simp_all [mayActAt, seatRole, chainRank]

/-- The scorer opens a record exactly when the plan has one, and the role still fits the seat. -/
theorem opensByHand_iff (hget : db.personnel.get? person.id = some person) :
    (∃ db', OpensByHand db env person.id db') ↔
      planOne db person = .created ∧ ¬ScorerUnfit db person := by
  constructor
  · rintro ⟨db', access, scorer, haccess, hscorer, hstep⟩
    have hrun : step db ⟨scorer, env, .createEvaluation person.id⟩ = .ok db' := hstep
    simp only [step, Operation.run, createEvaluation, getCurrentUser, bind_eq_ok, pure_eq_ok, require_eq_ok,
      ensure_eq_ok] at hrun
    obtain ⟨user, ⟨u, hu, -, -, rfl⟩, -, -, person', hperson, -, hactive, access', haccess', -, hseats, -,
      ⟨hmay, -⟩, -, hopen, -⟩ := hrun
    rw [hget] at hperson
    cases hperson
    rw [haccess] at haccess'
    cases haccess'
    refine ⟨planOne_eq_created.mpr ⟨hopen, hactive, access, haccess, hseats⟩, ?_⟩
    rintro ⟨-, -, access', haccess', -, scorer', u', hscorer', hu', hunfit⟩
    rw [haccess] at haccess'
    cases haccess'
    rw [hscorer] at hscorer'
    cases hscorer'
    rw [hu] at hu'
    cases hu'
    have hrole : u.toCurrent.role = u.role := rfl
    rw [hrole, hunfit] at hmay
    cases hmay
  · rintro ⟨hplan, hfit⟩
    obtain ⟨hopen, hactive, access, haccess, hseats⟩ := planOne_eq_created.mp hplan
    obtain ⟨scorer, hscorer⟩ := Option.isSome_iff_exists.mp access.chain.scorer_isSome
    obtain ⟨u, hu, hon⟩ := inactiveSeatLabels_eq_nil hseats hscorer
    have hmay : mayActAt u.role (seatRole (scorerField access.chain.unitSupervisorUserId
        access.chain.deputyUserId)) = true := by
      by_contra hunfit
      rw [Bool.not_eq_true] at hunfit
      exact hfit ⟨hactive, hopen, access, haccess, hseats, scorer, u, hscorer, hu, hunfit⟩
    have hid : u.id = scorer := Table.id_of_get? hu
    subst hid
    have hanswered : ∃ db', step db ⟨u.id, env, .createEvaluation person.id⟩ = .ok db' := by
      simp only [step, Operation.run, createEvaluation, requireChainStage, getCurrentUser, bind_eq_ok,
        pure_eq_ok, require_eq_ok, ensure_eq_ok]
      exact ⟨_, u.toCurrent, ⟨u, hu, (), hon, rfl⟩, (), mayActAt_unitSupervisor hmay, person, hget, (),
        hactive, access, haccess, (), hseats, (), ⟨hmay, hscorer⟩, (), hopen, rfl⟩
    obtain ⟨db', hstep⟩ := hanswered
    exact ⟨db', access, u.id, haccess, hscorer, hstep⟩

theorem newRecords_of_opensByHand (haccess : db.accessOf person.id = some access)
    (h : OpensByHand db env person.id db') :
    ∃ r, newRecords db db' = [r] ∧ IsDraftOf (openingOf db env (ensureFramework db).1)
      (subjectBelongsToHr db access.personnelId) access r := by
  obtain ⟨access', scorer, -, -, hstep⟩ := h
  have hrun : step db ⟨scorer, env, .createEvaluation person.id⟩ = .ok db' := hstep
  simp only [step, Operation.run, bind_eq_ok] at hrun
  obtain ⟨user, -, hcreated⟩ := hrun
  obtain ⟨access', log, notifications, haccess', -, rfl⟩ := createEvaluation_ok hcreated
  rw [haccess] at haccess'
  cases haccess'
  rw [newRecords_withLogs]
  obtain ⟨r, rest, hdraft, hrest, heq⟩ := List.forall₂_cons_left_iff.mp (newRecords_openRecords db env [access])
  rw [List.forall₂_nil_left_iff.mp hrest] at heq
  exact ⟨r, heq, hdraft⟩

/-! ## The cohort -/

theorem mem_loadCohort (h : person ∈ loadCohort db cohort) : db.personnel.get? person.id = some person := by
  unfold loadCohort at h
  have hmem : person ∈ db.personnel.rows.filter cohort.admits := (List.mergeSort_perm _ _).mem_iff.mp h
  exact Table.get?_of_mem (List.mem_filter.mp hmem).1

theorem newRecords_execute (db : Database) (env : Env) (cohort : CohortFilter) :
    List.Forall₂
      (fun access r => IsDraftOf (openingOf db env (ensureFramework db).1)
        (subjectBelongsToHr db access.personnelId) access r)
      (plannedAccess db (loadCohort db cohort)) (newRecords db (execute db env cohort).1) := by
  rw [execute_fst]
  exact newRecords_openRecords db env (plannedAccess db (loadCohort db cohort))

theorem mem_plannedAccess_iff (hperson : person ∈ loadCohort db cohort)
    (haccess : db.accessOf person.id = some access) :
    access ∈ plannedAccess db (loadCohort db cohort) ↔ planOne db person = .created := by
  have hid : access.personnelId = person.id := (accessOf_spec haccess).2
  unfold plannedAccess
  rw [List.mem_filterMap]
  constructor
  · rintro ⟨person', hperson', haccess'⟩
    obtain ⟨hmem, hplan⟩ := List.mem_filter.mp hperson'
    have hid' : access.personnelId = person'.id := (accessOf_spec haccess').2
    have hget := mem_loadCohort hperson
    have hget' := mem_loadCohort hmem
    rw [← hid', hid, hget] at hget'
    cases hget'
    simpa using hplan
  · intro hplan
    exact ⟨person, List.mem_filter.mpr ⟨hperson, decide_eq_true hplan⟩, haccess⟩

/-- The draft that the cohort gets for a person is made of the access row of the person. -/
theorem draft_of_execute {r : EvaluationRecord} (hr : r ∈ newRecords db (execute db env cohort).1)
    (hsubject : r.subjectPersonnelId = person.id) :
    ∃ access ∈ plannedAccess db (loadCohort db cohort), db.accessOf person.id = some access ∧
      IsDraftOf (openingOf db env (ensureFramework db).1) (subjectBelongsToHr db access.personnelId)
        access r := by
  obtain ⟨access, hplanned, hdraft⟩ := left_of_forall₂ (newRecords_execute db env cohort) hr
  obtain ⟨person', hperson', haccess⟩ := List.mem_filterMap.mp hplanned
  have hid : access.personnelId = person'.id := (accessOf_spec haccess).2
  have hsame : r.subjectPersonnelId = access.personnelId := by
    unfold IsDraftOf at hdraft
    rw [hdraft]
    rfl
  have heq : person'.id = person.id := by rw [← hid, ← hsame, hsubject]
  rw [heq] at haccess
  exact ⟨access, hplanned, haccess, hdraft⟩

theorem draft_iff (hperson : person ∈ loadCohort db cohort) :
    (∃ r ∈ newRecords db (execute db env cohort).1, r.subjectPersonnelId = person.id ∧ r.status = .draft) ↔
      planOne db person = .created := by
  constructor
  · rintro ⟨r, hr, hsubject, -⟩
    obtain ⟨access, hplanned, haccess, -⟩ := draft_of_execute hr hsubject
    exact (mem_plannedAccess_iff hperson haccess).mp hplanned
  · intro hplan
    obtain ⟨-, -, access, haccess, -⟩ := planOne_eq_created.mp hplan
    have hplanned := (mem_plannedAccess_iff hperson haccess).mpr hplan
    obtain ⟨r, hr, hdraft⟩ := right_of_forall₂ (newRecords_execute db env cohort) hplanned
    refine ⟨r, hr, ?_, ?_⟩
    · unfold IsDraftOf at hdraft
      rw [hdraft]
      exact (accessOf_spec haccess).2
    · unfold IsDraftOf at hdraft
      rw [hdraft]
      rfl

theorem opensAlike_iff (hperson : person ∈ loadCohort db cohort) :
    OpensAlike db env cohort person ↔ ¬ScorerUnfit db person := by
  have hhand := @opensByHand_iff db env person (mem_loadCohort hperson)
  constructor
  · rintro halike ⟨hactive, hopen, access, haccess, hseats, hrest⟩
    have hplan := planOne_eq_created.mpr ⟨hopen, hactive, access, haccess, hseats⟩
    have hdraft := (@draft_iff db env cohort person hperson).mpr hplan
    exact (hhand.mp (halike.together.mp hdraft)).2 ⟨hactive, hopen, access, haccess, hseats, hrest⟩
  · intro hfit
    refine ⟨?_, ?_⟩
    · rw [draft_iff hperson, hhand]
      exact ⟨fun hplan => ⟨hplan, hfit⟩, And.left⟩
    · intro r hr hsubject db' hopens
      obtain ⟨access, -, haccess, hdraft⟩ := draft_of_execute hr hsubject
      obtain ⟨r', hnew, hdraft'⟩ := newRecords_of_opensByHand haccess hopens
      refine ⟨r', hnew, ?_⟩
      unfold IsDraftOf at hdraft hdraft'
      unfold SameButKey
      rw [hdraft, hdraft']
      rfl

/-! ## The reports -/

theorem executeOne_announced (db : Database) (o : Opening) (d : Database) (p : PersonPlan) :
    (executeOne db o d p).2.announced = p.announced := by
  unfold executeOne
  split <;> rfl

theorem executePlans_announced (db : Database) (o : Opening) (d : Database) (plans : List PersonPlan) :
    (executePlans db o d plans).2.map PersonPlan.announced = plans.map PersonPlan.announced := by
  induction plans generalizing d with
  | nil => rfl
  | cons p plans ih =>
    unfold executePlans
    rw [List.map_cons, List.map_cons, executeOne_announced, ih]

/-- Each turn that adds a record reports it. -/
theorem executePlans_reported (db : Database) (o : Opening) (d : Database) (people : List Personnel) :
    ∃ drafts, (executePlans db o d (people.map (personPlan db))).1.evaluationRecords.rows =
        d.evaluationRecords.rows ++ drafts ∧
      drafts.map EvaluationRecord.reported =
        ((executePlans db o d (people.map (personPlan db))).2.filter fun p => p.outcome = .created).map
          PersonPlan.record := by
  induction people generalizing d with
  | nil => exact ⟨[], (List.append_nil _).symm, rfl⟩
  | cons person people ih =>
    rw [List.map_cons]
    unfold executePlans
    dsimp only
    obtain ⟨drafts, hrows, hreported⟩ := ih (executeOne db o d (personPlan db person)).1
    by_cases hplan : planOne db person = .created
    · obtain ⟨-, -, access, haccess, -⟩ := planOne_eq_created.mp hplan
      let r := newRecord o access (subjectBelongsToHr db person.id) (evaluationCode (d.evaluationCodeSeq + 1))
        (d.evaluationRecords.seq + 1)
      rw [executeOne_created d hplan haccess] at hrows hreported ⊢
      refine ⟨r :: drafts, ?_, ?_⟩
      · rw [hrows]
        show (d.evaluationRecords.rows ++ [r]) ++ drafts = _
        simp
      · have hcreated : (personPlan db person).outcome = .created := hplan
        rw [List.map_cons, hreported, List.filter_cons_of_pos (by simpa using hcreated), List.map_cons]
        congr 1
        show (access.personnelId, some r.id, some r.evaluationCode) = _
        rw [accessOf_personnelId haccess]
        rfl
    · rw [executeOne_other d hplan] at hrows hreported ⊢
      have hskipped : (personPlan db person).outcome ≠ .created := hplan
      refine ⟨drafts, hrows, ?_⟩
      rw [hreported, List.filter_cons_of_neg (by simpa using hskipped)]

theorem planned_eq (db : Database) (people : List Personnel) :
    (plannedAccess db people).map EvaluationAccess.personnelId =
      ((people.map (personPlan db)).filter fun p => p.outcome = .created).map PersonPlan.personnelId := by
  induction people with
  | nil => rfl
  | cons person people ih =>
    rw [List.map_cons]
    by_cases hplan : planOne db person = .created
    · obtain ⟨-, -, access, haccess, -⟩ := planOne_eq_created.mp hplan
      have hcreated : (personPlan db person).outcome = .created := hplan
      rw [plannedAccess_cons_created hplan haccess, List.filter_cons_of_pos (by simpa using hcreated),
        List.map_cons, List.map_cons, ih, accessOf_personnelId haccess]
      rfl
    · have hskipped : (personPlan db person).outcome ≠ .created := hplan
      rw [plannedAccess_cons_other hplan, List.filter_cons_of_neg (by simpa using hskipped), ih]

theorem createsAsPlanned (db : Database) (env : Env) (cohort : CohortFilter) :
    CreatesAsPlanned db env cohort where
  announced := executePlans_announced db _ _ (plan db cohort)
  created := by
    have hsubjects : (newRecords db (execute db env cohort).1).map EvaluationRecord.subjectPersonnelId =
        (plannedAccess db (loadCohort db cohort)).map EvaluationAccess.personnelId := by
      refine map_eq_map_of_forall₂ (newRecords_execute db env cohort) ?_
      intro access r hdraft
      unfold IsDraftOf at hdraft
      rw [hdraft]
      rfl
    rw [hsubjects]
    exact planned_eq db (loadCohort db cohort)
  reported := by
    obtain ⟨drafts, hrows, hreported⟩ := executePlans_reported db
      (openingOf db env (ensureFramework db).1) (ensureFramework db).2 (loadCohort db cohort)
    rw [@ensureFramework_records db] at hrows
    have hexecute : (execute db env cohort).1.evaluationRecords.rows =
        db.evaluationRecords.rows ++ drafts := hrows
    obtain ⟨drafts', hrows', hids, -⟩ :=
      @insertRecords_rows (openingOf db env (ensureFramework db).1)
        (fun access => subjectBelongsToHr db access.personnelId)
        (plannedAccess db (loadCohort db cohort)) (ensureFramework db).2
    rw [@ensureFramework_records db] at hrows' hids
    have hbulk : (execute db env cohort).1.evaluationRecords.rows =
        db.evaluationRecords.rows ++ drafts' := by
      rw [execute_fst]
      exact hrows'
    have hdrafts : drafts' = drafts := List.append_cancel_left (hbulk.symm.trans hexecute)
    rw [newRecords_of_rows hbulk hids, hdrafts]
    exact hreported

/-! ## The second run -/

/-- Nobody is left to open a record for. -/
theorem plannedAccess_afterwards {log : List AuditLog} {notifications : List Notification}
    (h : db' = (openRecords db env (plannedAccess db (loadCohort db cohort))).withLogs log notifications) :
    plannedAccess db' (loadCohort db' cohort) = [] := by
  have hpersonnel : db'.personnel = db.personnel := by
    rw [h]
    exact openRecords_personnel env _
  have husers : db'.users = db.users := by
    rw [h]
    exact openRecords_users env _
  have haccesses : db'.evaluationAccess = db.evaluationAccess := by
    rw [h]
    exact openRecords_access env _
  have hcohort : loadCohort db' cohort = loadCohort db cohort := by
    unfold loadCohort
    rw [hpersonnel]
  have hnone : ∀ person ∈ loadCohort db cohort, planOne db' person ≠ .created := by
    intro person hperson hplan
    obtain ⟨hopen, hactive, access, haccess, hseats⟩ := planOne_eq_created.mp hplan
    have hclosed := openRecordOf_eq_none.mp hopen
    have haccess' : db.accessOf person.id = some access := by
      unfold Database.accessOf at haccess ⊢
      rw [← haccesses]
      exact haccess
    have hseats' : inactiveSeatLabels db access.chain = [] := by
      unfold inactiveSeatLabels at hseats ⊢
      rw [← husers]
      exact hseats
    have hopen' : db.openRecordOf person.id = none := by
      refine openRecordOf_eq_none.mpr ?_
      intro r hr hsubject
      refine hclosed r ?_ hsubject
      rw [h]
      exact Table.mem_of_get? (openRecords_keeps (Table.get?_of_mem hr))
    have hplan' := planOne_eq_created.mpr ⟨hopen', hactive, access, haccess', hseats'⟩
    have hplanned := (mem_plannedAccess_iff hperson haccess').mpr hplan'
    obtain ⟨r, hr, hdraft⟩ := right_of_forall₂ (newRecords_openRecords db env _) hplanned
    have hmem : r ∈ db'.evaluationRecords := by
      rw [h]
      exact (mem_newRecords.mp hr).1
    have hsubject : r.subjectPersonnelId = person.id := by
      unfold IsDraftOf at hdraft
      rw [hdraft]
      exact accessOf_personnelId haccess'
    have hdone := hclosed r hmem hsubject
    unfold IsDraftOf at hdraft
    rw [hdraft] at hdone
    cases hdone
  rw [hcohort]
  unfold plannedAccess
  have hempty : ((loadCohort db cohort).filter fun person => planOne db' person = .created) = [] := by
    refine List.filter_eq_nil_iff.mpr ?_
    intro person hperson
    simpa using hnone person hperson
  rw [hempty]
  rfl

theorem second_run {user user' : CurrentUser} {env' : Env} {db'' : Database}
    (hfirst : runBulkCreate db env user cohort = .ok db')
    (hsecond : runBulkCreate db' env' user' cohort = .ok db'') : newRecords db' db'' = [] := by
  obtain ⟨log, notifications, hdb'⟩ := runBulkCreate_ok hfirst
  obtain ⟨log', notifications', hdb''⟩ := runBulkCreate_ok hsecond
  rw [plannedAccess_afterwards hdb'] at hdb''
  rw [hdb'', newRecords_withLogs]
  exact List.forall₂_nil_left_iff.mp (newRecords_openRecords db' env' [])

end

/-- A cohort gets a draft for a person exactly when the scorer could open one by hand, and the same one,
unless the scorer has lost the role of the seat. The real run does what the dry run announces, and a second
run does nothing. -/
theorem bulk_creation_agrees (db : Database) (env : Env) (cohort : CohortFilter) :
    (∀ person ∈ loadCohort db cohort, OpensAlike db env cohort person ↔ ¬ScorerUnfit db person) ∧
      CreatesAsPlanned db env cohort ∧
        ∀ user user' env' db' db'', runBulkCreate db env user cohort = .ok db' →
          runBulkCreate db' env' user' cohort = .ok db'' → newRecords db' db'' = [] := by
  refine ⟨?_, createsAsPlanned db env cohort, ?_⟩
  · intro person hperson
    exact opensAlike_iff hperson
  · intro user user' env' db' db'' hfirst hsecond
    exact second_run hfirst hsecond

/-! ## A scorer who was moved -/

/-- The supervisor of the office moves to HR, while no record is open. -/
def demoted : List Request := [ask 5 (.updateUser 1 { role := some .hr })]

theorem demoted_run : SystemRun (replay settled (office fullChain) demoted)
    (endState settled (office fullChain) demoted) :=
  systemRun_replay (office_initial (by decide)) (by decide)

def everybody : CohortFilter := ⟨none, none, none⟩

/-- The office as it starts is opened alike, for everybody. -/
theorem office_opensAlike : OpensAlike (office fullChain) someDay everybody (employee 1) := by
  have hthere : employee 1 ∈ loadCohort (office fullChain) everybody := by decide +kernel
  refine ((bulk_creation_agrees (office fullChain) someDay everybody).1 (employee 1) hthere).mpr ?_
  rintro ⟨-, -, access, haccess, -, scorer, u, hscorer, hu, hunfit⟩
  have hchain : some access = some (accessRow fullChain) := haccess.symm.trans (by decide)
  cases hchain
  have hone : some scorer = some 1 := hscorer.symm.trans (by decide)
  cases hone
  have hsupervisor : some u = some (account 1 "supervisor" .unitSupervisor) := hu.symm.trans (by decide)
  cases hsupervisor
  revert hunfit
  decide

/-- HR opens a record that the person's scorer is not allowed to open. -/
theorem demoted_scorer_gets_a_record :
    ¬∀ tr db, SystemRun tr db → ∀ env cohort person, person ∈ loadCohort db cohort →
      OpensAlike db env cohort person := by
  intro hclaim
  have halike := hclaim _ _ demoted_run someDay everybody (employee 1) (by decide +kernel)
  have hdraft : ∃ r ∈ newRecords (endState settled (office fullChain) demoted)
      (execute (endState settled (office fullChain) demoted) someDay everybody).1,
      r.subjectPersonnelId = (employee 1).id ∧ r.status = .draft := by
    decide +kernel
  obtain ⟨db', access, scorer, haccess, hscorer, hstep⟩ := halike.together.mp hdraft
  have hchain : some access = some (accessRow fullChain) := haccess.symm.trans (by decide)
  cases hchain
  have hone : some scorer = some 1 := hscorer.symm.trans (by decide)
  cases hone
  have hrefused : (step (endState settled (office fullChain) demoted)
      ⟨1, someDay, .createEvaluation 1⟩).isOk = false := by
    decide
  have hanswered : step (endState settled (office fullChain) demoted)
      ⟨1, someDay, .createEvaluation 1⟩ = .ok db' := hstep
  rw [hanswered] at hrefused
  cases hrefused

end NexaHR
