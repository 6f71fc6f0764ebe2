import NexaHR.System.Installation
import NexaHR.System.OneAccount

/-! # People who leave

Leaving cancels the open record of the person and switches the account off, as the request of whoever may
edit people. The cancellation is a transition of HR, and the account is the first one that is linked to
the person.

* `StaffInitial`: the databases that the runs start from.
* `ClosesAccess`, `MayClose`: what a departure has to do, and when it does.
* `departure_closes_access`: both, over every run, with the rule of one active account.
-/

namespace NexaHR

open Foundations

set_option autoImplicit false

/-- Nobody has two active accounts yet. -/
structure StaffInitial (db : Database) : Prop extends Initial db where
  accounts : OneAccount db.users

abbrev StaffRun (tr : List (Taken Database Request)) (db : Database) : Prop :=
  Run StaffInitial Steps tr db

/-- The update that takes a person out of the organisation. -/
def departure (reason : SeparationReason) (date : Option (Option Nat)) : PersonnelUpdate where
  status := some .inactive
  separationReason := some (some reason)
  separationDate := date

/-- The request is answered, the open records of the person are cancelled, and no active account is
linked to the person any more. -/
def ClosesAccess (db : Database) (req : Request) (personnelId : Nat) : Prop :=
  ∃ db', step db req = .ok db' ∧
    (∀ r ∈ db.evaluationRecords, r.subjectPersonnelId = personnelId → r.isOpen = true →
      ∃ r', db'.evaluationRecords.get? r.id = some r' ∧ r'.status = .cancelled) ∧
    ∀ u ∈ db'.users, u.personnelId = some personnelId → u.isActive = false

namespace Database

/-- The account that the departure of a person closes. -/
def firstAccount (db : Database) (personnelId : Nat) : Option User :=
  db.users.rows.find? fun u => u.personnelId = some personnelId

end Database

/-- The departure meets nothing that it leaves behind: somebody who has left before has neither an open
record nor an active account, and of anybody else the open record is cancelled by HR and the active
account is the first one. The update also compares the dates of the contract, which an import may have
left on one day. -/
structure MayClose (db : Database) (user : CurrentUser) (person : Personnel) : Prop where
  dates : person.contractStartDate < person.contractEndDate
  left : person.status = .inactive → db.openRecordOf person.id = none ∧
    ∀ u ∈ db.users, u.personnelId = some person.id → u.isActive = false
  leaving : person.status ≠ .inactive →
    (user.role = .hr ∨ db.openRecordOf person.id = none) ∧
      ∀ u ∈ db.users, u.personnelId = some person.id → u.isActive = true →
        db.firstAccount person.id = some u

section

variable {db db' : Database} {req : Request} {user : CurrentUser} {env : Env} {person : Personnel}
  {reason : SeparationReason} {date : Option (Option Nat)} {k : Nat}

/-! ## The cancellation -/

/-- The transition is HR's, on an open record that is not his own. -/
theorem cancelOnSeparation_iff {r : EvaluationRecord} (hopen : r.isOpen = true)
    (hself : ¬user.isSubjectOf r) :
    (∃ w, applyTransition db env r .cancelOnSeparation user nothingBefore = .ok w) ↔ user.role = .hr := by
  constructor
  · rintro ⟨w, hw⟩
    obtain ⟨hblock, -⟩ := applyTransition_ok hw
    exact (mayActAt_hr _).mp (transitionBlock_eq_none.mp hblock).2.1
  · intro hrole
    have hstatus : r.status ∈ openStatuses := by
      unfold EvaluationRecord.isOpen at hopen
      simpa using hopen
    have hblock : transitionBlock r .cancelOnSeparation user = none :=
      transitionBlock_eq_none.mpr ⟨hstatus, (mayActAt_hr _).mpr hrole, rfl, rfl⟩
    have hduties : ensureHrDuties (transitions .cancelOnSeparation) r user = .ok () := by
      rw [← ensureNotDecidingAboutOneself_eq_ok (x := ())] at hself
      exact hself
    exact applyTransition_of_checks hblock hduties (fun hto => by cases hto) rfl fun hto => by cases hto

/-- The records after a departure that was answered. -/
theorem cancelOnDeparture_iff (hself : user.personnelId ≠ some person.id) :
    (∃ d, cancelOnDeparture db env user person = .ok d) ↔
      user.role = .hr ∨ db.openRecordOf person.id = none := by
  unfold cancelOnDeparture
  have hfind : db.openRecordOf person.id =
      db.evaluationRecords.rows.find? fun r => r.subjectPersonnelId = person.id && r.isOpen := rfl
  rw [← hfind]
  cases hopen : db.openRecordOf person.id with
  | none => simp
  | some r =>
    obtain ⟨-, hsubject, hisOpen⟩ := openRecordOf_spec hopen
    have hother : ¬user.isSubjectOf r := by
      unfold CurrentUser.isSubjectOf
      rw [hsubject]
      exact hself
    rw [← @cancelOnSeparation_iff db user env r hisOpen hother]
    simp only [bind_eq_ok, pure_eq_ok]
    constructor
    · rintro ⟨d, w, hw, -⟩
      exact Or.inl ⟨w, hw⟩
    · rintro (⟨w, hw⟩ | hnone)
      · exact ⟨_, w, hw, rfl⟩
      · cases hnone

/-! ## The account -/

theorem closeAccount_none (h : db.firstAccount person.id = none) :
    (closeAccount db env user person).users = db.users := by
  unfold Database.firstAccount at h
  unfold closeAccount
  rw [h]

/-- The first account is off afterwards, and the others are as they were. -/
theorem mem_closeAccount_users {account u : User} (h : db.firstAccount person.id = some account) :
    u ∈ (closeAccount db env user person).users ↔
      (u ∈ db.users ∧ u.id ≠ account.id) ∨ u = { account with isActive := false } := by
  have hmem : account ∈ db.users := List.mem_of_find?_eq_some h
  unfold Database.firstAccount at h
  unfold closeAccount
  rw [h]
  dsimp only
  cases hactive : account.isActive with
  | true =>
    have hput : u ∈ db.users.put { account with isActive := false } ↔
        (u ∈ db.users ∧ u.id ≠ account.id) ∨ u = { account with isActive := false } := by
      constructor
      · exact Table.mem_put
      · rintro (⟨hold, hne⟩ | rfl)
        · refine Table.mem_map.mpr ⟨u, hold, ?_⟩
          exact if_neg hne
        · exact Table.mem_put_self hmem rfl
    exact hput
  | false =>
    have hsame : ({ account with isActive := false } : User) = account := by rw [← hactive]
    rw [hsame, if_neg Bool.false_ne_true]
    constructor
    · intro hu
      by_cases hid : u.id = account.id
      · exact Or.inr (Table.eq_of_id_eq hu hmem hid)
      · exact Or.inl ⟨hu, hid⟩
    · rintro (⟨hu, -⟩ | rfl)
      · exact hu
      · exact hmem

/-- Afterwards nobody gets in, if the first account was the only active one. -/
theorem closeAccount_closes_iff (db : Database) (env : Env) (user : CurrentUser) (person : Personnel) :
    (∀ u ∈ (closeAccount db env user person).users, u.personnelId = some person.id → u.isActive = false) ↔
      ∀ u ∈ db.users, u.personnelId = some person.id → u.isActive = true →
        db.firstAccount person.id = some u := by
  cases hfirst : db.firstAccount person.id with
  | none =>
    have hnone := List.find?_eq_none.mp hfirst
    rw [closeAccount_none hfirst]
    constructor
    · intro _ u hu hp
      exact absurd (decide_eq_true hp) (hnone u hu)
    · intro _ u hu hp
      exact absurd (decide_eq_true hp) (hnone u hu)
  | some account =>
    have hmem : account ∈ db.users := List.mem_of_find?_eq_some hfirst
    constructor
    · intro hclosed u hu hp hactive
      by_contra hne
      have hother : u.id ≠ account.id := by
        intro hid
        exact hne (by rw [Table.eq_of_id_eq hu hmem hid])
      have hoff := hclosed u ((mem_closeAccount_users hfirst).mpr (Or.inl ⟨hu, hother⟩)) hp
      rw [hactive] at hoff
      cases hoff
    · intro honly u hu hp
      rcases (mem_closeAccount_users hfirst).mp hu with ⟨hold, hne⟩ | rfl
      · by_contra hactive
        rw [Bool.not_eq_false] at hactive
        have heq := Option.some.inj (honly u hold hp hactive)
        exact hne (by rw [heq])
      · rfl

/-! ## The request -/

/-- The database in which the departure is closed out: the person is written. -/
def departed (db : Database) (env : Env) (user : CurrentUser) (person : Personnel) (p : PersonnelUpdate) :
    Database :=
  ({ db with personnel := db.personnel.put (person.updated env p) } : Database).log
    [directoryEvent env user "personnel_updated"]

/-- Nothing but the closing out can refuse a departure. -/
theorem updatePersonnel_departure (hauth : user.role = .hr ∨ .managePersonnel ∈ env.capabilities)
    (hget : db.personnel.get? k = some person) :
    updatePersonnel db env user k (departure reason date) = .ok db' ↔
      person.contractStartDate < person.contractEndDate ∧ ∃ closed, closeOutIfLeaving (departed db env user person (departure reason date)) env user
          (decide (person.status ≠ .inactive)) (person.updated env (departure reason date)) = .ok closed ∧
        clearManagersSupervisor closed env user (person.updated env (departure reason date)) = db' := by
  have hleaving : person.isLeaving (departure reason date) = decide (person.status ≠ .inactive) := by
    simp [Personnel.isLeaving, departure]
  unfold updatePersonnel requireRoleOrCapability ensureManagerFlagMayChange
  simp only [bind_eq_ok, pure_eq_ok, require_eq_ok, ensure_eq_ok]
  constructor
  · rintro ⟨-, -, person', hget', -, -, -, -, -, -, -, hdates, closed, hclosed, heq⟩
    rw [hget] at hget'
    cases hget'
    rw [hleaving] at hclosed
    exact ⟨hdates, closed, hclosed, heq⟩
  · rintro ⟨hdates, closed, hclosed, heq⟩
    refine ⟨(), hauth, person, hget, (), rfl, (), ?_, (), ?_, (), hdates, closed, ?_, heq⟩
    · intro hany
      cases hany
    · rintro ⟨-, hnone⟩
      cases hnone
    · rw [hleaving]
      exact hclosed

/-- The tables after an answered departure of somebody who was still there. -/
theorem closeOut_tables {updated : Personnel} {d : Database} :
    (clearManagersSupervisor (closeAccount d env user person) env user updated).users =
        (closeAccount d env user person).users ∧
      (clearManagersSupervisor (closeAccount d env user person) env user updated).evaluationRecords =
        d.evaluationRecords := by
  obtain ⟨_, _, -, hclear⟩ := clearManagersSupervisor_eq (closeAccount d env user person) env user updated
  obtain ⟨_, _, _, -, hclose⟩ := closeAccount_eq d env user person
  rw [hclear]
  refine ⟨rfl, ?_⟩
  rw [hclose]
  rfl

/-- What the cancellation leaves: the accounts as they were, and the open record cancelled. -/
theorem cancelOnDeparture_tables {d d' : Database} (h : cancelOnDeparture d env user person = .ok d')
    (hone : OneOpen d) :
    d'.users = d.users ∧
      ∀ r ∈ d.evaluationRecords, r.subjectPersonnelId = person.id → r.isOpen = true →
        ∃ r', d'.evaluationRecords.get? r.id = some r' ∧ r'.status = .cancelled := by
  let req : Request := ⟨user.id, env, .deletePeriod 0⟩
  rcases @cancelOnDeparture_ok d req user person d' h d with
    ⟨hnone, rfl⟩ | ⟨r₀, w, comments, log, notifications, hsome, hchange, rfl⟩
  · refine ⟨rfl, ?_⟩
    intro r hr hsubject hopen
    have hclosed := openRecordOf_eq_none.mp hnone r hr hsubject
    rw [hopen] at hclosed
    cases hclosed
  · refine ⟨rfl, ?_⟩
    intro r hr hsubject hopen
    have hfound := hone.openRecordOf hr hopen
    rw [hsubject, hsome] at hfound
    have heq : r₀ = r := Option.some.inj hfound
    have hid : w.id = r.id := by rw [hchange.id_eq, heq]
    refine ⟨w, ?_, hchange.status_some.2⟩
    have hget : d.evaluationRecords.get? w.id = some r := by
      rw [hid]
      exact Table.get?_of_mem hr
    rw [← hid]
    exact Table.get?_put_self hget

/-- A departure does all that it has to do exactly when it meets nothing that it leaves behind. -/
theorem closesAccess_iff (hone : OneOpen db)
    (huser : getCurrentUser db req.userId = .ok user)
    (hauth : user.role = .hr ∨ .managePersonnel ∈ req.env.capabilities)
    (hop : req.operation = .updatePersonnel k (departure reason date))
    (hget : db.personnel.get? k = some person) (hself : user.personnelId ≠ some k) :
    ClosesAccess db req k ↔ MayClose db user person := by
  have hid : person.id = k := Table.id_of_get? hget
  subst hid
  have hstep : ∀ db', step db req = .ok db' ↔
      updatePersonnel db req.env user person.id (departure reason date) = .ok db' := by
    intro db'
    unfold step
    rw [hop]
    simp [huser, Operation.run]
  let updated := person.updated req.env (departure reason date)
  let d := departed db req.env user person (departure reason date)
  have hopened : d.openRecordOf updated.id = db.openRecordOf person.id := rfl
  by_cases hleft : person.status = .inactive
  · -- Nothing is closed out of somebody who left before.
    have hnothing : ∀ closed, closeOutIfLeaving d req.env user (decide (person.status ≠ .inactive)) updated =
        .ok closed ↔ d = closed := by
      intro closed
      unfold closeOutIfLeaving
      simp [hleft]
    obtain ⟨_, _, -, hclear⟩ := clearManagersSupervisor_eq d req.env user updated
    constructor
    · rintro ⟨db', hdb', hrecords, husers⟩
      obtain ⟨hdates, closed, hclosed, rfl⟩ := (updatePersonnel_departure hauth hget).mp ((hstep db').mp hdb')
      rw [hnothing] at hclosed
      subst hclosed
      rw [hclear] at hrecords husers
      refine ⟨hdates, fun _ => ⟨?_, husers⟩, fun hnot => absurd hleft hnot⟩
      rw [openRecordOf_eq_none]
      intro r hr hsubject
      by_contra hopen
      rw [Bool.not_eq_false] at hopen
      obtain ⟨r', hr', hcancelled⟩ := hrecords r hr hsubject hopen
      have hsame : db.evaluationRecords.get? r.id = some r := Table.get?_of_mem hr
      have heq : r = r' := Option.some.inj (hsame.symm.trans hr')
      rw [heq] at hopen
      unfold EvaluationRecord.isOpen at hopen
      rw [hcancelled] at hopen
      cases hopen
    · intro hmay
      obtain ⟨hnone, hoff⟩ := hmay.left hleft
      refine ⟨_, (hstep _).mpr ((updatePersonnel_departure hauth hget).mpr
        ⟨hmay.dates, d, (hnothing d).mpr rfl, rfl⟩), ?_, ?_⟩
      · intro r hr hsubject hopen
        have hclosed := openRecordOf_eq_none.mp hnone r hr hsubject
        rw [hopen] at hclosed
        cases hclosed
      · rw [hclear]
        exact hoff
  · have hclosing : ∀ closed, closeOutIfLeaving d req.env user (decide (person.status ≠ .inactive)) updated =
        .ok closed ↔ ∃ d', cancelOnDeparture d req.env user updated = .ok d' ∧
          closeAccount d' req.env user updated = closed := by
      intro closed
      have hyes : decide (person.status ≠ .inactive) = true := decide_eq_true hleft
      unfold closeOutIfLeaving closeOutDeparture
      rw [hyes, if_pos rfl]
      simp only [bind_eq_ok, pure_eq_ok]
    have hcancel := @cancelOnDeparture_iff d user req.env updated hself
    rw [hopened] at hcancel
    have hrule : OneOpen d := hone
    constructor
    · rintro ⟨db', hdb', hrecords, husers⟩
      obtain ⟨hdates, closed, hclosed, rfl⟩ := (updatePersonnel_departure hauth hget).mp ((hstep db').mp hdb')
      obtain ⟨d', hd', rfl⟩ := (hclosing closed).mp hclosed
      obtain ⟨hsame, -⟩ := cancelOnDeparture_tables hd' hrule
      refine ⟨hdates, fun hyes => absurd hyes hleft, fun _ => ⟨hcancel.mp ⟨d', hd'⟩, ?_⟩⟩
      rw [closeOut_tables.1] at husers
      have honly := (closeAccount_closes_iff d' req.env user updated).mp husers
      unfold Database.firstAccount at honly
      rw [hsame] at honly
      exact honly
    · intro hmay
      obtain ⟨hmayCancel, honly⟩ := hmay.leaving hleft
      obtain ⟨d', hd'⟩ := hcancel.mpr hmayCancel
      obtain ⟨hsame, hcancelled⟩ := cancelOnDeparture_tables hd' hrule
      refine ⟨_, (hstep _).mpr ((updatePersonnel_departure hauth hget).mpr
        ⟨hmay.dates, _, (hclosing _).mpr ⟨d', hd', rfl⟩, rfl⟩), ?_, ?_⟩
      · rw [closeOut_tables.2]
        exact hcancelled
      · rw [closeOut_tables.1]
        refine (closeAccount_closes_iff d' req.env user updated).mpr ?_
        unfold Database.firstAccount
        rw [hsame]
        exact honly

end

/-! ## Runs -/

/-- What holds of every database of a run. -/
structure StaffSound (db : Database) : Prop where
  links : LinksBelow db
  records : OneOpen db

theorem staffSound_initial {db : Database} (h : StaffInitial db) : StaffSound db where
  links := by
    intro u hu p hp
    exact le_seq_of_isSome (h.users_person u hu p hp)
  records := by
    intro r hr
    exact absurd hr (h.no_records r)

theorem staffSound_step {db db' : Database} {req : Request} (hstep : Steps db req db')
    (h : StaffSound db) : StaffSound db' where
  links := by
    obtain ⟨user, -, d, log, notifications, heffect, rfl⟩ := effect_of_steps hstep
    exact heffect.linksBelow h.links
  records := oneOpen_step hstep h.records

theorem staffSound_of_run {tr : List (Taken Database Request)} {db : Database} (h : StaffRun tr db) :
    StaffSound db := by
  refine h.invariant (P := StaffSound) ?_ ?_
  · intro db hinit
    exact staffSound_initial hinit
  · intro db req db' hsound hstep
    exact staffSound_step hstep hsound

/-- Accounts stay apart as long as no update revives one beside another. -/
theorem oneAccount_of_run {tr : List (Taken Database Request)} {db : Database} (h : StaffRun tr db)
    (hspares : ∀ x ∈ tr, ¬RevivesBeside x.before x.label) : OneAccount db.users := by
  have hboth : StaffSound db ∧ OneAccount db.users := by
    refine h.invariant_of_steps (P := fun db => StaffSound db ∧ OneAccount db.users)
      (C := fun y => ¬RevivesBeside y.before y.label) ?_ ?_ hspares
    · intro db hinit
      exact ⟨staffSound_initial hinit, hinit.accounts⟩
    · intro db req db' ⟨hsound, hone⟩ hstep hspares
      exact ⟨staffSound_step hstep hsound, (oneAccount_step_iff hstep hone hsound.links).mpr hspares⟩
  exact hboth.2

/-- In a run nobody has two active accounts exactly when no update revives one beside another, and
afterwards whoever may edit people closes the access of somebody else exactly when nothing is left
behind. -/
theorem departure_closes_access {tr : List (Taken Database Request)} {db : Database}
    (h : StaffRun tr db) :
    ((∀ x ∈ tr, OneAccount x.after.users) ↔ ∀ x ∈ tr, ¬RevivesBeside x.before x.label) ∧
      ∀ req user k person reason date, getCurrentUser db req.userId = .ok user →
        (user.role = .hr ∨ .managePersonnel ∈ req.env.capabilities) →
          req.operation = .updatePersonnel k (departure reason date) →
            db.personnel.get? k = some person → user.personnelId ≠ some k →
              (ClosesAccess db req k ↔ MayClose db user person) := by
  constructor
  · constructor
    · intro hone x hx
      obtain ⟨⟨old, hold, hsub⟩, hstep⟩ := h.step_of_mem hx
      have hbefore : OneAccount x.before.users := by
        refine hold.invariant_of_steps (P := fun db => OneAccount db.users)
          (C := fun y => OneAccount y.after.users) ?_ ?_ fun y hy => hone y (hsub y hy)
        · intro db hinit
          exact hinit.accounts
        · intro db req db' _ _ hafter
          exact hafter
      exact (oneAccount_step_iff hstep hbefore (staffSound_of_run hold).links).mp (hone x hx)
    · intro hspares x hx
      obtain ⟨⟨old, hold, hsub⟩, hstep⟩ := h.step_of_mem hx
      have hbefore := oneAccount_of_run hold fun y hy => hspares y (hsub y hy)
      exact (oneAccount_step_iff hstep hbefore (staffSound_of_run hold).links).mpr (hspares x hx)
  · intro req user k person reason date huser hauth hop hget hself
    have hsound := staffSound_of_run h
    exact closesAccess_iff hsound.records huser hauth hop hget hself

/-! ## A departure that is refused -/

theorem office_staffInitial : StaffInitial (office fullChain) where
  toInitial := office_initial (by decide)
  accounts := by
    intro u hu _ _ _ _ p hp
    have hunlinked : ∀ u ∈ officeUsers, u.personnelId = none := by decide
    rw [hunlinked u hu] at hp
    cases hp

/-- The employee gets an account, an administrator who is not of HR as well, and a record is opened. -/
def staffed : List Request :=
  [ask 1 (.createEvaluation 1), ask 5 (.createUser ⟨"admin", .support, none, none⟩),
    ask 5 (.createUser ⟨"employee", .employee, some 1, none⟩)]

theorem staffed_run : StaffRun (replay settled (office fullChain) staffed)
    (endState settled (office fullChain) staffed) :=
  run_replay office_staffInitial (steps_replay (by decide))

/-- The request of HR cancels the record and switches the account off. -/
theorem staffed_departure :
    ClosesAccess (endState settled (office fullChain) staffed)
      (ask 5 (.updatePersonnel 1 (departure .resignation none))) 1 := by
  have hclosing := (departure_closes_access staffed_run).2
    (ask 5 (.updatePersonnel 1 (departure .resignation none))) ⟨5, "hr2", .hr, none⟩ 1 (employee 1)
    .resignation none (by decide) (Or.inl rfl) rfl (by decide) (by decide)
  refine hclosing.mpr ⟨by decide, ?_, ?_⟩
  · intro hleft
    cases hleft
  · intro _
    refine ⟨Or.inl rfl, ?_⟩
    decide

/-- The administrator may edit people, and is refused by the rules of the record. -/
theorem administrator_cannot_close_access :
    ¬∀ tr db, StaffRun tr db → (∀ x ∈ tr, OneAccount x.after.users) ∧
      ∀ req user k person reason date, getCurrentUser db req.userId = .ok user →
        (user.role = .hr ∨ .managePersonnel ∈ req.env.capabilities) →
          req.operation = .updatePersonnel k (departure reason date) →
            db.personnel.get? k = some person → user.personnelId ≠ some k → ClosesAccess db req k := by
  intro hclaim
  obtain ⟨db', hstep, -⟩ := (hclaim _ _ staffed_run).2
    (ask 8 (.updatePersonnel 1 (departure .resignation none))) ⟨8, "admin", .support, none⟩ 1 (employee 1)
    .resignation none (by decide) (Or.inr (by decide)) rfl (by decide) (by decide)
  have hrefused : (step (endState settled (office fullChain) staffed)
      (ask 8 (.updatePersonnel 1 (departure .resignation none)))).isOk = false := by
    decide
  rw [hstep] at hrefused
  cases hrefused

end NexaHR
