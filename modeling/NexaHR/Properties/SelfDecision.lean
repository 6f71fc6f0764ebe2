import NexaHR.System.AccountSteps
import NexaHR.System.Installation

/-! # Nobody decides about himself

Whoever decides about a record is not linked to its subject, and neither is whoever sits in its
chain. Of the HR seat this holds as long as no account is linked to a person whose open record it
owns: the link of an account asks about the chain seats only.

* `Apart`: the occupants of some seats are not the people the seats are about.
* `DecidedByOthers`: the decisions of a step.
* `no_self_decision_iff`: the result, with the exact condition on the steps of a run.
-/

namespace NexaHR

open Foundations

set_option autoImplicit false

/-! ## Seats and links -/

/-- The account belongs to the person. -/
def Linked (db : Database) (userId personnelId : Nat) : Prop :=
  ∃ u, db.users.get? userId = some u ∧ u.personnelId = some personnelId

/-- The occupants of the seats have accounts, none of them linked to the person of his seat. -/
def Apart (db : Database) (seat : Nat → Nat → Prop) : Prop :=
  ∀ userId personnelId, seat userId personnelId →
    userId ≤ db.users.seq ∧ ¬Linked db userId personnelId

/-- A seat of an access row. -/
def AccessSeat (db : Database) (userId personnelId : Nat) : Prop :=
  ∃ access ∈ db.evaluationAccess, access.personnelId = personnelId ∧ userId ∈ access.chain.occupants

/-- A seat in the chain of a record. -/
def RecordSeat (db : Database) (userId personnelId : Nat) : Prop :=
  ∃ r ∈ db.evaluationRecords, r.subjectPersonnelId = personnelId ∧ userId ∈ r.chain.occupants

/-- The HR seat of an open record. -/
def HrSeat (db : Database) (userId personnelId : Nat) : Prop :=
  ∃ r ∈ db.evaluationRecords, r.isOpen = true ∧ r.subjectPersonnelId = personnelId ∧
    r.hrUserId = some userId

section

variable {db db' : Database} {req : Request} {user : CurrentUser} {performed : Nat → Option Action}

theorem linked_of_mem {u : User} (hu : u ∈ db.users) {p : Nat} (hp : u.personnelId = some p) :
    Linked db u.id p :=
  ⟨u, Table.get?_of_mem hu, hp⟩

theorem not_linked_of_mem {u : User} (hu : u ∈ db.users) {p : Nat} (hp : u.personnelId ≠ some p) :
    ¬Linked db u.id p := by
  rintro ⟨v, hv, hlink⟩
  have hself : db.users.get? u.id = some u := Table.get?_of_mem hu
  rw [hself] at hv
  cases hv
  exact hp hlink

theorem id_le_seq {u : User} (hu : u ∈ db.users) : u.id ≤ db.users.seq :=
  db.users.le_seq u hu

/-- An account is linked by the request that updates it, or was. -/
theorem Effect.linked (h : Effect db req user performed db') {k p : Nat} (hk : k ≤ db.users.seq)
    (hlinked : Linked db' k p) :
    Linked db k p ∨ ∃ u payload, db.users.get? k = some u ∧ req.operation = .updateUser k payload ∧
      payload.link = some p ∧ ensureMayLink db u payload = .ok () ∧
      db' = { db with users := db.users.put (u.updated payload) } := by
  obtain ⟨u', hu', hp⟩ := hlinked
  rcases h.account_of hu' with ⟨u, hu, hchange⟩ | hnew
  · have hid : u.id = k := Table.id_of_get? hu
    rcases hchange.link hp with hold | ⟨payload, hop, hlink, hmay, hrest⟩
    · exact Or.inl ⟨u, hu, hold⟩
    · rw [hid] at hop
      exact Or.inr ⟨u, payload, hu, hop, hlink, hmay, hrest⟩
  · omega

/-- Seats stay apart from the people they are about when a step seats nobody who is linked, and
links nobody who is seated. -/
theorem apart_step {seat seat' : Nat → Nat → Prop} (h : Effect db req user performed db')
    (hapart : Apart db seat)
    (hseats : ∀ k p, seat' k p → seat k p ∨ k ≤ db.users.seq ∧ ¬Linked db k p)
    (hlinks : ∀ k p u payload, db.users.get? k = some u → req.operation = .updateUser k payload →
      payload.link = some p → ensureMayLink db u payload = .ok () →
      db' = { db with users := db.users.put (u.updated payload) } → ¬seat' k p) :
    Apart db' seat' := by
  intro k p hseat'
  have hold : k ≤ db.users.seq ∧ ¬Linked db k p := by
    rcases hseats k p hseat' with hseat | hnew
    · exact hapart k p hseat
    · exact hnew
  refine ⟨Nat.le_trans hold.1 h.users_seq_le, ?_⟩
  intro hlinked
  rcases h.linked hold.1 hlinked with hbefore | ⟨u, payload, hu, hop, hlink, hmay, hrest⟩
  · exact hold.2 hbefore
  · exact hlinks k p u payload hu hop hlink hmay hrest hseat'

/-! ## The access rows -/

theorem access_seats_step (h : Effect db req user performed db') (hlinks : LinksBelow db)
    (hapart : Apart db (AccessSeat db)) : Apart db' (AccessSeat db') := by
  refine apart_step h hapart ?_ ?_
  · rintro k p ⟨access, haccess, rfl, hocc⟩
    obtain ⟨s, hs⟩ := Chain.mem_occupants.mp hocc
    cases h.access haccess with
    | kept old hold hperson hseats =>
      left
      exact ⟨old, hold, hperson.symm, Chain.mem_occupants.mpr ⟨s, hseats s k hs⟩⟩
    | written hlive hothers =>
      right
      obtain ⟨u, hu, -, -⟩ := hlive s k hs
      have hmem : u ∈ db.users := Table.mem_of_get? hu
      have hid : u.id = k := Table.id_of_get? hu
      subst hid
      refine ⟨id_le_seq hmem, ?_⟩
      apply not_linked_of_mem hmem
      rcases hothers with hothers | hnew
      · exact hothers u hmem hocc
      · intro hp
        have hle := hlinks u hmem _ hp
        omega
  · rintro k p u payload hu hop hlink hmay rfl ⟨access, haccess, hperson, hocc⟩
    have hid : u.id = k := Table.id_of_get? hu
    have hfree := (isEvaluatorOf_eq_false.mp (ensureMayLink_ok hmay hlink).2).1
    rw [hid] at hfree
    exact hfree access haccess hperson hocc

/-! ## The records -/

/-- A new occupant of a seat of a record is not linked to its subject. -/
theorem Change.seats {r r' : EvaluationRecord} {o : Option Action}
    (h : Change db req user r o r') (huser : ∃ u ∈ db.users, user = u.toCurrent) {field : SeatField}
    {k : Nat} (hseat : r'.seat field = some k) :
    r.seat field = some k ∨ k ≤ db.users.seq ∧ ¬Linked db k r.subjectPersonnelId := by
  obtain ⟨u, hu, rfl⟩ := huser
  have hnew : ∀ owner ∈ db.users, owner.personnelId ≠ some r.subjectPersonnelId → owner.id = k →
      k ≤ db.users.seq ∧ ¬Linked db k r.subjectPersonnelId := by
    rintro owner howner hother rfl
    exact ⟨id_le_seq howner, not_linked_of_mem howner hother⟩
  cases h with
  | claimed hopen hunowned hrole hself =>
    cases field with
    | chain s => exact Or.inl hseat
    | hr => exact Or.inr (hnew u hu hself (Option.some.inj hseat))
  | handedOver hopen hself owner reason hop howner hactive hrole hother =>
    cases field with
    | chain s => exact Or.inl hseat
    | hr => exact Or.inr (hnew owner howner hother (Option.some.inj hseat))
  | reassigned hopen hself s hfilled owner reason hop howner hactive hrole hother chain hchain hrest =>
    cases field with
    | hr => exact Or.inl hseat
    | chain t =>
      have ht : chain.seat t = some k := hseat
      by_cases hst : t = s
      · rw [hst, hchain] at ht
        exact Or.inr (hnew owner howner hother (Option.some.inj ht))
      · rw [hrest t hst] at ht
        exact Or.inl ht
  | moved a hallowed hself hresult before hbefore =>
    have hkeeps := hbefore.keeps
    cases field with
    | chain s =>
      have ht : before.chain.seat s = some k := hseat
      rw [hkeeps.2.2.2.1, (claimedFor_keeps r a _).2.2.2] at ht
      exact Or.inl ht
    | hr =>
      have ht : before.hrUserId = some k := hseat
      rw [hkeeps.2.2.2.2] at ht
      unfold EvaluationRecord.claimedFor at ht
      split at ht
      next hclaims =>
        -- only a transition of the HR seat claims, and its user is not the subject
        have hnot : ¬u.toCurrent.isSubjectOf r := by
          rcases hself with hself | ⟨s, hfield⟩
          · exact hself
          · unfold Transition.claims at hclaims
            rw [hfield] at hclaims
            simp at hclaims
        exact Or.inr (hnew u hu hnot (Option.some.inj ht))
      next => exact Or.inl ht
  | _ => exact Or.inl hseat

/-- Where the seats of a record come from: from the record as it was, or from an access row. -/
theorem Effect.record_seats (h : Effect db req user performed db')
    (huser : ∃ u ∈ db.users, user = u.toCurrent) {r' : EvaluationRecord}
    (hr' : r' ∈ db'.evaluationRecords) {field : SeatField} {k : Nat} (hseat : r'.seat field = some k) :
    (∃ r ∈ db.evaluationRecords, r.subjectPersonnelId = r'.subjectPersonnelId ∧
      (r'.isOpen = true → r.isOpen = true) ∧ r.seat field = some k) ∨
    (k ≤ db.users.seq ∧ ¬Linked db k r'.subjectPersonnelId) ∨
    ∃ s, field = .chain s ∧ AccessSeat db k r'.subjectPersonnelId := by
  have hget' : db'.evaluationRecords.get? r'.id = some r' := Table.get?_of_mem hr'
  rcases h.record_or_opened hget' with ⟨r, hget⟩ | ⟨-, access, -, haccess, -, code, hnew⟩
  · obtain ⟨r₁, hr₁, hchange⟩ := h.record hget
    rw [hget'] at hr₁
    cases hr₁
    rw [hchange.subject_eq]
    rcases hchange.seats huser hseat with hold | hnew
    · exact Or.inl ⟨r, Table.mem_of_get? hget, rfl, hchange.isOpen_of, hold⟩
    · exact Or.inr (Or.inl hnew)
  · rw [hnew] at hseat ⊢
    cases field with
    | hr => cases hseat
    | chain s =>
      exact Or.inr (Or.inr ⟨s, rfl, access, haccess, rfl, Chain.mem_occupants.mpr ⟨s, hseat⟩⟩)

theorem record_seats_step (h : Effect db req user performed db')
    (huser : ∃ u ∈ db.users, user = u.toCurrent) (haccess : Apart db (AccessSeat db))
    (hapart : Apart db (RecordSeat db)) : Apart db' (RecordSeat db') := by
  refine apart_step h hapart ?_ ?_
  · rintro k p ⟨r', hr', rfl, hocc⟩
    obtain ⟨s, hs⟩ := Chain.mem_occupants.mp hocc
    rcases h.record_seats huser hr' (by rw [EvaluationRecord.seat_chain, hs]) with
      ⟨r, hr, hsubject, -, hseat⟩ | hnew | ⟨-, -, hfrom⟩
    · rw [EvaluationRecord.seat_chain] at hseat
      exact Or.inl ⟨r, hr, hsubject, Chain.mem_occupants.mpr ⟨s, hseat⟩⟩
    · exact Or.inr hnew
    · exact Or.inr (haccess k _ hfrom)
  · rintro k p u payload hu hop hlink hmay rfl ⟨r, hr, hsubject, hocc⟩
    have hid : u.id = k := Table.id_of_get? hu
    have hfree := (isEvaluatorOf_eq_false.mp (ensureMayLink_ok hmay hlink).2).2
    rw [hid] at hfree
    exact hfree r hr hsubject hocc

/-- The request links no account to a person whose open record it owns in HR. -/
def LinksNoOwner (db : Database) (req : Request) : Prop :=
  ∀ userId payload personnelId, req.operation = .updateUser userId payload →
    payload.link = some personnelId → ¬HrSeat db userId personnelId

theorem hr_seats_step (h : Effect db req user performed db')
    (huser : ∃ u ∈ db.users, user = u.toCurrent) (hcondition : LinksNoOwner db req)
    (hapart : Apart db (HrSeat db)) : Apart db' (HrSeat db') := by
  refine apart_step h hapart ?_ ?_
  · rintro k p ⟨r', hr', hopen, rfl, hhr⟩
    rcases h.record_seats huser hr' (by rw [EvaluationRecord.seat_hr, hhr]) with
      ⟨r, hr, hsubject, hwas, hseat⟩ | hnew | ⟨s, hfield, -⟩
    · exact Or.inl ⟨r, hr, hwas hopen, hsubject, hseat⟩
    · exact Or.inr hnew
    · cases hfield
  · rintro k p u payload hu hop hlink hmay rfl hseat
    exact hcondition k payload p hop hlink hseat

end

/-! ## Decisions -/

/-- The decisions about a record that are no transitions. A comment by HR may claim the record. -/
def RecordOperation.isAdministrative : RecordOperation → Bool
  | extendSubmissionWindow _ _ | hrClaim | hrHandover _ _ | resolveObjection _
  | reassignStageOwner _ _ _ | addComment _ => true
  | _ => false

/-- The request takes a transition of the record or decides about it. -/
def DecidesOn (db : Database) (req : Request) (k : Nat) : Prop :=
  performedOn db req k ≠ none ∨ ∃ op, req.operation = .onRecord k op ∧ op.isAdministrative = true

/-- Whoever decided about a record in the step was not linked to its subject. -/
def DecidedByOthers (x : Taken Database Request) : Prop :=
  ∀ k r user, DecidesOn x.before x.label k → x.before.evaluationRecords.get? k = some r →
    getCurrentUser x.before x.label.userId = .ok user → ¬user.isSubjectOf r

/-- No seat of an open record is filled by somebody who is linked to its subject. -/
def SeatsAreOthers (db : Database) : Prop :=
  ∀ r ∈ db.evaluationRecords, r.isOpen = true → ∀ field k, r.seat field = some k →
    ¬Linked db k r.subjectPersonnelId

section

variable {db db' : Database} {req : Request} {user : CurrentUser}

theorem administrative_not_self {env : Env} {r : EvaluationRecord} {op : RecordOperation} {w : Work}
    (hop : op.isAdministrative = true) (h : op.run db env user r = .ok w) : ¬user.isSubjectOf r := by
  cases op with
  | extendSubmissionWindow untilDate reason =>
    simp only [RecordOperation.run, extendSubmissionWindow, bind_eq_ok] at h
    obtain ⟨_, hmay, -⟩ := h
    exact (ensureMayAdminister_ok hmay).1
  | reassignStageOwner stageField newUserId reason =>
    simp only [RecordOperation.run, reassignStageOwner, bind_eq_ok] at h
    obtain ⟨_, hmay, -⟩ := h
    exact (ensureMayAdminister_ok hmay).1
  | hrClaim =>
    simp only [RecordOperation.run, hrClaim, bind_eq_ok, ensureHrMayHandle_eq_ok] at h
    obtain ⟨_, hmay, -⟩ := h
    exact hmay.1
  | hrHandover newHrUserId reason =>
    simp only [RecordOperation.run, hrHandover, bind_eq_ok, ensureHrMayHandle_eq_ok] at h
    obtain ⟨_, hmay, -⟩ := h
    exact hmay.1
  | addComment commentText =>
    simp only [RecordOperation.run, addComment, bind_eq_ok, ensureHrMayHandle_eq_ok] at h
    obtain ⟨_, hmay, -⟩ := h
    exact hmay.1
  | resolveObjection resolution =>
    simp only [RecordOperation.run, resolveObjection, bind_eq_ok] at h
    obtain ⟨_, hmay, -⟩ := h
    unfold ensureCanResolveObjection at hmay
    split at hmay
    · simp only [bind_eq_ok, ensureHrMayHandle_eq_ok] at hmay
      obtain ⟨_, -, hself, -⟩ := hmay
      exact hself
    · simp only [bind_eq_ok, ensureHrMayHandle_eq_ok] at hmay
      obtain ⟨_, -, hself, -⟩ := hmay
      exact hself
  | _ => cases hop

/-- A transition is taken by somebody who was kept off his own record, or by the occupant of a seat
of its chain. -/
theorem transition_not_self {r r' : EvaluationRecord} {a : Action}
    (h : Change db req user r (some a) r') (huser : ∃ u ∈ db.users, user = u.toCurrent)
    (hr : r ∈ db.evaluationRecords) (hapart : Apart db (RecordSeat db)) : ¬user.isSubjectOf r := by
  obtain ⟨u, hu, rfl⟩ := huser
  cases h with
  | moved _ hallowed hself =>
    rcases hself with hself | ⟨s, hfield⟩
    · exact hself
    · intro hsubject
      have hclaim : (transitions a).claimableIfUnassigned = false := by
        cases a <;> first | rfl | cases hfield
      have hadmits := (transitionBlock_eq_none.mp hallowed).2.2.2
      rw [Transition.admits_iff_of_not_claimable hfield hclaim, EvaluationRecord.seat_chain] at hadmits
      have hseat : RecordSeat db u.id r.subjectPersonnelId :=
        ⟨r, hr, rfl, Chain.mem_occupants.mpr ⟨s, hadmits⟩⟩
      exact (hapart u.id _ hseat).2 (linked_of_mem hu hsubject)

theorem current_mem {userId : Nat} (h : getCurrentUser db userId = .ok user) :
    ∃ u ∈ db.users, user = u.toCurrent := by
  obtain ⟨u, hu, -, rfl⟩ := getCurrentUser_ok h
  exact ⟨u, Table.mem_of_get? hu, rfl⟩

theorem decidedByOthers_step (hstep : Steps db req db') (hapart : Apart db (RecordSeat db)) :
    DecidedByOthers ⟨db, req, db'⟩ := by
  intro k r user hdecides hget huser
  rcases hdecides with hperformed | ⟨op, hop, hadmin⟩
  · obtain ⟨user₁, r', huser₁, -, hchange⟩ := step_record hstep hget
    have hsame : user₁ = user := by
      have heq : getCurrentUser db req.userId = .ok user := huser
      rw [huser₁] at heq
      exact Except.ok.inj heq
    subst hsame
    obtain ⟨a, ha⟩ := Option.ne_none_iff_exists'.mp hperformed
    have ha' : performedOn db req k = some a := ha
    rw [ha'] at hchange
    exact transition_not_self hchange (current_mem huser) (Table.mem_of_get? hget) hapart
  · have hstep' : step db req = .ok db' := hstep
    have hop' : req.operation = .onRecord k op := hop
    simp only [step, bind_eq_ok, hop', Operation.run, onRecord, require_eq_ok] at hstep'
    obtain ⟨user₁, huser₁, -, -, -, -, r₁, hget₁, w, hrun, -⟩ := hstep'
    have heq : getCurrentUser db req.userId = .ok user := huser
    rw [huser₁] at heq
    cases heq
    have hr : db.evaluationRecords.get? k = some r := hget
    rw [hget₁] at hr
    cases hr
    exact administrative_not_self hadmin hrun

end

/-! ## Runs -/

/-- What holds of every database of a run. -/
structure Separated (db : Database) : Prop where
  links : LinksBelow db
  access : Apart db (AccessSeat db)
  records : Apart db (RecordSeat db)

section

variable {tr : List (Taken Database Request)} {db : Database}

theorem separated_initial (h : Initial db) : Separated db where
  links := by
    intro u hu p hp
    exact le_seq_of_isSome (h.users_person u hu p hp)
  access := by
    rintro k p ⟨access, haccess, rfl, hocc⟩
    obtain ⟨u, hu⟩ := Option.isSome_iff_exists.mp (h.access_users access haccess k hocc)
    have hmem : u ∈ db.users := Table.mem_of_get? hu
    have hid : u.id = k := Table.id_of_get? hu
    subst hid
    exact ⟨id_le_seq hmem, not_linked_of_mem hmem (h.access_not_self access haccess u hmem hocc)⟩
  records := by
    rintro k p ⟨r, hr, -⟩
    exact absurd hr (h.no_records r)

/-- Logs are nothing that separation is about. -/
theorem separated_step {req : Request} {db' : Database} (hstep : Steps db req db')
    (h : Separated db) : Separated db' := by
  obtain ⟨user, huser, d, _, _, heffect, rfl⟩ := effect_of_steps hstep
  have haccess := access_seats_step heffect h.links h.access
  have hrecords := record_seats_step heffect (current_mem huser) h.access h.records
  exact ⟨heffect.linksBelow h.links, haccess, hrecords⟩

theorem separated_of_run (h : SystemRun tr db) : Separated db :=
  h.invariant (P := Separated) (fun _ hinit => separated_initial hinit)
    fun _ _ _ hs hstep => separated_step hstep hs

/-- Every decision of a run was made by others. -/
theorem decidedByOthers_of_run (h : SystemRun tr db) : ∀ x ∈ tr, DecidedByOthers x := by
  intro x hx
  obtain ⟨⟨old, hold, -⟩, hstep⟩ := h.step_of_mem hx
  exact decidedByOthers_step hstep (separated_of_run hold).records

/-- While no step links an owner, the HR seats are apart. -/
theorem hr_seats_of_run (h : SystemRun tr db) (hcondition : ∀ x ∈ tr, LinksNoOwner x.before x.label) :
    Apart db (HrSeat db) := by
  refine h.invariant_of_steps (P := fun db => Apart db (HrSeat db))
    (C := fun x => LinksNoOwner x.before x.label) ?_ ?_ hcondition
  · rintro db hinit k p ⟨r, hr, -⟩
    exact absurd hr (hinit.no_records r)
  · intro db req db' hapart hstep hlinks
    obtain ⟨user, huser, d, _, _, heffect, rfl⟩ := effect_of_steps hstep
    have hd := hr_seats_step heffect (current_mem huser) hlinks hapart
    exact hd

theorem seatsAreOthers_of_apart (hrecords : Apart db (RecordSeat db)) (hhr : Apart db (HrSeat db)) :
    SeatsAreOthers db := by
  intro r hr hopen field k hseat
  cases field with
  | chain s => exact (hrecords k _ ⟨r, hr, rfl, Chain.mem_occupants.mpr ⟨s, hseat⟩⟩).2
  | hr => exact (hhr k _ ⟨r, hr, hopen, rfl, hseat⟩).2

theorem updateUser_ok {env : Env} {user : CurrentUser} {userId : Nat} {payload : UserUpdate}
    {db' : Database} (h : updateUser db env user userId payload = .ok db') :
    ∃ u, db.users.get? userId = some u ∧ db'.users = db.users.put (u.updated payload) ∧
      db'.evaluationRecords = db.evaluationRecords := by
  unfold updateUser at h
  simp only [bind_eq_ok, pure_eq_ok, require_eq_ok] at h
  obtain ⟨-, -, u, hget, -, -, -, -, -, -, -, -, rfl⟩ := h
  exact ⟨u, hget, rfl, rfl⟩

/-- A step that links an owner leaves a seat that is his own. -/
theorem linksNoOwner_of_seats {req : Request} {db' : Database} (hstep : Steps db req db')
    (hseats : SeatsAreOthers db') : LinksNoOwner db req := by
  rintro userId payload p hop hlink ⟨r, hr, hopen, rfl, hhr⟩
  have hstep' : step db req = .ok db' := hstep
  simp only [step, bind_eq_ok, hop, Operation.run] at hstep'
  obtain ⟨user, -, hupdate⟩ := hstep'
  obtain ⟨u, hu, husers, hrecords⟩ := updateUser_ok hupdate
  have hid : u.id = userId := Table.id_of_get? hu
  have hlinked : Linked db' userId r.subjectPersonnelId := by
    refine ⟨u.updated payload, ?_, ?_⟩
    · have hself : HasId.id (u.updated payload) = userId := hid
      rw [husers, ← hself]
      exact Table.get?_put_self (by rw [hself]; exact hu)
    · have hto : payload.personnelId.join = some r.subjectPersonnelId := hlink
      show payload.personnelId.getD u.personnelId = some r.subjectPersonnelId
      rw [Option.join_eq_some_iff] at hto
      rw [hto]
      rfl
  rw [← hrecords] at hr
  exact hseats r hr hopen .hr userId hhr hlinked

/-! ## The result -/

/-- Nobody decides about himself and nobody sits in judgement on himself, in every step of a run,
exactly when no step links an account to a person whose open record it owns in HR. -/
theorem no_self_decision_iff (h : SystemRun tr db) :
    (∀ x ∈ tr, DecidedByOthers x ∧ SeatsAreOthers x.after) ↔
      ∀ x ∈ tr, LinksNoOwner x.before x.label := by
  constructor
  · intro hseats x hx
    obtain ⟨-, hstep⟩ := h.step_of_mem hx
    exact linksNoOwner_of_seats hstep (hseats x hx).2
  · intro hcondition x hx
    refine ⟨decidedByOthers_of_run h x hx, ?_⟩
    obtain ⟨⟨old, hold, hmem⟩, hstep⟩ := h.step_of_mem hx
    have hafter : SystemRun (x :: old) x.after := Run.cons hold hstep
    apply seatsAreOthers_of_apart (separated_of_run hafter).records
    apply hr_seats_of_run hafter
    intro y hy
    rcases List.mem_cons.mp hy with rfl | hy
    · exact hcondition y hx
    · exact hcondition y (hmem y hy)

end

theorem finalizedByAll_self_decision :
    SystemRun (replay settled (office fullChain) finalizedByAll)
        (endState settled (office fullChain) finalizedByAll) ∧
      ∀ x ∈ replay settled (office fullChain) finalizedByAll,
        DecidedByOthers x ∧ SeatsAreOthers x.after := by
  refine ⟨finalizedByAll_run, (no_self_decision_iff finalizedByAll_run).mpr ?_⟩
  intro x hx userId payload p hop
  have hnone : ((replay settled (office fullChain) finalizedByAll).all fun x =>
      match x.label.operation with
      | .updateUser _ _ => false
      | _ => true) = true := by
    decide
  have hx' := List.all_eq_true.mp hnone x hx
  rw [hop] at hx'
  cases hx'

/-- A record is claimed in HR, and then the account of its owner is linked to its subject. -/
def ownerBecomesSubject : List Request :=
  [ask 5 (.updateUser 4 { personnelId := some (some 1) }), ask 4 (.onRecord 1 .hrClaim),
    ask 1 (.createEvaluation 1)]

theorem owner_becomes_subject :
    ∃ tr db, SystemRun tr db ∧ ∃ r ∈ db.evaluationRecords, r.isOpen = true ∧
      r.seat .hr = some 4 ∧ Linked db 4 r.subjectPersonnelId := by
  refine ⟨replay settled (office fullChain) ownerBecomesSubject,
    endState settled (office fullChain) ownerBecomesSubject,
    systemRun_replay (office_initial (by decide)) (by decide), ?_⟩
  obtain ⟨r, hget, hr⟩ := exists_of_any
    (o := (endState settled (office fullChain) ownerBecomesSubject).evaluationRecords.get? 1)
    (p := fun r => r.isOpen && r.hrUserId = some 4 && r.subjectPersonnelId = 1)
    (by decide)
  obtain ⟨u, hu, hlink⟩ := exists_of_any
    (o := (endState settled (office fullChain) ownerBecomesSubject).users.get? 4)
    (p := fun u => u.personnelId = some 1)
    (by decide)
  simp only [Bool.and_eq_true, decide_eq_true_eq] at hr hlink
  obtain ⟨⟨hopen, hhr⟩, hsubject⟩ := hr
  refine ⟨r, Table.mem_of_get? hget, hopen, hhr, u, hu, ?_⟩
  rw [hlink, hsubject]

end NexaHR
