import NexaHR.System.OtherTables

/-! # One open record of a person

Both ways of opening records look for an open record of the person first, and a cohort names nobody
twice.

* `OneOpen`: no person has two open records.
* `opened_free`: the people that a request opens records for are different and have none.
* `oneOpen_step`: every step keeps it.
-/

namespace NexaHR

open Foundations

set_option autoImplicit false

def OneOpen (db : Database) : Prop :=
  ∀ r ∈ db.evaluationRecords, ∀ r' ∈ db.evaluationRecords, r.isOpen = true → r'.isOpen = true →
    r.subjectPersonnelId = r'.subjectPersonnelId → r = r'

section

variable {db db' : Database} {req : Request} {user : CurrentUser} {k : Nat}

theorem openRecordOf_eq_none :
    db.openRecordOf k = none ↔
      ∀ r ∈ db.evaluationRecords, r.subjectPersonnelId = k → r.isOpen = false := by
  unfold Database.openRecordOf
  rw [List.find?_eq_none]
  simp [Table.mem_def]

/-- In a database with one open record of a person at most, the one that is found is the one. -/
theorem OneOpen.openRecordOf (h : OneOpen db) {r : EvaluationRecord} (hr : r ∈ db.evaluationRecords)
    (hopen : r.isOpen = true) : db.openRecordOf r.subjectPersonnelId = some r := by
  cases hfound : db.openRecordOf r.subjectPersonnelId with
  | none =>
    have hclosed := openRecordOf_eq_none.mp hfound r hr rfl
    rw [hopen] at hclosed
    cases hclosed
  | some r' =>
    obtain ⟨hr', hsubject, hopen'⟩ := openRecordOf_spec hfound
    rw [h r hr r' hr' hopen hopen' hsubject.symm]

/-! ## Opening -/

theorem insertRecord_oneOpen {o : Opening} {access : EvaluationAccess} {hrReviewSkipped : Bool}
    (h : OneOpen db) (hfree : db.openRecordOf access.personnelId = none) :
    OneOpen (insertRecord db o access hrReviewSkipped) := by
  have hnone := openRecordOf_eq_none.mp hfree
  intro r hr r' hr' hopen hopen' hsubject
  rcases mem_insertRecord.mp hr with hold | rfl
  · rcases mem_insertRecord.mp hr' with hold' | rfl
    · exact h r hold r' hold' hopen hopen' hsubject
    · have hclosed := hnone r hold hsubject
      rw [hopen] at hclosed
      cases hclosed
  · rcases mem_insertRecord.mp hr' with hold' | rfl
    · have hclosed := hnone r' hold' hsubject.symm
      rw [hopen'] at hclosed
      cases hclosed
    · rfl

theorem insertRecord_openRecordOf {o : Opening} {access : EvaluationAccess} {hrReviewSkipped : Bool}
    (hne : access.personnelId ≠ k) (hfree : db.openRecordOf k = none) :
    (insertRecord db o access hrReviewSkipped).openRecordOf k = none := by
  have hnone := openRecordOf_eq_none.mp hfree
  rw [openRecordOf_eq_none]
  intro r hr hsubject
  rcases mem_insertRecord.mp hr with hold | rfl
  · exact hnone r hold hsubject
  · exact absurd hsubject hne

/-- Drafts for different people without open records. -/
theorem insertRecords_oneOpen {o : Opening} {skipped : EvaluationAccess → Bool}
    {accesses : List EvaluationAccess} (h : OneOpen db)
    (hnodup : (accesses.map EvaluationAccess.personnelId).Nodup)
    (hfree : ∀ access ∈ accesses, db.openRecordOf access.personnelId = none) :
    OneOpen (accesses.foldl (fun d access => insertRecord d o access (skipped access)) db) := by
  induction accesses generalizing db with
  | nil => exact h
  | cons access accesses ih =>
    rw [List.map_cons, List.nodup_cons] at hnodup
    refine ih (insertRecord_oneOpen h (hfree access List.mem_cons_self)) hnodup.2 ?_
    intro other hother
    refine insertRecord_openRecordOf ?_ (hfree other (List.mem_cons_of_mem _ hother))
    intro heq
    rw [heq] at hnodup
    exact hnodup.1 (List.mem_map_of_mem hother)

/-- The plan opens a record for each person at most once, and for nobody who has an open one. -/
theorem plannedAccess_free (people : List Personnel) (hnodup : (people.map Personnel.id).Nodup) :
    ((plannedAccess db people).map EvaluationAccess.personnelId).Nodup ∧
      ∀ access ∈ plannedAccess db people, db.openRecordOf access.personnelId = none := by
  have hperson : ∀ person access, db.accessOf person = some access → access.personnelId = person :=
    fun person access h => (accessOf_spec h).2
  unfold plannedAccess
  constructor
  · have hpeople : (((people.filter fun person => planOne db person = .created)).map Personnel.id).Nodup :=
      hnodup.sublist (List.filter_sublist.map _)
    generalize people.filter (fun person => planOne db person = .created) = planned at hpeople
    induction planned with
    | nil => exact List.nodup_nil
    | cons person planned ih =>
      rw [List.map_cons, List.nodup_cons] at hpeople
      cases haccess : db.accessOf person.id with
      | none =>
        simp only [List.filterMap_cons, haccess]
        exact ih hpeople.2
      | some access =>
        simp only [List.filterMap_cons, haccess]
        rw [List.map_cons, List.nodup_cons]
        refine ⟨?_, ih hpeople.2⟩
        intro hmem
        obtain ⟨other, hother, heq⟩ := List.mem_map.mp hmem
        obtain ⟨person', hperson', haccess'⟩ := List.mem_filterMap.mp hother
        rw [hperson _ _ haccess, hperson _ _ haccess'] at heq
        rw [← heq] at hpeople
        exact hpeople.1 (List.mem_map_of_mem hperson')
  · intro access haccess
    obtain ⟨person, hplanned, hfound⟩ := List.mem_filterMap.mp haccess
    have hplan : planOne db person = .created := by simpa using (List.mem_filter.mp hplanned).2
    rw [hperson _ _ hfound]
    unfold planOne at hplan
    split at hplan
    next => cases hplan
    next hopen => simpa using hopen

theorem loadCohort_nodup (db : Database) (cohort : CohortFilter) :
    ((loadCohort db cohort).map Personnel.id).Nodup := by
  have hperm : (loadCohort db cohort).Perm (db.personnel.rows.filter cohort.admits) :=
    List.mergeSort_perm _ _
  have hrows : ((db.personnel.rows.filter cohort.admits).map Personnel.id).Nodup :=
    db.personnel.nodup.sublist (List.filter_sublist.map _)
  exact (hperm.map _).nodup_iff.mpr hrows

theorem opened_free (h : Steps db req db') :
    ((openedBy db req).map EvaluationAccess.personnelId).Nodup ∧
      ∀ access ∈ openedBy db req, db.openRecordOf access.personnelId = none := by
  have hstep : step db req = .ok db' := h
  unfold step at hstep
  rw [bind_eq_ok] at hstep
  obtain ⟨user, -, hrun⟩ := hstep
  unfold openedBy
  split
  next personnelId hop =>
    rw [hop] at hrun
    simp only [Operation.run, NexaHR.createEvaluation, bind_eq_ok, ensure_eq_ok] at hrun
    obtain ⟨-, -, -, -, -, -, -, -, -, -, -, -, -, hfree, -⟩ := hrun
    cases haccess : db.accessOf personnelId with
    | none => exact ⟨List.nodup_nil, fun access hmem => absurd hmem List.not_mem_nil⟩
    | some access =>
      refine ⟨List.nodup_singleton _, ?_⟩
      intro other hother
      rw [List.mem_singleton.mp hother, (accessOf_spec haccess).2]
      exact hfree
  next cohort hop => exact plannedAccess_free _ (loadCohort_nodup db cohort)
  next => exact ⟨List.nodup_nil, fun access hmem => absurd hmem List.not_mem_nil⟩

/-! ## One step -/

theorem oneOpen_step (h : Steps db req db') (hone : OneOpen db) : OneOpen db' := by
  have hold : ∀ r' ∈ db'.evaluationRecords, r'.isOpen = true → ∀ r,
      db.evaluationRecords.get? r'.id = some r →
        r.isOpen = true ∧ r.subjectPersonnelId = r'.subjectPersonnelId := by
    intro r' hr' hopen' r hget
    obtain ⟨user, r₁, -, hr₁, hchange⟩ := step_record h hget
    rw [show db'.evaluationRecords.get? r'.id = some r' from Table.get?_of_mem hr'] at hr₁
    cases hr₁
    exact ⟨hchange.isOpen_of hopen', hchange.subject_eq.symm⟩
  by_cases hnew : ∃ r' ∈ db'.evaluationRecords, db.evaluationRecords.get? r'.id = none
  · obtain ⟨r', hr', hnone⟩ := hnew
    obtain ⟨hnodup, hfree⟩ := opened_free h
    obtain ⟨user, -, d, log, notifications, heffect, rfl⟩ := effect_of_steps h
    have hget' : d.evaluationRecords.get? r'.id = some r' := Table.get?_of_mem hr'
    rcases heffect.record_or_opened hget' with ⟨r, hget⟩ | ⟨rfl, -⟩
    · rw [hnone] at hget
      cases hget
    · have hrecords := @ensureFramework_records db
      have hframed : OneOpen (ensureFramework db).2 := by
        unfold OneOpen
        rw [hrecords]
        exact hone
      refine insertRecords_oneOpen hframed hnodup ?_
      intro access haccess
      unfold Database.openRecordOf
      rw [hrecords]
      exact hfree access haccess
  · intro r₁' h₁ r₂' h₂ hopen₁ hopen₂ hsubject
    have hthere : ∀ r' ∈ db'.evaluationRecords, ∃ r, db.evaluationRecords.get? r'.id = some r := by
      intro r' hr'
      cases hget : db.evaluationRecords.get? r'.id with
      | some r => exact ⟨r, rfl⟩
      | none => exact absurd ⟨r', hr', hget⟩ hnew
    obtain ⟨r₁, hget₁⟩ := hthere r₁' h₁
    obtain ⟨r₂, hget₂⟩ := hthere r₂' h₂
    obtain ⟨hwas₁, hsame₁⟩ := hold r₁' h₁ hopen₁ r₁ hget₁
    obtain ⟨hwas₂, hsame₂⟩ := hold r₂' h₂ hopen₂ r₂ hget₂
    have heq : r₁ = r₂ := hone r₁ (Table.mem_of_get? hget₁) r₂ (Table.mem_of_get? hget₂) hwas₁ hwas₂
      (by rw [hsame₁, hsame₂, hsubject])
    have hid : r₁'.id = r₂'.id := by
      rw [← (Table.id_of_get? hget₁ : r₁.id = r₁'.id), ← (Table.id_of_get? hget₂ : r₂.id = r₂'.id), heq]
    exact Table.eq_of_id_eq h₁ h₂ hid

theorem oneOpen_of_run {tr : List (Taken Database Request)} (h : SystemRun tr db) : OneOpen db := by
  refine h.invariant (P := OneOpen) ?_ ?_
  · intro db hinit r hr
    exact absurd hr (hinit.no_records r)
  · intro db req db' hone hstep
    exact oneOpen_step hstep hone

end

end NexaHR
