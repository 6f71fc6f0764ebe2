import NexaHR.System.RecordRuns
import NexaHR.System.Installation

/-! # From the submission to the final document

The submission asks for a complete form; the finalization asks for a form that is not empty. Where
the record's form asks anything, what was submitted passes every later guard on its form. Where it
asks nothing, the submission succeeds and no finalization ever does.

* `FormGuardsPass`: the guards behind the submission that read the scored form.
* `submitted_is_finalisable_iff`: when they pass.
* `Documented`: what every finalized record carries.
-/

namespace NexaHR

open Foundations

set_option autoImplicit false

/-! ## The later guards -/

/-- A transition behind the submission, with the `before` that its endpoint gives it. -/
def carryOn (db : Database) (env : Env) (user : CurrentUser) (r : EvaluationRecord) (b : Action) :
    Except HTTPException Work :=
  applyTransition db env r b user
    (if (transitions b).toStatus = .finalized then stampFinalization db env else nothingBefore)

/-- Behind the submission the guard on the record's own form passes, and is the only one on it: who is
allowed to take a transition, on a record of an existing person, takes it. -/
def FormGuardsPass (db : Database) (r : EvaluationRecord) : Prop :=
  ∀ b : Action, b.isForward = true → b.isSubmit = false →
    ensureHasResult (transitions b) r = .ok () ∧
      ∀ env user, transitionBlock r b user = none → ensureHrDuties (transitions b) r user = .ok () →
        (db.personnel.get? r.subjectPersonnelId).isSome = true → ∃ w, carryOn db env user r b = .ok w

theorem buildFinalSnapshot_of_person {db : Database} {r : EvaluationRecord}
    (h : (db.personnel.get? r.subjectPersonnelId).isSome = true) :
    ∃ snapshot, buildFinalSnapshot db r = .ok snapshot := by
  obtain ⟨person, hperson⟩ := Option.isSome_iff_exists.mp h
  unfold buildFinalSnapshot
  rw [hperson]
  exact ⟨_, rfl⟩

theorem carryOn_of_hasResult {db : Database} {env : Env} {user : CurrentUser} {r : EvaluationRecord}
    {b : Action} (hresult : r.hasResult = true) (hblock : transitionBlock r b user = none)
    (hduties : ensureHrDuties (transitions b) r user = .ok ())
    (hperson : (db.personnel.get? r.subjectPersonnelId).isSome = true) :
    ∃ w, carryOn db env user r b = .ok w := by
  unfold carryOn
  by_cases hto : (transitions b).toStatus = .finalized
  · rw [if_pos hto]
    have hsubject : (r.claimedFor b user).subjectPersonnelId = r.subjectPersonnelId :=
      (claimedFor_keeps r b user).2.1
    obtain ⟨snapshot, hsnapshot⟩ := buildFinalSnapshot_of_person
      (r := { r.claimedFor b user with finalizedAt := some env.now }) (by rw [hsubject]; exact hperson)
    have hstamp : stampFinalization db env (r.claimedFor b user) = .ok
        { record :=
            { r.claimedFor b user with
              finalizedAt := some env.now
              finalSnapshot := some snapshot
              verifyToken := some env.freshToken } } := by
      unfold stampFinalization
      simp only [hsnapshot]
      rfl
    exact applyTransition_of_checks hblock hduties (fun _ => hresult) hstamp (fun _ => rfl)
  · rw [if_neg hto]
    exact applyTransition_of_checks hblock hduties (fun _ => hresult) rfl (fun h => absurd h hto)

theorem formGuardsPass_iff {db : Database} {r : EvaluationRecord} :
    FormGuardsPass db r ↔ r.hasResult = true := by
  constructor
  · intro h
    have hceo := (h .ceoFinalize rfl rfl).1
    unfold ensureHasResult at hceo
    rw [ensure_eq_ok] at hceo
    exact hceo rfl
  · intro h b _ _
    refine ⟨?_, ?_⟩
    · unfold ensureHasResult
      rw [ensure_eq_ok]
      exact fun _ => h
    · intro env user hblock hduties hperson
      exact carryOn_of_hasResult h hblock hduties hperson

/-- Without a result nobody finalizes the record. -/
theorem finalization_refused {db : Database} {env : Env} {user : CurrentUser} {r : EvaluationRecord}
    {b : Action} {before : EvaluationRecord → Except HTTPException Work}
    (hto : (transitions b).toStatus = .finalized) (h : r.hasResult = false) :
    ∃ e, applyTransition db env r b user before = .error e := by
  cases happly : applyTransition db env r b user before with
  | error e => exact ⟨e, rfl⟩
  | ok w =>
    obtain ⟨-, -, hresult, -⟩ := applyTransition_ok happly
    rw [hresult hto] at h
    cases h

/-- No step of the history returned the record. -/
def NotReturned (k : Nat) (new : List (Taken Database Request)) : Prop :=
  ∀ y ∈ new, ∀ b, performedOn y.before y.label k = some b → b.isReturn = false

/-- Whatever follows the submission, up to a return, the later guards on the form pass. -/
def StaysFinalisable (k : Nat) (db : Database) : Prop :=
  ∀ new db', Run (· = db) Steps new db' → NotReturned k new →
    ∀ r, db'.evaluationRecords.get? k = some r → FormGuardsPass db' r

/-- Whatever follows the submission, up to a return, every finalization is refused. -/
def NeverFinalisable (k : Nat) (db : Database) : Prop :=
  ∀ new db', Run (· = db) Steps new db' → NotReturned k new →
    ∀ r, db'.evaluationRecords.get? k = some r → ∀ b, (transitions b).toStatus = .finalized →
      ∀ env user before, ∃ e, applyTransition db' env r b user before = .error e

/-! ## After the submission -/

/-- Nothing but a return leads back to the draft. -/
theorem toStatus_draft {a : Action} (h : (transitions a).toStatus = .draft) : a.isReturn = true := by
  cases a <;> first | rfl | exact absurd h (by decide)

/-- Up to a return, a submitted record keeps its scored form. -/
theorem form_persists {new : List (Taken Database Request)} {db db' : Database} {k : Nat}
    {r : EvaluationRecord} (h : Run (· = db) Steps new db') (hnot : NotReturned k new)
    (hget : db.evaluationRecords.get? k = some r) (hdraft : r.status ≠ .draft) :
    ∃ r', db'.evaluationRecords.get? k = some r' ∧ r'.status ≠ .draft ∧ r'.form = r.form := by
  induction h with
  | nil heq =>
    subst heq
    exact ⟨r, hget, hdraft, rfl⟩
  | @cons new db₁ req db₂ _ hstep ih =>
    obtain ⟨r₁, hr₁, hdraft₁, hform₁⟩ := ih fun y hy => hnot y (List.mem_cons_of_mem _ hy)
    obtain ⟨user, r₂, -, hr₂, hchange⟩ := step_record hstep hr₁
    refine ⟨r₂, hr₂, ?_, (hchange.form_eq hdraft₁).trans hform₁⟩
    rcases hchange.status_eq with ⟨-, hs⟩ | ⟨a, ha, -, hs⟩
    · rw [hs]
      exact hdraft₁
    · rw [hs]
      intro hto
      have hreturn := toStatus_draft hto
      rw [hnot ⟨db₁, req, db₂⟩ List.mem_cons_self a ha] at hreturn
      cases hreturn

theorem hasResult_of_form {r r' : EvaluationRecord} (h : r'.form = r.form) :
    r'.hasResult = r.hasResult := by
  have hfinal : r'.finalWeightedPct = r.finalWeightedPct := congrArg ScoredForm.finalWeightedPct h
  have hscores : r'.scores = r.scores := congrArg ScoredForm.scores h
  unfold EvaluationRecord.hasResult
  rw [hfinal, hscores]

section

variable {db db' : Database} {req : Request} {user : CurrentUser} {k : Nat} {r r' : EvaluationRecord}
  {a : Action}

/-- Right after its submission a record has a result exactly when its form asks anything. -/
theorem hasResult_after_submit {req : Request} (h : Change db req user r (some a) r')
    (ha : a.isSubmit = true) : r'.hasResult = true ↔ indicatorsForRecord db r ≠ [] := by
  obtain ⟨hcomplete, rfl⟩ := submit_change h ha
  have hempty := isEmpty_scores_of_complete hcomplete
  show (true && !r.scores.isEmpty) = true ↔ _
  rw [Bool.true_and, Bool.not_eq_true', List.isEmpty_eq_false_iff, ne_eq, hempty]

end

/-! ## What a finalized record carries -/

/-- A finalized record has scores, a document, a key to its public page and a date. -/
def Documented (r : EvaluationRecord) : Prop :=
  r.status = .finalized → r.scores ≠ [] ∧ r.finalSnapshot.isSome = true ∧
    r.verifyToken.isSome = true ∧ r.finalizedAt.isSome = true

theorem documented_change {db : Database} {req : Request} {user : CurrentUser} {r r' : EvaluationRecord}
    {o : Option Action} (hr : Documented r) (h : Change db req user r o r') : Documented r' := by
  intro hfinal
  have hstatus := h.status_eq
  cases h with
  | scored hscorer =>
    have hdraft := isTheScorer_draft hscorer
    rw [show r.status = .finalized from hfinal] at hdraft
    cases hdraft
  | moved a hallowed hself hresult before hbefore =>
    have hto : (transitions a).toStatus = .finalized := hfinal
    have hscores : r.scores ≠ [] := by
      have hres := hresult hto
      unfold EvaluationRecord.hasResult at hres
      rw [Bool.and_eq_true, Bool.not_eq_true', List.isEmpty_eq_false_iff] at hres
      exact hres.2
    have hclaimed : (r.claimedFor a user).scores = r.scores :=
      congrArg ScoredForm.scores (claimedFor_form r a user)
    cases hbefore with
    | plain _ hne => exact absurd hto hne
    | scored hsubmit => exact absurd hto (submit_not_finalized hsubmit).1
    | stamped _ snapshot =>
      refine ⟨?_, rfl, rfl, ?_⟩
      · show (r.claimedFor a user).scores ≠ []
        rw [hclaimed]
        exact hscores
      · simp [EvaluationRecord.moved]
  | _ => exact hr hfinal

theorem documented_of_run {tr : List (Taken Database Request)} {db : Database} (h : SystemRun tr db)
    {k : Nat} {r : EvaluationRecord} (hget : db.evaluationRecords.get? k = some r) : Documented r :=
  record_invariant
    (fun o access skipped code id (hf : (newRecord o access skipped code id).status = .finalized) =>
      by cases hf)
    (fun _ _ _ _ _ _ hr hc => documented_change hr hc) h k r hget

/-! ## The result -/

/-- What was submitted stays finalisable exactly when its form asked anything; otherwise nobody ever
finalizes it without a return. What is finalized carries its document. -/
theorem submitted_is_finalisable_iff {tr : List (Taken Database Request)} {db : Database}
    (h : SystemRun tr db) :
    (∀ req db' k r a, Steps db req db' → db.evaluationRecords.get? k = some r →
      performedOn db req k = some a → a.isSubmit = true →
        (StaysFinalisable k db' ↔ indicatorsForRecord db r ≠ []) ∧
          (indicatorsForRecord db r = [] → NeverFinalisable k db')) ∧
      ∀ r ∈ db.evaluationRecords, Documented r := by
  refine ⟨?_, ?_⟩
  · intro req db' k r a hstep hget hperformed ha
    obtain ⟨user, r', -, hget', hchange⟩ := step_record hstep hget
    rw [hperformed] at hchange
    have hafter := hasResult_after_submit hchange ha
    have hdraft : r'.status ≠ .draft := by
      rw [hchange.status_some.2]
      exact (submit_not_finalized ha).2
    have hlater : ∀ new db'', Run (· = db') Steps new db'' → NotReturned k new →
        ∀ r'', db''.evaluationRecords.get? k = some r'' → r''.hasResult = r'.hasResult := by
      intro new db'' hrun hnot r'' hget''
      obtain ⟨r₂, hr₂, -, hform⟩ := form_persists hrun hnot hget' hdraft
      rw [hget''] at hr₂
      cases hr₂
      exact hasResult_of_form hform
    refine ⟨⟨?_, ?_⟩, ?_⟩
    · intro hstays
      have hpass := hstays [] db' (Run.nil rfl) (fun y hy => by cases hy) r' hget'
      exact hafter.mp (formGuardsPass_iff.mp hpass)
    · intro hasks new db'' hrun hnot r'' hget''
      rw [formGuardsPass_iff, hlater new db'' hrun hnot r'' hget'']
      exact hafter.mpr hasks
    · intro hempty new db'' hrun hnot r'' hget'' b hto env user before
      refine finalization_refused hto ?_
      rw [hlater new db'' hrun hnot r'' hget'', Bool.eq_false_iff]
      intro hresult
      exact hafter.mp hresult hempty
  · intro r hr
    exact documented_of_run h (Table.get?_of_mem hr)

theorem finalizedByAll_documented :
    ∃ r ∈ (endState settled (office fullChain) finalizedByAll).evaluationRecords,
      r.status = .finalized ∧ Documented r := by
  obtain ⟨r, hget, hr⟩ := exists_of_any
    (o := (endState settled (office fullChain) finalizedByAll).evaluationRecords.get? 1)
    (p := fun r => r.status = .finalized) (by decide)
  have hmem := Table.mem_of_get? hget
  exact ⟨r, hmem, by simpa using hr, (submitted_is_finalisable_iff finalizedByAll_run).2 r hmem⟩

/-! ## An empty form -/

/-- HR and the deputy approve it. -/
def approvedEmpty : List Request :=
  [ask 2 (.onRecord 1 .deputyApprove), ask 4 (.onRecord 1 .hrApprove)]

/-- The submission of a form that asks nothing is answered, and two approvals later the finalization
is refused. -/
theorem empty_form_is_stranded :
    ¬∀ tr db req db' k r a, SystemRun tr db → Steps db req db' →
      db.evaluationRecords.get? k = some r → performedOn db req k = some a → a.isSubmit = true →
        StaysFinalisable k db' := by
  intro hclaim
  have hrun : SystemRun (replay settled emptyOffice [ask 1 (.createEvaluation 1)])
      (endState settled emptyOffice [ask 1 (.createEvaluation 1)]) :=
    systemRun_replay (office_initial (by decide)) (by decide)
  have hstep : Steps (endState settled emptyOffice [ask 1 (.createEvaluation 1)])
      (ask 1 (.onRecord 1 .submitEvaluation)) (endState settled emptyOffice submittedEmpty) :=
    steps_settled (by decide)
  obtain ⟨r, hget, -⟩ := exists_of_any
    (o := (endState settled emptyOffice [ask 1 (.createEvaluation 1)]).evaluationRecords.get? 1)
    (p := fun _ => true) (by decide)
  have hstays := hclaim _ _ _ _ 1 r .submit hrun hstep hget (by decide) rfl
  have hlater : Run (· = endState settled emptyOffice submittedEmpty) Steps
      (replay settled (endState settled emptyOffice submittedEmpty) approvedEmpty)
      (endState settled (endState settled emptyOffice submittedEmpty) approvedEmpty) :=
    run_replay rfl (steps_replay (by decide))
  have hnot : NotReturned 1
      (replay settled (endState settled emptyOffice submittedEmpty) approvedEmpty) := by
    have hall : ((replay settled (endState settled emptyOffice submittedEmpty) approvedEmpty).all
        fun y => (performedOn y.before y.label 1).all fun b => !b.isReturn) = true := by
      decide
    intro y hy b hb
    have hy' := List.all_eq_true.mp hall y hy
    rw [hb] at hy'
    simpa using hy'
  obtain ⟨r', hget', hr'⟩ := exists_of_any
    (o := (endState settled (endState settled emptyOffice submittedEmpty)
      approvedEmpty).evaluationRecords.get? 1)
    (p := fun r => r.status = .deputyApproved && !r.hasResult) (by decide)
  have hpass := formGuardsPass_iff.mp (hstays _ _ hlater hnot r' hget')
  rw [hpass] at hr'
  simp at hr'

end NexaHR
