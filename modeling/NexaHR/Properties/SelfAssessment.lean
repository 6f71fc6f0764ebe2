import NexaHR.Routers.Reading
import NexaHR.System.Installation
import NexaHR.System.RecordSteps

/-! # The self-assessment

It is open while the record is a draft, and is filed once. A record that is returned to the scorer is a
draft again, so a self-assessment that was not filed before the first submission can be filed after it.

* `Submits`: the step is a submission of the record.
* `FixedAtSubmission`: what there is at a submission stays.
* `FiledLate`: a self-assessment is filed on a record that has a stored result.
* `selfAssessment_fixed_iff`: the first holds in a run exactly when the second does not happen in it.
-/

namespace NexaHR

open Foundations

set_option autoImplicit false

/-! ## What shows it -/

/-- The self-assessment of a record, as it is shown. -/
def shownSelfAssessment (db : Database) (k : Nat) : Option SelfAssessmentRead :=
  (db.evaluationRecords.get? k).bind selfAssessmentOf

/-- The step submits the record. -/
def Submits (k : Nat) (x : Taken Database Request) : Prop :=
  ∃ a, performedOn x.before x.label k = some a ∧ a.isSubmit = true

/-- The self-assessment that a record has when it is submitted stays as it is. -/
def FixedAtSubmission (tr : List (Taken Database Request)) : Prop :=
  ∀ new x old k, tr = new ++ x :: old → Submits k x → ∀ y ∈ new ++ [x],
    shownSelfAssessment y.after k = shownSelfAssessment x.before k

/-- The record of a self-assessment that the request files. -/
def Request.filing (req : Request) : Option Nat :=
  match req.operation with
  | .onRecord k (.submitSelfAssessment _ _) => some k
  | _ => none

/-- The request files a self-assessment on a record that already has a result. -/
def FiledLate (x : Taken Database Request) : Prop :=
  ∃ k r, x.label.filing = some k ∧ x.before.evaluationRecords.get? k = some r ∧
    r.finalWeightedPct.isSome = true

/-! ## One change -/

section

variable {db db' : Database} {req : Request} {user : CurrentUser} {r r' : EvaluationRecord}
  {o : Option Action} {k : Nat}

/-- A transition leaves the self-assessment. -/
theorem Change.selfAssessment_some {a : Action} (h : Change db req user r (some a) r') :
    selfAssessmentOf r' = selfAssessmentOf r := by
  cases h with
  | moved _ _ _ _ before hbefore =>
    have hclaimed : selfAssessmentOf (r.claimedFor a user) = selfAssessmentOf r := by
      unfold EvaluationRecord.claimedFor
      split <;> rfl
    rw [← hclaimed]
    cases hbefore <;> rfl

/-- So does every endpoint but the one that files it. -/
theorem run_keeps_selfAssessment {op : RecordOperation} {w : Work}
    (hrun : op.run db req.env user r = .ok w) (hchange : Change db req user r (op.action user r) w.record)
    (hop : ∀ scores note, op ≠ .submitSelfAssessment scores note) :
    selfAssessmentOf w.record = selfAssessmentOf r := by
  cases haction : op.action user r with
  | some a =>
    rw [haction] at hchange
    exact hchange.selfAssessment_some
  | none =>
    cases op with
    | submitEvaluation | hrApprove | deputyApprove | ceoFinalize | cancelEvaluation => cases haction
    | returnEvaluation reason =>
      obtain ⟨choice, hchoice, -⟩ := returnEvaluation_change hrun
      simp [RecordOperation.action, hchoice] at haction
    | upsertScores =>
      simp only [RecordOperation.run, upsertScores, bind_eq_ok, pure_eq_ok] at hrun
      obtain ⟨-, -, -, -, rfl⟩ := hrun
      rfl
    | setEvaluatorComment =>
      simp only [RecordOperation.run, setEvaluatorComment, bind_eq_ok, pure_eq_ok] at hrun
      obtain ⟨-, -, rfl⟩ := hrun
      rfl
    | setSpecialScore bonusPoints bonusReason =>
      simp only [RecordOperation.run, setSpecialScore, bind_eq_ok] at hrun
      obtain ⟨-, -, hbonus⟩ := hrun
      split at hbonus
      · cases hbonus
      · cases hbonus
        rfl
    | extendSubmissionWindow =>
      simp only [RecordOperation.run, extendSubmissionWindow, bind_eq_ok, pure_eq_ok] at hrun
      obtain ⟨-, -, -, -, -, -, rfl⟩ := hrun
      rfl
    | hrClaim =>
      simp only [RecordOperation.run, hrClaim, bind_eq_ok, pure_eq_ok] at hrun
      obtain ⟨-, -, -, -, -, -, rfl⟩ := hrun
      rfl
    | hrHandover =>
      simp only [RecordOperation.run, hrHandover, bind_eq_ok, pure_eq_ok] at hrun
      obtain ⟨-, -, -, -, -, -, -, -, -, -, -, -, rfl⟩ := hrun
      rfl
    | resolveObjection =>
      simp only [RecordOperation.run, resolveObjection, bind_eq_ok, pure_eq_ok] at hrun
      obtain ⟨-, -, -, -, -, -, rfl⟩ := hrun
      rfl
    | reassignStageOwner =>
      simp only [RecordOperation.run, reassignStageOwner, bind_eq_ok, pure_eq_ok] at hrun
      obtain ⟨-, -, -, -, -, -, -, -, -, -, -, -, -, -, rfl⟩ := hrun
      rfl
    | addComment =>
      simp only [RecordOperation.run, addComment, bind_eq_ok, pure_eq_ok] at hrun
      obtain ⟨-, -, ⟨_, _, _⟩, -, -, -, -, -, rfl⟩ := hrun
      split <;> rfl
    | addReply =>
      simp only [RecordOperation.run, addReply, bind_eq_ok, pure_eq_ok] at hrun
      obtain ⟨-, -, -, -, -, -, rfl⟩ := hrun
      rfl
    | submitSelfAssessment scores note => exact absurd rfl (hop scores note)
    | inviteSelfAssessment =>
      simp only [RecordOperation.run, inviteSelfAssessment, bind_eq_ok, pure_eq_ok] at hrun
      obtain ⟨-, -, -, -, -, -, rfl⟩ := hrun
      rfl
    | fileObjection =>
      simp only [RecordOperation.run, fileObjection, bind_eq_ok, pure_eq_ok] at hrun
      obtain ⟨-, -, -, -, -, -, -, -, -, -, rfl⟩ := hrun
      rfl
    | acknowledgeEvaluation =>
      simp only [RecordOperation.run, acknowledgeEvaluation, bind_eq_ok, pure_eq_ok] at hrun
      obtain ⟨-, -, -, -, -, -, rfl⟩ := hrun
      rfl

/-- A request that does not file it leaves the self-assessment of a record. -/
theorem step_keeps_selfAssessment (h : Steps db req db') (hget : db.evaluationRecords.get? k = some r)
    (hfiling : req.filing ≠ some k) : shownSelfAssessment db' k = shownSelfAssessment db k := by
  obtain ⟨user, -, d, _, _, heffect, rfl⟩ := effect_of_steps h
  obtain ⟨r', hget', hcases⟩ := heffect.record_cases hget
  show (d.evaluationRecords.get? k).bind selfAssessmentOf = (db.evaluationRecords.get? k).bind selfAssessmentOf
  rw [hget, hget']
  show selfAssessmentOf r' = selfAssessmentOf r
  rcases hcases with ⟨op, w, hop, hrun, hchange, rfl⟩ | rfl | ⟨framework, rfl⟩ | hchange
  · refine run_keeps_selfAssessment hrun hchange ?_
    intro scores note hself
    rw [hself] at hop
    exact hfiling (by simp [Request.filing, hop])
  · rfl
  · unfold EvaluationRecord.rebind
    split <;> rfl
  · exact hchange.selfAssessment_some

/-- Filing writes a self-assessment where there was none. -/
theorem step_files (h : Steps db req db') (hfiling : req.filing = some k) :
    shownSelfAssessment db k = none ∧ (shownSelfAssessment db' k).isSome = true := by
  unfold Request.filing at hfiling
  split at hfiling
  · rename_i j scores note hop
    obtain rfl : j = k := Option.some.inj hfiling
    obtain ⟨user, r, w, -, hget, hrun, hget'⟩ := step_onRecord hop h
    simp only [RecordOperation.run, submitSelfAssessment, bind_eq_ok, pure_eq_ok, ensure_eq_ok] at hrun
    obtain ⟨-, -, -, -, -, -, -, -, -, hnone, -, -, -, -, rfl⟩ := hrun
    constructor
    · simp [shownSelfAssessment, hget, selfAssessmentOf, hnone]
    · simp [shownSelfAssessment, hget', selfAssessmentOf]
  · cases hfiling

/-! ## The stored result -/

/-- The record has a result, from a submission. -/
def HasResult (db : Database) (k : Nat) : Prop :=
  ∃ r, db.evaluationRecords.get? k = some r ∧ r.finalWeightedPct.isSome = true

theorem claimedFor_result (r : EvaluationRecord) (a : Action) (user : CurrentUser) :
    (r.claimedFor a user).finalWeightedPct = r.finalWeightedPct :=
  congrArg ScoredForm.finalWeightedPct (claimedFor_form r a user)

/-- A change keeps the result, or is a submission, which stores one. -/
theorem Change.result_cases (h : Change db req user r o r') :
    r'.finalWeightedPct = r.finalWeightedPct ∨
      (∃ a, o = some a ∧ a.isSubmit = true) ∧ r'.finalWeightedPct.isSome = true := by
  cases h with
  | moved a _ _ _ before hbefore =>
    have hclaimed := claimedFor_result r a user
    cases hbefore with
    | plain => exact Or.inl hclaimed
    | stamped => exact Or.inl hclaimed
    | scored hsubmit => exact Or.inr ⟨⟨a, rfl, hsubmit⟩, rfl⟩
  | _ => exact Or.inl rfl

theorem step_keeps_result (h : Steps db req db') (hresult : HasResult db k) : HasResult db' k := by
  obtain ⟨r, hget, hsome⟩ := hresult
  obtain ⟨user, r', -, hget', hchange⟩ := step_record h hget
  refine ⟨r', hget', ?_⟩
  rcases hchange.result_cases with hsame | ⟨-, hsome'⟩
  · rw [hsame]
    exact hsome
  · exact hsome'

/-- A record gets its result by being submitted. -/
theorem step_result_cases (h : Steps db req db') (hresult : HasResult db' k) :
    HasResult db k ∨ Submits k ⟨db, req, db'⟩ := by
  obtain ⟨r', hget', hsome'⟩ := hresult
  cases hget : db.evaluationRecords.get? k with
  | none =>
    obtain ⟨access, -, -, -, code, rfl⟩ := step_opened h hget hget'
    cases hsome'
  | some r =>
    obtain ⟨user, r'', -, hget'', hchange⟩ := step_record h hget
    rw [hget'] at hget''
    cases hget''
    rcases hchange.result_cases with hsame | ⟨hsubmit, -⟩
    · rw [hsame] at hsome'
      exact Or.inl ⟨r, hget, hsome'⟩
    · exact Or.inr hsubmit

/-- Only an endpoint of the record submits it. -/
theorem submits_onRecord (h : Submits k ⟨db, req, db'⟩) :
    ∃ r op, db.evaluationRecords.get? k = some r ∧ req.operation = .onRecord k op ∧
      ∃ user a, op.action user r = some a ∧ a.isSubmit = true := by
  obtain ⟨a, haction, hsubmit⟩ := h
  change performedOn db req k = some a at haction
  unfold performedOn at haction
  split at haction
  · rename_i j op hop
    split at haction
    · rename_i hj
      split at haction
      · rename_i user r huser hget
        subst hj
        exact ⟨r, op, hget, hop, user, a, haction, hsubmit⟩
      · cases haction
    · cases haction
  · split at haction
    · cases haction
      cases hsubmit
    · cases haction

/-- A submission leaves a result, and the self-assessment as it is. -/
theorem step_submits (h : Steps db req db') (hsubmits : Submits k ⟨db, req, db'⟩) :
    HasResult db' k ∧ shownSelfAssessment db' k = shownSelfAssessment db k := by
  obtain ⟨r, op, hget, hop, user₀, a₀, haction, -⟩ := submits_onRecord hsubmits
  obtain ⟨a, hperformed, hsubmit⟩ := hsubmits
  constructor
  · obtain ⟨user, r', -, hget', hchange⟩ := step_record h hget
    change performedOn db req k = some a at hperformed
    rw [hperformed] at hchange
    obtain ⟨-, hr'⟩ := submit_change hchange hsubmit
    exact ⟨r', hget', by rw [hr']; rfl⟩
  · refine step_keeps_selfAssessment h hget ?_
    intro hfiling
    unfold Request.filing at hfiling
    rw [hop] at hfiling
    split at hfiling
    · rename_i hself
      cases hself
      cases haction
    · cases hfiling

end

/-! ## Runs -/

section

variable {init : Database → Prop} {tr : List (Taken Database Request)} {db₀ db : Database} {k : Nat}

/-- A record with a result was submitted. -/
theorem submitted_of_result (h : SystemRun tr db) (hresult : HasResult db k) : ∃ x ∈ tr, Submits k x := by
  refine h.invariant_of_history (P := fun tr db => HasResult db k → ∃ x ∈ tr, Submits k x)
    (C := fun _ => True) ?_ ?_ (fun _ _ => trivial) hresult
  · intro db hinit hresult
    obtain ⟨r, hget, -⟩ := hresult
    exact absurd (Table.mem_of_get? hget) (hinit.no_records r)
  · intro tr db req db' ih hstep _ hresult
    rcases step_result_cases hstep hresult with hbefore | hsubmits
    · obtain ⟨x, hx, hx'⟩ := ih hbefore
      exact ⟨x, List.mem_cons_of_mem _ hx, hx'⟩
    · exact ⟨_, List.mem_cons_self, hsubmits⟩

/-- While nothing is filed late, a record with a result keeps its self-assessment. -/
theorem fixed_while_result (h : Run (· = db₀) Steps tr db) (hresult : HasResult db₀ k)
    (hlate : ∀ x ∈ tr, ¬FiledLate x) : shownSelfAssessment db k = shownSelfAssessment db₀ k := by
  refine (h.invariant_of_steps
    (P := fun db => HasResult db k ∧ shownSelfAssessment db k = shownSelfAssessment db₀ k) ?_ ?_ hlate).2
  · intro db heq
    subst heq
    exact ⟨hresult, rfl⟩
  · intro db req db' ih hstep hnot
    obtain ⟨r, hget, hsome⟩ := ih.1
    refine ⟨step_keeps_result hstep ih.1, ?_⟩
    rw [← ih.2]
    refine step_keeps_selfAssessment hstep hget ?_
    intro hfiling
    exact hnot ⟨k, r, hfiling, hget, hsome⟩

/-- A run ends where its newest step ended. -/
theorem run_end {x : Taken Database Request} (h : Run init Steps (x :: tr) db) : x.after = db := by
  cases h with
  | cons _ _ => rfl

/-- Filing late changes what there was at the submission before it. -/
theorem not_filedLate_of_fixed (h : SystemRun tr db) (hfixed : FixedAtSubmission tr) :
    ∀ x ∈ tr, ¬FiledLate x := by
  intro z hz hlate
  obtain ⟨k, r, hfiling, hget, hsome⟩ := hlate
  obtain ⟨new, old, rfl⟩ := List.append_of_mem hz
  obtain ⟨hold, hstep⟩ := h.cut
  obtain ⟨x, hx, hsubmits⟩ := submitted_of_result hold ⟨r, hget, hsome⟩
  obtain ⟨mid, older, rfl⟩ := List.append_of_mem hx
  have hshown := hfixed (new ++ z :: mid) x older k (by simp) hsubmits
  have hafter := hshown z (by simp)
  -- the step before `z` still showed what there was at the submission
  have hbefore : shownSelfAssessment z.before k = shownSelfAssessment x.before k := by
    cases mid with
    | nil =>
      rw [← run_end hold]
      exact hshown x (by simp)
    | cons y mid =>
      rw [← run_end hold]
      exact hshown y (by simp)
  obtain ⟨hnone, hfiled⟩ := step_files hstep hfiling
  rw [hafter, ← hbefore, hnone] at hfiled
  cases hfiled

/-- In every run, what there is at a submission stays exactly when nothing is filed on a record that has
been submitted before. -/
theorem selfAssessment_fixed_iff (h : SystemRun tr db) : FixedAtSubmission tr ↔ ∀ x ∈ tr, ¬FiledLate x := by
  refine ⟨not_filedLate_of_fixed h, ?_⟩
  intro hlate new x old k htr hsubmits y hy
  subst htr
  obtain ⟨-, hstep⟩ := h.cut
  obtain ⟨hresult, hkept⟩ := step_submits hstep hsubmits
  rcases List.mem_append.mp hy with hnew | hx
  · obtain ⟨newer, later, rfl⟩ := List.append_of_mem hnew
    have hcut := h.cut_after.cut
    have hrun : Run (· = x.after) Steps (y :: later) y.after := Run.cons hcut.1 hcut.2
    rw [← hkept]
    refine fixed_while_result hrun hresult ?_
    intro z hz
    rcases List.mem_cons.mp hz with rfl | hz
    · exact hlate _ (by simp)
    · exact hlate z (by simp [hz])
  · obtain rfl : y = x := by simpa using hx
    exact hkept

end

/-! ## A self-assessment after the return -/

/-- The employee gets an account. -/
def employeeJoins : List Request := [ask 5 (.createUser ⟨"employee", .employee, some 1, none⟩)]

def fileSelfAssessment : Request := ask 7 (.onRecord 1 (.submitSelfAssessment [⟨1, 5, none⟩] none))

/-- Filed before the scorer submits, returned to him and submitted again. -/
def filedInTime : List Request :=
  [ask 1 (.onRecord 1 .submitEvaluation), ask 4 (.onRecord 1 (.returnEvaluation "again")),
    ask 1 (.onRecord 1 .submitEvaluation), ask 1 (.onRecord 1 (.upsertScores [⟨1, 4, none⟩])),
    fileSelfAssessment, ask 1 (.createEvaluation 1)] ++ employeeJoins

/-- Filed when the record has been returned to the scorer. -/
def filedAfterReturn : List Request :=
  [fileSelfAssessment, ask 4 (.onRecord 1 (.returnEvaluation "again"))] ++ submittedBy 1 ++ employeeJoins

theorem filedInTime_run : SystemRun (replay settled (office fullChain) filedInTime)
    (endState settled (office fullChain) filedInTime) :=
  systemRun_replay (office_initial (by decide)) (by decide)

theorem filedAfterReturn_run : SystemRun (replay settled (office fullChain) filedAfterReturn)
    (endState settled (office fullChain) filedAfterReturn) :=
  systemRun_replay (office_initial (by decide)) (by decide)

/-- The requests that file a self-assessment meet records without a result. -/
theorem filedInTime_early : ∀ x ∈ replay settled (office fullChain) filedInTime, x.label.filing.isSome = true →
    ∀ r ∈ x.before.evaluationRecords, r.finalWeightedPct = none := by
  decide

theorem filedInTime_fixed : FixedAtSubmission (replay settled (office fullChain) filedInTime) := by
  refine (selfAssessment_fixed_iff filedInTime_run).mpr ?_
  intro x hx hlate
  obtain ⟨k, r, hfiling, hget, hsome⟩ := hlate
  have hnone := filedInTime_early x hx (by rw [hfiling]; rfl) r (Table.mem_of_get? hget)
  rw [hnone] at hsome
  cases hsome

/-- The return opened the self-assessment again. -/
theorem return_reopens_selfAssessment :
    ¬∀ tr db, SystemRun tr db → FixedAtSubmission tr := by
  intro hclaim
  have hfixed := hclaim _ _ filedAfterReturn_run
  refine not_filedLate_of_fixed filedAfterReturn_run hfixed _ List.mem_cons_self ?_
  obtain ⟨r, hget, hsome⟩ := exists_of_any
    (o := (endState settled (office fullChain) filedAfterReturn.tail).evaluationRecords.get? 1)
    (p := fun r => r.finalWeightedPct.isSome) (by decide)
  exact ⟨1, r, rfl, hget, hsome⟩

end NexaHR
