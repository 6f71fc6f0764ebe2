import NexaHR.Properties.Finalisable
import NexaHR.Routers.Charts
import NexaHR.System.OtherTables

/-! # Reading one's own result

Where the organisation does not show results to employees, a user should not learn the result of his own
evaluations. The endpoints ask in different ways who he is.

* `EvaluationOutcome`, `withOutcome`: the columns that hold a result, and a record with another result.
* `DiffersInResults`: two states that differ in the results of one person's finalized records.
* `ResultRequest`, `answer`: what a user can ask, and what he gets.
* `own_result_hidden_iff`: the answers are the same exactly for a user who may not see the person's charts.
-/

namespace NexaHR

open Foundations

set_option autoImplicit false

/-! ## Two states -/

structure EvaluationOutcome where
  scores : List EvaluationScore
  generalScorePct : Option Rat
  specializedScorePct : Option Rat
  baseWeightedPct : Option Rat
  finalWeightedPct : Option Rat
  bonusPoints : Option Rat
  bonusReason : Option String
  recommendation : Option String
  finalSnapshot : Option FinalSnapshot

namespace EvaluationRecord

def withOutcome (r : EvaluationRecord) (outcome : EvaluationOutcome) : EvaluationRecord :=
  { r with
    scores := outcome.scores
    generalScorePct := outcome.generalScorePct
    specializedScorePct := outcome.specializedScorePct
    baseWeightedPct := outcome.baseWeightedPct
    finalWeightedPct := outcome.finalWeightedPct
    bonusPoints := outcome.bonusPoints
    bonusReason := outcome.bonusReason
    recommendation := outcome.recommendation
    finalSnapshot := outcome.finalSnapshot }

def isResultOf (r : EvaluationRecord) (p : Nat) : Bool := r.status = .finalized && r.subjectPersonnelId = p

end EvaluationRecord

/-- The same record, or one of the person's with another result. -/
def SameButResult (p : Nat) (r r' : EvaluationRecord) : Prop :=
  r' = r ∨ (r.isResultOf p = true ∧ ∃ outcome, r' = r.withOutcome outcome)

/-- Only the results of the person's finalized records differ, and the documents archived for them. -/
structure DiffersInResults (p : Nat) (documents documents' : Archive) (db db' : Database) : Prop
    extends OtherRecords (SameButResult p) db db' where
  archive : ∀ r ∈ db.evaluationRecords, r.isResultOf p = false → documents' r.id = documents r.id

/-! ## What a user can ask -/

inductive ResultRequest
  | listEvaluations (filters : EvaluationFilters) (limit offset : Nat)
  | getEvaluation (evaluationId : Nat)
  | evaluationSummaryPdf (evaluationId : Nat)
  | personnelRadar (personnelId : Nat)
  | personnelTrend (personnelId : Nat)
  | employeeVsUnit (personnelId : Nat) (range : ComparisonRange)

inductive ResultAnswer
  | page (p : EvaluationPage)
  | detail (d : EvaluationDetail)
  | pdf (d : PdfDownload)
  | radar (points : List RadarPoint)
  | trend (points : List TrendPoint)
  | comparison (c : EmployeeVsUnit)

def answer (backend : Backend) (documents : Archive) (db : Database) (env : Env) (user : CurrentUser) :
    ResultRequest → Except HTTPException ResultAnswer
  | .listEvaluations filters limit offset =>
    (listEvaluations backend db env user filters limit offset).map .page
  | .getEvaluation evaluationId => (getEvaluation db user evaluationId).map .detail
  | .evaluationSummaryPdf evaluationId =>
    (evaluationSummaryPdf backend documents db env user evaluationId).map .pdf
  | .personnelRadar personnelId => (personnelRadar db env user personnelId).map .radar
  | .personnelTrend personnelId => (personnelTrend db env user personnelId).map .trend
  | .employeeVsUnit personnelId range => (employeeVsUnit backend db user personnelId range).map .comparison

/-- The charts of the person are closed to the user as soon as there is a result. -/
def ChartsClosed (db : Database) (env : Env) (user : CurrentUser) (p : Nat) : Prop :=
  ∀ r ∈ db.evaluationRecords, r.isResultOf p = true → canViewPersonnel db env p user = false

section

variable {p : Nat} {documents documents' : Archive} {db db' : Database} {env : Env} {user : CurrentUser}
  {backend : Backend} {r r' : EvaluationRecord} {k : Nat}

/-! ## What the relation keeps -/

theorem SameButResult.status_eq (h : SameButResult p r r') : r'.status = r.status := by
  obtain rfl | ⟨-, outcome, rfl⟩ := h
  · rfl
  · rfl

theorem SameButResult.subject_eq (h : SameButResult p r r') :
    r'.subjectPersonnelId = r.subjectPersonnelId := by
  obtain rfl | ⟨-, outcome, rfl⟩ := h
  · rfl
  · rfl

theorem SameButResult.id_eq (h : SameButResult p r r') : r'.id = r.id := by
  obtain rfl | ⟨-, outcome, rfl⟩ := h
  · rfl
  · rfl

theorem SameButResult.chain_eq (h : SameButResult p r r') : r'.chain = r.chain := by
  obtain rfl | ⟨-, outcome, rfl⟩ := h
  · rfl
  · rfl

theorem isResultOf_iff : r.isResultOf p = true ↔ r.status = .finalized ∧ r.subjectPersonnelId = p := by
  simp [EvaluationRecord.isResultOf]

theorem canViewPersonnel_of_differs (h : DiffersInResults p documents documents' db db') (k : Nat) :
    canViewPersonnel db' env k user = canViewPersonnel db env k user := by
  have hrecords := any_eq_of_forall₂
    (p := fun r => r.subjectPersonnelId = k && r.chain.occupants.contains user.id) h.rows (by
      intro r r' hr
      rw [hr.subject_eq, hr.chain_eq])
  unfold canViewPersonnel
  rw [hrecords, h.eq_records]
  rfl

/-! ## Who sees a person's charts -/

theorem canView_of_hr (hrole : user.role = .hr) : canViewPersonnel db env k user = true := by
  unfold canViewPersonnel seesAllPersonnel
  simp [hrole]

theorem canView_of_seat (hr : r ∈ db.evaluationRecords) (hseat : user.id ∈ r.chain.occupants) :
    canViewPersonnel db env r.subjectPersonnelId user = true := by
  unfold canViewPersonnel
  rw [Bool.or_eq_true]
  right
  rw [List.any_eq_true]
  refine ⟨r, hr, ?_⟩
  simpa using hseat

theorem ChartsClosed.not_hr (h : ChartsClosed db env user p) (hr : r ∈ db.evaluationRecords)
    (hresult : r.isResultOf p = true) : user.role ≠ .hr := by
  intro hrole
  have hopen : canViewPersonnel db env p user = true := canView_of_hr hrole
  rw [h r hr hresult] at hopen
  cases hopen

theorem ChartsClosed.not_seated (h : ChartsClosed db env user p) (hr : r ∈ db.evaluationRecords)
    (hresult : r.isResultOf p = true) : user.id ∉ r.chain.occupants := by
  intro hseat
  have hopen : canViewPersonnel db env r.subjectPersonnelId user = true := canView_of_seat hr hseat
  rw [(isResultOf_iff.mp hresult).2, h r hr hresult] at hopen
  cases hopen

/-! ## The answers -/

/-- A query that keeps none of the results gives the same records. -/
theorem filter_of_differs (h : DiffersInResults p documents documents' db db')
    {keep : EvaluationRecord → Bool} (hsame : ∀ r r', SameButResult p r r' → keep r' = keep r)
    (hnone : ∀ r ∈ db.evaluationRecords, r.isResultOf p = true → keep r = false) :
    db'.evaluationRecords.rows.filter keep = db.evaluationRecords.rows.filter keep := by
  apply h.filter_eq hsame
  intro r hr r' hrel hkeep
  obtain rfl | ⟨hresult, -⟩ := hrel
  · rfl
  · rw [hnone r hr hresult] at hkeep
    cases hkeep

theorem scope_of_outcome {scope : EvaluationRecord → Bool}
    (hscope : scopeEvaluationsForRole env user = .ok scope) (r r' : EvaluationRecord)
    (hr : SameButResult p r r') : scope r' = scope r := by
  obtain rfl | ⟨-, outcome, rfl⟩ := hr
  · rfl
  · unfold scopeEvaluationsForRole at hscope
    cases hrole : user.role with
    | employee =>
      rw [hrole] at hscope
      dsimp only at hscope
      split at hscope
      · cases hscope
        rfl
      · cases hscope
        rfl
    | support =>
      rw [hrole] at hscope
      cases hscope
    | _ =>
      rw [hrole] at hscope
      cases hscope
      rfl

/-- The list of a role has no result where the charts are closed. -/
theorem scope_of_closed {scope : EvaluationRecord → Bool}
    (hscope : scopeEvaluationsForRole env user = .ok scope) (hclosed : ChartsClosed db env user p)
    (hrole : user.role ≠ .employee) (hr : r ∈ db.evaluationRecords) (hresult : r.isResultOf p = true) :
    scope r = false := by
  have hseat := hclosed.not_seated hr hresult
  have hnone : ∀ column, r.chain.seat column ≠ some user.id :=
    fun column h => hseat (Chain.mem_occupants.mpr ⟨column, h⟩)
  unfold scopeEvaluationsForRole at hscope
  split at hscope
  case h_1 hhr => exact absurd hhr (hclosed.not_hr hr hresult)
  case h_2 =>
    cases hscope
    exact decide_eq_false (hnone .unitSupervisor)
  case h_3 =>
    cases hscope
    exact decide_eq_false (hnone .deputy)
  case h_4 =>
    cases hscope
    exact decide_eq_false fun hceo => hnone .ceo (congrArg some hceo)
  case h_5 hemployee => exact absurd hemployee hrole
  case h_6 => cases hscope

theorem listEvaluations_of_differs (h : DiffersInResults p documents documents' db db')
    (hclosed : ChartsClosed db env user p) (filters : EvaluationFilters) (limit offset : Nat) :
    listEvaluations backend db' env user filters limit offset =
      listEvaluations backend db env user filters limit offset := by
  unfold listEvaluations
  cases hscope : scopeEvaluationsForRole env user with
  | error refusal => rfl
  | ok scope =>
    by_cases hrole : user.role = .employee
    · simp [hrole, bind, Except.bind]
    · have hvisible := filter_of_differs h (scope_of_outcome hscope) fun r hr hresult =>
        scope_of_closed hscope hclosed hrole hr hresult
      simp only [hrole, bind, Except.bind, if_false]
      rw [hvisible, h.eq_records]
      rfl

theorem ensureCanView_of_subject (hsubject : user.isSubjectOf r) :
    ∃ refusal, ensureCanView r user = .error refusal := by
  unfold ensureCanView ensureHrMayHandle ensureNotDecidingAboutOneself ensure
  rw [if_neg (not_not.mpr hsubject)]
  exact ⟨_, rfl⟩

theorem ensureCanView_outcome (r : EvaluationRecord) (outcome : EvaluationOutcome) (user : CurrentUser) :
    ensureCanView (r.withOutcome outcome) user = ensureCanView r user := rfl

theorem isSubject_of_result (hlink : user.personnelId = some p) (hresult : r.isResultOf p = true) :
    user.isSubjectOf r := by
  unfold CurrentUser.isSubjectOf
  rw [hlink, (isResultOf_iff.mp hresult).2]

theorem getEvaluation_of_differs (h : DiffersInResults p documents documents' db db')
    (hlink : user.personnelId = some p) (k : Nat) : getEvaluation db' user k = getEvaluation db user k := by
  have hget := h.get?_rel (fun _ _ hr => hr.id_eq) k
  unfold getEvaluation
  generalize db.evaluationRecords.get? k = found at hget
  generalize db'.evaluationRecords.get? k = found' at hget
  cases hget with
  | none => rfl
  | @some r r' hr =>
    obtain rfl | ⟨hresult, outcome, rfl⟩ := hr
    · rw [h.eq_records]
      rfl
    · obtain ⟨refusal, hrefusal⟩ := ensureCanView_of_subject (isSubject_of_result hlink hresult)
      simp only [require, ensureCanView_outcome, hrefusal, bind, Except.bind]

theorem ensureMayDownload_of_subject (hgate : employeeResultsAreVisible env = false)
    (hsubject : user.isSubjectOf r) : ensureMayDownload env user r = .error resultsHidden := by
  unfold ensureMayDownload ensureSubjectMayReadOwnResult ensure
  rw [if_pos hsubject, if_neg (by rw [hgate]; decide)]

theorem summaryPdf_congr (hdocument : documents' r.id = documents r.id) :
    summaryPdf backend documents' env user r = summaryPdf backend documents env user r := by
  have harchive : archiveFinalPdf backend documents' r = archiveFinalPdf backend documents r := by
    funext finalSnapshot
    unfold archiveFinalPdf
    rw [hdocument]
  unfold summaryPdf
  rw [harchive]

theorem evaluationSummaryPdf_of_differs (h : DiffersInResults p documents documents' db db')
    (hlink : user.personnelId = some p) (hgate : employeeResultsAreVisible env = false) (k : Nat) :
    evaluationSummaryPdf backend documents' db' env user k =
      evaluationSummaryPdf backend documents db env user k := by
  have hget := h.get?_rel (fun _ _ hr => hr.id_eq) k
  have hmem : ∀ r, db.evaluationRecords.get? k = some r → r ∈ db.evaluationRecords :=
    fun _ => Table.mem_of_get?
  unfold evaluationSummaryPdf
  generalize db.evaluationRecords.get? k = found at hget hmem
  generalize db'.evaluationRecords.get? k = found' at hget
  cases hget with
  | none => rfl
  | @some r r' hr =>
    by_cases hresult : r.isResultOf p = true
    · have hsubject := isSubject_of_result hlink hresult
      have hsubject' : user.isSubjectOf r' := by
        unfold CurrentUser.isSubjectOf
        rw [hr.subject_eq]
        exact hsubject
      simp only [require, ensureMayDownload_of_subject hgate hsubject,
        ensureMayDownload_of_subject hgate hsubject', bind, Except.bind]
    · have hsame : r' = r := hr.resolve_right fun hother => hresult hother.1
      have hdocument := h.archive r (hmem r rfl) (Bool.not_eq_true _ ▸ hresult)
      simp only [require, hsame, bind, Except.bind, summaryPdf_congr hdocument]

theorem finalizedOf_of_differs (h : DiffersInResults p documents documents' db db')
    (hclosed : ChartsClosed db env user p) (hview : canViewPersonnel db env k user = true) :
    finalizedOf db' k = finalizedOf db k := by
  apply filter_of_differs h
  · intro r r' hr
    rw [hr.status_eq, hr.subject_eq]
  · intro r hr hresult
    have hother : r.subjectPersonnelId ≠ k := by
      intro hk
      have hshut := hclosed r hr hresult
      rw [← (isResultOf_iff.mp hresult).2, hk, hview] at hshut
      cases hshut
    simp [hother]

theorem scoreRows_of_differs (h : DiffersInResults p documents documents' db db') :
    scoreRows db' = scoreRows db := by
  have hindicators : db'.indicators = db.indicators := by rw [h.eq_records]
  funext r
  unfold scoreRows
  rw [hindicators]

theorem unitPct_of_differs (h : DiffersInResults p documents documents' db db') :
    unitPct db' = unitPct db := by
  funext orgUnit r
  unfold unitPct
  rw [h.personnel_eq]

theorem personnelRadar_of_differs (h : DiffersInResults p documents documents' db db')
    (hclosed : ChartsClosed db env user p) (k : Nat) :
    personnelRadar db' env user k = personnelRadar db env user k := by
  unfold personnelRadar
  rw [canViewPersonnel_of_differs h]
  by_cases hview : canViewPersonnel db env k user = true
  · rw [finalizedOf_of_differs h hclosed hview, scoreRows_of_differs h]
  · rw [ensure, if_neg hview, error_bind, error_bind]

theorem personnelTrend_of_differs (h : DiffersInResults p documents documents' db db')
    (hclosed : ChartsClosed db env user p) (k : Nat) :
    personnelTrend db' env user k = personnelTrend db env user k := by
  unfold personnelTrend
  rw [canViewPersonnel_of_differs h]
  by_cases hview : canViewPersonnel db env k user = true
  · rw [finalizedOf_of_differs h hclosed hview]
  · rw [ensure, if_neg hview, error_bind, error_bind]

theorem employeeVsUnit_of_differs (h : DiffersInResults p documents documents' db db')
    (hclosed : ChartsClosed db env user p) (k : Nat) (range : ComparisonRange) :
    employeeVsUnit backend db' user k range = employeeVsUnit backend db user k range := by
  unfold employeeVsUnit requireRoles
  by_cases hrole : user.role = .hr
  · have hfinalized :
        (db'.evaluationRecords.rows.filter fun r => r.status = .finalized && range.admits backend r) =
          db.evaluationRecords.rows.filter fun r => r.status = .finalized && range.admits backend r := by
      apply filter_of_differs h
      · intro r r' hr
        obtain rfl | ⟨-, outcome, rfl⟩ := hr
        · rfl
        · rfl
      · intro r hr hresult
        exact absurd hrole (hclosed.not_hr hr hresult)
    rw [hfinalized, unitPct_of_differs h, h.personnel_eq]
  · rw [ensure, if_neg (by simpa using hrole), error_bind, error_bind]

/-- Where the charts are closed no answer depends on the result. -/
theorem answer_of_differs (h : DiffersInResults p documents documents' db db')
    (hclosed : ChartsClosed db env user p) (hlink : user.personnelId = some p)
    (hgate : employeeResultsAreVisible env = false) (request : ResultRequest) :
    answer backend documents' db' env user request = answer backend documents db env user request := by
  cases request with
  | listEvaluations filters limit offset =>
    rw [answer, answer, listEvaluations_of_differs h hclosed]
  | getEvaluation k => rw [answer, answer, getEvaluation_of_differs h hlink]
  | evaluationSummaryPdf k => rw [answer, answer, evaluationSummaryPdf_of_differs h hlink hgate]
  | personnelRadar k => rw [answer, answer, personnelRadar_of_differs h hclosed]
  | personnelTrend k => rw [answer, answer, personnelTrend_of_differs h hclosed]
  | employeeVsUnit k range => rw [answer, answer, employeeVsUnit_of_differs h hclosed]

/-! ## Open charts -/

def regraded (p : Nat) (pct : Rat) (r : EvaluationRecord) : EvaluationRecord :=
  if r.isResultOf p then { r with finalWeightedPct := some pct } else r

theorem regraded_id (p : Nat) (pct : Rat) (r : EvaluationRecord) :
    HasId.id (regraded p pct r) = HasId.id r := by
  unfold regraded
  split
  · rfl
  · rfl

def withGrade (db : Database) (p : Nat) (pct : Rat) : Database :=
  { db with evaluationRecords := db.evaluationRecords.map (regraded p pct) (regraded_id p pct) }

theorem sameButResult_regraded (p : Nat) (pct : Rat) (r : EvaluationRecord) :
    SameButResult p r (regraded p pct r) := by
  unfold regraded
  by_cases hresult : r.isResultOf p = true
  · rw [if_pos hresult]
    right
    refine ⟨hresult, ?_⟩
    exact ⟨⟨r.scores, r.generalScorePct, r.specializedScorePct, r.baseWeightedPct, some pct, r.bonusPoints,
      r.bonusReason, r.recommendation, r.finalSnapshot⟩, rfl⟩
  · rw [if_neg hresult]
    exact Or.inl rfl

theorem differs_withGrade (documents : Archive) (db : Database) (p : Nat) (pct : Rat) :
    DiffersInResults p documents documents db (withGrade db p pct) where
  toOtherRecords := OtherRecords.mapped db (regraded p pct) (regraded_id p pct) (sameButResult_regraded p pct)
  archive := fun _ _ _ => rfl

theorem mem_finalizedOf : r ∈ finalizedOf db p ↔ r ∈ db.evaluationRecords ∧ r.isResultOf p = true := by
  unfold finalizedOf EvaluationRecord.isResultOf
  exact List.mem_filter

theorem pct_of_withGrade {pct : Rat} (hr : r ∈ finalizedOf (withGrade db p pct) p) :
    r.finalWeightedPct = some pct := by
  obtain ⟨hmem, hresult⟩ := mem_finalizedOf.mp hr
  obtain ⟨old, -, rfl⟩ := List.mem_map.mp hmem
  unfold regraded at hresult ⊢
  by_cases hold : old.isResultOf p = true
  · rw [if_pos hold]
  · rw [if_neg hold] at hresult
    exact absurd hresult hold

theorem mem_trendRows {records : List EvaluationRecord} {row : EvaluationRecord × Nat} :
    row ∈ trendRows records ↔ row.1 ∈ records ∧ row.1.finalizedAt = some row.2 := by
  unfold trendRows
  rw [mem_sortedBy, List.mem_filterMap]
  constructor
  · rintro ⟨r, hr, hrow⟩
    obtain ⟨finalizedAt, hat, rfl⟩ := Option.map_eq_some_iff.mp hrow
    exact ⟨hr, hat⟩
  · rintro ⟨hr, hat⟩
    refine ⟨row.1, hr, ?_⟩
    rw [hat]
    rfl

theorem mapM_trendPoint {pct : Rat} {rows : List (EvaluationRecord × Nat)}
    (h : ∀ row ∈ rows, row.1.finalWeightedPct = some pct) :
    rows.mapM trendPoint = .ok (rows.map fun row => ⟨row.1.evaluationCode, row.2, pct⟩) := by
  induction rows with
  | nil => rfl
  | cons row rows ih =>
    have hrow : trendPoint row = .ok ⟨row.1.evaluationCode, row.2, pct⟩ := by
      unfold trendPoint
      rw [h row List.mem_cons_self]
      rfl
    rw [List.mapM_cons, hrow, ih fun row hrow => h row (List.mem_cons_of_mem _ hrow)]
    rfl

theorem trend_withGrade (pct : Rat) (hview : canViewPersonnel db env p user = true)
    (hr : r ∈ db.evaluationRecords) (hresult : r.isResultOf p = true) (hdated : r.finalizedAt.isSome = true) :
    ∃ points, personnelTrend (withGrade db p pct) env user p = .ok points ∧ points ≠ [] ∧
      ∀ point ∈ points, point.finalWeightedPct = pct := by
  have hdiffers := differs_withGrade (fun _ => none) db p pct
  have hview' : canViewPersonnel (withGrade db p pct) env p user = true :=
    (canViewPersonnel_of_differs hdiffers p).trans hview
  have hgrades : ∀ row ∈ trendRows (finalizedOf (withGrade db p pct) p),
      row.1.finalWeightedPct = some pct := fun row hrow => pct_of_withGrade (mem_trendRows.mp hrow).1
  have htrend : personnelTrend (withGrade db p pct) env user p =
      (trendRows (finalizedOf (withGrade db p pct) p)).mapM trendPoint := by
    unfold personnelTrend ensure
    rw [if_pos hview']
    rfl
  rw [mapM_trendPoint hgrades] at htrend
  refine ⟨_, htrend, ?_, ?_⟩
  · have hsame := sameButResult_regraded p pct r
    have hmem : regraded p pct r ∈ finalizedOf (withGrade db p pct) p := by
      rw [mem_finalizedOf]
      refine ⟨List.mem_map_of_mem hr, ?_⟩
      rw [isResultOf_iff, hsame.status_eq, hsame.subject_eq]
      exact isResultOf_iff.mp hresult
    obtain ⟨finalizedAt, hat⟩ := Option.isSome_iff_exists.mp hdated
    have hat' : (regraded p pct r).finalizedAt = some finalizedAt := by
      unfold regraded
      split
      · exact hat
      · exact hat
    have hrow : (regraded p pct r, finalizedAt) ∈ trendRows (finalizedOf (withGrade db p pct) p) :=
      mem_trendRows.mpr ⟨hmem, hat'⟩
    intro hnone
    rw [List.map_eq_nil_iff] at hnone
    rw [hnone] at hrow
    cases hrow
  · intro point hpoint
    obtain ⟨row, -, rfl⟩ := List.mem_map.mp hpoint
    rfl

/-- Charts that are open tell two grades apart. -/
theorem charts_tell (backend : Backend) (documents : Archive) (hview : canViewPersonnel db env p user = true)
    (hr : r ∈ db.evaluationRecords) (hresult : r.isResultOf p = true) (hdated : r.finalizedAt.isSome = true) :
    ∃ db', DiffersInResults p documents documents db db' ∧
      answer backend documents db' env user (.personnelTrend p) ≠
        answer backend documents db env user (.personnelTrend p) := by
  by_contra hnone
  have hsame : ∀ pct, personnelTrend (withGrade db p pct) env user p = personnelTrend db env user p := by
    intro pct
    by_contra hdifferent
    refine hnone ⟨withGrade db p pct, differs_withGrade documents db p pct, ?_⟩
    intro heq
    apply hdifferent
    rw [answer, answer] at heq
    exact map_inj (fun _ _ h => ResultAnswer.trend.inj h) heq
  obtain ⟨low, hlow, hne, hall⟩ := trend_withGrade 0 hview hr hresult hdated
  obtain ⟨high, hhigh, -, hall'⟩ := trend_withGrade 1 hview hr hresult hdated
  have heq : low = high := by
    rw [hsame 0] at hlow
    rw [hsame 1, hlow] at hhigh
    exact Except.ok.inj hhigh
  obtain ⟨point, hpoint⟩ := List.exists_mem_of_ne_nil low hne
  have hzero := hall point hpoint
  have hone := hall' point (heq ▸ hpoint)
  rw [hzero] at hone
  norm_num at hone

end

/-- In every run the finalized records have their date. -/
theorem dated_of_run {tr : List (Taken Database Request)} {db : Database} (h : SystemRun tr db) :
    ∀ r ∈ db.evaluationRecords, r.status = .finalized → r.finalizedAt.isSome = true := by
  intro r hr hfinal
  exact (documented_of_run h (Table.get?_of_mem hr) hfinal).2.2.2

/-- Where results are not shown to employees, what a user gets does not depend on the results about himself
exactly when there are none or the charts of his person are closed to him. -/
theorem own_result_hidden_iff (backend : Backend) (documents : Archive) (db : Database) (env : Env)
    (user : CurrentUser) (p : Nat) (hlink : user.personnelId = some p)
    (hgate : employeeResultsAreVisible env = false)
    (hdated : ∀ r ∈ db.evaluationRecords, r.status = .finalized → r.finalizedAt.isSome = true) :
    (∀ documents' db' request, DiffersInResults p documents documents' db db' →
        answer backend documents' db' env user request = answer backend documents db env user request) ↔
      ChartsClosed db env user p := by
  constructor
  · intro hsame r hr hresult
    by_contra hopen
    have hview : canViewPersonnel db env p user = true := Bool.not_eq_false _ ▸ hopen
    obtain ⟨db', hdiffers, hdifferent⟩ := charts_tell backend documents hview hr hresult
      (hdated r hr (isResultOf_iff.mp hresult).1)
    exact hdifferent (hsame documents db' _ hdiffers)
  · intro hclosed documents' db' request hdiffers
    exact answer_of_differs hdiffers hclosed hlink hgate request

/-! ## An office that does not show results -/

def plainBackend : Backend where
  ilike := fun text pattern =>
    decide (((pattern.toList.filter (· ≠ '%')).map Char.toLower) <:+: text.toList.map Char.toLower)
  localDayStart := fun day => day * 86400
  weasyprintAvailable := true
  renderEvaluationSummaryPdf := fun finalSnapshot _ => some finalSnapshot.evaluationCode
  verifyUrlFor := fun token => "/verify/" ++ token
  minCohortSize := 5

def subjectAccount (role : UserRole) : User := { account 7 "subject" role with personnelId := some 1 }

def subjectUser (role : UserRole) : CurrentUser := (subjectAccount role).toCurrent

/-- The employee of the office has an account of the role, and a result. -/
def resultsOffice (role : UserRole) (pct : Rat) : Database :=
  { office fullChain with
    users := Table.ofRows (officeUsers.rows ++ [subjectAccount role]) (by cases role <;> decide)
    evaluationRecords := onlyEvaluation pct }

def dayWithoutResults : Env :=
  { someDay with
    capabilities := []
    moduleRefusal := fun m => if m = .employeeEvaluationVisibility then some "" else none }

theorem resultsOffice_differ (role : UserRole) :
    DiffersInResults 1 (fun _ => none) (fun _ => none) (resultsOffice role 60) (resultsOffice role 80) where
  rest := rfl
  seq := rfl
  rows := by
    refine List.Forall₂.cons (Or.inr ⟨by decide, ?_⟩) List.Forall₂.nil
    exact ⟨⟨[], none, none, none, some 80, none, none, none, none⟩, rfl⟩
  archive := fun _ _ _ => rfl

/-- An HR officer reads his own percentage from the trend of his person. -/
theorem hr_reads_own_result :
    ∃ backend documents db db' env user p request, user.personnelId = some p ∧
      employeeResultsAreVisible env = false ∧ DiffersInResults p documents documents db db' ∧
        answer backend documents db' env user request ≠ answer backend documents db env user request := by
  refine ⟨plainBackend, fun _ => none, resultsOffice .hr 60, resultsOffice .hr 80, dayWithoutResults,
    subjectUser .hr, 1, .personnelTrend 1, rfl, by decide, resultsOffice_differ .hr, ?_⟩
  intro heq
  have htrend : personnelTrend (resultsOffice .hr 80) dayWithoutResults (subjectUser .hr) 1 =
      personnelTrend (resultsOffice .hr 60) dayWithoutResults (subjectUser .hr) 1 :=
    map_inj (fun _ _ h => ResultAnswer.trend.inj h) heq
  revert htrend
  decide

/-- The same person without a seat or an office learns nothing from his trend and his document. -/
theorem employee_learns_nothing :
    answer plainBackend (fun _ => none) (resultsOffice .employee 80) dayWithoutResults
        (subjectUser .employee) (.personnelTrend 1) =
      answer plainBackend (fun _ => none) (resultsOffice .employee 60) dayWithoutResults
        (subjectUser .employee) (.personnelTrend 1) ∧
    answer plainBackend (fun _ => none) (resultsOffice .employee 80) dayWithoutResults
        (subjectUser .employee) (.evaluationSummaryPdf 1) =
      answer plainBackend (fun _ => none) (resultsOffice .employee 60) dayWithoutResults
        (subjectUser .employee) (.evaluationSummaryPdf 1) := by
  have hone : ∀ r ∈ (resultsOffice .employee 60).evaluationRecords, r = evaluationOf 1 60 :=
    fun r hr => List.mem_singleton.mp hr
  have hdated : ∀ r ∈ (resultsOffice .employee 60).evaluationRecords, r.status = .finalized →
      r.finalizedAt.isSome = true := by
    intro r hr _
    rw [hone r hr]
    rfl
  have hclosed : ChartsClosed (resultsOffice .employee 60) dayWithoutResults (subjectUser .employee) 1 := by
    intro r _ _
    decide
  have hsame := (own_result_hidden_iff plainBackend (fun _ => none) (resultsOffice .employee 60)
    dayWithoutResults (subjectUser .employee) 1 rfl (by decide) hdated).mpr hclosed
  exact ⟨hsame _ _ _ (resultsOffice_differ .employee), hsame _ _ _ (resultsOffice_differ .employee)⟩

end NexaHR
