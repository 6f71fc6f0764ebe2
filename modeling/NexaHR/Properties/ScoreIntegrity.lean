import NexaHR.System.FormSteps
import NexaHR.System.RecordRuns
import NexaHR.System.Installation

/-! # The result and its inputs

The stored result of a submitted record is the one that its own scores, form, rules and special
score give, in every state. What it was computed from stays as it was submitted, except that a new
version of the form is also bound to submitted records in which nobody has written anything.

* `FormSound`: every record rests on a version of the form and of the rules that is there.
* `ScoresIntact`: the stored results of a database.
* `FormFrozen`, `SparesSubmitted`: what a step leaves alone, and when it does.
* `score_integrity_iff`: the result, with the exact condition on the steps of a run.
-/

namespace NexaHR

open Foundations

set_option autoImplicit false

/-! ## What a record rests on -/

/-- The record is stamped with a version of the form, and with one of the rules that is no draft. -/
structure Stamped (db : Database) (r : EvaluationRecord) : Prop where
  framework : ∃ k f, r.indicatorFrameworkId = some k ∧ db.indicatorFrameworks.get? k = some f
  scheme : ∃ k scheme, r.scoringSchemeId = some k ∧ db.scoringSchemes.get? k = some scheme ∧
    scheme.status ≠ .draft

structure FormSound (db : Database) : Prop where
  active : ∃ scheme ∈ db.scoringSchemes, scheme.status = .active
  stamped : ∀ r ∈ db.evaluationRecords, Stamped db r
  asked : ∀ r ∈ db.evaluationRecords, RowsAsked db r

section

variable {db db' : Database} {req : Request} {user : CurrentUser} {r r' : EvaluationRecord}
  {o : Option Action} {performed : Nat → Option Action} {k : Nat}

theorem Change.scheme_eq (h : Change db req user r o r') : r'.scoringSchemeId = r.scoringSchemeId := by
  cases h with
  | moved a _ _ _ before hbefore =>
    have hclaimed : (r.claimedFor a user).scoringSchemeId = r.scoringSchemeId := by
      unfold EvaluationRecord.claimedFor
      split <;> rfl
    rw [← hclaimed]
    cases hbefore <;> rfl
  | _ => rfl

/-- Only publishing moves a record to another version of the form. -/
theorem Change.framework_eq (h : Change db req user r o r')
    (hop : req.operation.changesMembership db = false) :
    r'.indicatorFrameworkId = r.indicatorFrameworkId := by
  cases h with
  | rebound framework hmovable hchanges =>
    rw [hop] at hchanges
    cases hchanges
  | moved a _ _ _ before hbefore =>
    have hclaimed : (r.claimedFor a user).indicatorFrameworkId = r.indicatorFrameworkId := by
      unfold EvaluationRecord.claimedFor
      split <;> rfl
    rw [← hclaimed]
    cases hbefore <;> rfl
  | _ => rfl

/-- The score rows after a change name what the form asks. -/
theorem Change.rowsAsked (h : Change db req user r o r') (hasked : RowsAsked db r) :
    RowsAsked db r' := by
  cases h with
  | scored hscorer scores bonusPoints bonusReason evaluatorComment hrows =>
    rcases hrows with rfl | hrows
    · exact hasked
    · exact rowsAsked_of_mem hrows
  | rebound framework hmovable =>
    unfold EvaluationRecord.isMovable EvaluationRecord.isUntouched at hmovable
    simp only [Bool.and_eq_true, decide_eq_true_eq] at hmovable
    have hnil : r.scores = [] := hmovable.2.1
    intro s hs
    have hs' : s ∈ r.scores := hs
    rw [hnil] at hs'
    cases hs'
  | moved a _ _ _ before hbefore =>
    have hclaimed : RowsAsked db (r.claimedFor a user) := by
      unfold EvaluationRecord.claimedFor
      split <;> exact hasked
    cases hbefore <;> exact hclaimed
  | _ => exact hasked

/-- Where a record stands with its version of the form after a step: where it stood, or, when nobody
had written in it, at the new version. -/
theorem framework_step (hstep : Steps db req db') (hget : db.evaluationRecords.get? k = some r)
    (hget' : db'.evaluationRecords.get? k = some r') :
    r'.indicatorFrameworkId = r.indicatorFrameworkId ∨
      (req.operation.changesMembership db = true ∧ r.isOpen = true ∧ r.isUntouched = true ∧
        r'.scores = [] ∧ ∃ f, r'.indicatorFrameworkId = some f.id ∧
          db'.indicatorFrameworks.get? f.id = some f) := by
  by_cases hop : req.operation.changesMembership db = true
  · obtain ⟨user, indicators, kind, note, log, notifications, -, rfl⟩ := published_of_steps hstep hop
    have hpublished : (publish { db with indicators := indicators } user kind
        note).evaluationRecords.get? k = some r' := hget'
    rw [publish_get?] at hpublished
    have hrecord : db.evaluationRecords.get? k = some r := hget
    simp only [hrecord, Option.map_some, Option.some.injEq] at hpublished
    unfold EvaluationRecord.rebind at hpublished
    split at hpublished
    next hmovable =>
      right
      unfold EvaluationRecord.isMovable at hmovable
      rw [Bool.and_eq_true, Bool.and_eq_true] at hmovable
      have hnil : r.scores = [] := by
        have huntouched := hmovable.2
        unfold EvaluationRecord.isUntouched at huntouched
        rw [Bool.and_eq_true, decide_eq_true_eq] at huntouched
        exact huntouched.1
      subst hpublished
      exact ⟨hop, hmovable.1.1, hmovable.2, hnil, _, rfl, bump_get? _ _ _ _⟩
    next =>
      left
      rw [← hpublished]
  · left
    obtain ⟨user, r₁, -, hr₁, hchange⟩ := step_record hstep hget
    rw [hget'] at hr₁
    cases hr₁
    exact hchange.framework_eq (by simpa using hop)

/-! ## One step keeps it -/

theorem activeScheme_of_active (h : ∃ scheme ∈ db.scoringSchemes, scheme.status = .active) :
    ∃ scheme, activeScheme db = some scheme ∧ db.scoringSchemes.get? scheme.id = some scheme ∧
      scheme.status ≠ .draft := by
  obtain ⟨scheme, hmem, hactive⟩ := h
  cases hfind : activeScheme db with
  | none =>
    have hno := List.find?_eq_none.mp hfind scheme hmem
    exact absurd (decide_eq_true hactive) hno
  | some found =>
    have hfound : found.status = .active := by simpa using List.find?_some hfind
    refine ⟨found, rfl, Table.get?_of_mem (List.mem_of_find?_eq_some hfind), ?_⟩
    rw [hfound]
    decide

theorem indicatorIds_eq {f : IndicatorFramework} (hk : r.indicatorFrameworkId = some k)
    (hf : db.indicatorFrameworks.get? k = some f) : indicatorIdsForRecord db r = f.memberIds := by
  unfold indicatorIdsForRecord
  rw [hk, Option.bind_some, hf]

/-- The indicators that the score rows of a record name stay, in their sections. -/
theorem Effect.sections (h : Effect db req user performed db') (hr : r ∈ db.evaluationRecords)
    (hasked : RowsAsked db r) {s : EvaluationScore} (hs : s ∈ r.scores) :
    (db'.indicators.get? s.indicatorId).map Indicator.section =
      (db.indicators.get? s.indicatorId).map Indicator.section := by
  rcases h.indicators with hsame | ⟨hkeeps, -⟩
  · rw [hsame]
  · obtain ⟨i, hi⟩ := Option.isSome_iff_exists.mp (hasked s hs).2
    obtain ⟨i', hi', hsection⟩ := hkeeps _ i hi (scoredCount_ne_zero hr hs)
    rw [hi, hi', Option.map_some, Option.map_some, hsection]

/-- The rows of a record name what its form asks also after the step. -/
theorem rowsAsked_step (hstep : Steps db req db') (hsound : FormSound db)
    (hget : db.evaluationRecords.get? k = some r) (hget' : db'.evaluationRecords.get? k = some r') :
    RowsAsked db' r' := by
  obtain ⟨user, -, d, _, _, heffect, rfl⟩ := effect_of_steps hstep
  have hr : r ∈ db.evaluationRecords := Table.mem_of_get? hget
  obtain ⟨r₁, hr₁, hchange⟩ := heffect.record hget
  have hsame : r₁ = r' := by
    have hget₁ : d.evaluationRecords.get? k = some r' := hget'
    rw [hr₁] at hget₁
    exact Option.some.inj hget₁
  subst hsame
  have hasked' : RowsAsked db r₁ := hchange.rowsAsked (hsound.asked r hr)
  intro s hs
  rcases framework_step hstep hget hget' with hframework | ⟨-, -, -, hnil, -⟩
  · obtain ⟨j, f, hj, hf⟩ := (hsound.stamped r hr).framework
    have hj₁ : r₁.indicatorFrameworkId = some j := hframework.trans hj
    obtain ⟨hmem, hsome⟩ := hasked' s hs
    rw [indicatorIds_eq hj₁ hf] at hmem
    constructor
    · show s.indicatorId ∈ indicatorIdsForRecord d r₁
      rw [indicatorIds_eq hj₁ (heffect.frameworks hf)]
      exact hmem
    · show (d.indicators.get? s.indicatorId).isSome = true
      rcases heffect.indicators with hindicators | ⟨hkeeps, hscores⟩
      · rw [hindicators]
        exact hsome
      · obtain ⟨r₂, hr₂, heq⟩ := hscores k r hget
        rw [hr₁] at hr₂
        cases hr₂
        rw [heq] at hs
        obtain ⟨i, hi⟩ := Option.isSome_iff_exists.mp hsome
        obtain ⟨i', hi', -⟩ := hkeeps _ i hi (scoredCount_ne_zero hr hs)
        rw [hi']
        rfl
  · rw [hnil] at hs
    cases hs

theorem stamped_step (hstep : Steps db req db') (hsound : FormSound db)
    (hget : db.evaluationRecords.get? k = some r) (hget' : db'.evaluationRecords.get? k = some r') :
    Stamped db' r' := by
  have hframework := framework_step hstep hget hget'
  obtain ⟨user, -, d, _, _, heffect, rfl⟩ := effect_of_steps hstep
  obtain ⟨_, r₁, -, hr₁, hchange⟩ := step_record hstep hget
  rw [hget'] at hr₁
  cases hr₁
  have hstamped := hsound.stamped r (Table.mem_of_get? hget)
  constructor
  · rcases hframework with heq | ⟨-, -, -, -, f, hf, hgetf⟩
    · obtain ⟨j, f, hj, hf⟩ := hstamped.framework
      exact ⟨j, f, heq.trans hj, heffect.frameworks hf⟩
    · exact ⟨f.id, f, hf, hgetf⟩
  · obtain ⟨j, scheme, hj, hscheme, hstatus⟩ := hstamped.scheme
    obtain ⟨scheme', hscheme', hstatus', -⟩ := heffect.schemes.rules j scheme hscheme hstatus
    exact ⟨j, scheme', hchange.scheme_eq.trans hj, hscheme', hstatus'⟩

theorem formSound_step (hstep : Steps db req db') (hsound : FormSound db) : FormSound db' := by
  obtain ⟨user, -, d, _, _, heffect, heq⟩ := effect_of_steps hstep
  have hrecord : ∀ r' ∈ db'.evaluationRecords, Stamped db' r' ∧ RowsAsked db' r' := by
    intro r' hr'
    have hget' : db'.evaluationRecords.get? r'.id = some r' := Table.get?_of_mem hr'
    cases hget : db.evaluationRecords.get? r'.id with
    | some r => exact ⟨stamped_step hstep hsound hget hget', rowsAsked_step hstep hsound hget hget'⟩
    | none =>
      subst heq
      rcases heffect.record_or_opened hget' with ⟨r, hr⟩ | ⟨hd, access, -, -, -, code, hnew⟩
      · rw [hget] at hr
        cases hr
      · obtain ⟨scheme, hactive, hscheme, hstatus⟩ := activeScheme_of_active hsound.active
        constructor
        · constructor
          · refine ⟨(ensureFramework db).1.id, (ensureFramework db).1, by rw [hnew]; rfl, ?_⟩
            show d.indicatorFrameworks.get? _ = _
            rw [hd, (openRecords_form _ _).2.1]
            exact (ensureFramework_spec db).2.1
          · obtain ⟨scheme', hscheme', hstatus', -⟩ := heffect.schemes.rules _ scheme hscheme hstatus
            refine ⟨scheme.id, scheme', ?_, hscheme', hstatus'⟩
            rw [hnew]
            show (activeScheme db).map ScoringScheme.id = some scheme.id
            rw [hactive]
            rfl
        · intro s hs
          rw [hnew] at hs
          cases hs
  refine ⟨?_, fun r' hr' => (hrecord r' hr').1, fun r' hr' => (hrecord r' hr').2⟩
  rw [heq]
  exact heffect.schemes.active hsound.active

theorem formSound_of_run {tr : List (Taken Database Request)} (h : SystemRun tr db) : FormSound db := by
  refine h.invariant (P := FormSound) ?_ ?_
  · intro db hinit
    refine ⟨hinit.scheme_active, ?_, ?_⟩
    · intro r hr
      exact absurd hr (hinit.no_records r)
    · intro r hr
      exact absurd hr (hinit.no_records r)
  · intro db req db' hsound hstep
    exact formSound_step hstep hsound

/-! ## The stored result -/

/-- The result columns of a record are the result of its own scores, form, rules and special score. -/
structure ResultStored (db : Database) (r : EvaluationRecord) : Prop where
  base : r.baseWeightedPct = some (resultFor db r).baseWeightedPct
  general : r.generalScorePct = some (resultFor db r).generalScorePct
  specialized : r.specializedScorePct = some (resultFor db r).specializedScorePct
  final : r.finalWeightedPct = some (resultFor db r).finalWeightedPct
  recommendation : r.recommendation = some (resultFor db r).recommendation

def ScoresIntact (db : Database) : Prop :=
  ∀ r ∈ db.evaluationRecords, r.status ≠ .draft → r.status ≠ .cancelled → ResultStored db r

theorem ResultStored.of_form (h : ResultStored db r) (hform : r'.form = r.form)
    (hresult : resultFor db' r' = resultFor db r) : ResultStored db' r' where
  base := by
    rw [hresult, ← h.base]
    exact congrArg ScoredForm.baseWeightedPct hform
  general := by
    rw [hresult, ← h.general]
    exact congrArg ScoredForm.generalScorePct hform
  specialized := by
    rw [hresult, ← h.specialized]
    exact congrArg ScoredForm.specializedScorePct hform
  final := by
    rw [hresult, ← h.final]
    exact congrArg ScoredForm.finalWeightedPct hform
  recommendation := by
    rw [hresult, ← h.recommendation]
    exact congrArg ScoredForm.recommendation hform

/-- What leaves the draft and is not cancelled was submitted. -/
theorem leaves_draft {a : Action} (hfrom : .draft ∈ (transitions a).fromStatuses) :
    a.isSubmit = true ∨ (transitions a).toStatus = .cancelled := by
  cases a <;> first | exact Or.inl rfl | exact Or.inr rfl | exact absurd hfrom (by decide)

/-- A record that changed with its scores and its special score has the result that it had. -/
theorem resultFor_step (hstep : Steps db req db') (hsound : FormSound db)
    (hget : db.evaluationRecords.get? k = some r) (hget' : db'.evaluationRecords.get? k = some r')
    (hscores : r'.scores = r.scores) (hbonus : r'.bonusPoints = r.bonusPoints)
    (hscheme : r'.scoringSchemeId = r.scoringSchemeId) : resultFor db' r' = resultFor db r := by
  have hr : r ∈ db.evaluationRecords := Table.mem_of_get? hget
  have hasked' : RowsAsked db' r' := rowsAsked_step hstep hsound hget hget'
  obtain ⟨user, -, d, log, notifications, heffect, rfl⟩ := effect_of_steps hstep
  obtain ⟨j, scheme, hj, hgets, hstatus⟩ := (hsound.stamped r hr).scheme
  obtain ⟨scheme', hgets', -, hrules⟩ := heffect.schemes.rules j scheme hgets hstatus
  have hgets'' : (d.withLogs log notifications).scoringSchemes.get? j = some scheme' := hgets'
  have hsame : rulesForRecord (d.withLogs log notifications) r' = rulesForRecord db r := by
    rw [rulesForRecord_of_scheme hj hgets, rulesForRecord_of_scheme (hscheme.trans hj) hgets'', hrules]
  refine resultFor_congr hscores hbonus hsame (hsound.asked r hr) hasked' ?_
  intro s hs
  exact heffect.sections hr (hsound.asked r hr) hs

theorem resultStored_step (hstep : Steps db req db') (hsound : FormSound db) (hintact : ScoresIntact db)
    (hget : db.evaluationRecords.get? k = some r) (hget' : db'.evaluationRecords.get? k = some r')
    (hdraft' : r'.status ≠ .draft) (hcancelled' : r'.status ≠ .cancelled) : ResultStored db' r' := by
  have hr : r ∈ db.evaluationRecords := Table.mem_of_get? hget
  obtain ⟨user, r₁, -, hr₁, hchange⟩ := step_record hstep hget
  rw [hget'] at hr₁
  cases hr₁
  by_cases hdraft : r.status = .draft
  · rcases hchange.status_eq with ⟨-, hs⟩ | ⟨a, ha, hblock, hs⟩
    · rw [hs] at hdraft'
      exact absurd hdraft hdraft'
    · have hfrom := (transitionBlock_eq_none.mp hblock).1
      rw [hdraft] at hfrom
      rcases leaves_draft hfrom with hsubmit | hto
      · rw [ha] at hchange
        obtain ⟨-, heq⟩ := submit_change hchange hsubmit
        have hresult : resultFor db' r' = resultFor db r :=
          resultFor_step hstep hsound hget hget' (by rw [heq]; rfl) (by rw [heq]; rfl) (by rw [heq]; rfl)
        constructor <;> rw [hresult, heq] <;> rfl
      · rw [hto] at hs
        exact absurd hs hcancelled'
  · have hcancelled : r.status ≠ .cancelled := by
      intro hcancelled
      rcases hchange.status_eq with ⟨-, hs⟩ | ⟨a, -, hblock, -⟩
      · exact hcancelled' (hs.trans hcancelled)
      · have hfrom := (transitionBlock_eq_none.mp hblock).1
        rw [hcancelled] at hfrom
        exact cancelled_not_mem_fromStatuses a hfrom
    have hform := hchange.form_eq hdraft
    have hresult : resultFor db' r' = resultFor db r :=
      resultFor_step hstep hsound hget hget' (congrArg ScoredForm.scores hform)
        (congrArg ScoredForm.bonusPoints hform) (congrArg ScoredForm.scoringSchemeId hform)
    exact (hintact r hr hdraft hcancelled).of_form hform hresult

theorem scoresIntact_step (hstep : Steps db req db') (hsound : FormSound db)
    (hintact : ScoresIntact db) : ScoresIntact db' := by
  intro r' hr' hdraft' hcancelled'
  have hget' : db'.evaluationRecords.get? r'.id = some r' := Table.get?_of_mem hr'
  cases hget : db.evaluationRecords.get? r'.id with
  | some r => exact resultStored_step hstep hsound hintact hget hget' hdraft' hcancelled'
  | none =>
    obtain ⟨access, -, -, -, code, hnew⟩ := step_opened hstep hget hget'
    rw [hnew] at hdraft'
    exact absurd rfl hdraft'

/-- In every state of every run the stored results are the results. -/
theorem scoresIntact_of_run {tr : List (Taken Database Request)} (h : SystemRun tr db) :
    ScoresIntact db := by
  have hboth : FormSound db ∧ ScoresIntact db := by
    refine h.invariant_of_history (P := fun tr db => FormSound db ∧ ScoresIntact db)
      (C := fun _ => True) ?_ ?_ (fun _ _ => trivial)
    · intro db hinit
      refine ⟨formSound_of_run (Run.nil hinit), ?_⟩
      intro r hr
      exact absurd hr (hinit.no_records r)
    · intro tr db req db' ⟨hsound, hintact⟩ hstep _
      exact ⟨formSound_step hstep hsound, scoresIntact_step hstep hsound hintact⟩
  exact hboth.2

/-! ## What it was computed from -/

/-- The step leaves the scores, the special score, the form and the rules of a record outside the
draft alone. -/
def FormFrozen (x : Taken Database Request) : Prop :=
  ∀ k r r', x.before.evaluationRecords.get? k = some r → x.after.evaluationRecords.get? k = some r' →
    r.status ≠ .draft → r'.scores = r.scores ∧ r'.bonusPoints = r.bonusPoints ∧
      r'.indicatorFrameworkId = r.indicatorFrameworkId ∧ r'.scoringSchemeId = r.scoringSchemeId

/-- No version of the form is published over an open record in which nothing is written and that is
no draft any more. -/
def SparesSubmitted (db : Database) (req : Request) : Prop :=
  req.operation.changesMembership db = true →
    ∀ r ∈ db.evaluationRecords, r.isOpen = true → r.status ≠ .draft → r.isUntouched = false

theorem formFrozen_of_spares (hstep : Steps db req db') (hspares : SparesSubmitted db req) :
    FormFrozen ⟨db, req, db'⟩ := by
  intro k r r' hget hget' hdraft
  have hget₁ : db.evaluationRecords.get? k = some r := hget
  obtain ⟨user, r₁, -, hr₁, hchange⟩ := step_record hstep hget₁
  rw [show db'.evaluationRecords.get? k = some r' from hget'] at hr₁
  cases hr₁
  have hform := hchange.form_eq hdraft
  refine ⟨congrArg ScoredForm.scores hform, congrArg ScoredForm.bonusPoints hform, ?_,
    congrArg ScoredForm.scoringSchemeId hform⟩
  rcases framework_step hstep hget₁ hget' with heq | ⟨hop, hopen, huntouched, -⟩
  · exact heq
  · rw [hspares hop r (Table.mem_of_get? hget₁) hopen hdraft] at huntouched
    cases huntouched

/-- A published version is a new one. -/
theorem rebind_of_untouched {framework : IndicatorFramework} {j : Nat}
    (hj : r.indicatorFrameworkId = some j) (hne : j ≠ framework.id) (hopen : r.isOpen = true)
    (huntouched : r.isUntouched = true) : (r.rebind framework).indicatorFrameworkId = some framework.id := by
  have hmovable : r.isMovable framework = true := by
    unfold EvaluationRecord.isMovable
    rw [hopen, huntouched, hj]
    simpa using hne
  unfold EvaluationRecord.rebind
  rw [if_pos hmovable]

theorem spares_of_formFrozen (hstep : Steps db req db') (hsound : FormSound db)
    (hfrozen : FormFrozen ⟨db, req, db'⟩) : SparesSubmitted db req := by
  intro hop r hr hopen hdraft
  by_contra huntouched
  rw [Bool.not_eq_false] at huntouched
  obtain ⟨j, f, hj, hf⟩ := (hsound.stamped r hr).framework
  obtain ⟨user, indicators, kind, note, log, notifications, -, rfl⟩ := published_of_steps hstep hop
  have hget : db.evaluationRecords.get? r.id = some r := Table.get?_of_mem hr
  have hle : j ≤ db.indicatorFrameworks.seq := Table.le_seq_of_get? hf
  have hne : j ≠ (bump { db with indicators := indicators } (some user.id) kind note).1.id := by
    show j ≠ db.indicatorFrameworks.seq + 1
    omega
  have hpublished := @publish_get? { db with indicators := indicators } user kind note r.id
  rw [show ({ db with indicators := indicators } : Database).evaluationRecords.get? r.id = some r from hget]
    at hpublished
  have hsame := (hfrozen r.id r _ hget hpublished hdraft).2.2.1
  rw [rebind_of_untouched hj hne hopen huntouched, hj] at hsame
  exact hne (Option.some.inj hsame).symm

/-! ## The result -/

/-- The stored results are the results in every state of every run, and what they were computed from
stays in a run exactly when no version of the form is published over an untouched submission. -/
theorem score_integrity_iff {tr : List (Taken Database Request)} (h : SystemRun tr db) :
    ScoresIntact db ∧
      ((∀ x ∈ tr, FormFrozen x) ↔ ∀ x ∈ tr, SparesSubmitted x.before x.label) := by
  refine ⟨scoresIntact_of_run h, ?_, ?_⟩
  · intro hfrozen x hx
    obtain ⟨⟨old, hold, -⟩, hstep⟩ := h.step_of_mem hx
    exact spares_of_formFrozen hstep (formSound_of_run hold) (hfrozen x hx)
  · intro hspares x hx
    exact formFrozen_of_spares (h.step_of_mem hx).2 (hspares x hx)

end

/-- The run to the final document publishes no form. -/
theorem finalizedByAll_integrity :
    ScoresIntact (endState settled (office fullChain) finalizedByAll) ∧
      ∀ x ∈ replay settled (office fullChain) finalizedByAll, FormFrozen x := by
  have hnone : ((replay settled (office fullChain) finalizedByAll).all fun x =>
      !x.label.operation.changesMembership x.before) = true := by
    decide
  have hintegrity := score_integrity_iff finalizedByAll_run
  refine ⟨hintegrity.1, hintegrity.2.mpr ?_⟩
  intro x hx hop
  have hno := List.all_eq_true.mp hnone x hx
  rw [hop] at hno
  cases hno

/-! ## A submission that asks something else afterwards -/

/-- A first indicator is added after an empty form was submitted. -/
def formAddedAfterwards : List Request := ask 5 (.createIndicator .general "C" "D") :: submittedEmpty

theorem submitted_form_is_exchanged :
    ¬∀ tr db, SystemRun tr db → ScoresIntact db ∧ ∀ x ∈ tr, FormFrozen x := by
  intro hclaim
  have hrun : SystemRun (replay settled emptyOffice formAddedAfterwards)
      (endState settled emptyOffice formAddedAfterwards) :=
    systemRun_replay (office_initial (by decide)) (by decide)
  have hfrozen := (hclaim _ _ hrun).2 _ List.mem_cons_self
  obtain ⟨r, hget, hr⟩ := exists_of_any
    (o := (endState settled emptyOffice submittedEmpty).evaluationRecords.get? 1)
    (p := fun r => r.status = .submitted && r.indicatorFrameworkId = some 1) (by decide)
  obtain ⟨r', hget', hr'⟩ := exists_of_any
    (o := (endState settled emptyOffice formAddedAfterwards).evaluationRecords.get? 1)
    (p := fun r => r.indicatorFrameworkId = some 2) (by decide)
  rw [Bool.and_eq_true, decide_eq_true_eq, decide_eq_true_eq] at hr
  rw [decide_eq_true_eq] at hr'
  have hsame := (hfrozen 1 r r' hget hget' (by rw [hr.1]; decide)).2.2.1
  rw [hr.2, hr'] at hsame
  cases hsame

end NexaHR
