import NexaHR.System.RecordSteps

/-! # Steps of the form and of the rules

What one request means for the indicators, for the versions of the form and for the versions of the
rules, and so for the result that a record's own scores have.

* `Effect.frameworks`, `Effect.schemes`, `Effect.indicators`: nothing that a record rests on goes away.
* `published_of_steps`: a change of membership publishes and does nothing else.
* `RowsAsked`, `resultFor_congr`: the result of a record depends on what its score rows name.
-/

namespace NexaHR

open Foundations

set_option autoImplicit false

section

variable {db db' : Database} {req : Request} {user : CurrentUser} {performed : Nat → Option Action}

/-! ## Tables that a request does not write -/

theorem insertOwnAccount_form (db : Database) (username : Option String) (personnelId : Nat) :
    (insertOwnAccount db username personnelId).indicators = db.indicators ∧
      (insertOwnAccount db username personnelId).indicatorFrameworks = db.indicatorFrameworks ∧
      (insertOwnAccount db username personnelId).scoringSchemes = db.scoringSchemes := by
  unfold insertOwnAccount
  split <;> exact ⟨rfl, rfl, rfl⟩

theorem insertAccess_form (db : Database) (chain : Option Chain) (personnelId userId : Nat) :
    (insertAccess db chain personnelId userId).indicators = db.indicators ∧
      (insertAccess db chain personnelId userId).indicatorFrameworks = db.indicatorFrameworks ∧
      (insertAccess db chain personnelId userId).scoringSchemes = db.scoringSchemes := by
  unfold insertAccess
  split <;> exact ⟨rfl, rfl, rfl⟩

theorem writeAccess_form (personnelId : Nat) (chain : Chain) (userId : Nat) :
    (writeAccess db personnelId chain userId).indicators = db.indicators ∧
      (writeAccess db personnelId chain userId).indicatorFrameworks = db.indicatorFrameworks ∧
      (writeAccess db personnelId chain userId).scoringSchemes = db.scoringSchemes := by
  unfold writeAccess
  split <;> exact ⟨rfl, rfl, rfl⟩

theorem importRows_form (env : Env) (rows : List ImportRow) :
    (rows.foldl (importRow env user) db).indicators = db.indicators ∧
      (rows.foldl (importRow env user) db).indicatorFrameworks = db.indicatorFrameworks ∧
      (rows.foldl (importRow env user) db).scoringSchemes = db.scoringSchemes := by
  induction rows generalizing db with
  | nil => exact ⟨rfl, rfl, rfl⟩
  | cons row rows ih =>
    have hrow : (importRow env user db row).indicators = db.indicators ∧
        (importRow env user db row).indicatorFrameworks = db.indicatorFrameworks ∧
        (importRow env user db row).scoringSchemes = db.scoringSchemes := by
      have haccount := insertOwnAccount_form
        (insertAccess (insertPersonnel db row.fields row.status) row.chain
          (insertPersonnel db row.fields row.status).personnel.seq user.id)
        row.username (insertPersonnel db row.fields row.status).personnel.seq
      have haccess := insertAccess_form (insertPersonnel db row.fields row.status) row.chain
        (insertPersonnel db row.fields row.status).personnel.seq user.id
      exact ⟨haccount.1.trans haccess.1, haccount.2.1.trans haccess.2.1,
        haccount.2.2.trans haccess.2.2⟩
    rw [List.foldl_cons]
    obtain ⟨h1, h2, h3⟩ := @ih (importRow env user db row)
    exact ⟨h1.trans hrow.1, h2.trans hrow.2.1, h3.trans hrow.2.2⟩

theorem openRecords_form (env : Env) (accesses : List EvaluationAccess) :
    (openRecords db env accesses).indicators = db.indicators ∧
      (openRecords db env accesses).indicatorFrameworks = (ensureFramework db).2.indicatorFrameworks ∧
      (openRecords db env accesses).scoringSchemes = db.scoringSchemes := by
  have hindicators : (ensureFramework db).2.indicators = db.indicators := by
    rw [(ensureFramework_spec db).1]
  have hschemes : (ensureFramework db).2.scoringSchemes = db.scoringSchemes := by
    rw [(ensureFramework_spec db).1]
  unfold openRecords
  rw [← hindicators, ← hschemes]
  generalize (ensureFramework db).2 = d
  induction accesses generalizing d with
  | nil => exact ⟨rfl, rfl, rfl⟩
  | cons access accesses ih =>
    rw [List.foldl_cons]
    exact ih (insertRecord d _ access _)

/-! ## What stays -/

theorem keepsSchemes_self : KeepsSchemes db db.scoringSchemes where
  rules := fun _ scheme hget hnot => ⟨scheme, hget, hnot, rfl⟩
  active := fun h => h

/-- No version of the form goes away. -/
theorem Effect.frameworks (h : Effect db req user performed db') {k : Nat} {f : IndicatorFramework}
    (hget : db.indicatorFrameworks.get? k = some f) : db'.indicatorFrameworks.get? k = some f := by
  cases h with
  | opened =>
    rw [(openRecords_form _ _).2.1]
    exact (ensureFramework_spec db).2.2 k f hget
  | formPublished => exact bump_keeps hget
  | accessWritten =>
    rw [(writeAccess_form _ _ _).2.1]
    exact hget
  | personAdded =>
    rw [(insertOwnAccount_form _ _ _).2.1]
    exact hget
  | imported =>
    rw [(importRows_form _ _).2.1]
    exact hget
  | _ => exact hget

/-- The versions of the rules stay as `KeepsSchemes` says. -/
theorem Effect.schemes (h : Effect db req user performed db') :
    KeepsSchemes db db'.scoringSchemes := by
  cases h with
  | schemesChanged schemes hschemes => exact hschemes
  | opened =>
    rw [(openRecords_form _ _).2.2]
    exact keepsSchemes_self
  | accessWritten =>
    rw [(writeAccess_form _ _ _).2.2]
    exact keepsSchemes_self
  | personAdded =>
    rw [(insertOwnAccount_form _ _ _).2.2]
    exact keepsSchemes_self
  | imported =>
    rw [(importRows_form _ _).2.2]
    exact keepsSchemes_self
  | _ => exact keepsSchemes_self

theorem rebind_scores (r : EvaluationRecord) (framework : IndicatorFramework) :
    (r.rebind framework).scores = r.scores := by
  unfold EvaluationRecord.rebind
  split <;> rfl

/-- The indicators are as they were, or the scored ones stay and no score row is written. -/
theorem Effect.indicators (h : Effect db req user performed db') :
    db'.indicators = db.indicators ∨ KeepsScored db db'.indicators ∧
      ∀ k r, db.evaluationRecords.get? k = some r → ∃ r', db'.evaluationRecords.get? k = some r' ∧
        r'.scores = r.scores := by
  cases h with
  | formEdited indicators hform => exact Or.inr ⟨hform, fun _ r hget => ⟨r, hget, rfl⟩⟩
  | formPublished hop indicators hform changeKind changeNote =>
    refine Or.inr ⟨hform, ?_⟩
    intro k r hget
    exact ⟨_, by rw [publish_get?]; exact congrArg _ hget, rebind_scores r _⟩
  | opened => exact Or.inl (openRecords_form _ _).1
  | accessWritten => exact Or.inl (writeAccess_form _ _ _).1
  | personAdded => exact Or.inl (insertOwnAccount_form _ _ _).1
  | imported => exact Or.inl (importRows_form _ _).1
  | _ => exact Or.inl rfl

/-- A request that changes the membership publishes, and does nothing else. -/
theorem published_of_steps (h : Steps db req db') (hop : req.operation.changesMembership db = true) :
    ∃ user, Published db user db' := by
  have hstep : step db req = .ok db' := h
  simp only [step, bind_eq_ok] at hstep
  obtain ⟨user, -, hrun⟩ := hstep
  refine ⟨user, ?_⟩
  cases hoperation : req.operation with
  | createIndicator «section» category description =>
    rw [hoperation] at hrun
    exact createIndicator_published hrun
  | updateIndicator indicatorId payload =>
    rw [hoperation] at hrun hop
    have hok := updateIndicator_ok hrun
    rw [if_pos hop] at hok
    exact hok
  | replaceIndicator indicatorId category description reason =>
    rw [hoperation] at hrun
    exact replaceIndicator_published hrun
  | deleteIndicator indicatorId =>
    rw [hoperation] at hrun
    exact deleteIndicator_published hrun
  | _ =>
    rw [hoperation] at hop
    cases hop

end

/-! ## The result of a record -/

section

variable {db db' : Database} {r r' : EvaluationRecord}

/-- Every score row names an indicator of the record's form. -/
def RowsAsked (db : Database) (r : EvaluationRecord) : Prop :=
  ∀ s ∈ r.scores, s.indicatorId ∈ indicatorIdsForRecord db r ∧
    (db.indicators.get? s.indicatorId).isSome = true

theorem rowsAsked_of_mem (h : ∀ s ∈ r.scores, s.indicatorId ∈ (indicatorsForRecord db r).map Indicator.id) :
    RowsAsked db r := by
  intro s hs
  obtain ⟨i, hi, hid⟩ := List.mem_map.mp (h s hs)
  unfold indicatorsForRecord at hi
  rw [List.mem_filter, decide_eq_true_eq] at hi
  have hget : db.indicators.get? i.id = some i := Table.get?_of_mem hi.1
  rw [← hid, hget]
  exact ⟨hi.2, rfl⟩

/-- The section of a score row is that of the indicator it names. -/
theorem inSection_eq (h : RowsAsked db r) («section» : IndicatorSection) {s : EvaluationScore}
    (hs : s ∈ r.scores) :
    inSection (indicatorsForRecord db r) «section» s =
      decide ((db.indicators.get? s.indicatorId).map Indicator.section = some «section») := by
  obtain ⟨hasked, hsome⟩ := h s hs
  obtain ⟨i, hget⟩ := Option.isSome_iff_exists.mp hsome
  have hid : i.id = s.indicatorId := Table.id_of_get? hget
  rw [hget, Option.map_some]
  have hmem : i ∈ indicatorsForRecord db r := by
    unfold indicatorsForRecord
    rw [List.mem_filter, decide_eq_true_eq, hid]
    exact ⟨Table.mem_of_get? hget, hasked⟩
  unfold inSection
  rw [Bool.eq_iff_iff, List.any_eq_true, decide_eq_true_eq, Option.some.injEq]
  constructor
  · rintro ⟨j, hj, heq⟩
    rw [Bool.and_eq_true, decide_eq_true_eq, decide_eq_true_eq] at heq
    have hj' : j ∈ db.indicators := (List.mem_filter.mp hj).1
    have hji : j = i := Table.eq_of_id_eq hj' (Table.mem_of_get? hget) (heq.1.trans hid.symm)
    rw [← hji]
    exact heq.2
  · intro hsection
    exact ⟨i, hmem, by simp [hid, hsection]⟩

theorem sectionSums_congr {rules : Rules} {«section» : IndicatorSection} {scores : List EvaluationScore}
    {indicators indicators' : List Indicator}
    (h : ∀ s ∈ scores, inSection indicators' «section» s = inSection indicators «section» s) :
    sectionSums scores indicators' rules «section» = sectionSums scores indicators rules «section» := by
  unfold sectionSums
  rw [List.filter_congr h]

/-- Two records with the same rows and rules have the same result when their rows name indicators
of the same sections. -/
theorem resultFor_congr (hscores : r'.scores = r.scores) (hbonus : r'.bonusPoints = r.bonusPoints)
    (hrules : rulesForRecord db' r' = rulesForRecord db r) (h : RowsAsked db r)
    (h' : RowsAsked db' r')
    (hsections : ∀ s ∈ r.scores, (db'.indicators.get? s.indicatorId).map Indicator.section =
      (db.indicators.get? s.indicatorId).map Indicator.section) :
    resultFor db' r' = resultFor db r := by
  have hin : ∀ «section», ∀ s ∈ r.scores, inSection (indicatorsForRecord db' r') «section» s =
      inSection (indicatorsForRecord db r) «section» s := by
    intro «section» s hs
    have hs' : s ∈ r'.scores := by rw [hscores]; exact hs
    rw [inSection_eq h «section» hs, inSection_eq h' «section» hs', hsections s hs]
  unfold resultFor
  rw [hscores, hbonus, hrules]
  unfold computeResult
  rw [sectionSums_congr (hin .general), sectionSums_congr (hin .specialized)]

theorem scoredCount_ne_zero (hr : r ∈ db.evaluationRecords) {s : EvaluationScore} (hs : s ∈ r.scores) :
    scoredCount db s.indicatorId ≠ 0 := by
  unfold scoredCount
  intro hzero
  have hnil := List.length_eq_zero_iff.mp hzero
  have hrow := List.flatMap_eq_nil_iff.mp hnil r hr
  have hno := List.filter_eq_nil_iff.mp hrow s hs
  exact hno (decide_eq_true rfl)

end

end NexaHR
