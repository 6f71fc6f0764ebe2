import NexaHR.Properties.Preview
import NexaHR.Properties.SchemeLifeCycle

/-! # The three numbers of a result

The final document prints the percentage of the form, the special score that took effect and the result. The
form has one decimal and the special score two, and their sum is rounded to one.

* `ceiling_isDecimal`: over every run, the ceiling of a special score has two decimals, as its column.
* `sum_isDecimal_iff`: when nothing is lost in the last rounding.
* `decomposition_adds_up_iff`: the columns take every accepted special score, and the three numbers add up
  exactly when it has one decimal or fills the form up to 100.
-/

namespace NexaHR

open Foundations ScoreForm

set_option autoImplicit false

/-! ## What is stored and printed -/

/-- The check constraints on the columns of the special score. -/
structure BonusConstraints (r : EvaluationRecord) : Prop where
  notNegative : ∀ points, r.bonusPoints = some points → 0 ≤ points
  needsReason : ∀ points, r.bonusPoints = some points → points = 0 ∨ r.bonusReason.isSome = true

/-- The form and the special score that took effect add up to the result, on the record and in print. -/
def AddsUp (db : Database) (r : EvaluationRecord) : Prop :=
  ∃ form final, r.baseWeightedPct = some form ∧ r.finalWeightedPct = some final ∧
    form + appliedBonus (r.bonusPoints.getD 0) (rulesForRecord db r) form = final ∧
    form + (appliedBonusForDocument db r).getD 0 = final

/-- The record with its form filled in and scored. -/
def scoredWith (db : Database) (r : EvaluationRecord) (scores : List EvaluationScore) : EvaluationRecord :=
  let filled := { r with scores := scores }
  filled.withResult (resultFor db filled)

/-- The special score has one decimal, or fills the form up to 100. -/
def FitsForm (formPct bonusPoints : Rat) : Prop := 100 - formPct ≤ bonusPoints ∨ IsDecimal 1 bonusPoints

/-- The percentage of the form before the special score. -/
def formPctOf (db : Database) (r : EvaluationRecord) (scores : List EvaluationScore) : Rat :=
  formScore (sectionSums scores (indicatorsForRecord db r) (rulesForRecord db r) .general)
    (sectionSums scores (indicatorsForRecord db r) (rulesForRecord db r) .specialized) (rulesForRecord db r)

/-! ## The ceiling -/

/-- The installed versions hold what the column of the ceiling can hold. -/
structure DecimalInitial (db : Database) : Prop extends Initial db where
  ceilings : ∀ scheme ∈ db.scoringSchemes, IsDecimal 2 scheme.bonusMaxPoints

abbrev DecimalRun (tr : List (Taken Database Request)) (db : Database) : Prop :=
  Run DecimalInitial Steps tr db

section

variable {db : Database} {tr : List (Taken Database Request)} {r : EvaluationRecord}

theorem nonneg_ceiling {p : SchemeInput} (h : p.errors = []) : 0 ≤ p.bonusMaxPoints := by
  have hfields := (errors_eq_nil.mp h).1
  unfold SchemeInput.fieldErrors at hfields
  simp only [List.append_eq_nil_iff, rangeError_eq_nil] at hfields
  obtain ⟨⟨⟨⟨-, hbonus⟩, -⟩, -⟩, -⟩ := hfields
  exact hbonus.1

theorem SchemesChange.ceilings {user : CurrentUser} {operation : Operation} {schemes : Table ScoringScheme}
    (h : SchemesChange db user operation schemes)
    (hold : ∀ scheme ∈ db.scoringSchemes, IsDecimal 2 scheme.bonusMaxPoints) :
    ∀ scheme ∈ schemes, IsDecimal 2 scheme.bonusMaxPoints := by
  cases h with
  | kept => exact hold
  | drafted p haccepted hne =>
    intro scheme hscheme
    rcases (Table.mem_insert _).mp hscheme with hbefore | rfl
    · exact hold scheme hbefore
    · exact numeric_isDecimal (nonneg_ceiling haccepted)
  | activated activated hget hdraft hother hvalid =>
    intro scheme hscheme
    obtain ⟨before, hbefore, rfl⟩ := Table.mem_map.mp hscheme
    have hsame := congrArg Rules.bonusMaxPoints (switchActive_same activated.id user.id before).2
    have hceiling := hold before hbefore
    rw [← show _ = before.bonusMaxPoints from hsame] at hceiling
    exact hceiling
  | deleted deleted hget hdraft =>
    intro scheme hscheme
    exact hold scheme (Table.mem_filter.mp hscheme).1

theorem ceilings_of_run (h : DecimalRun tr db) :
    ∀ scheme ∈ db.scoringSchemes, IsDecimal 2 scheme.bonusMaxPoints := by
  refine h.invariant (P := fun db => ∀ scheme ∈ db.scoringSchemes, IsDecimal 2 scheme.bonusMaxPoints) ?_ ?_
  · intro db hinit
    exact hinit.ceilings
  · intro db req db' hold hstep
    obtain ⟨user, -, hchange⟩ := schemesChange_of_steps hstep
    exact hchange.ceilings hold

theorem ceiling_isDecimal (h : DecimalRun tr db) (r : EvaluationRecord) :
    IsDecimal 2 (rulesForRecord db r).bonusMaxPoints := by
  have hceilings := ceilings_of_run h
  unfold rulesForRecord
  cases hown : r.scoringSchemeId.bind db.scoringSchemes.get? with
  | some scheme =>
    obtain ⟨k, -, hget⟩ := Option.bind_eq_some_iff.mp hown
    exact hceilings scheme (Table.mem_of_get? hget)
  | none =>
    simp only [currentRules]
    cases hactive : activeScheme db with
    | some scheme => exact hceilings scheme (List.mem_of_find?_eq_some hactive)
    | none => exact isDecimal_natCast 5

end

/-! ## The last rounding -/

section

variable {rules : Rules} {formPct points : Rat}

theorem validateBonus_eq_none {reason : Option String} (h : validateBonus points reason rules = none) :
    0 ≤ points ∧ points ≤ rules.bonusMaxPoints ∧
      (0 < points → bonusReasonMin ≤ (strip (reason.getD "")).length) := by
  unfold validateBonus at h
  simp only [ite_some_eq_none, not_lt, not_and] at h
  obtain ⟨hnonneg, -, hmaximum, hreason, -⟩ := h
  exact ⟨hnonneg, hmaximum, hreason⟩

/-- Below the ceiling only the distance to 100 caps, and two decimals are left as they are. -/
theorem appliedBonus_eq (hform : IsDecimal 1 formPct) (hpoints : IsDecimal 2 points)
    (hmaximum : points ≤ rules.bonusMaxPoints) :
    appliedBonus points rules formPct = max 0 (min points (100 - formPct)) := by
  have hgap : IsDecimal 2 (100 - formPct) := ((isDecimal_natCast 100).sub hform).succ
  unfold appliedBonus
  rw [min_eq_left hmaximum]
  exact roundTo_eq_self_iff.mpr (isDecimal_zero.max (hpoints.min hgap))

theorem sum_isDecimal_iff (hform : IsDecimal 1 formPct) (hnonneg : 0 ≤ points) :
    IsDecimal 1 (formPct + max 0 (min points (100 - formPct))) ↔ FitsForm formPct points := by
  have hgap : IsDecimal 1 (100 - formPct) := (isDecimal_natCast 100).sub hform
  unfold FitsForm
  rcases le_or_gt (100 - formPct) points with hfills | hroom
  · rw [min_eq_right hfills]
    exact iff_of_true (hform.add (isDecimal_zero.max hgap)) (Or.inl hfills)
  · rw [min_eq_left hroom.le, max_eq_right hnonneg]
    constructor
    · intro hsum
      have hdiff := hsum.sub hform
      rw [add_sub_cancel_left] at hdiff
      exact Or.inr hdiff
    · intro hfits
      exact hform.add (hfits.resolve_left (not_le.mpr hroom))

/-- Without a special score nothing takes effect, and nothing is printed. -/
theorem appliedBonusForDocument_getD (db : Database) (r : EvaluationRecord) :
    (appliedBonusForDocument db r).getD 0 =
      appliedBonus (r.bonusPoints.getD 0) (rulesForRecord db r) (r.baseWeightedPct.getD 0) := by
  unfold appliedBonusForDocument
  simp only
  split
  next hnone =>
    rcases hnone with hraw | happlied
    · rw [hraw]
      unfold appliedBonus
      rw [max_eq_left ((min_le_left _ _).trans (min_le_left _ _)), roundTo_zero]
      rfl
    · rw [happlied]
      rfl
  next => rfl

end

/-! ## The three numbers -/

section

variable {db : Database} {env : Env} {user : CurrentUser} {r : EvaluationRecord}
  {tr : List (Taken Database Request)} {bonusPoints : Rat} {bonusReason : Option String} {w : Work}

/-- An answered request stores the special score that its rules take, and the rest of the record stays. -/
theorem setSpecialScore_ok (h : setSpecialScore db env user r bonusPoints bonusReason = .ok w) :
    validateBonus bonusPoints (givenReason bonusReason) (rulesForRecord db r) = none ∧
      w.record = { r with
        bonusPoints := some (numeric 2 bonusPoints)
        bonusReason := if 0 < bonusPoints then givenReason bonusReason else none } := by
  unfold setSpecialScore at h
  simp only [bind_eq_ok] at h
  obtain ⟨-, -, h⟩ := h
  split at h
  · cases h
  next hvalid =>
    cases h
    exact ⟨hvalid, rfl⟩

theorem bonusConstraints_of_set (h : setSpecialScore db env user r bonusPoints bonusReason = .ok w) :
    BonusConstraints w.record := by
  obtain ⟨hvalid, hrecord⟩ := setSpecialScore_ok h
  obtain ⟨hnonneg, -, hreason⟩ := validateBonus_eq_none hvalid
  rw [hrecord]
  constructor
  · intro points hpoints
    rw [← Option.some.inj hpoints]
    exact numeric_nonneg hnonneg
  · intro points hpoints
    rw [← Option.some.inj hpoints]
    rcases hnonneg.eq_or_lt with hzero | hpos
    · left
      rw [← hzero]
      exact numeric_of_isDecimal le_rfl isDecimal_zero
    · right
      have hlong := hreason hpos
      simp only [if_pos hpos]
      cases hgiven : givenReason bonusReason with
      | none =>
        rw [hgiven] at hlong
        exact absurd hlong (by decide)
      | some reason => rfl

theorem addsUp_iff (hcolumn : IsDecimal 2 (rulesForRecord db r).bonusMaxPoints)
    (h : setSpecialScore db env user r bonusPoints bonusReason = .ok w) (scores : List EvaluationScore) :
    AddsUp db (scoredWith db w.record scores) ↔
      FitsForm (formPctOf db r scores) (numeric 2 bonusPoints) := by
  obtain ⟨hvalid, hrecord⟩ := setSpecialScore_ok h
  obtain ⟨hnonneg, hmaximum, -⟩ := validateBonus_eq_none hvalid
  have hstored : numeric 2 bonusPoints ≤ (rulesForRecord db r).bonusMaxPoints :=
    numeric_le_of_le hnonneg hcolumn hmaximum
  have hform : IsDecimal 1 (formPctOf db r scores) := roundTo_isDecimal 1 _
  have happlied := appliedBonus_eq hform (numeric_isDecimal hnonneg) hstored
  have hbase : (scoredWith db w.record scores).baseWeightedPct = some (formPctOf db r scores) := by
    rw [hrecord]
    exact congrArg some (basePct_eq _)
  have hfinal : (scoredWith db w.record scores).finalWeightedPct = some (roundTo 1 (formPctOf db r scores +
      appliedBonus (numeric 2 bonusPoints) (rulesForRecord db r) (formPctOf db r scores))) := by
    have hpct : formPctOf db r scores = basePct _ := (basePct_eq _).symm
    rw [hrecord, hpct]
    rfl
  have hraw : (scoredWith db w.record scores).bonusPoints = some (numeric 2 bonusPoints) := by
    rw [hrecord]
    rfl
  have hrules : rulesForRecord db (scoredWith db w.record scores) = rulesForRecord db r := by
    rw [hrecord]
    rfl
  have hsum : AddsUp db (scoredWith db w.record scores) ↔
      IsDecimal 1 (formPctOf db r scores + max 0 (min (numeric 2 bonusPoints) (100 - formPctOf db r scores))) := by
    rw [← roundTo_eq_self_iff, ← happlied]
    unfold AddsUp
    rw [appliedBonusForDocument_getD, hbase, hraw, hrules, hfinal]
    constructor
    · rintro ⟨form, final, hform', hfinal', hadds, -⟩
      rw [← Option.some.inj hform', ← Option.some.inj hfinal'] at hadds
      exact hadds.symm
    · intro hadds
      exact ⟨_, _, rfl, rfl, hadds.symm, hadds.symm⟩
  rw [hsum]
  exact sum_isDecimal_iff hform (numeric_nonneg hnonneg)

/-- In every state of a run, for every record and every form: the columns take the accepted special score,
and the three numbers add up exactly when it fits the form. -/
theorem decomposition_adds_up_iff (h : DecimalRun tr db)
    (hset : setSpecialScore db env user r bonusPoints bonusReason = .ok w) :
    BonusConstraints w.record ∧ ∀ scores, AddsUp db (scoredWith db w.record scores) ↔
      FitsForm (formPctOf db r scores) (numeric 2 bonusPoints) :=
  ⟨bonusConstraints_of_set hset, addsUp_iff (ceiling_isDecimal h r) hset⟩

end

/-! ## A quarter of a point -/

/-- The office with the draft of its one record. -/
def draftedOffice : Database := endState settled (office fullChain) [ask 1 (.createEvaluation 1)]

theorem draftedOffice_run :
    DecimalRun (replay settled (office fullChain) [ask 1 (.createEvaluation 1)]) draftedOffice := by
  refine run_replay ⟨office_initial (by decide), ?_⟩ (steps_replay (by decide))
  intro scheme hscheme
  rw [List.mem_singleton.mp hscheme]
  exact isDecimal_natCast 5

def oneScore : List EvaluationScore := [⟨1, 4, none⟩]

/-- The scorer enters a special score, and the three numbers of the scored form. -/
def setsPoints (points final applied : Rat) (r : EvaluationRecord) : Bool :=
  (setSpecialScore draftedOffice someDay scorer r points (some praise)).toOption.any fun w =>
    let scored := scoredWith draftedOffice w.record oneScore
    decide (scored.baseWeightedPct = some 80) && decide (scored.finalWeightedPct = some final) &&
      decide (appliedBonus (scored.bonusPoints.getD 0) (rulesForRecord draftedOffice scored) 80 = applied)

theorem setsPoints_ok {points final applied : Rat} {r : EvaluationRecord}
    (h : setsPoints points final applied r = true) :
    ∃ w, setSpecialScore draftedOffice someDay scorer r points (some praise) = .ok w ∧
      (scoredWith draftedOffice w.record oneScore).baseWeightedPct = some 80 ∧
      (scoredWith draftedOffice w.record oneScore).finalWeightedPct = some final ∧
      appliedBonus ((scoredWith draftedOffice w.record oneScore).bonusPoints.getD 0)
        (rulesForRecord draftedOffice (scoredWith draftedOffice w.record oneScore)) 80 = applied := by
  unfold setsPoints at h
  cases hset : setSpecialScore draftedOffice someDay scorer r points (some praise) with
  | error e =>
    rw [hset] at h
    cases h
  | ok w =>
    rw [hset] at h
    have hchecks : (_ && _ && _) = true := h
    simp only [Bool.and_eq_true, decide_eq_true_eq] at hchecks
    obtain ⟨⟨hbase, hfinal⟩, happlied⟩ := hchecks
    exact ⟨w, rfl, hbase, hfinal, happlied⟩

theorem half_point_adds_up : ∃ r ∈ draftedOffice.evaluationRecords, ∃ w,
    setSpecialScore draftedOffice someDay scorer r (5 / 2) (some praise) = .ok w ∧
      BonusConstraints w.record ∧ AddsUp draftedOffice (scoredWith draftedOffice w.record oneScore) := by
  obtain ⟨r, hget, hr⟩ := exists_of_any (o := draftedOffice.evaluationRecords.get? 1)
    (p := setsPoints (5 / 2) (165 / 2) (5 / 2)) (by decide +kernel)
  obtain ⟨w, hset, -⟩ := setsPoints_ok hr
  obtain ⟨hconstraints, hadds⟩ := decomposition_adds_up_iff draftedOffice_run hset
  exact ⟨r, Table.mem_of_get? hget, w, hset, hconstraints,
    (hadds oneScore).mpr (Or.inr ⟨25, by decide +kernel⟩)⟩

/-- The document prints 80, 0.25 and 80.2. -/
theorem quarter_point_does_not_add_up :
    ¬∀ tr db, DecimalRun tr db → ∀ env user r bonusPoints bonusReason w,
      setSpecialScore db env user r bonusPoints bonusReason = .ok w →
      BonusConstraints w.record ∧ ∀ scores, AddsUp db (scoredWith db w.record scores) := by
  intro hclaim
  obtain ⟨r, -, hr⟩ := exists_of_any (o := draftedOffice.evaluationRecords.get? 1)
    (p := setsPoints (1 / 4) (401 / 5) (1 / 4)) (by decide +kernel)
  obtain ⟨w, hset, hbase, hfinal, happlied⟩ := setsPoints_ok hr
  obtain ⟨form, final, hform, hfinal', hsum, -⟩ :=
    (hclaim _ _ draftedOffice_run _ _ _ _ _ _ hset).2 oneScore
  rw [hbase] at hform
  rw [hfinal] at hfinal'
  rw [← Option.some.inj hform, ← Option.some.inj hfinal', happlied] at hsum
  norm_num at hsum

end NexaHR
