import Mathlib.Data.List.Pairwise
import NexaHR.Routers.Analytics
import NexaHR.System.Installation
import NexaHR.System.OtherTables

/-! # What the order of the units says

The average of a small unit is blanked, but the unit keeps its place among the others, and the place follows
the average.

* `DiffersInScores`: two states that differ in the final percentages of one unit.
* `listedUnits_of_differs`, `peopleOf_of_differs`, `count_of_differs`: what is the same in both.
* `cohort_suppression_iff`: the list does not depend on the percentages exactly when the unit stands alone in
  it, or not at all.
-/

namespace NexaHR

open Foundations

set_option autoImplicit false

/-- The record is finalized, has a percentage, and is about somebody of the unit. -/
def isEvaluationOf (db : Database) (unit : String) (r : EvaluationRecord) : Bool :=
  (evaluatedRow db r).any fun row => row.orgUnit = unit

/-- The same record, or one of the unit's evaluations with another final percentage. -/
def SameButScore (db : Database) (unit : String) (r r' : EvaluationRecord) : Prop :=
  r' = r ∨ (isEvaluationOf db unit r = true ∧ ∃ pct, r' = { r with finalWeightedPct := some pct })

/-- Only the final percentages of the unit's evaluations differ. -/
abbrev DiffersInScores (unit : String) (db db' : Database) : Prop :=
  OtherRecords (SameButScore db unit) db db'

section

variable {db db' : Database} {unit other : String} {minCohortSize : CohortSize} {env : Env}
  {user : CurrentUser}

/-! ## Two states -/

/-- The same row, or one of the unit with another percentage. -/
def SameRow (unit : String) (row row' : EvaluatedRow) : Prop :=
  row'.orgUnit = row.orgUnit ∧ row'.personnelId = row.personnelId ∧ (row.orgUnit = unit ∨ row' = row)

theorem SameRow.refl (unit : String) (row : EvaluatedRow) : SameRow unit row row :=
  ⟨rfl, rfl, Or.inr rfl⟩

theorem evaluatedRow_of_score {r : EvaluationRecord} {row : EvaluatedRow} (pct : Rat)
    (hrow : evaluatedRow db r = some row) :
    evaluatedRow db { r with finalWeightedPct := some pct } = some { row with finalWeightedPct := pct } := by
  unfold evaluatedRow at hrow ⊢
  split at hrow
  next hfinalized =>
    rw [if_pos hfinalized]
    split at hrow
    next person old hperson _ =>
      cases hrow
      dsimp only
      rw [hperson]
    next => cases hrow
  next => cases hrow

theorem evaluatedRows_of_differs (h : DiffersInScores unit db db') :
    List.Forall₂ (SameRow unit) (evaluatedRows db) (evaluatedRows db') := by
  have hread : ∀ r, evaluatedRow db' r = evaluatedRow db r := by
    intro r
    unfold evaluatedRow
    rw [h.personnel_eq]
  refine List.rel_filterMap ?_ h.rows
  intro r r' hr
  rw [hread]
  obtain rfl | ⟨hunit, pct, rfl⟩ := hr
  · cases evaluatedRow db r' with
    | none => exact Option.Rel.none
    | some row => exact Option.Rel.some (SameRow.refl unit row)
  · obtain ⟨row, hrow, hof⟩ := exists_of_any hunit
    rw [decide_eq_true_eq] at hof
    rw [hrow, evaluatedRow_of_score pct hrow]
    exact Option.Rel.some ⟨rfl, rfl, Or.inl hof⟩

theorem rowsOfUnit_of_differs (h : DiffersInScores unit db db') (u : String) :
    List.Forall₂ (SameRow unit) (rowsOfUnit db u) (rowsOfUnit db' u) := by
  refine List.rel_filter ?_ (evaluatedRows_of_differs h)
  intro row row' hrow
  simp only [decide_eq_true_eq]
  rw [hrow.1]

theorem listedUnits_of_differs (h : DiffersInScores unit db db') : listedUnits db' = listedUnits db := by
  unfold listedUnits
  rw [map_eq_of_forall₂ (evaluatedRows_of_differs h) fun _ _ hrow => hrow.1]

theorem peopleOf_of_differs (h : DiffersInScores unit db db') (u : String) :
    peopleOf db' u = peopleOf db u := by
  unfold peopleOf
  rw [map_eq_of_forall₂ (rowsOfUnit_of_differs h u) fun _ _ hrow => hrow.2.1]

theorem count_of_differs (h : DiffersInScores unit db db') (u : String) :
    (rowsOfUnit db' u).length = (rowsOfUnit db u).length :=
  (rowsOfUnit_of_differs h u).length_eq.symm

theorem rowsOfUnit_other (h : DiffersInScores unit db db') (hother : other ≠ unit) :
    rowsOfUnit db' other = rowsOfUnit db other := by
  apply filter_eq_of_forall₂ (evaluatedRows_of_differs h)
  · intro row row' hrow
    rw [hrow.1]
  · intro row _ row' hrow hof
    have hunit : row.orgUnit = other := by simpa using hof
    obtain hsame | hsame := hrow.2.2
    · rw [hunit] at hsame
      exact absurd hsame hother
    · exact hsame

/-! ## A unit that stands alone -/

theorem mem_listedUnits {u : String} : u ∈ listedUnits db ↔ rowsOfUnit db u ≠ [] := by
  unfold listedUnits rowsOfUnit
  rw [List.mem_dedup, List.mem_map, Ne, List.filter_eq_nil_iff]
  simp only [decide_eq_true_eq, not_forall, not_not, exists_prop]

theorem unitAvg_other (h : DiffersInScores unit db db') (hother : other ≠ unit) :
    unitAvg db' other = unitAvg db other := by
  unfold unitAvg
  rw [rowsOfUnit_other h hother]

theorem unitAvg_of_unlisted (h : DiffersInScores unit db db') (hunlisted : unit ∉ listedUnits db) :
    unitAvg db' = unitAvg db := by
  funext u
  by_cases hu : u = unit
  · subst hu
    have hnone : rowsOfUnit db u = [] := by
      by_contra hsome
      exact hunlisted (mem_listedUnits.mpr hsome)
    have hnone' : rowsOfUnit db' u = [] := by
      apply List.eq_nil_of_length_eq_zero
      rw [count_of_differs h, hnone]
      rfl
    unfold unitAvg
    rw [hnone, hnone']
  · exact unitAvg_other h hu

theorem suppressedAvg_of_small (value : Option Rat) {count : Nat} (h : count < minCohortSize) :
    suppressedAvg minCohortSize value count = none := by
  unfold suppressedAvg isBelowCohort
  simp [h]

theorem byOrgUnit_of_unlisted (h : DiffersInScores unit db db') (hunlisted : unit ∉ listedUnits db) :
    byOrgUnit minCohortSize db' = byOrgUnit minCohortSize db := by
  have havg := unitAvg_of_unlisted h hunlisted
  have hsorted : sortedUnits db' = sortedUnits db := by
    unfold sortedUnits
    rw [listedUnits_of_differs h, havg]
  unfold byOrgUnit
  rw [hsorted]
  apply List.map_congr_left
  intro u _
  unfold unitPerformance
  rw [havg, peopleOf_of_differs h, count_of_differs h]

theorem byOrgUnit_of_alone (h : DiffersInScores unit db db') (hsmall : peopleOf db unit < minCohortSize)
    (hlisted : unit ∈ listedUnits db) (halone : ∀ u ∈ listedUnits db, u = unit) :
    byOrgUnit minCohortSize db' = byOrgUnit minCohortSize db := by
  have honly : listedUnits db = [unit] := by
    have hnodup : (listedUnits db).Nodup := List.nodup_dedup _
    generalize listedUnits db = units at hlisted halone hnodup
    match units, hlisted with
    | [u], _ => rw [halone u List.mem_cons_self]
    | u :: v :: units, _ =>
      have hu := halone u List.mem_cons_self
      have hv := halone v (List.mem_cons_of_mem _ List.mem_cons_self)
      simp [hu, hv] at hnodup
  have hblank : unitPerformance minCohortSize db' unit = unitPerformance minCohortSize db unit := by
    unfold unitPerformance
    rw [peopleOf_of_differs h, count_of_differs h, suppressedAvg_of_small _ hsmall,
      suppressedAvg_of_small _ hsmall]
  unfold byOrgUnit sortedUnits
  rw [listedUnits_of_differs h, honly]
  simp [hblank]

/-! ## A unit among others -/

def scored (db : Database) (unit : String) (pct : Rat) (r : EvaluationRecord) : EvaluationRecord :=
  if isEvaluationOf db unit r then { r with finalWeightedPct := some pct } else r

theorem scored_id (db : Database) (unit : String) (pct : Rat) (r : EvaluationRecord) :
    HasId.id (scored db unit pct r) = HasId.id r := by
  unfold scored
  split <;> rfl

def withScore (db : Database) (unit : String) (pct : Rat) : Database :=
  { db with evaluationRecords := db.evaluationRecords.map (scored db unit pct) (scored_id db unit pct) }

theorem sameButScore_scored (db : Database) (unit : String) (pct : Rat) (r : EvaluationRecord) :
    SameButScore db unit r (scored db unit pct r) := by
  unfold scored
  by_cases hunit : isEvaluationOf db unit r = true
  · rw [if_pos hunit]
    exact Or.inr ⟨hunit, pct, rfl⟩
  · rw [if_neg hunit]
    exact Or.inl rfl

theorem differs_withScore (db : Database) (unit : String) (pct : Rat) :
    DiffersInScores unit db (withScore db unit pct) :=
  OtherRecords.mapped db (scored db unit pct) (scored_id db unit pct) (sameButScore_scored db unit pct)

theorem rowsOfUnit_withScore {pct : Rat} {row : EvaluatedRow}
    (h : row ∈ rowsOfUnit (withScore db unit pct) unit) : row.finalWeightedPct = pct := by
  obtain ⟨hmem, hof⟩ := List.mem_filter.mp h
  obtain ⟨r', hr', hrow⟩ := List.mem_filterMap.mp hmem
  obtain ⟨r, _, rfl⟩ := List.mem_map.mp hr'
  have hread : evaluatedRow db (scored db unit pct r) = some row := hrow
  unfold scored at hread
  by_cases hunit : isEvaluationOf db unit r = true
  · rw [if_pos hunit] at hread
    obtain ⟨old, hold, -⟩ := exists_of_any hunit
    rw [evaluatedRow_of_score pct hold] at hread
    cases hread
    rfl
  · rw [if_neg hunit] at hread
    unfold isEvaluationOf at hunit
    rw [hread] at hunit
    exact absurd hof hunit

theorem averageOf_const {values : List Rat} {pct : Rat} (hne : values ≠ [])
    (hall : ∀ value ∈ values, value = pct) : averageOf values = some pct := by
  have hsum : values.sum = values.length * pct := by
    rw [List.sum_eq_card_nsmul values pct hall, nsmul_eq_mul]
  have hlength : (values.length : Rat) ≠ 0 := by
    have hpos := List.length_pos_iff.mpr hne
    positivity
  unfold averageOf
  rw [if_neg (by simpa using hne), hsum, mul_div_cancel_left₀ pct hlength]

theorem unitAvg_withScore (pct : Rat) (hlisted : unit ∈ listedUnits db) :
    unitAvg (withScore db unit pct) unit = some pct := by
  have hne : rowsOfUnit (withScore db unit pct) unit ≠ [] := by
    rw [← mem_listedUnits, listedUnits_of_differs (differs_withScore db unit pct)]
    exact hlisted
  apply averageOf_const
  · simpa using hne
  · intro value hvalue
    obtain ⟨row, hrow, rfl⟩ := List.mem_map.mp hvalue
    exact rowsOfUnit_withScore hrow

theorem sortedUnits_sorted (db : Database) :
    (sortedUnits db).Pairwise fun a b => (unitAvg db b).getD 0 ≤ (unitAvg db a).getD 0 := by
  have : Std.Total fun a b : String => (unitAvg db b).getD 0 ≤ (unitAvg db a).getD 0 :=
    ⟨fun a b => le_total _ _⟩
  have : IsTrans String fun a b => (unitAvg db b).getD 0 ≤ (unitAvg db a).getD 0 :=
    ⟨fun _ _ _ h h' => le_trans h' h⟩
  exact List.pairwise_insertionSort _ _

theorem names_byOrgUnit (minCohortSize : CohortSize) (db : Database) :
    (byOrgUnit minCohortSize db).map UnitPerformance.orgUnit = sortedUnits db := by
  unfold byOrgUnit
  rw [List.map_map]
  exact List.map_id _

/-- Two units cannot keep their order where the one is now above the other, now below. -/
theorem not_same_order (minCohortSize : CohortSize) (hlisted : unit ∈ listedUnits db)
    (hother : other ∈ listedUnits db) (hne : other ≠ unit) :
    ∃ db', DiffersInScores unit db db' ∧ byOrgUnit minCohortSize db' ≠ byOrgUnit minCohortSize db := by
  by_contra hnone
  have hsame : ∀ db', DiffersInScores unit db db' →
      byOrgUnit minCohortSize db' = byOrgUnit minCohortSize db := by
    intro db' hdiffers
    by_contra hdifferent
    exact hnone ⟨db', hdiffers, hdifferent⟩
  have horder : ∀ pct, sortedUnits (withScore db unit pct) = sortedUnits db := by
    intro pct
    rw [← names_byOrgUnit minCohortSize, ← names_byOrgUnit minCohortSize,
      hsame _ (differs_withScore db unit pct)]
  have hpair : ∀ pct, (sortedUnits db).Pairwise fun a b =>
      (unitAvg (withScore db unit pct) b).getD 0 ≤ (unitAvg (withScore db unit pct) a).getD 0 := by
    intro pct
    have hsorted := sortedUnits_sorted (withScore db unit pct)
    rwa [horder pct] at hsorted
  have hunit : ∀ pct, (unitAvg (withScore db unit pct) unit).getD 0 = pct := by
    intro pct
    rw [unitAvg_withScore pct hlisted]
    rfl
  have hkept : ∀ pct, unitAvg (withScore db unit pct) other = unitAvg db other :=
    fun pct => unitAvg_other (differs_withScore db unit pct) hne
  -- neither of the two is listed before the other
  have happart : (sortedUnits db).Pairwise fun a b =>
      ¬ (a = unit ∧ b = other) ∧ ¬ (a = other ∧ b = unit) := by
    have hboth := (hpair ((unitAvg db other).getD 0 - 1)).and (hpair ((unitAvg db other).getD 0 + 1))
    apply hboth.imp
    intro a b hab
    constructor
    · rintro ⟨rfl, rfl⟩
      have hlow := hab.1
      rw [hunit, hkept] at hlow
      linarith
    · rintro ⟨rfl, rfl⟩
      have hhigh := hab.2
      rw [hunit, hkept] at hhigh
      linarith
  have hmem : ∀ u, u ∈ sortedUnits db ↔ u ∈ listedUnits db := fun u => List.mem_insertionSort _
  have : Std.Symm fun a b => ¬ (a = unit ∧ b = other) ∧ ¬ (a = other ∧ b = unit) :=
    ⟨fun _ _ h => ⟨fun hba => h.2 hba.symm, fun hba => h.1 hba.symm⟩⟩
  have hnot := happart.forall ((hmem unit).mpr hlisted) ((hmem other).mpr hother) (Ne.symm hne)
  exact hnot.1 ⟨rfl, rfl⟩

end

/-! ## The endpoint -/

theorem executiveOverview_off (minCohortSize : CohortSize) (env : Env) (user : CurrentUser)
    (hrole : user.role = .ceo ∨ user.role = .deputy) (hoff : env.moduleEnabled .roleAnalytics ≠ true) :
    ∃ refusal, ∀ d, executiveOverview minCohortSize d env user = .error refusal := by
  unfold Env.moduleEnabled at hoff
  cases hdetail : env.moduleRefusal .roleAnalytics with
  | none =>
    rw [hdetail] at hoff
    exact absurd rfl hoff
  | some detail =>
    refine ⟨⟨403, detail, none⟩, ?_⟩
    intro d
    unfold executiveOverview requireRoles ensure ensureModuleEnabled
    rw [hdetail, if_pos (by simpa using hrole)]
    rfl

theorem executiveOverview_on (minCohortSize : CohortSize) (db : Database) (env : Env) (user : CurrentUser)
    (hrole : user.role = .ceo ∨ user.role = .deputy) (hon : env.moduleEnabled .roleAnalytics = true) :
    (executiveOverview minCohortSize db env user).map ExecutiveOverview.byOrgUnit =
      .ok (byOrgUnit minCohortSize db) := by
  have hdetail : env.moduleRefusal .roleAnalytics = none := Option.isNone_iff_eq_none.mp hon
  unfold executiveOverview requireRoles ensure ensureModuleEnabled
  rw [hdetail, if_pos (by simpa using hrole)]
  rfl

/-- The list of the units that a deputy or chief executive gets is the same for all final percentages of a
unit below the threshold exactly when no other unit is listed beside it. -/
theorem cohort_suppression_iff (minCohortSize : CohortSize) (db : Database) (env : Env) (user : CurrentUser)
    (unit : String) (hrole : user.role = .ceo ∨ user.role = .deputy)
    (hsmall : peopleOf db unit < minCohortSize) :
    (∀ db', DiffersInScores unit db db' →
        (executiveOverview minCohortSize db' env user).map ExecutiveOverview.byOrgUnit =
          (executiveOverview minCohortSize db env user).map ExecutiveOverview.byOrgUnit) ↔
      (env.moduleEnabled .roleAnalytics = true → unit ∈ listedUnits db →
        ∀ other ∈ listedUnits db, other = unit) := by
  constructor
  · intro hsame hon hlisted other hother
    by_contra hne
    obtain ⟨db', hdiffers, hdifferent⟩ := not_same_order minCohortSize hlisted hother hne
    have heq := hsame db' hdiffers
    rw [executiveOverview_on minCohortSize db' env user hrole hon,
      executiveOverview_on minCohortSize db env user hrole hon] at heq
    exact hdifferent (Except.ok.inj heq)
  · intro halone db' hdiffers
    by_cases hon : env.moduleEnabled .roleAnalytics = true
    · rw [executiveOverview_on minCohortSize db' env user hrole hon,
        executiveOverview_on minCohortSize db env user hrole hon]
      by_cases hlisted : unit ∈ listedUnits db
      · rw [byOrgUnit_of_alone hdiffers hsmall hlisted (halone hon hlisted)]
      · rw [byOrgUnit_of_unlisted hdiffers hlisted]
    · obtain ⟨refusal, hrefusal⟩ := executiveOverview_off minCohortSize env user hrole hon
      rw [hrefusal db', hrefusal db]

/-! ## Two units of one person each -/

/-- The first person is of unit `U`, the second of unit `V`. -/
def twoUnits (pct : Rat) : Database :=
  { office fullChain with
    personnel := Table.ofRows [employee 1, { employee 2 with orgUnit := "V" }] (by decide)
    evaluationRecords :=
      Table.ofRows [evaluationOf 1 pct, evaluationOf 2 70] (by simp [evaluationOf, HasId.id]) }

def oneUnit (pct : Rat) : Database := { office fullChain with evaluationRecords := onlyEvaluation pct }

def chiefExecutive : CurrentUser := { id := 3, username := "ceo", role := .ceo, personnelId := none }

theorem twoUnits_differ : DiffersInScores "U" (twoUnits 60) (twoUnits 80) where
  rest := rfl
  seq := rfl
  rows := List.Forall₂.cons (Or.inr ⟨by decide, 80, rfl⟩)
    (List.Forall₂.cons (Or.inl rfl) List.Forall₂.nil)

/-- Both averages are blank, and still the order of the units tells which of them is higher. -/
theorem twoUnits_order_leaks :
    ∃ minCohortSize db db' env user unit, user.role = .ceo ∧ peopleOf db unit < minCohortSize ∧
      DiffersInScores unit db db' ∧
        (executiveOverview minCohortSize db' env user).map ExecutiveOverview.byOrgUnit ≠
          (executiveOverview minCohortSize db env user).map ExecutiveOverview.byOrgUnit :=
  ⟨5, twoUnits 60, twoUnits 80, someDay, chiefExecutive, "U", rfl, by decide, twoUnits_differ,
    by decide +kernel⟩

theorem oneUnit_differ : DiffersInScores "U" (oneUnit 60) (oneUnit 80) where
  rest := rfl
  seq := rfl
  rows := List.Forall₂.cons (Or.inr ⟨by decide, 80, rfl⟩) List.Forall₂.nil

/-- One unit alone keeps its percentages to itself. -/
theorem oneUnit_suppressed :
    (executiveOverview 5 (oneUnit 80) someDay chiefExecutive).map ExecutiveOverview.byOrgUnit =
      (executiveOverview 5 (oneUnit 60) someDay chiefExecutive).map ExecutiveOverview.byOrgUnit := by
  have halone : ∀ other ∈ listedUnits (oneUnit 60), other = "U" := by decide
  have hsame := (cohort_suppression_iff 5 (oneUnit 60) someDay chiefExecutive "U" (Or.inl rfl)
    (by decide)).mpr fun _ _ => halone
  exact hsame (oneUnit 80) oneUnit_differ

end NexaHR
