import Mathlib.Algebra.BigOperators.Ring.List
import NexaHR.Foundations.WeightedMean
import NexaHR.Properties.Preview
import NexaHR.Properties.SchemeLifeCycle

/-! # The laws of scoring

A section's percentage is the mean of its scores by the weights of the indicators, the form's percentage the
mean of its sections by their weights, and the special score fills the form up to 100 at most. Each step is a
mean, a minimum or a rounding, so the laws of the result are those of means and roundings.

* `exactPct_eq`, `exactMean_eq`: both percentages are weighted means.
* `finalPct_eq`: the result as one rounded minimum.
* `scoring_laws`: bounds, full marks, monotonicity, the order of the rows and the bands, for every form under
  valid rules.
-/

namespace NexaHR

open Foundations

set_option autoImplicit false

/-! ## Valid rules and complete forms -/

/-- The rules that records are scored with: the constants, or a version that the activation accepts. -/
inductive ValidRules : Rules → Prop
  | legacy : ValidRules legacyRules
  | ofScheme (scheme : ScoringScheme) (hvalid : ensureSchemeIsValid scheme = .ok ()) :
    ValidRules (rulesFrom scheme)

/-- What the result needs of the rules. -/
structure WellWeighted (rules : Rules) : Prop where
  general : 0 ≤ rules.generalSectionWeight
  specialized : 0 ≤ rules.specializedSectionWeight
  indicators : ∀ indicatorId, 0 < rules.weightFor indicatorId
  last : 100 < (rules.thresholds.getLast rules.thresholds_ne).1

/-- Every indicator is scored, from 1 to 5, and nothing else. -/
structure CompleteScores (indicators : List Indicator) (scores : List EvaluationScore) : Prop where
  asked : ∀ row ∈ scores, ∃ i ∈ indicators, i.id = row.indicatorId
  scored : ∀ i ∈ indicators, ∃ row ∈ scores, row.indicatorId = i.id
  range : ∀ row ∈ scores, 1 ≤ row.score ∧ row.score ≤ 5

/-- The same question, not scored lower. -/
def NotLower (row row' : EvaluationScore) : Prop :=
  row.indicatorId = row'.indicatorId ∧ row.score ≤ row'.score

/-- The place of the band that a result falls into, the last one if it is above all. -/
def Rules.band (rules : Rules) (pct : Rat) : Nat :=
  min (rules.thresholds.findIdx fun band => decide (pct < band.1)) (rules.thresholds.length - 1)

section

variable {rules : Rules}

theorem weightFor_pos (h : ∀ row ∈ rules.indicatorWeights, 0 < row.2) (indicatorId : Nat) :
    0 < rules.weightFor indicatorId := by
  unfold Rules.weightFor
  cases hweight : rules.indicatorWeights.lookup indicatorId with
  | none => exact one_pos
  | some weight =>
    obtain ⟨before, after, hsplit, -⟩ := List.lookup_eq_some_iff.mp hweight
    have hmem : (indicatorId, weight) ∈ rules.indicatorWeights := by
      rw [hsplit]
      simp
    exact h _ hmem

theorem ValidRules.wellWeighted (h : ValidRules rules) : WellWeighted rules := by
  cases h with
  | legacy =>
    refine ⟨by norm_num [legacyRules], by norm_num [legacyRules], ?_, ?_⟩
    · exact weightFor_pos fun row hrow => absurd hrow List.not_mem_nil
    · show (100 : Rat) < 101
      norm_num
  | ofScheme scheme hvalid =>
    unfold ensureSchemeIsValid at hvalid
    rw [ensure_eq_ok, errors_eq_nil, check_eq_none] at hvalid
    obtain ⟨hfields, -, hrest⟩ := hvalid
    obtain ⟨hgeneral, hspecialized⟩ := nonneg_weights hfields
    refine ⟨hgeneral, hspecialized, weightFor_pos hrest.weights, ?_⟩
    have hlast := hrest.last
    rw [List.getLast?_map] at hlast
    change 100 < ((scheme.thresholds.getLast?).map Prod.fst).getD 0 at hlast
    rw [List.getLast?_eq_some_getLast scheme.thresholds_ne] at hlast
    exact hlast

/-! ## Bands -/

/-- Every result falls into a band, and up to 100 it lies below the band's end. -/
theorem recommendation_band (hlast : 100 < (rules.thresholds.getLast rules.thresholds_ne).1) (pct : Rat) :
    ∃ band, rules.thresholds[rules.band pct]? = some band ∧ rules.recommendationFor pct = band.2 ∧
      (pct ≤ 100 → pct < band.1) := by
  have hpos : 0 < rules.thresholds.length := List.length_pos_iff.mpr rules.thresholds_ne
  unfold Rules.band Rules.recommendationFor
  rw [List.find?_eq_getElem?_findIdx]
  rcases Nat.lt_or_ge (rules.thresholds.findIdx fun band => decide (pct < band.1)) rules.thresholds.length
    with hfound | habove
  · rw [Nat.min_eq_left (by omega), List.getElem?_eq_getElem hfound]
    have hbelow := List.findIdx_getElem (w := hfound)
    exact ⟨_, rfl, rfl, fun _ => of_decide_eq_true hbelow⟩
  · rw [Nat.min_eq_right (by omega), List.getElem?_eq_none habove]
    have hend : rules.thresholds[rules.thresholds.length - 1]? =
        some (rules.thresholds.getLast rules.thresholds_ne) := by
      rw [← List.getLast?_eq_getElem?, List.getLast?_eq_some_getLast]
    exact ⟨_, hend, rfl, fun hpct => hpct.trans_lt hlast⟩

theorem band_mono {p q : Rat} (h : p ≤ q) : rules.band p ≤ rules.band q := by
  unfold Rules.band
  apply min_le_min_right
  apply List.findIdx_le_findIdx
  intro band _ hq
  simp only [decide_eq_true_eq] at hq ⊢
  exact h.trans_lt hq

end

/-! ## The percentage of a section -/

/-- The scores of a section in percent, each with its weight. -/
def sectionRows (scores : List EvaluationScore) (indicators : List Indicator) (rules : Rules)
    («section» : IndicatorSection) : List (Rat × Rat) :=
  (scores.filter (inSection indicators «section»)).map fun row =>
    ((row.score : Rat) * 20, rules.weightFor row.indicatorId)

section

variable {scores scores' : List EvaluationScore} {indicators : List Indicator} {rules : Rules}
  {«section» : IndicatorSection}

theorem sectionSums_eq (scores : List EvaluationScore) (indicators : List Indicator) (rules : Rules)
    («section» : IndicatorSection) :
    (sectionSums scores indicators rules «section»).1 * 20 =
        ((sectionRows scores indicators rules «section»).map fun row => row.1 * row.2).sum ∧
      (sectionSums scores indicators rules «section»).2 =
        5 * ((sectionRows scores indicators rules «section»).map Prod.snd).sum := by
  unfold sectionSums sectionRows
  simp only [List.map_map]
  rw [← List.sum_map_mul_right, ← List.sum_map_mul_left]
  refine ⟨?_, rfl⟩
  congr 1
  apply List.map_congr_left
  intro row _
  simp only [Function.comp_apply]
  ring

theorem exactPct_eq (scores : List EvaluationScore) (indicators : List Indicator) (rules : Rules)
    («section» : IndicatorSection) :
    exactPct (sectionSums scores indicators rules «section») =
      weightedMean (sectionRows scores indicators rules «section») := by
  obtain ⟨hpoints, hmaximum⟩ := sectionSums_eq scores indicators rules «section»
  unfold exactPct weightedMean
  rw [← hpoints, hmaximum]
  generalize ((sectionRows scores indicators rules «section»).map Prod.snd).sum = total
  by_cases htotal : total = 0
  · simp [htotal]
  · rw [if_neg (mul_ne_zero (by norm_num) htotal)]
    field_simp
    ring

theorem sectionRows_bounds (h : WellWeighted rules) (hrange : ∀ row ∈ scores, row.score ≤ 5)
    (indicators : List Indicator) («section» : IndicatorSection) :
    ∀ row ∈ sectionRows scores indicators rules «section», 0 ≤ row.1 ∧ row.1 ≤ 100 ∧ 0 ≤ row.2 := by
  intro row hrow
  obtain ⟨score, hscore, rfl⟩ := List.mem_map.mp hrow
  have hle : (score.score : Rat) ≤ 5 := by exact_mod_cast hrange score (List.mem_filter.mp hscore).1
  have hnonneg : (0 : Rat) ≤ score.score := by positivity
  exact ⟨by linarith, by linarith, (h.indicators score.indicatorId).le⟩

theorem sectionPct_bounds (h : WellWeighted rules) (hrange : ∀ row ∈ scores, row.score ≤ 5)
    (indicators : List Indicator) («section» : IndicatorSection) :
    0 ≤ sectionPct (sectionSums scores indicators rules «section») ∧
      sectionPct (sectionSums scores indicators rules «section») ≤ 100 := by
  have hbounds := sectionRows_bounds h hrange indicators «section»
  rw [sectionPct_eq, exactPct_eq]
  constructor
  · apply le_roundTo isDecimal_zero
    exact weightedMean_nonneg fun row hrow => ⟨(hbounds row hrow).1, (hbounds row hrow).2.2⟩
  · apply roundTo_le (isDecimal_natCast 100)
    exact weightedMean_le (by norm_num) fun row hrow => (hbounds row hrow).2

theorem notLower_rows (h : WellWeighted rules) (hrows : List.Forall₂ NotLower scores scores') :
    List.Forall₂ Raised (sectionRows scores indicators rules «section»)
      (sectionRows scores' indicators rules «section») := by
  have hfilter : List.Forall₂ NotLower (scores.filter (inSection indicators «section»))
      (scores'.filter (inSection indicators «section»)) := by
    refine List.rel_filter ?_ hrows
    intro row row' hrow
    simp only [inSection, hrow.1]
  unfold sectionRows
  rw [List.forall₂_map_left_iff, List.forall₂_map_right_iff]
  refine hfilter.imp ?_
  intro row row' hrow
  have hscore : (row.score : Rat) ≤ row'.score := by exact_mod_cast hrow.2
  refine ⟨by linarith, ?_, (h.indicators row.indicatorId).le⟩
  rw [hrow.1]

theorem sectionPct_mono (h : WellWeighted rules) (hrows : List.Forall₂ NotLower scores scores') :
    sectionPct (sectionSums scores indicators rules «section») ≤
      sectionPct (sectionSums scores' indicators rules «section») := by
  rw [sectionPct_eq, exactPct_eq, sectionPct_eq, exactPct_eq]
  exact roundTo_mono (weightedMean_mono (notLower_rows h hrows))

/-- Which sections the form has does not depend on how it is scored. -/
theorem sectionMax_eq (h : WellWeighted rules) (hrows : List.Forall₂ NotLower scores scores') :
    (sectionSums scores indicators rules «section»).2 = (sectionSums scores' indicators rules «section»).2 := by
  rw [(sectionSums_eq scores indicators rules «section»).2, (sectionSums_eq scores' indicators rules «section»).2,
    (raised_weights (notLower_rows h hrows)).1]

/-- A section with a row counts. -/
theorem sectionMax_pos (h : WellWeighted rules) {row : EvaluationScore} (hrow : row ∈ scores)
    (hin : inSection indicators «section» row = true) :
    0 < (sectionSums scores indicators rules «section»).2 := by
  unfold sectionSums
  refine List.sum_pos _ ?_ ?_
  · intro part hpart
    obtain ⟨other, -, rfl⟩ := List.mem_map.mp hpart
    exact mul_pos (by norm_num) (h.indicators other.indicatorId)
  · intro hnil
    have hmem : row ∈ scores.filter (inSection indicators «section») := List.mem_filter.mpr ⟨hrow, hin⟩
    rw [List.map_eq_nil_iff] at hnil
    rw [hnil] at hmem
    exact List.not_mem_nil hmem

theorem sectionPct_full (hfull : ∀ row ∈ scores, row.score = 5)
    (hpos : (sectionSums scores indicators rules «section»).2 ≠ 0) :
    sectionPct (sectionSums scores indicators rules «section») = 100 := by
  rw [sectionPct_eq, exactPct_eq, weightedMean_const (c := 100)]
  · exact roundTo_eq_self_iff.mpr (isDecimal_natCast 100)
  · intro row hrow
    obtain ⟨score, hscore, rfl⟩ := List.mem_map.mp hrow
    rw [hfull score (List.mem_filter.mp hscore).1]
    norm_num
  · intro hzero
    rw [(sectionSums_eq scores indicators rules «section»).2, hzero] at hpos
    exact hpos (mul_zero 5)

end

/-! ## The percentage of the form -/

/-- The sections with the weights that count: without any weight, one each. -/
def weighed (present : List (Rat × Rat)) : List (Rat × Rat) :=
  if 0 < (present.map Prod.snd).sum then present else present.map fun row => (row.1, 1)

section

variable {present present' : List (Rat × Rat)} {bound : Rat}

theorem exactMean_eq (present : List (Rat × Rat)) : exactMean present = weightedMean (weighed present) := by
  unfold exactMean weightedMean weighed
  split
  · rfl
  · simp [List.map_map, Function.comp_def]

theorem mem_weighed (h : ∀ row ∈ present, 0 ≤ row.2) {row : Rat × Rat} (hrow : row ∈ weighed present) :
    0 ≤ row.2 ∧ ∃ other ∈ present, row.1 = other.1 := by
  unfold weighed at hrow
  split at hrow
  · exact ⟨h row hrow, row, hrow, rfl⟩
  · obtain ⟨other, hother, rfl⟩ := List.mem_map.mp hrow
    exact ⟨zero_le_one, other, hother, rfl⟩

theorem weighed_pos (h : present ≠ []) : 0 < ((weighed present).map Prod.snd).sum := by
  unfold weighed
  split
  next hpos => exact hpos
  next =>
    have hlength : 0 < present.length := List.length_pos_iff.mpr h
    simp only [List.map_map, Function.comp_def, List.map_const', List.sum_replicate, nsmul_eq_mul, mul_one]
    exact_mod_cast hlength

theorem raised_weighed (h : List.Forall₂ Raised present present') :
    List.Forall₂ Raised (weighed present) (weighed present') := by
  unfold weighed
  rw [← (raised_weights h).1]
  split
  · exact h
  · rw [List.forall₂_map_left_iff, List.forall₂_map_right_iff]
    exact h.imp fun _ _ hrow => ⟨hrow.1, rfl, zero_le_one⟩

theorem basePct_mono (h : List.Forall₂ Raised present present') : basePct present ≤ basePct present' := by
  rw [basePct_eq, basePct_eq, exactMean_eq, exactMean_eq]
  exact roundTo_mono (weightedMean_mono (raised_weighed h))

theorem basePct_bounds (h : ∀ row ∈ present, 0 ≤ row.1 ∧ row.1 ≤ 100 ∧ 0 ≤ row.2) :
    0 ≤ basePct present ∧ basePct present ≤ 100 := by
  have hweights : ∀ row ∈ present, 0 ≤ row.2 := fun row hrow => (h row hrow).2.2
  rw [basePct_eq, exactMean_eq]
  constructor
  · apply le_roundTo isDecimal_zero
    apply weightedMean_nonneg
    intro row hrow
    obtain ⟨hnonneg, other, hother, hsame⟩ := mem_weighed hweights hrow
    rw [hsame]
    exact ⟨(h other hother).1, hnonneg⟩
  · apply roundTo_le (isDecimal_natCast 100)
    apply weightedMean_le (by norm_num)
    intro row hrow
    obtain ⟨hnonneg, other, hother, hsame⟩ := mem_weighed hweights hrow
    rw [hsame]
    exact ⟨(h other hother).2.1, hnonneg⟩

theorem basePct_full (h : ∀ row ∈ present, row.1 = 100) (hweights : ∀ row ∈ present, 0 ≤ row.2)
    (hne : present ≠ []) : basePct present = 100 := by
  rw [basePct_eq, exactMean_eq, weightedMean_const (c := 100) _ (weighed_pos hne).ne']
  · exact roundTo_eq_self_iff.mpr (isDecimal_natCast 100)
  · intro row hrow
    obtain ⟨-, other, hother, hsame⟩ := mem_weighed hweights hrow
    rw [hsame, h other hother]

end

/-! ## The result -/

section

variable {rules : Rules} {base base' bonus bonus' : Rat}

/-- The form and its special score are the larger of the form and what the special score fills up to 100. -/
theorem finalPct_eq (hbase : IsDecimal 1 base) :
    roundTo 1 (base + appliedBonus bonus rules base) =
      roundTo 1 (roundTo 2 (max base (min (base + min bonus rules.bonusMaxPoints) 100))) := by
  have hsum : base + max 0 (min (min bonus rules.bonusMaxPoints) (100 - base)) =
      max base (min (base + min bonus rules.bonusMaxPoints) 100) := by
    rw [← max_add_add_left, ← min_add_add_left, add_zero, add_sub_cancel]
  unfold appliedBonus
  rw [← roundTo_add hbase, hsum]

theorem finalPct_bounds (hbase : IsDecimal 1 base) (hle : base ≤ 100) (bonus : Rat) (rules : Rules) :
    base ≤ roundTo 1 (base + appliedBonus bonus rules base) ∧
      roundTo 1 (base + appliedBonus bonus rules base) ≤ 100 := by
  rw [finalPct_eq hbase]
  constructor
  · apply le_roundTo hbase
    apply le_roundTo hbase.succ
    exact le_max_left _ _
  · apply roundTo_le (isDecimal_natCast 100)
    apply roundTo_le (isDecimal_natCast 100)
    exact max_le hle (min_le_right _ _)

theorem finalPct_mono (hbase : IsDecimal 1 base) (hbase' : IsDecimal 1 base') (hle : base ≤ base')
    (hbonus : bonus ≤ bonus') :
    roundTo 1 (base + appliedBonus bonus rules base) ≤ roundTo 1 (base' + appliedBonus bonus' rules base') := by
  have hcapped : min bonus rules.bonusMaxPoints ≤ min bonus' rules.bonusMaxPoints :=
    min_le_min_right _ hbonus
  rw [finalPct_eq hbase, finalPct_eq hbase']
  apply roundTo_mono
  apply roundTo_mono
  exact max_le_max hle (min_le_min_right _ (add_le_add hle hcapped))

end

section

variable {scores scores' : List EvaluationScore} {indicators : List Indicator} {rules : Rules}
  {bonus bonus' : Rat}

theorem mem_presentSections {general specialized row : Rat × Rat}
    (h : row ∈ presentSections general specialized rules) :
    (general.2 ≠ 0 ∧ row = (sectionPct general, rules.generalSectionWeight)) ∨
      (specialized.2 ≠ 0 ∧ row = (sectionPct specialized, rules.specializedSectionWeight)) := by
  unfold presentSections at h
  rw [List.mem_append] at h
  rcases h with h | h
  · split at h
    · cases h
    next hne => exact Or.inl ⟨hne, List.mem_singleton.mp h⟩
  · split at h
    · cases h
    next hne => exact Or.inr ⟨hne, List.mem_singleton.mp h⟩

/-- The percentages of the form's sections and their weights. -/
def formSections (scores : List EvaluationScore) (indicators : List Indicator) (rules : Rules) :
    List (Rat × Rat) :=
  presentSections (sectionSums scores indicators rules .general)
    (sectionSums scores indicators rules .specialized) rules

theorem basePct_isDecimal (present : List (Rat × Rat)) : IsDecimal 1 (basePct present) := by
  rw [basePct_eq]
  exact roundTo_isDecimal 1 _

theorem formSections_bounds (h : WellWeighted rules) (hrange : ∀ row ∈ scores, row.score ≤ 5)
    (indicators : List Indicator) :
    ∀ row ∈ formSections scores indicators rules, 0 ≤ row.1 ∧ row.1 ≤ 100 ∧ 0 ≤ row.2 := by
  intro row hrow
  rcases mem_presentSections hrow with ⟨-, rfl⟩ | ⟨-, rfl⟩
  · obtain ⟨hlow, hhigh⟩ := sectionPct_bounds h hrange indicators .general
    exact ⟨hlow, hhigh, h.general⟩
  · obtain ⟨hlow, hhigh⟩ := sectionPct_bounds h hrange indicators .specialized
    exact ⟨hlow, hhigh, h.specialized⟩

theorem formSections_raised (h : WellWeighted rules) (hrows : List.Forall₂ NotLower scores scores')
    (indicators : List Indicator) :
    List.Forall₂ Raised (formSections scores indicators rules) (formSections scores' indicators rules) := by
  unfold formSections presentSections
  rw [sectionMax_eq h hrows, sectionMax_eq h hrows]
  apply List.rel_append
  · split
    · exact List.Forall₂.nil
    · exact List.Forall₂.cons ⟨sectionPct_mono h hrows, rfl, h.general⟩ List.Forall₂.nil
  · split
    · exact List.Forall₂.nil
    · exact List.Forall₂.cons ⟨sectionPct_mono h hrows, rfl, h.specialized⟩ List.Forall₂.nil

/-- A form with a row has a section. -/
theorem formSections_ne_nil (h : WellWeighted rules) (hcomplete : CompleteScores indicators scores)
    (hne : scores ≠ []) : formSections scores indicators rules ≠ [] := by
  obtain ⟨row, hrow⟩ := List.exists_mem_of_ne_nil scores hne
  obtain ⟨i, hi, hid⟩ := hcomplete.asked row hrow
  have hin : inSection indicators i.section row = true := by
    unfold inSection
    rw [List.any_eq_true]
    exact ⟨i, hi, by simp [hid]⟩
  have hpos := sectionMax_pos h hrow hin
  unfold formSections presentSections
  cases hsection : i.section with
  | general =>
    rw [hsection] at hpos
    simp [hpos.ne']
  | specialized =>
    rw [hsection] at hpos
    simp [hpos.ne']

theorem base_full (h : WellWeighted rules) (hcomplete : CompleteScores indicators scores)
    (hne : scores ≠ []) (hfull : ∀ row ∈ scores, row.score = 5) :
    basePct (formSections scores indicators rules) = 100 := by
  have hrange : ∀ row ∈ scores, row.score ≤ 5 := fun row hrow => (hfull row hrow).le
  apply basePct_full _ _ (formSections_ne_nil h hcomplete hne)
  · intro row hrow
    rcases mem_presentSections hrow with ⟨hpos, rfl⟩ | ⟨hpos, rfl⟩
    · exact sectionPct_full hfull hpos
    · exact sectionPct_full hfull hpos
  · intro row hrow
    exact (formSections_bounds h hrange indicators row hrow).2.2

theorem computeResult_perm (h : scores.Perm scores') :
    computeResult scores indicators rules bonus = computeResult scores' indicators rules bonus := by
  have hsums : ∀ «section», sectionSums scores indicators rules «section» =
      sectionSums scores' indicators rules «section» := by
    intro «section»
    have hrows := h.filter (inSection indicators «section»)
    unfold sectionSums
    simp only [(hrows.map _).sum_eq]
  unfold computeResult
  rw [hsums, hsums]

end

/-! ## The laws -/

/-- What scoring does under the rules, on every form that asks the indicators. -/
structure ScoringLaws (rules : Rules) (indicators : List Indicator) : Prop where
  bounds : ∀ scores bonus, CompleteScores indicators scores →
    0 ≤ (computeResult scores indicators rules bonus).baseWeightedPct ∧
      (computeResult scores indicators rules bonus).baseWeightedPct ≤
        (computeResult scores indicators rules bonus).finalWeightedPct ∧
      (computeResult scores indicators rules bonus).finalWeightedPct ≤ 100
  fullMarks : ∀ scores bonus, CompleteScores indicators scores → scores ≠ [] →
    (∀ row ∈ scores, row.score = 5) →
    (computeResult scores indicators rules bonus).baseWeightedPct = 100 ∧
      (computeResult scores indicators rules bonus).finalWeightedPct = 100
  rising : ∀ scores scores' bonus bonus', List.Forall₂ NotLower scores scores' → bonus ≤ bonus' →
    (computeResult scores indicators rules bonus).baseWeightedPct ≤
        (computeResult scores' indicators rules bonus').baseWeightedPct ∧
      (computeResult scores indicators rules bonus).finalWeightedPct ≤
        (computeResult scores' indicators rules bonus').finalWeightedPct
  unordered : ∀ scores scores' bonus, scores.Perm scores' →
    computeResult scores indicators rules bonus = computeResult scores' indicators rules bonus
  recommended : ∀ scores bonus, (computeResult scores indicators rules bonus).recommendation =
    rules.recommendationFor (computeResult scores indicators rules bonus).finalWeightedPct
  banded : ∀ pct, ∃ band, rules.thresholds[rules.band pct]? = some band ∧
    rules.recommendationFor pct = band.2 ∧ (pct ≤ 100 → pct < band.1)
  bandsRise : ∀ p q, p ≤ q → rules.band p ≤ rules.band q

theorem scoring_laws {rules : Rules} (h : ValidRules rules) (indicators : List Indicator) :
    ScoringLaws rules indicators := by
  have hweights := h.wellWeighted
  constructor
  case bounds =>
    intro scores bonus hcomplete
    have hrange : ∀ row ∈ scores, row.score ≤ 5 := fun row hrow => (hcomplete.range row hrow).2
    obtain ⟨hlow, hhigh⟩ := basePct_bounds (formSections_bounds hweights hrange indicators)
    exact ⟨hlow, finalPct_bounds (basePct_isDecimal _) hhigh bonus rules⟩
  case fullMarks =>
    intro scores bonus hcomplete hne hfull
    have hbase : (computeResult scores indicators rules bonus).baseWeightedPct = 100 :=
      base_full hweights hcomplete hne hfull
    have hdecimal : IsDecimal 1 (computeResult scores indicators rules bonus).baseWeightedPct :=
      basePct_isDecimal _
    obtain ⟨hlow, hhigh⟩ := finalPct_bounds hdecimal hbase.le bonus rules
    exact ⟨hbase, le_antisymm hhigh (hbase.ge.trans hlow)⟩
  case rising =>
    intro scores scores' bonus bonus' hrows hbonus
    have hbase := basePct_mono (formSections_raised hweights hrows indicators)
    exact ⟨hbase, finalPct_mono (basePct_isDecimal _) (basePct_isDecimal _) hbase hbonus⟩
  case unordered =>
    intro scores scores' bonus hperm
    exact computeResult_perm hperm
  case recommended =>
    intro scores bonus
    rfl
  case banded => exact recommendation_band hweights.last
  case bandsRise =>
    intro p q hle
    exact band_mono hle

/-- Two general questions, of which the second counts three times, and a specialized one. -/
def weightedForm : List Indicator :=
  [question, { question with id := 2 }, { question with id := 3, «section» := .specialized }]

def weightedScheme : ScoringScheme := { baseScheme with indicatorWeights := [(2, 3)] }

def weightedScores (first second third : Nat) : List EvaluationScore :=
  [⟨1, first, none⟩, ⟨2, second, none⟩, ⟨3, third, none⟩]

def weightedResult (scores : List EvaluationScore) (bonus : Rat) : Rat :=
  (computeResult scores weightedForm (rulesFrom weightedScheme) bonus).finalWeightedPct

theorem weightedScores_complete {first second third : Nat}
    (hrange : ∀ score ∈ [first, second, third], 1 ≤ score ∧ score ≤ 5) :
    CompleteScores weightedForm (weightedScores first second third) := by
  constructor
  · simp [weightedForm, weightedScores, question]
  · simp [weightedForm, weightedScores, question]
  · intro row hrow
    apply hrange
    simp only [weightedScores, List.mem_cons, List.not_mem_nil, or_false] at hrow ⊢
    obtain rfl | rfl | rfl := hrow <;> simp

/-- Full marks give 100, a form that is scored higher does not fall, and the order of its rows does not matter. -/
theorem weighted_form_follows_the_laws :
    weightedResult (weightedScores 5 5 5) 0 = 100 ∧
      0 ≤ weightedResult (weightedScores 2 4 3) 0 ∧
      weightedResult (weightedScores 2 4 3) 0 ≤ weightedResult (weightedScores 4 4 5) 2 ∧
      weightedResult (weightedScores 4 4 5) 2 ≤ 100 ∧
      weightedResult (weightedScores 4 4 5) 2 = weightedResult (weightedScores 4 4 5).reverse 2 := by
  have hlaws := scoring_laws (.ofScheme weightedScheme (by decide +kernel)) weightedForm
  have hlow := hlaws.bounds _ 0 (weightedScores_complete (by decide : ∀ score ∈ [2, 4, 3], 1 ≤ score ∧ score ≤ 5))
  have hhigh := hlaws.bounds _ 2 (weightedScores_complete (by decide : ∀ score ∈ [4, 4, 5], 1 ≤ score ∧ score ≤ 5))
  have hraised : List.Forall₂ NotLower (weightedScores 2 4 3) (weightedScores 4 4 5) := by
    simp [weightedScores, NotLower]
  refine ⟨?_, hlow.1.trans hlow.2.1, (hlaws.rising _ _ 0 2 hraised (by norm_num)).2, hhigh.2.2, ?_⟩
  · exact (hlaws.fullMarks _ 0 (weightedScores_complete (by decide)) (by simp [weightedScores])
      (by simp [weightedScores])).2
  · unfold weightedResult
    rw [hlaws.unordered _ _ 2 (List.reverse_perm _).symm]

/-- A form that asks nothing has no score below the maximum, and its result is 0. -/
theorem empty_form_has_no_full_marks :
    ¬∀ rules, ValidRules rules → ∀ indicators scores bonus, CompleteScores indicators scores →
      (∀ row ∈ scores, row.score = 5) →
      (computeResult scores indicators rules bonus).finalWeightedPct = 100 := by
  intro hclaim
  have hfull := hclaim legacyRules .legacy [] [] 0 ⟨by simp, by simp, by simp⟩ (by simp)
  have hzero : (computeResult [] [] legacyRules 0).finalWeightedPct = 0 := by decide +kernel
  rw [hzero] at hfull
  norm_num at hfull

end NexaHR
