import NexaHR.Core.Decimals
import NexaHR.Pages.ScoreForm
import NexaHR.System.Installation
import NexaHR.System.RecordSteps

/-! # The preview of the form, against the official result

Page and server add up the same weighted points and round them to one decimal, the page by way of twenty.
The server then rounds the sum of the form and the special score, which the ring shows as it is.

* `round1_eq_iff`: the page's rounding is the server's, but for numbers beside a tie.
* `previewSums_eq`: the loop over the drafts leads to the server's sums.
* `preview_is_official_iff`: page and server agree on the submitted form exactly when no percentage lies
  beside a tie and the special score has one decimal or fills the form up to 100.
-/

namespace NexaHR

open Foundations ScoreForm

set_option autoImplicit false

/-! ## One decimal by way of twenty -/

/-- The number does not lie beside a tie of the first decimal, closer than twenty decimals tell. -/
def RoundsExactly (x : Rat) : Prop := ¬Misled (10 ^ 19) (|x| * 10)

theorem toFixed20_spec (x : Rat) : NearestUp (x * 10 * (10 ^ 19 : Nat)) (toFixed20 x) := by
  have hdigits : x * 10 * ((10 ^ 19 : Nat) : Rat) = x * 10 ^ 20 := by
    push_cast
    ring
  rw [hdigits]
  exact nearestUp_floor (x * 10 ^ 20)

/-- The digits that `round1` reads, as a number, and the integer that it makes of them. -/
theorem scaled_nearest (digits : Int) :
    NearestEven ((digits : Rat) / ((10 ^ 19 : Nat) : Rat))
      (if digits % 10 ^ 19 = 5 * 10 ^ 18 then
        (if digits / 10 ^ 19 % 2 ≠ 0 then digits / 10 ^ 19 + 1 else digits / 10 ^ 19)
      else if 5 * 10 ^ 18 < digits % 10 ^ 19 then digits / 10 ^ 19 + 1
      else digits / 10 ^ 19) := by
  generalize hkept : digits / 10 ^ 19 = kept
  generalize htail : digits % 10 ^ 19 = tail
  have hsplit : digits = 10 ^ 19 * kept + tail := by
    rw [← hkept, ← htail]
    exact (Int.mul_ediv_add_emod digits (10 ^ 19)).symm
  have hnonneg : 0 ≤ tail := by
    rw [← htail]
    exact Int.emod_nonneg _ (by norm_num)
  have hlt : tail < 10 ^ 19 := by
    rw [← htail]
    exact Int.emod_lt_of_pos _ (by norm_num)
  have hpoint : (digits : Rat) / ((10 ^ 19 : Nat) : Rat) = kept + tail / 10 ^ 19 := by
    rw [hsplit]
    push_cast
    field_simp
    ring
  rw [hpoint]
  split
  next htie =>
    have hhalf : (tail : Rat) / 10 ^ 19 = 1 / 2 := by
      rw [htie]
      norm_num
    rw [hhalf]
    split
    next hodd => exact nearestEven_rest_tie_odd (Int.odd_iff.mpr (by omega))
    next heven => exact nearestEven_rest_tie_even (Int.even_iff.mpr (by omega))
  next htie =>
    split
    next hup =>
      apply nearestEven_rest_above
      · rw [lt_div_iff₀ (by positivity)]
        have hup' : (5 * 10 ^ 18 : Rat) < tail := by exact_mod_cast hup
        linarith
      · rw [div_lt_one (by positivity)]
        exact_mod_cast hlt
    next hdown =>
      apply nearestEven_rest_below
      · exact div_nonneg (by exact_mod_cast hnonneg) (by positivity)
      · rw [div_lt_iff₀ (by positivity)]
        have hdown' : (tail : Rat) < 5 * 10 ^ 18 := by exact_mod_cast (show tail < 5 * 10 ^ 18 by omega)
        linarith

theorem round1_of_nonneg {x : Rat} (hx : 0 ≤ x) : round1 x = roundTo 1 x ↔ RoundsExactly x := by
  have hscaled := scaled_nearest (toFixed20 |x|)
  unfold round1
  simp only [if_neg (not_lt.mpr hx)]
  generalize (if toFixed20 |x| % 10 ^ 19 = 5 * 10 ^ 18 then _ else _ : Int) = scaled at hscaled ⊢
  have hthrough := nearestEven_through_iff (by norm_num) (by decide) (toFixed20_spec |x|) hscaled
  unfold RoundsExactly
  rw [← hthrough, abs_of_nonneg hx]
  constructor
  · intro heq
    unfold roundTo at heq
    rw [pow_one, div_left_inj' (by norm_num), Int.cast_inj] at heq
    rw [heq]
    exact roundHalfEven_spec (x * 10)
  · intro hnear
    have hnear' : NearestEven (x * 10 ^ 1) scaled := by
      rw [pow_one]
      exact hnear
    rw [roundTo_eq_of_nearest hnear', pow_one]

theorem round1_neg {x : Rat} (hx : 0 < x) : round1 (-x) = -round1 x := by
  unfold round1
  simp only [abs_neg, if_pos (neg_lt_zero.mpr hx), if_neg (not_lt.mpr hx.le)]

/-- The page rounds a number like the server exactly when it does not lie beside a tie. -/
theorem round1_eq_iff (x : Rat) : round1 x = roundTo 1 x ↔ RoundsExactly x := by
  rcases lt_or_ge x 0 with hneg | hnonneg
  · have hpos : 0 < -x := by linarith
    have hround := round1_neg hpos
    rw [neg_neg] at hround
    have hserver := roundTo_neg 1 (-x)
    rw [neg_neg] at hserver
    rw [hround, hserver, neg_inj, round1_of_nonneg hpos.le]
    unfold RoundsExactly
    rw [abs_neg]
  · exact round1_of_nonneg hnonneg

/-- A number with one decimal is no case for rounding. -/
theorem roundsExactly_of_isDecimal {x : Rat} (hx : IsDecimal 1 x) : RoundsExactly x := by
  have habs : IsDecimal 1 |x| := by
    rcases abs_choice x with h | h
    · rw [h]
      exact hx
    · rw [h, ← zero_sub]
      exact isDecimal_zero.sub hx
  obtain ⟨k, hk⟩ := habs
  unfold RoundsExactly
  rw [pow_one] at hk
  rw [hk]
  exact not_misled_intCast (by norm_num) k

theorem round1_zero : round1 0 = 0 := by
  rw [(round1_eq_iff 0).mpr (roundsExactly_of_isDecimal isDecimal_zero), roundTo_zero]

/-! ## The sums of the two sections -/

/-- The page's list of indicators and the server's have the same members, each under its own key. -/
structure SameIndicators (caseIndicators indicators : List Indicator) : Prop where
  mem_iff : ∀ i, i ∈ caseIndicators ↔ i ∈ indicators
  unique : ∀ i ∈ indicators, ∀ j ∈ indicators, i.id = j.id → i = j

section

variable {caseIndicators indicators : List Indicator} {rules : Rules}

theorem sectionById_eq (hsame : SameIndicators caseIndicators indicators) {i : Indicator}
    (hi : i ∈ indicators) : sectionById caseIndicators i.id = some i.section := by
  unfold sectionById
  cases hfind : caseIndicators.reverse.find? fun j => j.id = i.id with
  | none =>
    have hnone := List.find?_eq_none.mp hfind i (List.mem_reverse.mpr ((hsame.mem_iff i).mpr hi))
    simp at hnone
  | some j =>
    have hj := (hsame.mem_iff j).mp (List.mem_reverse.mp (List.mem_of_find?_eq_some hfind))
    have hid : j.id = i.id := by simpa using List.find?_some hfind
    rw [hsame.unique j hj i hi hid]
    rfl

theorem inSection_iff (hsame : SameIndicators caseIndicators indicators) {i : Indicator}
    (hi : i ∈ indicators) {row : EvaluationScore} (hrow : row.indicatorId = i.id)
    («section» : IndicatorSection) : inSection indicators «section» row = decide (i.section = «section») := by
  unfold inSection
  by_cases hs : i.section = «section»
  · rw [decide_eq_true hs, List.any_eq_true]
    refine ⟨i, hi, ?_⟩
    simp [hrow, hs]
  · rw [decide_eq_false hs, List.any_eq_false]
    intro j hj hmatch
    simp only [Bool.and_eq_true, decide_eq_true_eq] at hmatch
    rw [hsame.unique j hj i hi (hmatch.1.trans hrow)] at hmatch
    exact hs hmatch.2

theorem sectionSums_cons (row : EvaluationScore) (rows : List EvaluationScore)
    («section» : IndicatorSection) :
    sectionSums (row :: rows) indicators rules «section» =
      if inSection indicators «section» row = true then
        (row.score * rules.weightFor row.indicatorId + (sectionSums rows indicators rules «section»).1,
          5 * rules.weightFor row.indicatorId + (sectionSums rows indicators rules «section»).2)
      else sectionSums rows indicators rules «section» := by
  unfold sectionSums
  rw [List.filter_cons]
  split <;> rfl

/-- Every draft is scored and asked. -/
def DraftsAsked (indicators : List Indicator) (drafts : List ScoreDraft) : Prop :=
  ∀ d ∈ drafts, d.score.isSome = true ∧ ∃ i ∈ indicators, i.id = d.indicatorId

/-- The loop over the drafts adds up what the server adds up over the rows. -/
theorem previewSums_eq (hsame : SameIndicators caseIndicators indicators) {drafts : List ScoreDraft}
    (hasked : DraftsAsked indicators drafts) (sums : Sums) :
    drafts.foldl (addDraft caseIndicators (AppConfig.fromRules rules)) sums =
      { generalSum := sums.generalSum + (sectionSums (scoredRows drafts) indicators rules .general).1
        generalMax := sums.generalMax + (sectionSums (scoredRows drafts) indicators rules .general).2
        specializedSum :=
          sums.specializedSum + (sectionSums (scoredRows drafts) indicators rules .specialized).1
        specializedMax :=
          sums.specializedMax + (sectionSums (scoredRows drafts) indicators rules .specialized).2 } := by
  induction drafts generalizing sums with
  | nil => simp [scoredRows, sectionSums]
  | cons d drafts ih =>
    have hrest : DraftsAsked indicators drafts := fun e he => hasked e (List.mem_cons_of_mem d he)
    obtain ⟨hscored, i, hi, hid⟩ := hasked d List.mem_cons_self
    obtain ⟨score, hscore⟩ := Option.isSome_iff_exists.mp hscored
    have hsection := sectionById_eq hsame hi
    have hrow : ∃ row, scoredRows (d :: drafts) = row :: scoredRows drafts ∧
        row.indicatorId = d.indicatorId ∧ row.score = score := by
      unfold scoredRows
      rw [List.filterMap_cons, hscore]
      exact ⟨_, rfl, rfl, rfl⟩
    obtain ⟨row, hrows, hkey, hvalue⟩ := hrow
    have hweight : weightOf (AppConfig.fromRules rules) d.indicatorId = rules.weightFor d.indicatorId := rfl
    rw [hid] at hsection
    rw [List.foldl_cons, ih hrest, hrows, sectionSums_cons, sectionSums_cons,
      inSection_iff hsame hi (hkey.trans hid.symm), inSection_iff hsame hi (hkey.trans hid.symm), hkey, hvalue]
    unfold addDraft
    rw [hsection, hscore, hweight]
    cases i.section with
    | general => simp [add_assoc]
    | specialized => simp [add_assoc]

/-! ## The percentages -/

/-- The percentage of a section before it is rounded, 0 for a section without weight. -/
def exactPct (sums : Rat × Rat) : Rat := if sums.2 = 0 then 0 else sums.1 / sums.2 * 100

/-- The mean of the sections that the form has, by weight, before it is rounded. -/
def exactMean (present : List (Rat × Rat)) : Rat :=
  if 0 < (present.map Prod.snd).sum then
    (present.map fun row => row.1 * row.2).sum / (present.map Prod.snd).sum
  else (present.map Prod.fst).sum / present.length

theorem sectionPct_eq (sums : Rat × Rat) : sectionPct sums = roundTo 1 (exactPct sums) := by
  unfold sectionPct exactPct
  split
  · rw [roundTo_zero]
  · rfl

theorem basePct_eq (present : List (Rat × Rat)) : basePct present = roundTo 1 (exactMean present) := by
  unfold basePct exactMean
  cases present with
  | nil => simp
  | cons row rest =>
    rw [if_neg (List.cons_ne_nil row rest)]
    split <;> rfl

theorem foldl_add_eq_sum {α : Type} (f : α → Rat) (l : List α) (a : Rat) :
    l.foldl (fun sum row => sum + f row) a = a + (l.map f).sum := by
  induction l generalizing a with
  | nil => simp
  | cons row l ih => rw [List.foldl_cons, ih, List.map_cons, List.sum_cons, add_assoc]

theorem pctOf_eq (sums : Rat × Rat) : pctOf sums.1 sums.2 = round1 (exactPct sums) := by
  unfold pctOf exactPct
  by_cases hmax : sums.2 = 0
  · rw [if_neg (not_not.mpr hmax), if_pos hmax, round1_zero]
  · rw [if_pos hmax, if_neg hmax]

theorem finalOf_eq (present : List (Rat × Rat)) : finalOf present = round1 (exactMean present) := by
  unfold finalOf exactMean
  rw [foldl_add_eq_sum, foldl_add_eq_sum, foldl_add_eq_sum, zero_add, zero_add, zero_add]
  cases present with
  | nil => simp [round1_zero]
  | cons row rest =>
    have hlength : (row :: rest).length ≠ 0 := Nat.succ_ne_zero rest.length
    simp only [hlength, if_false]
    split <;> rfl

/-- The page's percentages over the server's sums. -/
def previewOf (general specialized : Rat × Rat) (rules : Rules) : ScorePreview where
  generalPct := round1 (exactPct general)
  specializedPct := round1 (exactPct specialized)
  finalPct := finalOf (presentOf ⟨general.1, general.2, specialized.1, specialized.2⟩
    (round1 (exactPct general)) (round1 (exactPct specialized)) (AppConfig.fromRules rules))

theorem computePreview_eq (hsame : SameIndicators caseIndicators indicators) {drafts : List ScoreDraft}
    (hasked : DraftsAsked indicators drafts) (hne : drafts ≠ []) :
    computePreview drafts caseIndicators (AppConfig.fromRules rules) =
      some (previewOf (sectionSums (scoredRows drafts) indicators rules .general)
        (sectionSums (scoredRows drafts) indicators rules .specialized) rules) := by
  have hscored : ¬drafts.any (fun d => d.score.isNone) = true := by
    rw [List.any_eq_true]
    rintro ⟨d, hd, hnone⟩
    have hsome := (hasked d hd).1
    rw [← Option.not_isNone, hnone] at hsome
    cases hsome
  unfold computePreview previewOf
  rw [if_neg (not_or.mpr ⟨hne, hscored⟩), previewSums_eq hsame hasked]
  simp only [zero_add, pctOf_eq]

/-- Where the two sections agree with the server, the page takes the mean of the same sections. -/
theorem finalPct_previewOf {general specialized : Rat × Rat}
    (hgeneral : round1 (exactPct general) = sectionPct general)
    (hspecialized : round1 (exactPct specialized) = sectionPct specialized) :
    (previewOf general specialized rules).finalPct =
      round1 (exactMean (presentSections general specialized rules)) := by
  have hpresent : presentOf ⟨general.1, general.2, specialized.1, specialized.2⟩ (sectionPct general)
      (sectionPct specialized) (AppConfig.fromRules rules) = presentSections general specialized rules := by
    unfold presentOf presentSections
    rw [ite_not, ite_not]
    rfl
  unfold previewOf
  rw [hgeneral, hspecialized, hpresent, finalOf_eq]

/-! ## The special score -/

/-- A ceiling between the special score and what is stored of it is rounded to what is stored, if that has
one decimal. -/
theorem roundTo_min_eq {bonusValue maximum : Rat} (hnonneg : 0 ≤ bonusValue)
    (hmaximum : bonusValue ≤ maximum) (hdec : IsDecimal 1 (numeric 2 bonusValue)) :
    roundTo 2 (min (numeric 2 bonusValue) maximum) = numeric 2 bonusValue := by
  rcases le_or_gt (numeric 2 bonusValue) maximum with hle | hlt
  · rw [min_eq_left hle]
    exact roundTo_eq_self_iff.mpr hdec.succ
  · rw [min_eq_right hlt.le]
    obtain ⟨k, hk⟩ := hdec
    have hcents : numeric 2 bonusValue * 10 ^ 2 = ((k * 10 : Int) : Rat) := by
      push_cast
      rw [← hk]
      ring
    have hlow := (numeric_bounds (n := 2) hnonneg).1
    have hscaled : bonusValue * 10 ^ 2 ≤ maximum * 10 ^ 2 := by linarith
    have hbelow : maximum * 10 ^ 2 < numeric 2 bonusValue * 10 ^ 2 := by linarith
    rw [hcents] at hlow hbelow
    have hnear : NearestEven (maximum * 10 ^ 2) (k * 10) := by
      rcases (hlow.trans hscaled).lt_or_eq with hstrict | htie
      · exact Or.inl (abs_lt.mpr ⟨by linarith, by linarith⟩)
      · refine Or.inr ⟨?_, ?_⟩
        · rw [← htie, sub_sub_cancel_left]
          norm_num [abs_of_neg]
        · exact Int.even_mul.mpr (Or.inr (by decide))
    rw [roundTo_eq_of_nearest hnear, ← hcents, mul_div_cancel_right₀ _ (ten_pow_pos 2).ne']

/-- What is stored of a special score that the form accepts leads to the number on the ring exactly when
it has one decimal, or the form needs no more than it for 100. -/
theorem ring_eq_final_iff {formPct bonusValue maximum : Rat} (hform : IsDecimal 1 formPct)
    (hnonneg : 0 ≤ bonusValue) (hmaximum : bonusValue ≤ maximum) :
    formPct + (mathRound (max 0 (min (min bonusValue maximum) (100 - formPct)) * 100) : Rat) / 100 =
        roundTo 1 (formPct +
          roundTo 2 (max 0 (min (min (numeric 2 bonusValue) maximum) (100 - formPct)))) ↔
      100 - formPct ≤ bonusValue ∨ IsDecimal 1 (numeric 2 bonusValue) := by
  have hmath : ∀ x : Rat, 0 ≤ x → (mathRound (x * 100) : Rat) / 100 = numeric 2 x := by
    intro x hx
    rw [numeric_of_nonneg hx]
    norm_num [mathRound]
  have hgap : IsDecimal 1 (100 - formPct) := (isDecimal_natCast 100).sub hform
  rw [hmath _ (le_max_left 0 _), min_eq_left hmaximum]
  rcases le_or_gt (100 - formPct) bonusValue with hfills | hroom
  · refine iff_of_true ?_ (Or.inl hfills)
    have hstored : min (min (numeric 2 bonusValue) maximum) (100 - formPct) = 100 - formPct := by
      apply min_eq_right
      exact le_min (le_numeric_of_le hnonneg hgap.succ hfills) (hfills.trans hmaximum)
    have hdec : IsDecimal 1 (max 0 (100 - formPct)) := isDecimal_zero.max hgap
    rw [min_eq_right hfills, hstored, numeric_of_isDecimal (le_max_left 0 _) hdec.succ,
      roundTo_eq_self_iff.mpr hdec.succ, roundTo_eq_self_iff.mpr (hform.add hdec)]
  · have hshown : max 0 (min bonusValue (100 - formPct)) = bonusValue := by
      rw [min_eq_left hroom.le, max_eq_right hnonneg]
    rw [hshown]
    constructor
    · intro heq
      right
      have hsum : IsDecimal 1 (formPct + numeric 2 bonusValue) := by
        rw [heq]
        exact roundTo_isDecimal 1 _
      have hdiff := hsum.sub hform
      rwa [add_sub_cancel_left] at hdiff
    · rintro (hfills | hdec)
      · exact absurd hfills (not_le.mpr hroom)
      · have hstored : roundTo 2 (max 0 (min (min (numeric 2 bonusValue) maximum) (100 - formPct))) =
            numeric 2 bonusValue := by
          have hgap' := numeric_le_of_le hnonneg hgap.succ hroom.le
          rw [min_eq_left ((min_le_left _ _).trans hgap'),
            max_eq_right (le_min (numeric_nonneg hnonneg) (hnonneg.trans hmaximum))]
          exact roundTo_min_eq hnonneg hmaximum hdec
        rw [hstored, roundTo_eq_self_iff.mpr (hform.add hdec)]

/-! ## Page and record -/

/-- The percentages that are left when page and server have rounded the sections. -/
def formScore (general specialized : Rat × Rat) (rules : Rules) : Rat :=
  roundTo 1 (exactMean (presentSections general specialized rules))

/-- No percentage of the form lies beside a tie, and the special score, as it is stored, has one decimal
or fills the form up to 100. -/
structure PreviewFits (general specialized : Rat × Rat) (rules : Rules) (bonusValue : Rat) : Prop where
  generalExact : RoundsExactly (exactPct general)
  specializedExact : RoundsExactly (exactPct specialized)
  meanExact : RoundsExactly (exactMean (presentSections general specialized rules))
  bonusFits : 100 - formScore general specialized rules ≤ bonusValue ∨ IsDecimal 1 (numeric 2 bonusValue)

/-- The numbers on the page are those of the result. -/
structure PreviewAgrees (config : AppConfig) (bonusValue : Rat) (bonusReason : String) (p : ScorePreview)
    (result : Result) : Prop where
  general : p.generalPct = result.generalScorePct
  specialized : p.specializedPct = result.specializedScorePct
  form : p.finalPct = result.baseWeightedPct
  final : ringValue config bonusValue bonusReason p = result.finalWeightedPct

theorem bonusError_eq_none {config : AppConfig} {bonusValue : Rat} {bonusReason : String}
    (h : bonusError config bonusValue bonusReason = none) :
    0 ≤ bonusValue ∧ bonusValue ≤ config.bonusMaxPoints := by
  unfold bonusError at h
  split at h
  · cases h
  next hnonneg =>
    split at h
    · cases h
    next hmaximum => exact ⟨not_lt.mp hnonneg, not_lt.mp hmaximum⟩

/-- The special score on the ring, whether or not the rules have one. -/
theorem previewBonus_eq {config : AppConfig} {bonusValue : Rat} {bonusReason : String}
    (h : bonusError config bonusValue bonusReason = none) (p : ScorePreview) :
    previewBonus config bonusValue bonusReason p = ScoreForm.appliedBonus bonusValue config p.finalPct := by
  unfold previewBonus showBonus
  by_cases hmaximum : 0 < config.bonusMaxPoints
  · rw [if_pos ⟨decide_eq_true hmaximum, h⟩]
  · obtain ⟨hnonneg, hle⟩ := bonusError_eq_none h
    have hzero : config.bonusMaxPoints = 0 := le_antisymm (not_lt.mp hmaximum) (hnonneg.trans hle)
    have hbonus : bonusValue = 0 := le_antisymm (hle.trans hzero.le) hnonneg
    rw [if_neg fun hshow => hmaximum (of_decide_eq_true hshow.1)]
    unfold ScoreForm.appliedBonus
    have hround : mathRound (0 * 100) = 0 := by decide +kernel
    rw [hbonus, hzero, min_self, max_eq_left (min_le_left _ _)]
    dsimp only
    rw [hround]
    norm_num

theorem previewAgrees_iff {rows : List EvaluationScore} {bonusValue stored : Rat} {bonusReason : String}
    (hbonus : bonusError (AppConfig.fromRules rules) bonusValue bonusReason = none)
    (hstored : stored = numeric 2 bonusValue) :
    PreviewAgrees (AppConfig.fromRules rules) bonusValue bonusReason
        (previewOf (sectionSums rows indicators rules .general)
          (sectionSums rows indicators rules .specialized) rules)
        (computeResult rows indicators rules stored) ↔
      PreviewFits (sectionSums rows indicators rules .general)
        (sectionSums rows indicators rules .specialized) rules bonusValue := by
  unfold computeResult
  generalize sectionSums rows indicators rules .general = general
  generalize sectionSums rows indicators rules .specialized = specialized
  have hgeneral : (previewOf general specialized rules).generalPct = sectionPct general ↔
      RoundsExactly (exactPct general) := by
    rw [sectionPct_eq]
    exact round1_eq_iff _
  have hspecialized : (previewOf general specialized rules).specializedPct = sectionPct specialized ↔
      RoundsExactly (exactPct specialized) := by
    rw [sectionPct_eq]
    exact round1_eq_iff _
  have hbase : basePct (presentSections general specialized rules) = formScore general specialized rules :=
    basePct_eq _
  obtain ⟨hnonneg, hmaximum⟩ := bonusError_eq_none hbonus
  have hdec : IsDecimal 1 (formScore general specialized rules) := roundTo_isDecimal 1 _
  have hring : ∀ p : ScorePreview, p.finalPct = formScore general specialized rules →
      (ringValue (AppConfig.fromRules rules) bonusValue bonusReason p =
        roundTo 1 (formScore general specialized rules +
          appliedBonus stored rules (formScore general specialized rules)) ↔
        100 - formScore general specialized rules ≤ bonusValue ∨ IsDecimal 1 (numeric 2 bonusValue)) := by
    intro p hp
    unfold ringValue
    rw [previewBonus_eq hbonus, hp, hstored]
    exact ring_eq_final_iff hdec hnonneg hmaximum
  constructor
  · rintro ⟨hg, hs, hm, hf⟩
    have hform := hm.trans hbase
    have hmean : (previewOf general specialized rules).finalPct = _ := finalPct_previewOf hg hs
    refine ⟨hgeneral.mp hg, hspecialized.mp hs, (round1_eq_iff _).mp (hmean.symm.trans hform), ?_⟩
    rw [← hring _ hform, hf, ← hbase]
  · rintro ⟨hg, hs, hm, hb⟩
    have hg := hgeneral.mpr hg
    have hs := hspecialized.mpr hs
    have hform := (finalPct_previewOf hg hs).trans ((round1_eq_iff _).mpr hm)
    refine ⟨hg, hs, hform.trans hbase.symm, ?_⟩
    rw [(hring _ hform).mpr hb, ← hbase]

end

/-! ## The submitted form -/

/-- The record holds what the form shows, the special score in the two decimals of its column. -/
structure Saved (r : EvaluationRecord) (drafts : List ScoreDraft) (bonusValue : Rat) : Prop where
  scores : r.scores = scoredRows drafts
  bonus : r.bonusPoints.getD 0 = numeric 2 bonusValue

/-- The rules of the record as the page has them. -/
def configOf (db : Database) (r : EvaluationRecord) : AppConfig := AppConfig.fromRules (rulesForRecord db r)

/-- A complete form with a special score that it takes was saved, and the server submitted the record. -/
structure FormSubmitted (db : Database) (env : Env) (user : CurrentUser) (r : EvaluationRecord)
    (caseIndicators : List Indicator) (drafts : List ScoreDraft) (bonusValue : Rat) (bonusReason : String)
    (r' : EvaluationRecord) : Prop where
  indicators : ∀ i, i ∈ caseIndicators ↔ i ∈ indicatorsForRecord db r
  asked : ∀ d ∈ drafts, ∃ i ∈ caseIndicators, i.id = d.indicatorId
  complete : isScored drafts = true
  bonusTaken : bonusError (configOf db r) bonusValue bonusReason = none
  saved : Saved r drafts bonusValue
  submitted : ∃ w, submitEvaluation db env user r = .ok w ∧ w.record = r'

/-- The page shows the percentages that the record has, and the ring its result. -/
structure PreviewIsOfficial (config : AppConfig) (bonusValue : Rat) (bonusReason : String)
    (p : ScorePreview) (r' : EvaluationRecord) : Prop where
  general : r'.generalScorePct = some p.generalPct
  specialized : r'.specializedScorePct = some p.specializedPct
  form : r'.baseWeightedPct = some p.finalPct
  final : r'.finalWeightedPct = some (ringValue config bonusValue bonusReason p)

section

variable {db : Database} {env : Env} {user : CurrentUser} {r r' : EvaluationRecord}
  {caseIndicators : List Indicator} {drafts : List ScoreDraft} {bonusValue : Rat} {bonusReason : String}

/-- The two requests of the form lead to a saved record. -/
theorem saved_of_requests {reason : Option String} {w₁ w₂ : Work}
    (hscores : upsertScores db env user r (scoredRows drafts) = .ok w₁)
    (hbonus : setSpecialScore db env user w₁.record bonusValue reason = .ok w₂) :
    Saved w₂.record drafts bonusValue := by
  unfold upsertScores at hscores
  simp only [bind_eq_ok, ensure_eq_ok, pure_eq_ok] at hscores
  obtain ⟨-, -, -, -, rfl⟩ := hscores
  unfold setSpecialScore at hbonus
  simp only [bind_eq_ok, ensure_eq_ok] at hbonus
  obtain ⟨-, -, hbonus⟩ := hbonus
  split at hbonus
  · cases hbonus
  · cases hbonus
    exact ⟨rfl, rfl⟩

theorem sameIndicators (h : ∀ i, i ∈ caseIndicators ↔ i ∈ indicatorsForRecord db r) :
    SameIndicators caseIndicators (indicatorsForRecord db r) := by
  refine ⟨h, ?_⟩
  intro i hi j hj hid
  exact Table.eq_of_id_eq (List.mem_filter.mp hi).1 (List.mem_filter.mp hj).1 hid

theorem draftsAsked (h : FormSubmitted db env user r caseIndicators drafts bonusValue bonusReason r') :
    DraftsAsked (indicatorsForRecord db r) drafts ∧ drafts ≠ [] := by
  have hcomplete := h.complete
  unfold isScored at hcomplete
  rw [Bool.and_eq_true, List.all_eq_true] at hcomplete
  refine ⟨?_, ?_⟩
  · intro d hd
    obtain ⟨i, hi, hid⟩ := h.asked d hd
    exact ⟨hcomplete.2 d hd, i, (h.indicators i).mp hi, hid⟩
  · rintro rfl
    cases hcomplete.1

/-- The sums of a section over the rows of the record. -/
def recordSums (db : Database) (r : EvaluationRecord) («section» : IndicatorSection) : Rat × Rat :=
  sectionSums r.scores (indicatorsForRecord db r) (rulesForRecord db r) «section»

/-- On every submitted form, the numbers of the page are those of the record exactly when they fit. -/
theorem preview_is_official_iff
    (h : FormSubmitted db env user r caseIndicators drafts bonusValue bonusReason r') :
    ∃ p, computePreview drafts caseIndicators (configOf db r) = some p ∧
      (PreviewIsOfficial (configOf db r) bonusValue bonusReason p r' ↔
        PreviewFits (recordSums db r .general) (recordSums db r .specialized) (rulesForRecord db r)
          bonusValue) := by
  obtain ⟨hasked, hne⟩ := draftsAsked h
  obtain ⟨w, hsubmit, hrecord⟩ := h.submitted
  obtain ⟨status, hresult⟩ := submitEvaluation_result hsubmit
  rw [hrecord] at hresult
  have hagrees : PreviewAgrees (configOf db r) bonusValue bonusReason
      (previewOf (recordSums db r .general) (recordSums db r .specialized) (rulesForRecord db r))
      (resultFor db r) ↔ _ := previewAgrees_iff h.bonusTaken h.saved.bonus
  refine ⟨_, computePreview_eq (sameIndicators h.indicators) hasked hne, ?_⟩
  rw [← h.saved.scores]
  refine Iff.trans ?_ hagrees
  rw [hresult]
  constructor
  · rintro ⟨hg, hs, hm, hf⟩
    exact ⟨(Option.some.inj hg).symm, (Option.some.inj hs).symm, (Option.some.inj hm).symm,
      (Option.some.inj hf).symm⟩
  · rintro ⟨hg, hs, hm, hf⟩
    exact ⟨congrArg some hg.symm, congrArg some hs.symm, congrArg some hm.symm, congrArg some hf.symm⟩

end

/-! ## A special score with one decimal -/

def praise : String := "beyond the job"

/-- The drafts of the form of one question. -/
def oneDraft : List ScoreDraft := [⟨1, some 4, ""⟩]

/-- The office after its scorer saved the form with a special score. -/
def officeWithForm (bonusPoints : Rat) : Database :=
  endState settled (office fullChain)
    [ask 1 (.onRecord 1 (.setSpecialScore bonusPoints (some praise))),
      ask 1 (.onRecord 1 (.upsertScores (scoredRows oneDraft))), ask 1 (.createEvaluation 1)]

def scorer : CurrentUser := (account 1 "supervisor" .unitSupervisor).toCurrent

/-- What the record of the saved form holds, and what its submission stores. -/
def formChecks (bonusPoints final : Rat) (r : EvaluationRecord) : Bool :=
  decide (r.scores = scoredRows oneDraft) && decide (r.bonusPoints.getD 0 = numeric 2 bonusPoints) &&
    decide (indicatorsForRecord (officeWithForm bonusPoints) r = [question]) &&
    decide (bonusError (configOf (officeWithForm bonusPoints) r) bonusPoints praise = none) &&
    decide (computePreview oneDraft [question] (configOf (officeWithForm bonusPoints) r) =
      some ⟨80, 0, 80⟩) &&
    (submitEvaluation (officeWithForm bonusPoints) someDay scorer r).toOption.any fun w =>
      w.record.finalWeightedPct = some final

theorem formSubmitted_of_checks {bonusPoints final : Rat} {r : EvaluationRecord}
    (h : formChecks bonusPoints final r = true) :
    computePreview oneDraft [question] (configOf (officeWithForm bonusPoints) r) = some ⟨80, 0, 80⟩ ∧
      ∃ r', FormSubmitted (officeWithForm bonusPoints) someDay scorer r [question] oneDraft bonusPoints
        praise r' ∧ r'.finalWeightedPct = some final := by
  unfold formChecks at h
  simp only [Bool.and_eq_true, decide_eq_true_eq] at h
  obtain ⟨⟨⟨⟨⟨hscores, hbonus⟩, hindicators⟩, htaken⟩, hpreview⟩, hsubmit⟩ := h
  refine ⟨hpreview, ?_⟩
  cases hw : submitEvaluation (officeWithForm bonusPoints) someDay scorer r with
  | error e =>
    rw [hw] at hsubmit
    cases hsubmit
  | ok w =>
    rw [hw] at hsubmit
    refine ⟨w.record, ⟨?_, by decide, by decide, htaken, ⟨hscores, hbonus⟩, w, hw, rfl⟩, ?_⟩
    · rw [hindicators]
      exact fun i => Iff.rfl
    · exact of_decide_eq_true hsubmit

theorem half_point_is_official : ∃ r ∈ (officeWithForm (5 / 2)).evaluationRecords, ∃ r' p,
    computePreview oneDraft [question] (configOf (officeWithForm (5 / 2)) r) = some p ∧
      PreviewIsOfficial (configOf (officeWithForm (5 / 2)) r) (5 / 2) praise p r' := by
  obtain ⟨r, hget, hr⟩ := exists_of_any (o := (officeWithForm (5 / 2)).evaluationRecords.get? 1)
    (p := fun r => formChecks (5 / 2) (165 / 2) r &&
      decide (recordSums (officeWithForm (5 / 2)) r .general = (4, 5)) &&
      decide (recordSums (officeWithForm (5 / 2)) r .specialized = (0, 0)) &&
      decide (exactMean (presentSections (4, 5) (0, 0) (rulesForRecord (officeWithForm (5 / 2)) r)) = 80))
    (by decide +kernel)
  simp only [Bool.and_eq_true, decide_eq_true_eq] at hr
  obtain ⟨⟨⟨hchecks, hgeneral⟩, hspecialized⟩, hmean⟩ := hr
  obtain ⟨-, r', hform, -⟩ := formSubmitted_of_checks hchecks
  obtain ⟨p, hp, hiff⟩ := preview_is_official_iff hform
  refine ⟨r, Table.mem_of_get? hget, r', p, hp, hiff.mpr ?_⟩
  rw [hgeneral, hspecialized]
  refine ⟨roundsExactly_of_isDecimal ⟨800, by norm_num [exactPct]⟩,
    roundsExactly_of_isDecimal ⟨0, by norm_num [exactPct]⟩, ?_, Or.inr ⟨25, by decide +kernel⟩⟩
  rw [hmean]
  exact roundsExactly_of_isDecimal ⟨800, by norm_num⟩

/-- The ring shows 80.25, and the record is given 80.2. -/
theorem quarter_point_is_not_official :
    ¬∀ db env user r caseIndicators drafts bonusValue bonusReason r',
      FormSubmitted db env user r caseIndicators drafts bonusValue bonusReason r' →
      ∃ p, computePreview drafts caseIndicators (configOf db r) = some p ∧
        PreviewIsOfficial (configOf db r) bonusValue bonusReason p r' := by
  intro hclaim
  obtain ⟨r, -, hr⟩ := exists_of_any (o := (officeWithForm (1 / 4)).evaluationRecords.get? 1)
    (p := fun r => formChecks (1 / 4) (401 / 5) r &&
      decide (ringValue (configOf (officeWithForm (1 / 4)) r) (1 / 4) praise ⟨80, 0, 80⟩ = 321 / 4))
    (by decide +kernel)
  rw [Bool.and_eq_true, decide_eq_true_eq] at hr
  obtain ⟨hpreview, r', hform, hfinal⟩ := formSubmitted_of_checks hr.1
  obtain ⟨p, hp, hofficial⟩ := hclaim _ _ _ _ _ _ _ _ _ hform
  rw [hpreview] at hp
  cases hp
  have hring := hofficial.final
  rw [hr.2, hfinal] at hring
  have hvalue := Option.some.inj hring
  norm_num at hvalue

end NexaHR
