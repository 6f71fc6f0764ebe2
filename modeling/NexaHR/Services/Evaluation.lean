import NexaHR.Core.Texts
import NexaHR.Services.ScoringScheme
import NexaHR.Services.Workflow

/-! # Scoring

`services/evaluation.py`: the evidence rule, the special score, the result of a scored form, and
the guards about who sits in a chain.

* `validateEvidence`, `validateBonus`: the messages of a refused form.
* `computeResult`: the percentages, the applied special score and the recommendation.
* `inactiveSeatLabels`, `ensureNoOpenChainSeat`: dead seats, and seats that must not die.
-/

namespace NexaHR

open Foundations

set_option autoImplicit false

/-! ## Seats -/

/-- The filled seats whose user is gone or inactive. -/
def inactiveSeatLabels (db : Database) (chain : Chain) : List String :=
  seatOrder.filterMap fun seat =>
    match chain.seat seat with
    | none => none
    | some userId =>
      if (db.users.get? userId).any User.isActive then none else some (seatLabel seat)

def seatsOnRecord : List (String × SeatField) :=
  [(seatLabel .unitSupervisor, .chain .unitSupervisor), (seatLabel .deputy, .chain .deputy),
    (seatLabel .ceo, .chain .ceo), (hrLabel, .hr)]

structure OccupiedSeat where
  recordId : Nat
  code : String
  label : String
  shielded : Bool
  deputyUserId : Option Nat
  ceoUserId : Nat
  deriving DecidableEq

/-- The seats of open records that a user fills. -/
def occupiedSeatsInOpenRecords (db : Database) (userId : Nat) : List OccupiedSeat :=
  (db.evaluationRecords.rows.filter EvaluationRecord.isOpen).flatMap fun r =>
    (seatsOnRecord.filter fun row => r.seat row.2 = some userId).map fun row =>
      { recordId := r.id
        code := r.evaluationCode
        label := row.1
        shielded := r.hrPanelIsShielded
        deputyUserId := r.chain.deputyUserId
        ceoUserId := r.chain.ceoUserId }

def ensureNoOpenChainSeat (db : Database) (userId : Nat) (action : String) :
    Except HTTPException Unit :=
  let seats := occupiedSeatsInOpenRecords db userId
  let listed := "، ".intercalate ((seats.take 5).map fun seat => seat.code ++ " (" ++ seat.label ++ ")")
  let more := if 5 < seats.length then " و " ++ toString (seats.length - 5) ++ " مورد دیگر" else ""
  ensure (seats = [])
    ⟨409, action ++ " ممکن نیست: این کاربر در " ++ toString seats.length ++ " پروندهٔ باز مسئولِ " ++
      "مرحله است — " ++ listed ++ more ++ ". اول با «تغییر مسئول مرحله» جایگزینش " ++ "کنید.", none⟩

theorem mem_seatsOnRecord (field : SeatField) : ∃ label, (label, field) ∈ seatsOnRecord := by
  match field with
  | .chain .unitSupervisor => exact ⟨_, List.mem_cons_self⟩
  | .chain .deputy => exact ⟨_, List.mem_cons_of_mem _ List.mem_cons_self⟩
  | .chain .ceo => exact ⟨seatLabel .ceo, by simp [seatsOnRecord]⟩
  | .hr => exact ⟨hrLabel, by simp [seatsOnRecord]⟩

theorem inactiveSeatLabels_eq_nil {db : Database} {chain : Chain}
    (h : inactiveSeatLabels db chain = []) {seat : ChainSeat} {userId : Nat}
    (hs : chain.seat seat = some userId) : ∃ u, db.users.get? userId = some u ∧ u.isActive = true := by
  have hnone := List.filterMap_eq_nil_iff.mp h seat (mem_seatOrder seat)
  rw [hs] at hnone
  simp only [ite_eq_left_iff, reduceCtorEq, imp_false, not_not] at hnone
  cases hu : db.users.get? userId with
  | none => simp [hu] at hnone
  | some u =>
    rw [hu] at hnone
    exact ⟨u, rfl, hnone⟩

/-- A user without an occupied seat fills no seat of an open record. -/
theorem ensureNoOpenChainSeat_ok {db : Database} {userId : Nat} {action : String} {x : Unit}
    (h : ensureNoOpenChainSeat db userId action = .ok x) {r : EvaluationRecord}
    (hr : r ∈ db.evaluationRecords) (hopen : r.isOpen = true) (field : SeatField) :
    r.seat field ≠ some userId := by
  unfold ensureNoOpenChainSeat at h
  rw [ensure_eq_ok] at h
  intro hs
  obtain ⟨label, hl⟩ := mem_seatsOnRecord field
  have hflat := List.flatMap_eq_nil_iff.mp h r (List.mem_filter.mpr ⟨hr, hopen⟩)
  have hmap := List.map_eq_nil_iff.mp hflat
  have hno := List.filter_eq_nil_iff.mp hmap (label, field) hl
  simp [hs] at hno

/-! ## The evidence rule -/

/-- Words among the characters that are left; `inside` says that the last one read is in a word. -/
def countWords : List Char → Bool → Nat
  | [], _ => 0
  | c :: cs, inside =>
    if isSpace c then countWords cs false
    else if inside then countWords cs true
    else countWords cs true + 1

def wordCount (text : Option String) : Nat :=
  match text with
  | none => 0
  | some s => countWords s.toList false

def indicatorLabel (indicators : List Indicator) (indicatorId : Nat) : String :=
  match indicators.find? fun i => i.id = indicatorId with
  | some indicator => indicator.category
  | none => "شاخص #" ++ toString indicatorId

def tooShort (indicators : List Indicator) (rules : Rules) (row : EvaluationScore) : Option String :=
  let count := wordCount row.evidenceText
  if row.score ∈ rules.evidenceRequiredScores ∧ count < rules.evidenceMinWords then
    some ("«" ++ indicatorLabel indicators row.indicatorId ++ "» (حداقل " ++
      fa rules.evidenceMinWords ++ " کلمه لازم است، " ++ "در حال حاضر: " ++ fa count ++ " کلمه)")
  else none

def tooLong (indicators : List Indicator) (rules : Rules) (row : EvaluationScore) : Option String :=
  let count := wordCount row.evidenceText
  if rules.evidenceMaxWords < count then
    some ("«" ++ indicatorLabel indicators row.indicatorId ++ "» (حداکثر " ++
      fa rules.evidenceMaxWords ++ " کلمه مجاز است، " ++ "در حال حاضر: " ++ fa count ++ " کلمه)")
  else none

/-- `validate_evidence`: the message of the refusal, `none` when the evidence is accepted. -/
def validateEvidence (scores : List EvaluationScore) (indicators : List Indicator) (rules : Rules) :
    Option String :=
  let violations := scores.filterMap (tooShort indicators rules)
  let tooLong := scores.filterMap (tooLong indicators rules)
  let messages :=
    (if violations = [] then [] else
      ["شواهد عینی برای شاخص‌های زیر ناقص است: " ++ "؛ ".intercalate violations]) ++
    (if tooLong = [] then [] else
      ["شواهد عینی برای شاخص‌های زیر بیش از حد طولانی است: " ++ "؛ ".intercalate tooLong])
  if messages = [] then none else some (" | ".intercalate messages)

/-! ## The special score -/

def bonusReasonMin : Nat := 10

/-- `validate_bonus`: the message of the refusal. -/
def validateBonus (bonusPoints : Rat) (bonusReason : Option String) (rules : Rules) : Option String :=
  if bonusPoints < 0 then some "امتیاز ویژه نمی‌تواند منفی باشد"
  else if 0 < bonusPoints ∧ rules.bonusMaxPoints ≤ 0 then
    some "امتیاز ویژه در طرح نمره‌دهی این پرونده فعال نیست"
  else if rules.bonusMaxPoints < bonusPoints then
    some ("امتیاز ویژه حداکثر می‌تواند " ++ fa rules.bonusMaxPoints ++ " باشد " ++
      "(مقدار واردشده: " ++ fa bonusPoints ++ ")")
  else if 0 < bonusPoints ∧ (strip (bonusReason.getD "")).length < bonusReasonMin then
    some ("توضیح امتیاز ویژه باید حداقل " ++ fa bonusReasonMin ++ " نویسه باشد")
  else none

/-- The special score that takes effect: capped by the rules and by the distance to 100. -/
def appliedBonus (raw : Rat) (rules : Rules) (basePct : Rat) : Rat :=
  roundTo 2 (max 0 (min (min raw rules.bonusMaxPoints) (100 - basePct)))

/-! ## The result -/

structure Result where
  generalScorePct : Rat
  specializedScorePct : Rat
  baseWeightedPct : Rat
  bonusPoints : Rat
  finalWeightedPct : Rat
  recommendation : String
  schemeVersion : Option Nat
  deriving DecidableEq

/-- A score row belongs to a section when its indicator does. -/
def inSection (indicators : List Indicator) («section» : IndicatorSection) (row : EvaluationScore) :
    Bool :=
  indicators.any fun i => i.id = row.indicatorId && i.section = «section»

/-- The weighted points of a section and their maximum. -/
def sectionSums (scores : List EvaluationScore) (indicators : List Indicator) (rules : Rules)
    («section» : IndicatorSection) : Rat × Rat :=
  let rows := scores.filter (inSection indicators «section»)
  ((rows.map fun row => (row.score : Rat) * rules.weightFor row.indicatorId).sum,
    (rows.map fun row => 5 * rules.weightFor row.indicatorId).sum)

def sectionPct (sums : Rat × Rat) : Rat :=
  if sums.2 = 0 then 0 else roundTo 1 (sums.1 / sums.2 * 100)

/-- The sections that the form has, each with its percentage and weight. -/
def presentSections (general specialized : Rat × Rat) (rules : Rules) : List (Rat × Rat) :=
  (if general.2 = 0 then [] else [(sectionPct general, rules.generalSectionWeight)]) ++
  (if specialized.2 = 0 then [] else [(sectionPct specialized, rules.specializedSectionWeight)])

/-- The weight of a missing section goes to the other one; without any weight it is the mean. -/
def basePct (present : List (Rat × Rat)) : Rat :=
  let weightSum := (present.map Prod.snd).sum
  if present = [] then 0
  else if 0 < weightSum then roundTo 1 ((present.map fun row => row.1 * row.2).sum / weightSum)
  else roundTo 1 ((present.map Prod.fst).sum / present.length)

def computeResult (scores : List EvaluationScore) (indicators : List Indicator) (rules : Rules)
    (bonusPoints : Rat) : Result :=
  let general := sectionSums scores indicators rules .general
  let specialized := sectionSums scores indicators rules .specialized
  let base := basePct (presentSections general specialized rules)
  let applied := appliedBonus bonusPoints rules base
  let final := roundTo 1 (base + applied)
  { generalScorePct := sectionPct general
    specializedScorePct := sectionPct specialized
    baseWeightedPct := base
    bonusPoints := applied
    finalWeightedPct := final
    recommendation := rules.recommendationFor final
    schemeVersion := rules.version }

end NexaHR
