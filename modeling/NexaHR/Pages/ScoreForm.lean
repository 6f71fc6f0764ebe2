import NexaHR.Core.Texts
import NexaHR.Services.Evaluation

/-! # The scoring form

`components/ScoreForm.tsx`, `utils/rounding.ts` and the scoring part of `pages/EvaluationDetailPage.tsx`:
the drafts on the evaluator's screen, the preview of their result, and the ring beside it. Numbers are
exact rationals.

* `round1`: the rounding of the preview.
* `AppConfig`: the rules as the API sends them.
* `ScoreDraft`, `scoredRows`: the drafts, and the rows that are sent of them.
* `computePreview`: the percentages of the form.
* `bonusError`, `previewBonus`, `ringValue`: the special score beside them.
-/

namespace NexaHR.ScoreForm

set_option autoImplicit false

/-! ## Rounding -/

/-- `toFixed(20)` of a number that is not negative: the integer that its digits write. -/
def toFixed20 (value : Rat) : Int := (value * 10 ^ 20 + 1 / 2).floor

/-- The digits are read one by one: the kept ones, and the tail after them. -/
def round1 (value : Rat) : Rat :=
  let digits := toFixed20 |value|
  let kept := digits / 10 ^ 19
  let tail := digits % 10 ^ 19
  let scaled : Int :=
    if tail = 5 * 10 ^ 18 then (if kept % 2 ≠ 0 then kept + 1 else kept)
    else if 5 * 10 ^ 18 < tail then kept + 1
    else kept
  let result : Rat := (scaled : Rat) / 10
  if value < 0 then -result else result

/-- `Math.round`. -/
def mathRound (value : Rat) : Int := (value + 1 / 2).floor

/-! ## The rules -/

structure AppConfig where
  generalSectionWeight : Rat
  specializedSectionWeight : Rat
  bonusMaxPoints : Rat
  bonusReasonMinLength : Nat
  indicatorWeights : List (Nat × Rat)

/-- The fields of `from_rules` that the form computes with. -/
def AppConfig.fromRules (rules : Rules) : AppConfig where
  generalSectionWeight := rules.generalSectionWeight
  specializedSectionWeight := rules.specializedSectionWeight
  bonusMaxPoints := rules.bonusMaxPoints
  bonusReasonMinLength := bonusReasonMin
  indicatorWeights := rules.indicatorWeights

/-! ## The drafts -/

/-- No score means that none was chosen yet. -/
structure ScoreDraft where
  indicatorId : Nat
  score : Option Nat
  evidenceText : String
  deriving DecidableEq

/-- The rows that are sent: of the scored indicators only, without empty evidence. -/
def scoredRows (drafts : List ScoreDraft) : List EvaluationScore :=
  drafts.filterMap fun d =>
    d.score.map fun score =>
      { indicatorId := d.indicatorId
        score := score
        evidenceText := if d.evidenceText = "" then none else some d.evidenceText }

/-- The form has drafts, and each is scored. -/
def isScored (drafts : List ScoreDraft) : Bool :=
  !drafts.isEmpty && drafts.all fun d => d.score.isSome

/-! ## The preview -/

structure ScorePreview where
  generalPct : Rat
  specializedPct : Rat
  finalPct : Rat
  deriving DecidableEq

structure Sums where
  generalSum : Rat
  generalMax : Rat
  specializedSum : Rat
  specializedMax : Rat

/-- The later of two indicators with one key wins. -/
def sectionById (indicators : List Indicator) (indicatorId : Nat) : Option IndicatorSection :=
  (indicators.reverse.find? fun i => i.id = indicatorId).map Indicator.section

def weightOf (config : AppConfig) (indicatorId : Nat) : Rat :=
  (config.indicatorWeights.lookup indicatorId).getD 1

/-- The body of the loop over the drafts. -/
def addDraft (indicators : List Indicator) (config : AppConfig) (sums : Sums) (d : ScoreDraft) : Sums :=
  let s : Rat := (d.score.getD 0 : Nat)
  let w := weightOf config d.indicatorId
  if sectionById indicators d.indicatorId = some .general then
    { sums with generalSum := sums.generalSum + s * w, generalMax := sums.generalMax + 5 * w }
  else
    { sums with specializedSum := sums.specializedSum + s * w, specializedMax := sums.specializedMax + 5 * w }

def pctOf (sum max : Rat) : Rat := if max ≠ 0 then round1 (sum / max * 100) else 0

/-- The sections that the form has, each with its percentage and weight. -/
def presentOf (sums : Sums) (general specialized : Rat) (config : AppConfig) : List (Rat × Rat) :=
  (if sums.generalMax ≠ 0 then [(general, config.generalSectionWeight)] else []) ++
  (if sums.specializedMax ≠ 0 then [(specialized, config.specializedSectionWeight)] else [])

def finalOf (present : List (Rat × Rat)) : Rat :=
  let weightSum := present.foldl (fun sum row => sum + row.2) 0
  if present.length = 0 then 0
  else if 0 < weightSum then round1 (present.foldl (fun sum row => sum + row.1 * row.2) 0 / weightSum)
  else round1 (present.foldl (fun sum row => sum + row.1) 0 / present.length)

def computePreview (drafts : List ScoreDraft) (indicators : List Indicator) (config : AppConfig) :
    Option ScorePreview :=
  if drafts = [] ∨ drafts.any (fun d => d.score.isNone) = true then none
  else
    let sums := drafts.foldl (addDraft indicators config) ⟨0, 0, 0, 0⟩
    let general := pctOf sums.generalSum sums.generalMax
    let specialized := pctOf sums.specializedSum sums.specializedMax
    some
      { generalPct := general
        specializedPct := specialized
        finalPct := finalOf (presentOf sums general specialized config) }

/-! ## The special score -/

/-- `trim().length`, in UTF-16 units. -/
def trimmedLength (s : String) : Nat :=
  let inner := ((s.toList.dropWhile isJsSpace).reverse.dropWhile isJsSpace).reverse
  (inner.map fun c => if c.toNat < 0x10000 then 1 else 2).sum

inductive BonusError
  | notPositive
  | aboveMaximum (maximum : Rat)
  | reasonTooShort (minimum : Nat)
  deriving DecidableEq

/-- Why the form does not take the special score, of which the page writes the message. -/
def bonusError (config : AppConfig) (bonusValue : Rat) (bonusReason : String) : Option BonusError :=
  if bonusValue < 0 then some .notPositive
  else if config.bonusMaxPoints < bonusValue then some (.aboveMaximum config.bonusMaxPoints)
  else if 0 < bonusValue ∧ trimmedLength bonusReason < config.bonusReasonMinLength then
    some (.reasonTooShort config.bonusReasonMinLength)
  else none

def appliedBonus (raw : Rat) (config : AppConfig) (basePct : Rat) : Rat :=
  let capped := max 0 (min (min raw config.bonusMaxPoints) (100 - basePct))
  (mathRound (capped * 100) : Rat) / 100

/-- The form of the scorer always has the comment, so it shows the special score when the rules have one. -/
def showBonus (config : AppConfig) : Bool := 0 < config.bonusMaxPoints

def previewBonus (config : AppConfig) (bonusValue : Rat) (bonusReason : String) (preview : ScorePreview) :
    Rat :=
  if showBonus config = true ∧ bonusError config bonusValue bonusReason = none then
    appliedBonus bonusValue config preview.finalPct
  else 0

/-- What the ring shows. -/
def ringValue (config : AppConfig) (bonusValue : Rat) (bonusReason : String) (preview : ScorePreview) :
    Rat :=
  preview.finalPct + previewBonus config bonusValue bonusReason preview

end NexaHR.ScoreForm

namespace NexaHR.Rounding

/-! ## The rounding, digit by digit

The page writes a number with twenty decimals and reads the digits. Texts are lists of characters here. -/

/-- The digits of a number, at least `digits + 1` of them. -/
def fixedDigits (digits n : Nat) : List Char :=
  let text := Nat.toDigits 10 n
  List.replicate (digits + 1 - text.length) '0' ++ text

/-- `toFixed` of a number that is not negative and below `10 ^ 21`. Of two decimals that are equally near the
larger one is written. -/
def toFixed (digits : Nat) (value : Rat) : List Char :=
  let text := fixedDigits digits (value * 10 ^ digits + 1 / 2).floor.toNat
  text.take (text.length - digits) ++ '.' :: text.drop (text.length - digits)

/-- The two parts of `split(".")`; without a point the second one is empty. -/
def splitAtPoint (text : List Char) : List Char × List Char :=
  (text.takeWhile (· ≠ '.'), (text.dropWhile (· ≠ '.')).drop 1)

def digitsValue (text : List Char) : Nat := Nat.ofDigitChars 10 text 0

/-- Texts are compared character by character. -/
def tenths (value : Rat) : Int :=
  let parts := splitAtPoint (toFixed 20 |value|)
  let kept := if parts.2.take 1 = [] then ['0'] else parts.2.take 1
  let scaled : Int := digitsValue parts.1 * 10 + digitsValue kept
  let tail := dropTrailingZeros (parts.2.drop 1)
  if tail = ['5'] then (if scaled % 2 ≠ 0 then scaled + 1 else scaled)
  else if ['5'] < tail then scaled + 1
  else scaled

def round1 (value : Rat) : Rat :=
  let result : Rat := (tenths value : Rat) / 10
  if value < 0 then -result else result

end NexaHR.Rounding
