import NexaHR.Core.Numbers
import NexaHR.Models.Database

/-! # The scoring rules

`services/scoring_scheme.py` and the input schema of a scheme: the rules as the scoring engine
sees them, which rules a record is scored with, and how a scheme becomes the active one.
-/

namespace NexaHR

open Foundations

set_option autoImplicit false

/-! ## Rules -/

structure Rules where
  generalSectionWeight : Rat
  specializedSectionWeight : Rat
  evidenceRequiredScores : List Nat
  evidenceMinWords : Nat
  evidenceMaxWords : Nat
  thresholds : List (Rat × String)
  thresholds_ne : thresholds ≠ []
  indicatorWeights : List (Nat × Rat)
  version : Option Nat := none
  bonusMaxPoints : Rat
  improvementPlanMaxPct : Rat

namespace Rules

def weightFor (rules : Rules) (indicatorId : Nat) : Rat :=
  (rules.indicatorWeights.lookup indicatorId).getD 1

/-- The label of the first band above the result, else of the last band. -/
def recommendationFor (rules : Rules) (finalPct : Rat) : String :=
  match rules.thresholds.find? fun band => finalPct < band.1 with
  | some band => band.2
  | none => (rules.thresholds.getLast rules.thresholds_ne).2

end Rules

def finalResultThresholds : List (Rat × String) :=
  [(60, "عدم تمدید / بازنگری اساسی شرایط همکاری"), (75, "تمدید مشروط به برنامه بهبود مکتوب"),
    (90, "تمدید با شرایط استاندارد"), (101, "تمدید با امتیاز ویژه/ارتقاء")]

def legacyRules : Rules where
  generalSectionWeight := 3 / 5
  specializedSectionWeight := 2 / 5
  evidenceRequiredScores := [1, 5]
  evidenceMinWords := 3
  evidenceMaxWords := 40
  thresholds := finalResultThresholds
  thresholds_ne := by simp [finalResultThresholds]
  indicatorWeights := []
  bonusMaxPoints := 5
  improvementPlanMaxPct := 75

def rulesFrom (scheme : ScoringScheme) : Rules where
  generalSectionWeight := scheme.generalSectionWeight
  specializedSectionWeight := scheme.specializedSectionWeight
  evidenceRequiredScores := scheme.evidenceRequiredScores
  evidenceMinWords := scheme.evidenceMinWords
  evidenceMaxWords := scheme.evidenceMaxWords
  thresholds := scheme.thresholds
  thresholds_ne := scheme.thresholds_ne
  indicatorWeights := scheme.indicatorWeights
  version := some scheme.version
  bonusMaxPoints := scheme.bonusMaxPoints
  improvementPlanMaxPct := scheme.improvementPlanMaxPct

/-! ## Which rules -/

def activeScheme (db : Database) : Option ScoringScheme :=
  db.scoringSchemes.rows.find? fun scheme => scheme.status = .active

def currentRules (db : Database) : Rules :=
  match activeScheme db with
  | some scheme => rulesFrom scheme
  | none => legacyRules

/-- The rules of the record's own scheme. -/
def rulesForRecord (db : Database) (r : EvaluationRecord) : Rules :=
  match r.scoringSchemeId.bind db.scoringSchemes.get? with
  | some scheme => rulesFrom scheme
  | none => currentRules db

theorem rulesForRecord_of_scheme {db : Database} {r : EvaluationRecord} {k : Nat}
    {scheme : ScoringScheme} (hk : r.scoringSchemeId = some k)
    (hs : db.scoringSchemes.get? k = some scheme) : rulesForRecord db r = rulesFrom scheme := by
  unfold rulesForRecord
  rw [hk, Option.bind_some, hs]

/-! ## The input of a scheme -/

structure SchemeInput where
  name : String
  generalSectionWeight : Rat
  specializedSectionWeight : Rat
  evidenceRequiredScores : List Int
  evidenceMinWords : Int
  evidenceMaxWords : Int
  bonusMaxPoints : Rat := 5
  improvementPlanMaxPct : Rat := 75
  thresholds : List (Rat × String)
  indicatorWeights : List (Nat × Rat)

def lengthError (field : String) (value : String) (maxLength : Nat) : List String :=
  if value.length = 0 then ["«" ++ field ++ "» را خالی نگذارید"]
  else if maxLength < value.length then
    ["«" ++ field ++ "» طولانی‌تر از حد مجاز است (حداکثر " ++ toString maxLength ++ " نویسه)"]
  else []

def boundError (field bound : String) : List String :=
  ["مقدار «" ++ field ++ "» خارج از بازهٔ مجاز است (مرز: " ++ bound ++ ")"]

/-- The bounds of a number field, with the way each bound is printed. -/
def rangeError (field : String) (value : Rat) (lower upper : Rat × String) : List String :=
  if value < lower.1 then boundError field lower.2
  else if upper.1 < value then boundError field upper.2
  else []

def bandErrors (band : Rat × String) : List String :=
  (if band.1 ≤ 0 then boundError "upper_exclusive" "0.0"
    else if 1000 < band.1 then boundError "upper_exclusive" "1000.0" else []) ++
  lengthError "label" band.2 200

namespace SchemeInput

/-- The errors of the single fields, in the order of the fields. -/
def fieldErrors (p : SchemeInput) : List String :=
  lengthError "name" p.name 200 ++
  rangeError "general_section_weight" p.generalSectionWeight (0, "0.0") (1, "1.0") ++
  rangeError "specialized_section_weight" p.specializedSectionWeight (0, "0.0") (1, "1.0") ++
  rangeError "evidence_min_words" p.evidenceMinWords (0, "0") (200, "200") ++
  rangeError "evidence_max_words" p.evidenceMaxWords (1, "1") (1000, "1000") ++
  rangeError "bonus_max_points" p.bonusMaxPoints (0, "0.0") (20, "20.0") ++
  rangeError "improvement_plan_max_pct" p.improvementPlanMaxPct (0, "0.0") (100, "100.0") ++
  p.thresholds.flatMap bandErrors ++
  (if p.thresholds.length < 1 ∨ 8 < p.thresholds.length then
    ["مقدار «" ++ "thresholds" ++ "» معتبر نیست"] else [])

/-- `_check`: the first rule between fields that fails. -/
def check (p : SchemeInput) : Option String :=
  let total := roundTo 6 (p.generalSectionWeight + p.specializedSectionWeight)
  let uppers := p.thresholds.map Prod.fst
  if total ≠ 1 then
    some ("مجموع وزن دو بخش باید دقیقاً ۱ باشد (الان: " ++ formatG total ++ ")؛ " ++
      "وگرنه امتیاز نهایی دیگر درصد نیست")
  else if p.evidenceRequiredScores.any fun score => decide (score < 1) || decide (5 < score) then
    some "امتیازهای نیازمند شواهد باید بین ۱ تا ۵ باشند"
  else if ¬p.evidenceRequiredScores.Nodup then some "امتیازهای نیازمند شواهد نباید تکراری باشند"
  else if p.evidenceMaxWords < p.evidenceMinWords then
    some "حداقل تعداد کلمات شواهد نمی‌تواند از حداکثر آن بیشتر باشد"
  else if ¬uppers.Pairwise (· < ·) then some "سقف پله‌های جدول نتیجه باید صعودی و بدون تکرار باشد"
  else if (uppers.getLast?.getD 0) ≤ 100 then
    some "سقف آخرین پله باید بزرگ‌تر از ۱۰۰ باشد تا امتیاز ۱۰۰ هم نتیجه بگیرد"
  else if p.indicatorWeights.any fun row => decide (row.2 ≤ 0) then
    some "وزن شاخص باید بزرگ‌تر از صفر باشد"
  else none

/-- What the validation reports; nothing when the input is accepted. -/
def errors (p : SchemeInput) : List String :=
  match p.fieldErrors with
  | [] => p.check.toList
  | e :: es => e :: es

end SchemeInput

/-- `persian_validation_message`. -/
def persianValidationMessage (errors : List String) : String :=
  if errors = [] then "ورودی نامعتبر است" else "؛ ".intercalate errors.dedup

/-! ## Activation -/

def ScoringScheme.toInput (scheme : ScoringScheme) : SchemeInput where
  name := scheme.name
  generalSectionWeight := scheme.generalSectionWeight
  specializedSectionWeight := scheme.specializedSectionWeight
  evidenceRequiredScores := scheme.evidenceRequiredScores.map Int.ofNat
  evidenceMinWords := scheme.evidenceMinWords
  evidenceMaxWords := scheme.evidenceMaxWords
  bonusMaxPoints := scheme.bonusMaxPoints
  improvementPlanMaxPct := scheme.improvementPlanMaxPct
  thresholds := scheme.thresholds
  indicatorWeights := scheme.indicatorWeights

def ensureSchemeIsValid (scheme : ScoringScheme) : Except HTTPException Unit :=
  ensure (scheme.toInput.errors = [])
    ⟨400, "این پیش‌نویس قواعدِ معتبری ندارد و فعال نمی‌شود: " ++
      persianValidationMessage scheme.toInput.errors, none⟩

/-- Every active scheme retired and one scheme made the active one. -/
def switchActive (schemeId actorUserId : Nat) (scheme : ScoringScheme) : ScoringScheme :=
  if scheme.id = schemeId then
    { scheme with status := .active, activatedByUserId := some actorUserId }
  else if scheme.status = .active then { scheme with status := .retired }
  else scheme

def activate (db : Database) (scheme : ScoringScheme) (actorUserId : Nat) :
    Except HTTPException Database := do
  ensure (scheme.status = .draft)
    ⟨400, "فقط پیش‌نویس را می‌توان فعال کرد؛ نسخهٔ فعال یا بازنشسته تغییرناپذیر است", none⟩
  ensure (scheme.createdByUserId ≠ some actorUserId)
    ⟨403, "فعال‌سازی طرح باید توسط کاربر دیگری از منابع انسانی انجام شود؛ " ++
      "سازندهٔ طرح نمی‌تواند خودش آن را فعال کند", none⟩
  ensureSchemeIsValid scheme
  pure
    { db with
      scoringSchemes := db.scoringSchemes.map (switchActive scheme.id actorUserId) (by
        intro a
        unfold switchActive
        split
        · rfl
        · split <;> rfl) }

end NexaHR
