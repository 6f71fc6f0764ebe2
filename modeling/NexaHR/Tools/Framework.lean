import NexaHR.Routers.Form
import NexaHR.Services.Confirmations

/-! # The assistant's tools for the rules

`services/ai/tools/framework.py`, the tools that write versions of the scoring rules. Each is run for the
user who confirmed it, behind the guard of the tools.

* `DraftArguments.payload`: the input that a draft is made of, with the defaults of the tool.
* `createSchemeDraft`, `activateSchemeById`: the two tools.
-/

namespace NexaHR

open Foundations

set_option autoImplicit false

/-! ## A draft -/

/-- What the model gives. Everything but the name may be left out. -/
structure DraftArguments where
  name : String
  generalSectionWeight : Option Rat := none
  specializedSectionWeight : Option Rat := none
  evidenceMinWords : Option Int := none
  evidenceMaxWords : Option Int := none
  bonusMaxPoints : Option Rat := none
  improvementPlanMaxPct : Option Rat := none

/-- `_DRAFT_DEFAULTS`. The tool gives every draft a name of its own. -/
def draftDefaults : SchemeInput where
  name := ""
  generalSectionWeight := 3 / 5
  specializedSectionWeight := 2 / 5
  evidenceRequiredScores := [1, 5]
  evidenceMinWords := 3
  evidenceMaxWords := 40
  bonusMaxPoints := 5
  improvementPlanMaxPct := 75
  thresholds := [(60, "عدم تمدید"), (75, "تمدید مشروط"), (90, "تمدید"), (101, "تمدیـد ممتاز")]
  indicatorWeights := []

namespace DraftArguments

/-- The given name, cut, or one that tells the version. The schema strips it once more. -/
def schemeName (a : DraftArguments) (version : Nat) : String :=
  let given := ((strip a.name).take 200).toString
  strip (if given = "" then "طرح نسخهٔ " ++ toString version else given)

def payload (a : DraftArguments) (version : Nat) : SchemeInput :=
  { draftDefaults with
    name := a.schemeName version
    generalSectionWeight := a.generalSectionWeight.getD draftDefaults.generalSectionWeight
    specializedSectionWeight := a.specializedSectionWeight.getD draftDefaults.specializedSectionWeight
    evidenceMinWords := a.evidenceMinWords.getD draftDefaults.evidenceMinWords
    evidenceMaxWords := a.evidenceMaxWords.getD draftDefaults.evidenceMaxWords
    bonusMaxPoints := a.bonusMaxPoints.getD draftDefaults.bonusMaxPoints
    improvementPlanMaxPct := a.improvementPlanMaxPct.getD draftDefaults.improvementPlanMaxPct }

end DraftArguments

def schemeDraftTool : ToolSpec where
  name := "create_scoring_scheme_draft"
  risky := true
  capabilities := [.manageScoring]

/-- `create_scoring_scheme_draft`: the schema of the endpoint, then the endpoint. -/
def createSchemeDraft (db : Database) (env : Env) (user : CurrentUser) (a : DraftArguments) :
    Except HTTPException Database := do
  guardTool schemeDraftTool user env.capabilities
  let payload := a.payload (nextVersion db)
  ensure (payload.errors = []) ⟨400, persianValidationMessage payload.errors, none⟩
  createScheme db env user payload

/-! ## Activation -/

def schemeActivationTool : ToolSpec where
  name := "activate_scoring_scheme"
  risky := true
  capabilities := [.manageScoring]

/-- `activate_scoring_scheme`: the service, without the endpoint. -/
def activateSchemeById (db : Database) (env : Env) (user : CurrentUser) (schemeId : Nat) :
    Except HTTPException Database := do
  guardTool schemeActivationTool user env.capabilities
  let scheme ← require (db.scoringSchemes.get? schemeId) ⟨404, "طرحی با این شناسه پیدا نشد", none⟩
  let activated ← activate db scheme user.id
  pure (activated.log [directoryEvent env user "scoring_scheme_activated"])

end NexaHR
