import NexaHR.Foundations.Runs
import NexaHR.Foundations.Words
import NexaHR.Pages.ScoreForm

/-! # Evidence on the scoring form

The rest of `components/ScoreForm.tsx`: `useScoreForm`, which holds the drafts and says whether they may be submitted,
and the limit that is kept while typing.

* `EvidenceConfig`: the rules of the evidence.
* `jsWords`, `clampEvidence`: the words of a text, and the text that the field keeps.
* `FormRun`: what the drafts can be.
* `isValid`: the gate of the form.
-/

namespace NexaHR.ScoreForm

open Foundations

set_option autoImplicit false

/-! ## The rules -/

structure EvidenceConfig where
  evidenceRequiredScores : List Nat
  evidenceMinWords : Nat
  evidenceMaxWords : Nat

/-- The fields of `from_rules` that the evidence is held against. -/
def EvidenceConfig.fromRules (rules : Rules) : EvidenceConfig where
  evidenceRequiredScores := rules.evidenceRequiredScores
  evidenceMinWords := rules.evidenceMinWords
  evidenceMaxWords := rules.evidenceMaxWords

/-! ## Words -/

/-- `split(/\s+/).filter(Boolean)`. -/
def jsWords (text : String) : List (List Char) := words isJsSpace text.toList

def wordCount (text : String) : Nat := (jsWords text).length

def clampEvidence (raw : String) (maxWords : Nat) : String :=
  if maxWords < (jsWords raw).length then String.ofList ([' '].intercalate ((jsWords raw).take maxWords)) else raw

/-! ## The hook -/

/-- The drafts of the indicators, from the rows of the server. The last of two rows about one indicator is taken. -/
def initialDrafts (indicators : List Indicator) (existing : List EvaluationScore) : List ScoreDraft :=
  indicators.map fun ind =>
    let found := existing.reverse.find? fun s => s.indicatorId = ind.id
    { indicatorId := ind.id
      score := found.map EvaluationScore.score
      evidenceText := (found.bind EvaluationScore.evidenceText).getD "" }

structure FormState where
  drafts : List ScoreDraft
  /-- Nothing of the server replaces the drafts any more. -/
  touched : Bool

/-- Rows of the server arrive, with the indicators or before them; the evaluator chooses a score or types. -/
inductive FormEvent
  | fetched (ready : Bool) (existing : List EvaluationScore)
  | setScore (indicatorId score : Nat)
  | typeEvidence (indicatorId : Nat) (raw : String)

def setDraft (drafts : List ScoreDraft) (indicatorId : Nat) (change : ScoreDraft → ScoreDraft) : List ScoreDraft :=
  drafts.map fun d => if d.indicatorId = indicatorId then change d else d

def shownIndicators (asked : List Indicator) (ready : Bool) : List Indicator := if ready then asked else []

def FormState.next (asked : List Indicator) (config : EvidenceConfig) (s : FormState) : FormEvent → FormState
  | .fetched ready existing =>
    if shownIndicators asked ready = [] ∨ s.touched = true then s
    else { s with drafts := initialDrafts (shownIndicators asked ready) existing }
  | .setScore indicatorId score =>
    { drafts := setDraft s.drafts indicatorId fun d => { d with score := some score }, touched := true }
  | .typeEvidence indicatorId raw =>
    { drafts := setDraft s.drafts indicatorId fun d =>
        { d with evidenceText := clampEvidence raw config.evidenceMaxWords }
      touched := true }

/-- The form as it is opened. -/
def FormOpened (asked : List Indicator) (s : FormState) : Prop :=
  ∃ ready existing, s = ⟨initialDrafts (shownIndicators asked ready) existing, false⟩

def FormRun (asked : List Indicator) (config : EvidenceConfig) : List (Taken FormState FormEvent) → FormState → Prop :=
  Run (FormOpened asked) fun s e s' => s' = s.next asked config e

/-! ## The gate -/

def evidenceIsRequired (config : EvidenceConfig) (d : ScoreDraft) : Bool :=
  d.score.any (· ∈ config.evidenceRequiredScores)

def unscored (drafts : List ScoreDraft) : List ScoreDraft := drafts.filter fun d => d.score = none

def violations (config : EvidenceConfig) (drafts : List ScoreDraft) : List ScoreDraft :=
  drafts.filter fun d => evidenceIsRequired config d && decide (wordCount d.evidenceText < config.evidenceMinWords)

def isValid (config : EvidenceConfig) (drafts : List ScoreDraft) : Bool :=
  decide (0 < drafts.length) && (unscored drafts).isEmpty && (violations config drafts).isEmpty

/-! ## What the drafts are -/

theorem setDraft_ids (drafts : List ScoreDraft) (indicatorId : Nat) {change : ScoreDraft → ScoreDraft}
    (hchange : ∀ d, (change d).indicatorId = d.indicatorId) :
    (setDraft drafts indicatorId change).map ScoreDraft.indicatorId = drafts.map ScoreDraft.indicatorId := by
  unfold setDraft
  rw [List.map_map]
  refine List.map_congr_left fun d _ => ?_
  rw [Function.comp_apply]
  split
  · exact hchange d
  · rfl

theorem initialDrafts_ids (indicators : List Indicator) (existing : List EvaluationScore) :
    (initialDrafts indicators existing).map ScoreDraft.indicatorId = indicators.map Indicator.id := by
  unfold initialDrafts
  rw [List.map_map]
  rfl

/-- There is a draft for each indicator, or the indicators have not arrived yet. -/
def AsksAll (asked : List Indicator) (drafts : List ScoreDraft) : Prop :=
  drafts = [] ∨ drafts.map ScoreDraft.indicatorId = asked.map Indicator.id

theorem asksAll_initial (asked : List Indicator) (ready : Bool) (existing : List EvaluationScore) :
    AsksAll asked (initialDrafts (shownIndicators asked ready) existing) := by
  cases ready with
  | true => exact Or.inr (initialDrafts_ids asked existing)
  | false => exact Or.inl rfl

theorem AsksAll.setDraft {asked : List Indicator} {drafts : List ScoreDraft} (h : AsksAll asked drafts)
    (indicatorId : Nat) {change : ScoreDraft → ScoreDraft} (hchange : ∀ d, (change d).indicatorId = d.indicatorId) :
    AsksAll asked (setDraft drafts indicatorId change) := by
  rcases h with hnil | hids
  · left
    rw [hnil]
    rfl
  · right
    rw [setDraft_ids _ _ hchange, hids]

theorem asksAll_of_run {asked : List Indicator} {config : EvidenceConfig} {tr : List (Taken FormState FormEvent)}
    {s : FormState} (h : FormRun asked config tr s) : AsksAll asked s.drafts := by
  refine Run.invariant (P := fun s => AsksAll asked s.drafts) ?_ ?_ h
  · rintro s ⟨ready, existing, rfl⟩
    exact asksAll_initial asked ready existing
  · rintro s e _ hs rfl
    cases e with
    | fetched ready existing =>
      unfold FormState.next
      dsimp only
      split
      · exact hs
      · exact asksAll_initial asked ready existing
    | setScore indicatorId score => exact hs.setDraft indicatorId fun _ => rfl
    | typeEvidence indicatorId raw => exact hs.setDraft indicatorId fun _ => rfl

end NexaHR.ScoreForm
