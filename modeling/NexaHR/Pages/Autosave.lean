import Mathlib.Logic.Function.Basic
import NexaHR.Pages.ScoreForm
import NexaHR.System.Step

/-! # Saving and submitting the scoring form

`EditableScoring` of `pages/EvaluationDetailPage.tsx`: the page of one scorer on one record, and the
requests that it sends. A save and a submission are asynchronous functions that send their requests one
after the other, each when the one before is answered. The requests of different calls are on their way
together, and the server takes them in any order.

* `Call`: a running save or submission, with the drafts it was started with.
* `PageState`: the database, the screen and the calls.
* `PageEvent`, `PageState.next`: what the evaluator, the timer, the network and the server do.
* `PageRun`: the runs of the page.
-/

namespace NexaHR

open Foundations ScoreForm

set_option autoImplicit false

/-! ## Calls -/

/-- A submission first asks for confirmation. A request that was sent is on its way to the server until it
is answered there, and then on its way back. -/
inductive Phase
  | asking
  | sent
  | answered (accepted : Bool)
  deriving DecidableEq

/-- A call of `saveDraft` or `submit`: the drafts of its closure, and the requests that it has not done
with, the current one first. -/
structure Call where
  isSubmit : Bool
  drafts : List ScoreDraft
  phase : Phase
  requests : List RecordOperation

/-- What `saveSpecialScore` sends, when it sends anything. -/
abbrev SpecialScore := Option (Rat × Option String)

def specialRequests (special : SpecialScore) : List RecordOperation :=
  special.toList.map fun given => .setSpecialScore given.1 given.2

def saveRequests (drafts : List ScoreDraft) (special : SpecialScore) : List RecordOperation :=
  .upsertScores (scoredRows drafts) :: specialRequests special

def submitRequests (drafts : List ScoreDraft) (evaluatorComment : String) (special : SpecialScore) :
    List RecordOperation :=
  .upsertScores (scoredRows drafts) :: .setEvaluatorComment evaluatorComment ::
    (specialRequests special ++ [.submitEvaluation])

/-! ## The page -/

structure PageState where
  db : Database
  drafts : List ScoreDraft
  /-- The timer of the automatic save is running. -/
  timer : Bool
  saving : Bool
  dialog : Option Nat
  calls : Nat → Option Call
  nextCall : Nat

/-- The evaluator edits, saves by hand, and presses and confirms or declines the submission; the timer
fires; the server takes the current request of a call; the call takes the answer. -/
inductive PageEvent
  | edit (drafts : List ScoreDraft)
  | autosave (special : SpecialScore)
  | saveDraft (special : SpecialScore)
  | press (evaluatorComment : String) (special : SpecialScore)
  | confirm
  | decline
  | deliver (call : Nat) (env : Env)
  | receive (call : Nat)

namespace PageState

/-- A save starts. Nothing but the timer and the button asks whether another one is running. -/
def startSave (s : PageState) (special : SpecialScore) : PageState :=
  { s with
    saving := true
    calls := Function.update s.calls s.nextCall
      (some ⟨false, s.drafts, .sent, saveRequests s.drafts special⟩)
    nextCall := s.nextCall + 1 }

/-- The button of the submission was pressed, and the dialogue opens. -/
def startSubmit (s : PageState) (evaluatorComment : String) (special : SpecialScore) : PageState :=
  { s with
    dialog := some s.nextCall
    calls := Function.update s.calls s.nextCall
      (some ⟨true, s.drafts, .asking, submitRequests s.drafts evaluatorComment special⟩)
    nextCall := s.nextCall + 1 }

def setPhase (s : PageState) (call : Nat) (phase : Phase) : PageState :=
  { s with calls := Function.update s.calls call ((s.calls call).map fun c => { c with phase := phase }) }

/-- The end of a call, good or bad: `finally`. -/
def endCall (s : PageState) (call : Nat) : PageState :=
  { s with saving := false, calls := Function.update s.calls call none }

/-- The request of a call to the endpoint of the record. -/
def request (userId recordId : Nat) (env : Env) (op : RecordOperation) : Request :=
  ⟨userId, env, .onRecord recordId op⟩

/-- The server takes the current request of the call. -/
def process (userId recordId : Nat) (s : PageState) (call : Nat) (env : Env) (op : RecordOperation) :
    PageState :=
  let req := request userId recordId env op
  { s.setPhase call (.answered (NexaHR.step s.db req).isOk) with db := settled s.db req }

/-- The call takes the answer to its current request. -/
def proceed (s : PageState) (call : Nat) (c : Call) (accepted : Bool) : PageState :=
  if accepted = true ∧ c.requests.tail ≠ [] then
    { s with
      calls := Function.update s.calls call (some { c with phase := .sent, requests := c.requests.tail }) }
  else s.endCall call

def next (userId recordId : Nat) (s : PageState) : PageEvent → Option PageState
  | .edit drafts => some { s with drafts := drafts, timer := true }
  -- The effect runs anew with every change, so the drafts of the timer are those on the screen.
  | .autosave special => if s.timer then some { s.startSave special with timer := false } else none
  | .saveDraft special => if s.saving then none else some (s.startSave special)
  | .press evaluatorComment special =>
    if s.saving = false ∧ s.dialog = none ∧ isScored s.drafts = true then
      some (s.startSubmit evaluatorComment special)
    else none
  | .confirm => s.dialog.map fun call => { s.setPhase call .sent with saving := true, dialog := none }
  | .decline =>
    s.dialog.map fun call => { s with calls := Function.update s.calls call none, dialog := none }
  | .deliver call env =>
    match s.calls call with
    | some ⟨_, _, .sent, op :: _⟩ => some (s.process userId recordId call env op)
    | _ => none
  | .receive call =>
    match s.calls call with
    | some c =>
      match c.phase with
      | .answered accepted => some (s.proceed call c accepted)
      | _ => none
    | none => none

end PageState

/-- The page as it is opened: nothing was sent yet. -/
structure Opened (s : PageState) : Prop where
  timer : s.timer = false
  saving : s.saving = false
  dialog : s.dialog = none
  calls : ∀ call, s.calls call = none

def PageSteps (userId recordId : Nat) (s : PageState) (e : PageEvent) (s' : PageState) : Prop :=
  s.next userId recordId e = some s'

/-- A run of the page, with its history. -/
abbrev PageRun (userId recordId : Nat) (tr : List (Taken PageState PageEvent)) (s : PageState) : Prop :=
  Run Opened (PageSteps userId recordId) tr s

end NexaHR
