import Mathlib.Data.List.DropRight
import Mathlib.Data.List.Infix
import Mathlib.Tactic.Common

/-! # The port a server is started on

* `belongsTo`: whether a process is one of this repository.
* `choose`: the port that is taken, and the story of how. What is outside (the prober, the owner of a port, the
  clock) answers by what has happened before.
-/

namespace NexaHR

set_option autoImplicit false

inductive Verdict
  | free
  | inUse
  | reserved
  | error
  deriving DecidableEq, Repr

structure Probe where
  port : Int
  verdict : Verdict
  detail : String := ""
  deriving DecidableEq, Repr

namespace Probe

def free (p : Probe) : Bool := p.verdict = .free

end Probe

/-- The process that holds a port. -/
structure Owner where
  pid : Int
  name : String := ""
  path : String := ""
  cmdline : String := ""
  cwd : String := ""
  deriving DecidableEq, Repr

namespace Owner

def label (o : Owner) : String :=
  let name := if o.name = "" then "process" else o.name
  s!"{name} (PID {o.pid})"

/-- `f"{owner.path} {owner.cmdline} {owner.cwd}"`. -/
def text (o : Owner) : List Char := o.path.toList ++ ' ' :: (o.cmdline.toList ++ ' ' :: o.cwd.toList)

end Owner

/-! ## Whether a process is ours -/

/-- `.replace("\\", "/")`. -/
def slashed (l : List Char) : List Char := l.map fun c => if c = '\\' then '/' else c

/-- The root as `belongs_to` looks for it. `lower` is `str.lower`. -/
def needle (lower : List Char → List Char) (root : String) : List Char :=
  lower ((slashed root.toList).rdropWhile (· = '/'))

/-- The root's text stands somewhere in what is known of the process. -/
def Mentions (lower : List Char → List Char) (o : Owner) (root : String) : Prop :=
  needle lower root ∉ [[], ['.'], ['.', '.'], ['/']] ∧ needle lower root <:+: lower (slashed o.text)

instance (lower : List Char → List Char) (o : Owner) (root : String) : Decidable (Mentions lower o root) :=
  inferInstanceAs (Decidable (_ ∧ _))

def belongsTo (lower : List Char → List Char) (o : Owner) (root : String) : Bool := decide (Mentions lower o root)

/-! ## The choice -/

inductive PortEvent
  | probed (port : Int) (answer : Probe)
  | reclaimed (owner : Owner)
  deriving DecidableEq, Repr

/-- What `choose` asks. Every answer may depend on what has happened so far. -/
structure PortWorld where
  /-- The prober that is handed in. -/
  prober : List PortEvent → Int → String → Probe
  /-- The module's own `probe`, with which `wait_until_free` looks. -/
  probe : List PortEvent → Int → String → Probe
  ownerOf : List PortEvent → Int → Option Owner
  /-- How often the clock lets `wait_until_free` look before its last look. -/
  rounds : List PortEvent → Nat
  excludedRanges : List (Int × Int)
  windows : Bool
  lower : List Char → List Char

structure Choice where
  port : Option Int
  preferred : Int
  firstVerdict : Verdict
  story : List String := []
  advice : List String := []
  owner : Option Owner := none
  deriving DecidableEq, Repr

/-- A choice, and all that was done on the way to it. -/
structure Chosen where
  choice : Choice
  events : List PortEvent
  deriving DecidableEq, Repr

def coveringRange (port : Int) (ranges : List (Int × Int)) : Option (Int × Int) :=
  ranges.find? fun range => range.1 ≤ port && port ≤ range.2

section

variable (w : PortWorld) (host : String)

/-- `wait_until_free`: whether the port came free, and the looks it took. -/
def waitUntilFree (port : Int) : Nat → List PortEvent → Bool × List PortEvent
  | 0, events =>
    let answer := w.probe events port host
    (answer.free, events ++ [.probed port answer])
  | rounds + 1, events =>
    let answer := w.probe events port host
    if answer.free then (true, events ++ [.probed port answer])
    else waitUntilFree port rounds (events ++ [.probed port answer])

/-- `wait_until_free(preferred, host) and prober(preferred, host).free`. -/
def retake (preferred : Int) (events : List PortEvent) : Bool × List PortEvent :=
  let waited := waitUntilFree w host preferred (w.rounds events) events
  if waited.1 then
    let last := w.prober waited.2 preferred host
    (last.free, waited.2 ++ [.probed preferred last])
  else waited

/-- The candidates after the preferred port, one after the other. -/
def trial (span : Int) (choice : Choice) : List Int → List PortEvent → Chosen
  | [], events =>
    ⟨{ choice with
        story := choice.story ++ [s!"No free port between {choice.preferred} and {choice.preferred + span}."] },
      events⟩
  | candidate :: candidates, events =>
    let answer := w.prober events candidate host
    if answer.free then
      ⟨{ choice with
          port := some candidate
          story := choice.story ++ [s!"Using port {candidate} instead."] },
        events ++ [.probed candidate answer]⟩
    else trial span choice candidates (events ++ [.probed candidate answer])

/-- `range(preferred + 1, preferred + 1 + span)`. -/
def laterPorts (preferred span : Int) : List Int :=
  (List.range span.toNat).map fun i => preferred + 1 + i

/-- The advice to whoever wants a reserved port back. -/
def reservedAdvice (preferred : Int) : List String :=
  ["net stop winnat  &&  net start winnat",
    s!"netsh int ipv4 add excludedportrange protocol=tcp startport={preferred} numberofports=1 store=persistent"]

/-- The story of a reserved port. -/
def reservedStory (preferred : Int) : String :=
  let whereAbouts := match coveringRange preferred w.excludedRanges with
    | some window => s!" (inside the reserved range {window.1}-{window.2})"
    | none => ""
  s!"Windows has reserved port {preferred}{whereAbouts}, so nothing is allowed to " ++
    "listen there. Hyper-V, WSL2 and Docker Desktop each claim such ranges, " ++
    "and the ranges move on every reboot."

/-- The owner is left alone. -/
def leave (choice : Choice) (owner : Option Owner) : Choice :=
  let who := (owner.map Owner.label).getD "another program"
  { choice with
    story := choice.story ++ [s!"Port {choice.preferred} is taken by {who}."]
    advice := choice.advice ++
      (owner.map fun o => if w.windows then s!"taskkill /PID {o.pid} /T /F" else s!"kill {o.pid}").toList }

/-- The owner is closed, and the port taken if it comes free. -/
def takeOver (o : Owner) (span : Int) (choice : Choice) (events : List PortEvent) : Chosen :=
  let story := choice.story ++
    [s!"Port {choice.preferred} was still held by an earlier NexaHR run ({o.label}); closed it."]
  let retaken := retake w host choice.preferred (events ++ [.reclaimed o])
  if retaken.1 then ⟨{ choice with port := some choice.preferred, story := story }, retaken.2⟩
  else trial w host span
    { choice with story := story ++ [s!"Port {choice.preferred} did not come free, moving on."] }
    (laterPorts choice.preferred span) retaken.2

def choose (preferred : Int) (root : Option String) (span : Int) : Chosen :=
  let first := w.prober [] preferred host
  let events := [PortEvent.probed preferred first]
  let choice : Choice := { port := none, preferred := preferred, firstVerdict := first.verdict }
  if first.free then ⟨{ choice with port := some preferred }, events⟩
  else match first.verdict with
    | .inUse =>
      let owner := w.ownerOf events preferred
      let choice := { choice with owner := owner }
      match owner, root with
      | some o, some r =>
        if belongsTo w.lower o r then takeOver w host o span choice events
        else trial w host span (leave w choice owner) (laterPorts preferred span) events
      | _, _ => trial w host span (leave w choice owner) (laterPorts preferred span) events
    | .reserved =>
      trial w host span
        { choice with
          story := choice.story ++ [reservedStory w preferred]
          advice := choice.advice ++ reservedAdvice preferred }
        (laterPorts preferred span) events
    | _ =>
      trial w host span
        { choice with story := choice.story ++ [s!"Port {preferred} could not be tested: {first.detail}"] }
        (laterPorts preferred span) events

end

end NexaHR
