import Mathlib.Logic.Function.Basic
import NexaHR.Foundations.SessionLock
import NexaHR.Services.Scheduled
import NexaHR.System.Step

/-! # The sweeps of several workers

`services/scheduler_lock.py`. Every worker calls `run_sweeps_once` when its time has come or an administrator asks
for it, and each call holds a connection of its own for the lock. What the calls do is interleaved with one another,
with the requests to the rest of the system, and with the loss of workers and connections.

* `SchedulerRun`: a row of the history.
* `SweepCall`: a call of `run_sweeps_once` that is under way, known by its connection.
* `Cluster`, `Cluster.next`: the database with the lock and the calls, and what happens to them.
* `ClusterRun`: the runs.
-/

namespace NexaHR

open Foundations

set_option autoImplicit false

/-! ## The history -/

inductive RunStatus
  | running | succeeded | failed | skippedLocked
  deriving DecidableEq, Repr

def RunStatus.value : RunStatus → String
  | .running => "running"
  | .succeeded => "succeeded"
  | .failed => "failed"
  | .skippedLocked => "skipped_locked"

inductive SweepTrigger
  | scheduler | manual
  deriving DecidableEq, Repr

structure SchedulerRun where
  id : Nat
  startedAt : Nat
  finishedAt : Option Nat := none
  status : RunStatus
  trigger : SweepTrigger
  summary : Option (List (String × Nat)) := none
  error : Option String := none
  deriving DecidableEq

/-- The row `runId` tells what its sweeps did. -/
def SchedulerRun.completed (runId : Nat) (summary : List (String × Nat)) (now : Nat) (row : SchedulerRun) :
    SchedulerRun :=
  if row.id = runId then { row with status := .succeeded, summary := some summary, finishedAt := some now } else row

/-! ## Calls -/

/-- How far a call is. Rows that are not committed yet are in it: the row of the history with the notices of the
sweeps. -/
inductive SweepProgress
  | asking
  | refused
  | leading
  | running (row : SchedulerRun)
  | swept (row : SchedulerRun) (created : List Notification) (summary : List (String × Nat))
  | committed (runId : Nat) (summary : List (String × Nat))
  | ending
  deriving DecidableEq

/-- `granted` is the answer of `_acquire_leader_lock`; `severed` says that the connection of the lock is gone. -/
structure SweepCall where
  process : Nat
  trigger : SweepTrigger
  granted : Bool := false
  severed : Bool := false
  progress : SweepProgress := .asking
  deriving DecidableEq

structure Cluster where
  db : Database
  runs : List SchedulerRun
  runSeq : Nat
  lock : SessionLock
  calls : Nat → Option SweepCall

namespace Cluster

def setCall (c : Cluster) (connection : Nat) (call : SweepCall) : Cluster :=
  { c with calls := Function.update c.calls connection (some call) }

/-- A row of the history is drawn, not stored. -/
def drawRow (c : Cluster) (row : SchedulerRun) : SchedulerRun := { row with id := c.runSeq + 1 }

/-- A row of the history is stored. -/
def addRun (c : Cluster) (row : SchedulerRun) : Cluster :=
  { c with runs := c.runs ++ [c.drawRow row], runSeq := c.runSeq + 1 }

/-- `_acquire_leader_lock`. Without its connection the call ends in an exception. -/
def ask (c : Cluster) (connection : Nat) (call : SweepCall) : Cluster :=
  if call.severed then c.setCall connection { call with progress := .ending }
  else
    match c.lock.tryLock connection with
    | none => c.setCall connection { call with progress := .refused }
    | some lock =>
      ({ c with lock := lock }).setCall connection { call with granted := true, progress := .leading }

/-- The row of a call that was refused. -/
def skip (c : Cluster) (connection : Nat) (call : SweepCall) (now : Nat) : Cluster :=
  (c.addRun ⟨0, now, some now, .skippedLocked, call.trigger, none, none⟩).setCall connection
    { call with progress := .ending }

/-- The row `running` is flushed. -/
def flush (c : Cluster) (connection : Nat) (call : SweepCall) (now : Nat) : Cluster :=
  let row := c.drawRow { id := 0, startedAt := now, status := .running, trigger := call.trigger }
  ({ c with runSeq := c.runSeq + 1 }).setCall connection { call with progress := .running row }

/-- The runner does its work. -/
def sweep (S : SweepSettings) (c : Cluster) (connection : Nat) (call : SweepCall) (row : SchedulerRun) (env : Env) :
    Cluster :=
  let outcome := runAllSweeps S c.db env
  c.setCall connection { call with progress := .swept row outcome.1 outcome.2 }

/-- The commit at the end of the runner. -/
def commit (c : Cluster) (connection : Nat) (call : SweepCall) (row : SchedulerRun) (created : List Notification)
    (summary : List (String × Nat)) : Cluster :=
  ({ c with
      db := { c.db with notifications := c.db.notifications ++ created }
      runs := c.runs ++ [row] }).setCall connection { call with progress := .committed row.id summary }

/-- The runner raised: what it did is rolled back, and another row tells of it. -/
def fail (c : Cluster) (connection : Nat) (call : SweepCall) (now : Nat) (error : String) : Cluster :=
  (c.addRun ⟨0, now, some now, .failed, call.trigger, none, some (firstChars 2000 error)⟩).setCall connection
    { call with progress := .ending }

/-- The row is completed. -/
def record (c : Cluster) (connection : Nat) (call : SweepCall) (runId : Nat) (summary : List (String × Nat))
    (now : Nat) : Cluster :=
  ({ c with
      runs := c.runs.map (SchedulerRun.completed runId summary now) }).setCall connection
    { call with progress := .ending }

/-- `_release_leader_lock`, which is called in any case, and the end of the connection. Without a connection
there is nothing to release. -/
def release (c : Cluster) (connection : Nat) (call : SweepCall) : Cluster :=
  { c with
    lock := if call.severed then c.lock else c.lock.unlock connection
    calls := Function.update c.calls connection none }

/-- The connection of a lock is lost, or an idle one is closed. The server takes the lock back. -/
def sever (c : Cluster) (connection : Nat) : Cluster :=
  { c with
    lock := c.lock.dropped fun session => session = connection
    calls :=
      Function.update c.calls connection ((c.calls connection).map fun call => { call with severed := true }) }

def belongsTo (c : Cluster) (process connection : Nat) : Bool :=
  (c.calls connection).any fun call => call.process = process

/-- A worker dies, with its connections. What it has not committed is rolled back. -/
def crash (c : Cluster) (process : Nat) : Cluster :=
  { c with
    lock := c.lock.dropped (c.belongsTo process)
    calls := fun connection => (c.calls connection).filter fun call => call.process ≠ process }

end Cluster

/-! ## Runs -/

/-- What a call does next. `broke` is an exception that leaves no row: the database could not be reached. -/
inductive SweepMove
  | ask
  | skip (now : Nat)
  | flush (now : Nat)
  | sweep (env : Env)
  | commit
  | fail (now : Nat) (error : String)
  | record (now : Nat)
  | broke
  | release

inductive ClusterEvent
  | request (req : Request)
  | called (connection process : Nat) (trigger : SweepTrigger)
  | moved (connection : Nat) (move : SweepMove)
  | severed (connection : Nat)
  | crashed (process : Nat)

namespace Cluster

/-- A move of a call; `none` where it is not its turn. All workers have the same settings. -/
def proceed (S : SweepSettings) (c : Cluster) (connection : Nat) (call : SweepCall) :
    SweepProgress → SweepMove → Option Cluster
  | .asking, .ask => some (c.ask connection call)
  | .refused, .skip now => some (c.skip connection call now)
  | .leading, .flush now => some (c.flush connection call now)
  | .running row, .sweep env =>
    if env.notificationDedupDays = S.notificationDedupDays then some (c.sweep S connection call row env) else none
  | .swept row created summary, .commit => some (c.commit connection call row created summary)
  | .running _, .fail now error | .swept _ _ _, .fail now error => some (c.fail connection call now error)
  | .committed runId summary, .record now => some (c.record connection call runId summary now)
  | .ending, .release => some (c.release connection call)
  | _, .broke => some (c.setCall connection { call with progress := .ending })
  | _, _ => none

/-- A connection is given to one call at a time. -/
def next (S : SweepSettings) (c : Cluster) : ClusterEvent → Option Cluster
  | .request req => some { c with db := settled c.db req }
  | .called connection process trigger =>
    match c.calls connection with
    | some _ => none
    | none => some (c.setCall connection { process := process, trigger := trigger })
  | .moved connection move => (c.calls connection).bind fun call => c.proceed S connection call call.progress move
  | .severed connection => some (c.sever connection)
  | .crashed process => some (c.crash process)

end Cluster

/-- Nobody sweeps, and nobody has. -/
structure Started (c : Cluster) : Prop where
  db : Initial c.db
  notifications : c.db.notifications = []
  runs : c.runs = []
  lock : c.lock = .free
  calls : ∀ connection, c.calls connection = none

def ClusterSteps (S : SweepSettings) (c : Cluster) (e : ClusterEvent) (c' : Cluster) : Prop := c.next S e = some c'

abbrev ClusterRun (S : SweepSettings) (tr : List (Taken Cluster ClusterEvent)) (c : Cluster) : Prop :=
  Run Started (ClusterSteps S) tr c

end NexaHR
