import Mathlib.Algebra.Order.Ring.Rat
import Soter.Lib.Run

/-! One background task of the AI service (`tasks.py`): the entry that the API process keeps about it, what the Celery result
backend says, and the worker, which keeps a table of its own that nobody else reads. Whoever has asked for the status is told it.
The functions of the API process run one after the other; while `get_task_status` reads the backend the worker may go on. -/
namespace Soter.AiTasks
open Soter.Runs

inductive TaskStatus
  | pending
  | processing
  | retrying
  | completed
  | failed
  | cancelled
  | expired
  | timedOut
  deriving DecidableEq

/-- The statuses of the table that `get_task_status` reports as they are. -/
def TaskStatus.isReported : TaskStatus → Bool
  | .pending | .processing => false
  | _ => true

def TaskStatus.isFinal : TaskStatus → Bool
  | .pending | .processing | .retrying => false
  | _ => true

inductive BackendState
  | pending
  | started
  | retry
  | success
  | failure
  | revoked
  deriving DecidableEq

/-- `ready()`, and what is made of `successful()` then. -/
def BackendState.outcome : BackendState → Option TaskStatus
  | .success => some .completed
  | .failure | .revoked => some .failed
  | .pending | .started | .retry => none

inductive WorkerPhase
  | idle
  | queued
  | running (retries : ℕ)
  /-- The completed callback has been sent, and the result is not stored yet. -/
  | storing
  | waiting (retries : ℕ)
  | ended
  deriving DecidableEq

/-- What `get_task_status` asks the backend next. -/
inductive PollPhase
  | ready
  | started
  | state
  deriving DecidableEq

structure TaskEntry where
  status : TaskStatus
  updatedAt : ℚ
  deriving DecidableEq

structure TaskSettings where
  maxRetries : ℕ
  idleTimeout : ℚ

structure TaskWorld where
  now : ℚ := 0
  entry : Option TaskEntry := none
  backend : BackendState := .pending
  worker : WorkerPhase := .idle
  polling : Option PollPhase := none
  revoked : Bool := false
  /-- The statuses that `get_task_status` has reported, and those of them it had reported when the task was first started. -/
  reports : List TaskStatus := []
  reportedBefore : Option (List TaskStatus) := none
  refused : Bool := false
  completedSent : Bool := false
  deriving DecidableEq

inductive CreateOutcome
  | queued
  /-- `ensure_queue_capacity` raises. -/
  | refused
  /-- `apply_async` raises, maybe after the message has been sent. -/
  | failed (sent : Bool)

inductive TaskEvent
  | create (outcome : CreateOutcome)
  | poll
  /-- The backend answers the question at hand, unless it cannot be reached. What `revoke` leads to counts if the task times out. -/
  | fetch (reached : Bool) (revoked : Bool)
  | cancel (reached : Bool)
  | expire (reached : Bool)
  | start
  | track
  | retry
  | complete
  | store
  | fail
  /-- The worker heeds the revocation. -/
  | drop
  /-- The result expires in the backend. -/
  | forget
  | pass (duration : ℚ)

namespace TaskWorld
variable (settings : TaskSettings) (w : TaskWorld)

def updateTaskStatus (status : TaskStatus) : TaskWorld := { w with entry := some ⟨status, w.now⟩ }

/-- `get_task_status` returns. -/
def report (status : TaskStatus) : TaskWorld := { w with polling := none, reports := w.reports ++ [status] }

def createTask (outcome : CreateOutcome) : TaskWorld :=
  let w := w.updateTaskStatus .pending
  match outcome with
  | .queued => { w with worker := .queued }
  | .refused => { w with refused := true }
  | .failed sent => { w with worker := if sent then .queued else .idle }.updateTaskStatus .failed

def beginPoll (entry : TaskEntry) : TaskWorld :=
  if entry.status.isReported then w.report entry.status else { w with polling := some .ready }

/-- `_mark_idle_timeout_if_expired` -/
def idleTimeoutExpired (entry : TaskEntry) : Bool := entry.status = .pending && settings.idleTimeout ≤ w.now - entry.updatedAt

def fetch (entry : TaskEntry) (reached revoked : Bool) : PollPhase → TaskWorld
  | .ready =>
    if reached then
      match w.backend.outcome with
      | some status => w.report status
      | none => { w with polling := some .started }
    else w.report entry.status
  | .started =>
    if reached then if w.backend = .started then w.report .processing else { w with polling := some .state }
    else w.report entry.status
  | .state =>
    if reached then
      if w.backend = .pending && w.idleTimeoutExpired settings entry then
        ({ w with revoked := w.revoked || revoked }.updateTaskStatus .timedOut).report .timedOut
      else w.report .pending
    else w.report entry.status

/-- `cancel_task` and `expire_task`, which raise if the broker cannot be reached. -/
def finish (status : TaskStatus) (reached : Bool) : TaskWorld :=
  if reached then { w with revoked := true }.updateTaskStatus status else w

def start : Option TaskWorld :=
  match w.worker with
  | .queued => some { w with worker := .running 0, reportedBefore := some w.reports }
  | .waiting retries => some { w with worker := .running retries }
  | _ => none

def retry : Option TaskWorld :=
  match w.worker with
  | .running retries =>
    if retries < settings.maxRetries then some { w with worker := .waiting (retries + 1), backend := .retry } else none
  | _ => none

def complete : Option TaskWorld :=
  match w.worker with
  | .running _ => some { w with worker := .storing, completedSent := true }
  | _ => none

def fail : Option TaskWorld :=
  match w.worker with
  | .running retries => if retries < settings.maxRetries then none else some { w with worker := .ended, backend := .failure }
  | _ => none

def drop : Option TaskWorld :=
  match w.revoked, w.worker with
  | true, .queued | true, .running _ | true, .waiting _ => some { w with worker := .ended, backend := .revoked }
  | _, _ => none

def take : TaskEvent → Option TaskWorld
  | .create outcome => if w.entry = none then some (w.createTask outcome) else none
  | .poll => if w.polling = none then w.entry.map w.beginPoll else none
  | .fetch reached revoked => w.polling.bind fun phase => w.entry.map fun entry => w.fetch settings entry reached revoked phase
  | .cancel reached => if w.polling = none ∧ w.entry ≠ none then some (w.finish .cancelled reached) else none
  | .expire reached => if w.polling = none ∧ w.entry ≠ none then some (w.finish .expired reached) else none
  | .start => w.start
  | .track => match w.worker with
    | .running _ => some { w with backend := .started }
    | _ => none
  | .retry => w.retry settings
  | .complete => w.complete
  | .store => if w.worker = .storing then some { w with worker := .ended, backend := .success } else none
  | .fail => w.fail settings
  | .drop => w.drop
  | .forget => some { w with backend := .pending }
  | .pass duration => if 0 ≤ duration then some { w with now := w.now + duration } else none

def Step (event : TaskEvent) (w' : TaskWorld) : Prop := w.take settings event = some w'

def initial : TaskWorld := {}

end TaskWorld

abbrev TaskTransition := Transition TaskWorld TaskEvent

end Soter.AiTasks
