import Soter.Lib.Party
import Soter.SyncQueue.Actions

/-! The offline queue (`services/syncQueue.ts`): its variables, the storage behind them, the calls of the exported functions, and
the one flush that may be under way. Between two awaits of a call the others do nothing. `AsyncStorage` takes the writes in their
order. When everything is written the app may be closed and opened again. -/
namespace Soter.SyncQueue
open Soter.Parties Soter.Runs

variable {K : Type}

inductive FlushPhase (K : Type)
  /-- The answer to the action is awaited. -/
  | attempting (action : QueuedSyncAction K)
  /-- `persistQueue` is awaited, with this many writes to go. -/
  | saving (left : ℕ)
  deriving DecidableEq

/-- `items` is the flush's own list, `remaining` what is left of the list it has started from. -/
structure FlushRun (K : Type) where
  options : FlushOptions
  startedAt : ℤ
  items : List (QueuedSyncAction K)
  processed : ℕ
  remaining : List (QueuedSyncAction K)
  phase : FlushPhase K

def saverMaxActionsPerFlush : ℕ := 2

def nextAttempt (options : FlushOptions) (startedAt : ℤ) (processed : ℕ) :
    List (QueuedSyncAction K) → Option (QueuedSyncAction K × List (QueuedSyncAction K))
  | [] => none
  | action :: rest =>
    if startedAt < action.nextRetryAt then nextAttempt options startedAt processed rest
    else if (options.deferral action).isSome then nextAttempt options startedAt processed rest
    else if options.saverMode && saverMaxActionsPerFlush ≤ processed then none
    else some (action, rest)

def deferrals (options : FlushOptions) (startedAt : ℤ) : List (QueuedSyncAction K) → ℕ
  | [] => 0
  | action :: rest =>
    if startedAt < action.nextRetryAt then deferrals options startedAt rest
    else if (options.deferral action).isSome then deferrals options startedAt rest + 1
    else 0

def FlushRun.next (f : FlushRun K) : Option (QueuedSyncAction K × List (QueuedSyncAction K)) :=
  nextAttempt f.options f.startedAt f.processed f.remaining

def FlushRun.settle (f : FlushRun K) (now : ℤ) (action : QueuedSyncAction K) :
    Except SyncError Unit → List (QueuedSyncAction K) → List (QueuedSyncAction K)
  | .ok (), items =>
    if action.isClaimSubmission then items.map fun item => if item.id = action.id then { item with state := .submitted } else item
    else items.filter (·.id ≠ action.id)
  | .error error, items =>
    items.map fun item => if item.id = action.id then action.fail now f.options.saverMode error item else item

structure QueueStore (K : Type) where
  now : ℤ := 0
  hydrated : Bool := false
  items : List (QueuedSyncAction K) := []
  storage : List (QueuedSyncAction K) := []
  /-- The writes under way, the oldest first. -/
  writes : List (List (QueuedSyncAction K)) := []
  issued : ℕ := 0
  flush : Option (FlushRun K) := none
  /-- How often flushes have attempted the action since it was enqueued or requeued. -/
  executions : ℕ → ℕ := fun _ => 0
  /-- The queue has had the action as failed, submitted or in conflict since it was enqueued or requeued. -/
  finished : ℕ → Bool := fun _ => false
  /-- The action has been completed, discarded or cleared, and not been requeued since. -/
  removed : ℕ → Bool := fun _ => false

def SyncActionState.isWaiting : SyncActionState → Bool
  | .pending | .retrying => true
  | _ => false

def QueuedSyncAction.isWaiting (action : QueuedSyncAction K) : Bool := action.state.isWaiting

namespace QueueStore
variable (s : QueueStore K)

def setItems (items : List (QueuedSyncAction K)) : QueueStore K :=
  { s with
    items
    finished := fun id => s.finished id || items.any fun item => item.id = id && !item.isWaiting }

def persist : QueueStore K := { s with writes := s.writes ++ [s.items] }

def replaceItems (items : List (QueuedSyncAction K)) : QueueStore K := (s.setItems items).persist

/-- The rest of `hydrateQueue` when the storage has been read. -/
def hydrate (raw : List (QueuedSyncAction K)) : QueueStore K := { s.setItems raw with hydrated := true }

def existing [DecidableEq K] : SyncActionPayload K → Option (QueuedSyncAction K)
  | .claimSubmission key => s.items.find? fun item => item.hasKey key && item.state ≠ .failed && item.state ≠ .submitted
  | _ => none

def enqueue [DecidableEq K] (request : SyncActionRequest K) : QueueStore K :=
  match s.existing request.payload with
  | some _ => s
  | none => { s with issued := s.issued + 1 }.replaceItems (s.items ++ [request.action s.issued s.now])

def recordConflict (request : SyncActionRequest K) : QueueStore K :=
  { s with issued := s.issued + 1 }.replaceItems
    (s.items ++ [{ request.action s.issued s.now with state := .conflict, retryCount := 1 }])

def goOn (f : FlushRun K) : QueueStore K :=
  let writes := s.writes ++ List.replicate (deferrals f.options f.startedAt f.remaining) s.items
  match f.next with
  | none => { s with flush := none, writes }
  | some (action, rest) =>
    { s with
      writes
      flush := some { f with processed := f.processed + 1, remaining := rest, phase := .attempting action }
      executions := Function.update s.executions action.id (s.executions action.id + 1) }

def startFlush (options : FlushOptions) : QueueStore K :=
  if options.online && s.flush.isNone then
    s.goOn { options, startedAt := s.now, items := s.items, processed := 0, remaining := s.items, phase := .saving 0 }
  else s

def receive (f : FlushRun K) (action : QueuedSyncAction K) (outcome : Except SyncError Unit) : QueueStore K :=
  let items := f.settle s.now action outcome f.items
  { s.replaceItems items with
    flush := some { f with items, phase := .saving (s.writes.length + 1) }
    removed := fun id => s.removed id || outcome.isOk && id = action.id }

def requeueAction (id : ℕ) : QueueStore K :=
  { s with
    executions := Function.update s.executions id 0
    finished := Function.update s.finished id false
    removed := fun i => s.removed i && !(i = id && s.items.any (·.id = id)) }.replaceItems
    (s.items.map fun item : QueuedSyncAction K => if item.id = id then item.requeue s.now else item)

def discardAction (id : ℕ) : QueueStore K :=
  { s with removed := fun i => s.removed i || i = id && s.items.any (·.id = id) }.replaceItems (s.items.filter (·.id ≠ id))

def clearSyncQueue : QueueStore K :=
  { s with removed := fun i => s.removed i || s.items.any (·.id = i) }.replaceItems []

def write : Option (QueueStore K) :=
  match s.writes with
  | [] => none
  | items :: rest =>
    some { s with
      storage := items
      writes := rest
      flush := s.flush.map fun f => match f.phase with
        | .saving left => { f with phase := .saving (left - 1) }
        | .attempting _ => f }

end QueueStore
section Calls

inductive QueueRequest (K : Type)
  | dispatch (request : SyncActionRequest K) (online : Bool)
  | flush (options : FlushOptions)
  | requeue (id : ℕ)
  | discard (id : ℕ)
  | clear
  | getState

inductive CallPhase (K : Type)
  /-- The storage is being read. -/
  | hydrating (request : QueueRequest K)
  | read (request : QueueRequest K) (raw : List (QueuedSyncAction K))
  | hydrated (request : QueueRequest K)
  /-- The request of an online dispatch is awaited. -/
  | running (request : SyncActionRequest K)
  | enqueuing (request : SyncActionRequest K)
  | ended

def CallPhase.turn [DecidableEq K] (s : QueueStore K) : CallPhase K → Option (CallPhase K × QueueStore K)
  | .hydrating request => some (.read request s.storage, s)
  | .read request raw => some (.hydrated request, s.hydrate raw)
  | .hydrated (.dispatch request online) => some (if online then .running request else .enqueuing request, s)
  | .hydrated (.flush options) => some (.ended, s.startFlush options)
  | .hydrated (.requeue id) => some (.ended, s.requeueAction id)
  | .hydrated (.discard id) => some (.ended, s.discardAction id)
  | .hydrated .clear => some (.ended, s.clearSyncQueue)
  | .hydrated .getState => some (.ended, s)
  | .enqueuing request => some (.ended, s.enqueue request)
  | .running _ | .ended => none

def CallPhase.receive (s : QueueStore K) (outcome : Except SyncError Unit) : CallPhase K → Option (CallPhase K × QueueStore K)
  | .running request =>
    match outcome with
    | .ok () => some (.ended, s)
    | .error error =>
      if isConflictError error then some (.ended, s.recordConflict request)
      else if isRetryableError error then some (.enqueuing request, s)
      else some (.ended, s)
  | _ => none

abbrev QueueWorld (K : Type) := Party (QueueStore K) (CallPhase K)

inductive QueueEvent (K : Type)
  | call (request : QueueRequest K)
  | turn (call : ℕ)
  | answer (call : ℕ) (outcome : Except SyncError Unit)
  | flushAnswer (outcome : Except SyncError Unit)
  | flushTurn
  | write
  | clock (now : ℤ)
  | relaunch

variable [DecidableEq K] (w : QueueWorld K)

def QueueStore.flushAnswer (s : QueueStore K) (outcome : Except SyncError Unit) : Option (QueueStore K) :=
  s.flush.bind fun f => match f.phase with
    | .attempting action => some (s.receive f action outcome)
    | .saving _ => none

def QueueStore.flushTurn (s : QueueStore K) : Option (QueueStore K) :=
  s.flush.bind fun f => match f.phase with
    | .saving 0 => some (s.goOn f)
    | _ => none

def QueueStore.relaunch (s : QueueStore K) : Option (QueueStore K) :=
  if s.writes = [] ∧ s.flush.isNone then some { s with hydrated := false, items := [] } else none

def QueueWorld.take : QueueEvent K → Option (QueueWorld K)
  | .call request => some (w.join (if w.store.hydrated then .hydrated request else .hydrating request))
  | .turn i => w.calls[i]?.bind fun phase => (phase.turn w.store).map (w.put i)
  | .answer i outcome => w.calls[i]?.bind fun phase => (phase.receive w.store outcome).map (w.put i)
  | .flushAnswer outcome => (w.store.flushAnswer outcome).map w.setStore
  | .flushTurn => w.store.flushTurn.map w.setStore
  | .write => w.store.write.map w.setStore
  | .clock now => some (w.setStore { w.store with now })
  | .relaunch => w.store.relaunch.map fun store => { store, calls := [] }

def QueueWorld.Step (w : QueueWorld K) (event : QueueEvent K) (w' : QueueWorld K) : Prop := w.take event = some w'

abbrev QueueTransition (K : Type) := Transition (QueueWorld K) (QueueEvent K)

def QueueWorld.initial : QueueWorld K := { store := {}, calls := [] }

end Calls
end Soter.SyncQueue
