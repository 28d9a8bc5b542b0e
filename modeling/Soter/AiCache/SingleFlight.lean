import Soter.Lib.Party

/-! The calls of an async function that `cached_response` wraps (`services/cache.py`), and the three dictionaries by which they
wait for one another. A call may be suspended at each of its awaits, also where it takes the lock: while it is, the others
may go on, a clean-up that is due may run, and entries of the cache may be invalidated or expire. -/
namespace Soter.AiCache
open Soter.Parties Soter.Runs

/-- What an execution of the function has returned, the request that it was for, and when it ended. -/
structure Computed (Req V : Type) where
  value : V
  origin : Req
  ended : ℕ

structure Raised (E : Type) where
  error : E
  ended : ℕ

/-- The keys of a request; what `json.dumps` makes of a value, if it takes it, and what `json.loads` makes of that: `null` is
the same as nothing. -/
structure CachedFunction (Req Key V Raw : Type) where
  enabled : Bool
  cacheKey : Req → Key
  contentKey : Req → Option Key
  dumps : V → Option Raw
  loads : Raw → Option V

/-- The entries in Redis, the three dictionaries with the events in them, and the clean-ups that are due. Of each key it is
kept when it was invalidated for the last time. -/
structure CacheStore (Req Key V Raw E : Type) where
  now : ℕ := 0
  entries : Key → Option (Computed Req Raw) := fun _ => none
  computations : Key → Option ℕ := fun _ => none
  results : Key → Option (Computed Req V) := fun _ => none
  errors : Key → Option (Raised E) := fun _ => none
  created : ℕ := 0
  isSet : ℕ → Bool := fun _ => false
  cleanups : List Key := []
  invalidated : Key → ℕ := fun _ => 0

inductive FlightPhase (Req V E : Type)
  /-- Neither key is in the cache. -/
  | locking
  | waiting (event : ℕ)
  | computing (event : ℕ)
  | storing (event : ℕ) (result : Computed Req V)
  | failing (event : ℕ) (error : Raised E)
  /-- "No result found after event": the function is called without a flight. -/
  | fallback
  /-- There is no cache. -/
  | direct
  | returned (result : Computed Req V)
  | raised (error : Raised E)
  /-- `is_computing` has no value. -/
  | unbound
  | cancelled

/-- `since` is when all keys of the request had been invalidated before it started. -/
structure FlightCall (Req V E : Type) where
  request : Req
  startedAt : ℕ
  since : ℕ
  phase : FlightPhase Req V E

inductive Outcome (V E : Type)
  | returns (value : V)
  | raises (error : E)
  | cancelled

section Cache
variable {Req Key V Raw E : Type} [DecidableEq Key] (f : CachedFunction Req Key V Raw)

def CachedFunction.keys (r : Req) : List Key := f.cacheKey r :: (f.contentKey r).toList

def CachedFunction.flightKey (r : Req) : Key := (f.contentKey r).getD (f.cacheKey r)

namespace CacheStore
variable (s : CacheStore Req Key V Raw E)

/-- `cache.get`, while Redis answers. -/
def get (answers : Bool) (key : Key) : Option (Computed Req V) :=
  if answers then (s.entries key).bind fun entry => (f.loads entry.value).map ({ entry with value := · }) else none

/-- `cache.set`, while Redis answers. -/
def set (answers : Bool) (key : Key) (result : Computed Req V) : CacheStore Req Key V Raw E :=
  match answers, f.dumps result.value with
  | true, some raw => { s with entries := Function.update s.entries key (some { result with value := raw }) }
  | _, _ => s

def setKeys (redis : ℕ → Bool) (r : Req) (result : Computed Req V) : CacheStore Req Key V Raw E :=
  let s' := s.set f (redis 0) (f.cacheKey r) result
  match f.contentKey r with
  | none => s'
  | some contentKey => s'.set f (redis 1) contentKey result

def backfill (answers : Bool) (r : Req) (result : Computed Req V) : CacheStore Req Key V Raw E :=
  if (f.contentKey r).isSome then s.set f answers (f.cacheKey r) result else s

def lookup (redis : ℕ → Bool) (r : Req) : Option (Computed Req V) × CacheStore Req Key V Raw E :=
  match s.get f (redis 0) (f.cacheKey r) with
  | some result => (some result, s)
  | none =>
    match (f.contentKey r).bind (s.get f (redis 1)) with
    | some result => (some result, s.backfill f (redis 2) r result)
    | none => (none, s)

def since (r : Req) : ℕ :=
  match f.contentKey r with
  | none => s.invalidated (f.cacheKey r)
  | some contentKey => min (s.invalidated (f.cacheKey r)) (s.invalidated contentKey)

def begin (key : Key) : CacheStore Req Key V Raw E :=
  { s with computations := Function.update s.computations key (some s.created), created := s.created + 1 }

def record (key : Key) (result : Computed Req V) : CacheStore Req Key V Raw E :=
  { s with results := Function.update s.results key (some result) }

def recordError (key : Key) (error : Raised E) : CacheStore Req Key V Raw E :=
  { s with errors := Function.update s.errors key (some error) }

def complete (key : Key) (event : ℕ) : CacheStore Req Key V Raw E :=
  { s with isSet := Function.update s.isSet event true, cleanups := s.cleanups ++ [key] }

/-- `_cleanup_inflight` -/
def cleanup (key : Key) : CacheStore Req Key V Raw E :=
  { s with
    computations := Function.update s.computations key none
    results := Function.update s.results key none
    errors := Function.update s.errors key none
    cleanups := s.cleanups.erase key }

/-- `delete_pattern` -/
def deletePattern (isMatch : Key → Bool) : CacheStore Req Key V Raw E :=
  { s with
    entries := fun key => if isMatch key then none else s.entries key
    invalidated := fun key => if isMatch key then s.now else s.invalidated key }

def expire (gone : Key → Bool) : CacheStore Req Key V Raw E :=
  { s with entries := fun key => if gone key then none else s.entries key }

def tick : CacheStore Req Key V Raw E := { s with now := s.now + 1 }

end CacheStore
end Cache
section Calls
variable {Req Key V Raw E : Type} [DecidableEq Key] (f : CachedFunction Req Key V Raw)

abbrev FlightCall.to (c : FlightCall Req V E) (phase : FlightPhase Req V E) : FlightCall Req V E := { c with phase }

def CacheStore.arrive (s : CacheStore Req Key V Raw E) (redis : ℕ → Bool) (r : Req) :
    FlightCall Req V E × CacheStore Req Key V Raw E :=
  let c : FlightCall Req V E := { request := r, startedAt := s.now, since := s.since f r, phase := .direct }
  if f.enabled then
    match s.lookup f redis r with
    | (some result, s') => (c.to (.returned result), s')
    | (none, s') => (c.to .locking, s')
  else (c, s)

def FlightCall.join (c : FlightCall Req V E) (redis : ℕ → Bool) (s : CacheStore Req Key V Raw E) :
    FlightCall Req V E × CacheStore Req Key V Raw E :=
  match s.computations (f.flightKey c.request) with
  | none => (c.to (.computing s.created), s.begin (f.flightKey c.request))
  | some event =>
    if s.isSet event then
      match s.results (f.flightKey c.request), s.errors (f.flightKey c.request) with
      | some result, _ => (c.to (.returned result), s.backfill f (redis 0) c.request result)
      | none, some error => (c.to (.raised error), s)
      | none, none => (c.to .unbound, s)
    else (c.to (.waiting event), s)

def FlightCall.wake (c : FlightCall Req V E) (redis : ℕ → Bool) (s : CacheStore Req Key V Raw E) :
    FlightCall Req V E × CacheStore Req Key V Raw E :=
  match s.results (f.flightKey c.request), s.errors (f.flightKey c.request) with
  | some result, _ => (c.to (.returned result), s.backfill f (redis 0) c.request result)
  | none, some error => (c.to (.raised error), s)
  | none, none => (c.to .fallback, s)

def FlightCall.turn (c : FlightCall Req V E) (redis : ℕ → Bool) (s : CacheStore Req Key V Raw E) :
    Option (FlightCall Req V E × CacheStore Req Key V Raw E) :=
  match c.phase with
  | .locking => some (c.join f redis s)
  | .waiting event => if s.isSet event then some (c.wake f redis s) else none
  | .storing event result =>
    some (c.to (.returned result), ((s.record (f.flightKey c.request) result).setKeys f redis c.request result).complete
      (f.flightKey c.request) event)
  | .failing event error =>
    some (c.to (.raised error), (s.recordError (f.flightKey c.request) error).complete (f.flightKey c.request) event)
  | _ => none

def FlightCall.finish (c : FlightCall Req V E) (redis : ℕ → Bool) (s : CacheStore Req Key V Raw E) :
    Outcome V E → Option (FlightCall Req V E × CacheStore Req Key V Raw E)
  | .returns value =>
    let result : Computed Req V := { value, origin := c.request, ended := s.now }
    match c.phase with
    | .computing event => some (c.to (.storing event result), s)
    | .fallback => some (c.to (.returned result), s.setKeys f redis c.request result)
    | .direct => some (c.to (.returned result), s)
    | _ => none
  | .raises error =>
    let raised : Raised E := { error, ended := s.now }
    match c.phase with
    | .computing event => some (c.to (.failing event raised), s)
    | .fallback | .direct => some (c.to (.raised raised), s)
    | _ => none
  | .cancelled =>
    match c.phase with
    | .computing _ | .fallback | .direct => some (c.to .cancelled, s)
    | _ => none

def FlightCall.cancel (c : FlightCall Req V E) : Option (FlightCall Req V E) :=
  match c.phase with
  | .locking | .waiting _ | .storing _ _ | .failing _ _ => some (c.to .cancelled)
  | _ => none

abbrev FlightWorld (Req Key V Raw E : Type) := Party (CacheStore Req Key V Raw E) (FlightCall Req V E)

inductive FlightEvent (Req Key V E : Type)
  | arrive (request : Req) (redis : ℕ → Bool)
  | turn (call : ℕ) (redis : ℕ → Bool)
  | finish (call : ℕ) (outcome : Outcome V E) (redis : ℕ → Bool)
  | cancel (call : ℕ)
  | cleanup (key : Key)
  | deletePattern (isMatch : Key → Bool)
  | expire (gone : Key → Bool)

def FlightWorld.act (w : FlightWorld Req Key V Raw E) : FlightEvent Req Key V E → Option (FlightWorld Req Key V Raw E)
  | .arrive r redis => some ((w.setStore (w.store.arrive f redis r).2).join (w.store.arrive f redis r).1)
  | .turn i redis => w.calls[i]?.bind fun c => (c.turn f redis w.store).map (w.put i)
  | .finish i outcome redis => w.calls[i]?.bind fun c => (c.finish f redis w.store outcome).map (w.put i)
  | .cancel i => w.calls[i]?.bind fun c => c.cancel.map fun c' => w.put i (c', w.store)
  | .cleanup key => if key ∈ w.store.cleanups then some (w.setStore (w.store.cleanup key)) else none
  | .deletePattern isMatch => some (w.setStore (w.store.deletePattern isMatch))
  | .expire gone => some (w.setStore (w.store.expire gone))

def FlightWorld.take (w : FlightWorld Req Key V Raw E) (event : FlightEvent Req Key V E) :
    Option (FlightWorld Req Key V Raw E) :=
  FlightWorld.act f (w.setStore w.store.tick) event

def FlightWorld.Step (w : FlightWorld Req Key V Raw E) (event : FlightEvent Req Key V E)
    (w' : FlightWorld Req Key V Raw E) : Prop :=
  w.take f event = some w'

abbrev FlightTransition (Req Key V Raw E : Type) := Transition (FlightWorld Req Key V Raw E) (FlightEvent Req Key V E)

def FlightWorld.initial : FlightWorld Req Key V Raw E := { store := {}, calls := [] }

end Calls
end Soter.AiCache
