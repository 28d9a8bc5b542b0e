import Mathlib.Algebra.Order.Group.Int
import Mathlib.Data.Rat.Defs
import Soter.Lib.Run

/-! `NotificationBackpressureService` (`notification-backpressure.service.ts`): the circuit of each delivery provider. -/
namespace Soter.Notifications
open Soter.Runs

inductive NotificationProvider
  | email
  | sms
  deriving DecidableEq

inductive CircuitState
  | closed
  | opened
  | halfOpen
  deriving DecidableEq

structure BackpressureConfig where
  baseDelayMs : ℕ := 5000
  maxDelayMs : ℕ := 300000
  failureThreshold : ℕ := 5
  probeIntervalMs : ℕ := 60000
  failureWindowMs : ℕ := 300000

/-- `CIRCUIT_STATE_CODES` -/
def CircuitState.code : CircuitState → ℕ
  | .closed => 0
  | .opened => 1
  | .halfOpen => 2

structure ProviderCircuitOpenError where
  provider : NotificationProvider
  retryAfterMs : ℤ
  deriving DecidableEq

def NotificationProvider.name : NotificationProvider → String
  | .email => "email"
  | .sms => "sms"

def ProviderCircuitOpenError.message (e : ProviderCircuitOpenError) : String :=
  s!"Notification provider \"{e.provider.name}\" is circuit-broken; no attempt allowed for the next {max 0 ((e.retryAfterMs + 999) / 1000)}s"

/-- `new ProviderCircuitOpenError(provider, retryAfterMs)` -/
def circuitOpen (provider : NotificationProvider) (retryAfterMs : ℤ) : ProviderCircuitOpenError :=
  ⟨provider, max 0 retryAfterMs⟩

structure DeliveryOutcome where
  ok : Bool
  time : ℤ

structure ProviderState where
  state : CircuitState := .closed
  consecutiveFailures : ℕ := 0
  probeAt : ℤ := 0
  openedAt : Option ℤ := none
  /-- The oldest outcome first. -/
  outcomes : List DeliveryOutcome := []

structure Gauges where
  failureRate : ℚ
  circuitState : ℕ

structure Service where
  states : NotificationProvider → ProviderState := fun _ => {}
  gauges : NotificationProvider → Option Gauges := fun _ => none

section Delays
variable (config : BackpressureConfig) (service : Service) (provider : NotificationProvider)

def maxBackoffExponent : ℕ := 24

def ProviderState.gated (state : ProviderState) (now : ℤ) : ℤ :=
  if state.state = .opened then max 0 (state.probeAt - now) else 0

def getRetryDelay (attemptsMade now : ℤ) : ℤ :=
  let state := service.states provider
  let exponent := min ((max (attemptsMade - 1) 0).toNat + state.consecutiveFailures) maxBackoffExponent
  let escalated : ℤ := min config.maxDelayMs (config.baseDelayMs * 2 ^ exponent)
  max escalated (state.gated now)

def getInitialDelay (now : ℤ) : ℤ := (service.states provider).gated now

end Delays
section Circuit
variable (config : BackpressureConfig) (provider : NotificationProvider) (now : ℤ) (service : Service)

def pruneOutcomes (state : ProviderState) : ProviderState :=
  { state with outcomes := state.outcomes.dropWhile (·.time < now - config.failureWindowMs) }

def failureRate (outcomes : List DeliveryOutcome) : ℚ :=
  if outcomes.length = 0 then 0 else (outcomes.countP (!·.ok) : ℚ) / (outcomes.length : ℚ)

/-- `publishCircuitMetrics`, which asks for the failure rate, for a provider that comes to this state. -/
def publishCircuitMetrics (state : ProviderState) : Service :=
  let pruned := pruneOutcomes config now state
  let gauges : Gauges := ⟨failureRate pruned.outcomes, pruned.state.code⟩
  { states := fun p => if p = provider then pruned else service.states p
    gauges := fun p => if p = provider then gauges else service.gauges p }

def openCircuit (state : ProviderState) : Service :=
  publishCircuitMetrics config provider now service
    { state with state := .opened, probeAt := now + config.probeIntervalMs, openedAt := some now }

def assertAttemptAllowed : Except ProviderCircuitOpenError Unit × Service :=
  let state := service.states provider
  match state.state with
  | .closed => (.ok (), service)
  | .halfOpen =>
    if now < state.probeAt then (.ok (), service)
    else (.error (circuitOpen provider config.probeIntervalMs), openCircuit config provider now service state)
  | .opened =>
    if now < state.probeAt then (.error (circuitOpen provider (state.probeAt - now)), service)
    else (.ok (), publishCircuitMetrics config provider now service
      { state with state := .halfOpen, probeAt := now + config.probeIntervalMs })

def recordSuccess : Service :=
  let state := service.states provider
  publishCircuitMetrics config provider now service (pruneOutcomes config now
    { state := .closed, consecutiveFailures := 0, probeAt := 0, openedAt := none
      outcomes := state.outcomes ++ [⟨true, now⟩] })

def recordFailure : Service :=
  let state := service.states provider
  let failed := pruneOutcomes config now
    { state with
      consecutiveFailures := state.consecutiveFailures + 1
      outcomes := state.outcomes ++ [⟨false, now⟩] }
  if config.failureThreshold ≤ failed.consecutiveFailures then openCircuit config provider now service failed
  else publishCircuitMetrics config provider now service failed

end Circuit

inductive CircuitOp
  | assertAttemptAllowed
  | recordSuccess
  | recordFailure
  deriving DecidableEq

structure CircuitCall where
  op : CircuitOp
  provider : NotificationProvider
  now : ℤ

def CircuitCall.run (config : BackpressureConfig) (call : CircuitCall) (service : Service) :
    Except ProviderCircuitOpenError Unit × Service :=
  match call.op with
  | .assertAttemptAllowed => Notifications.assertAttemptAllowed config call.provider call.now service
  | .recordSuccess => (.ok (), Notifications.recordSuccess config call.provider call.now service)
  | .recordFailure => (.ok (), Notifications.recordFailure config call.provider call.now service)

structure Clocked where
  service : Service := {}
  clock : ℤ

def CircuitStep (config : BackpressureConfig) (c : Clocked) (call : CircuitCall) (c' : Clocked) : Prop :=
  c.clock ≤ call.now ∧ c' = ⟨(call.run config c.service).2, call.now⟩

abbrev CircuitTransition := Transition Clocked CircuitCall

end Soter.Notifications
