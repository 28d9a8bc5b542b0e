import Mathlib.Algebra.Order.Ring.Rat
import Soter.Lib.Party

/-! The circuit breakers of the AI providers (`services/circuit_breaker.py`), the calls of `verify_claim` that ask them, and the
health queries (`services/humanitarian_verification.py`). The breaker of each provider exists from the start. Whatever a call does
with a breaker is done under the lock of the breaker; anything else may come in between. -/
namespace Soter.AiProviders
open Soter.Parties Soter.Runs

inductive CircuitState
  | closed
  | opened
  | halfOpen
  deriving DecidableEq

structure Breaker where
  state : CircuitState := .closed
  failureCount : ℕ := 0
  lastStateChange : ℚ := 0
  deriving DecidableEq

structure BreakerSettings where
  failureThreshold : ℕ
  recoveryTimeout : ℚ

namespace Breaker
variable (settings : BreakerSettings) (now : ℚ) (b : Breaker)

def transition (state : CircuitState) : Breaker := { b with state, lastStateChange := now }

def allowRequest : Bool × Breaker :=
  if b.state = .opened then
    if settings.recoveryTimeout ≤ now - b.lastStateChange then (true, b.transition now .halfOpen) else (false, b)
  else (true, b)

def recordSuccess : Breaker :=
  match b.state with
  | .halfOpen => ({ b with failureCount := 0 } : Breaker).transition now .closed
  | .closed => { b with failureCount := 0 }
  | .opened => b

def recordFailure : Breaker :=
  let b' := { b with failureCount := b.failureCount + 1 }
  match b.state with
  | .halfOpen => b'.transition now .opened
  | .closed => if settings.failureThreshold ≤ b'.failureCount then b'.transition now .opened else b'
  | .opened => b'

def reset : Breaker := ({ b with failureCount := 0 } : Breaker).transition now .closed

end Breaker
section Calls
variable {P : Type}

inductive PromptVariant
  | primary
  | fallback
  deriving DecidableEq

inductive VerifyResult (P : Type)
  | verified (provider : P)
  | manualReview
  | exhausted
  | noProviders
  deriving DecidableEq

/-- Where a call of `verify_claim` is. With a provider it has got permission for, it keeps how often the breaker had been opened
by then. -/
inductive VerifyPhase (P : Type)
  | choosing (pending : List P)
  /-- About to call `llm_chat`. -/
  | starting (provider : P) (permission : ℕ) (variant : PromptVariant) (attempt : ℕ) (pending : List P)
  | awaiting (provider : P) (permission : ℕ) (variant : PromptVariant) (attempt : ℕ) (pending : List P)
  | succeeding (provider : P)
  | failing (provider : P) (permission : ℕ) (variant : PromptVariant) (pending : List P)
  | ended (result : VerifyResult P)
  deriving DecidableEq

inductive HealthQuery
  | allProvidersUnavailable
  | checkRecovery
  deriving DecidableEq

inductive QueryPhase (P : Type)
  | asking (query : HealthQuery) (pending : List P)
  | answered (answer : Bool)

/-- The clock, the breakers and the health queries under way. Of each breaker it is kept how often it has been opened, when it
was opened for the last time unless it has been reset since, and whether it is a query that made it half-open, after which no
call has asked. -/
structure ProviderStore (P : Type) where
  now : ℚ := 0
  breakers : P → Breaker := fun _ => {}
  queries : List (QueryPhase P) := []
  openings : P → ℕ := fun _ => 0
  openedAt : P → Option ℚ := fun _ => none
  probed : P → Bool := fun _ => false

/-- What `llm_chat` leads to: an answer of the right shape, one of another shape, a refusal, or an exception. -/
inductive Answer
  | valid
  | malformed
  | refusal
  | failure

def maxAttemptsPerPrompt : ℕ := 2

def VerifyPhase.next (provider : P) (permission : ℕ) (pending : List P) : PromptVariant → VerifyPhase P
  | .primary => .starting provider permission .fallback 1 pending
  | .fallback => .choosing pending

/-- `_call_and_validate`, and how its exceptions are caught. -/
def VerifyPhase.receive (answer : Answer) : VerifyPhase P → Option (VerifyPhase P)
  | .awaiting provider permission variant attempt pending =>
    match answer with
    | .valid => some (.succeeding provider)
    | .malformed =>
      if attempt < maxAttemptsPerPrompt then some (.starting provider permission variant (attempt + 1) pending)
      else some (.next provider permission pending variant)
    | .refusal => some (.next provider permission pending variant)
    | .failure => some (.failing provider permission variant pending)
  | _ => none

variable [DecidableEq P] (settings : BreakerSettings) (fallbackProvider : P → Option P)

namespace ProviderStore
variable (s : ProviderStore P)

def setBreaker (provider : P) (b : Breaker) : ProviderStore P :=
  { s with breakers := Function.update s.breakers provider b, probed := Function.update s.probed provider false }

/-- `breaker.record_failure()` -/
def recordFailure (provider : P) : ProviderStore P :=
  let b := (s.breakers provider).recordFailure settings s.now
  if b.state = .opened ∧ (s.breakers provider).state ≠ .opened then
    { s.setBreaker provider b with
      openings := Function.update s.openings provider (s.openings provider + 1)
      openedAt := Function.update s.openedAt provider (some s.now) }
  else s.setBreaker provider b

def reset (provider : P) : ProviderStore P :=
  { s.setBreaker provider ((s.breakers provider).reset s.now) with openedAt := Function.update s.openedAt provider none }

end ProviderStore

def VerifyPhase.turn (exceeded : Bool) (s : ProviderStore P) : VerifyPhase P → Option (VerifyPhase P × ProviderStore P)
  | .choosing [] => some (.ended .exhausted, s)
  | .choosing (provider :: pending) =>
    if exceeded then
      match (fallbackProvider provider).filter (· ∈ pending) with
      | none => some (.ended .manualReview, s)
      | some fallback => some (.choosing (fallback :: pending.erase fallback), s)
    else
      let asked := (s.breakers provider).allowRequest settings s.now
      some (if asked.1 then .starting provider (s.openings provider) .primary 1 pending else .choosing pending,
        s.setBreaker provider asked.2)
  | .starting provider permission variant attempt pending => some (.awaiting provider permission variant attempt pending, s)
  | .succeeding provider =>
    some (.ended (.verified provider), s.setBreaker provider ((s.breakers provider).recordSuccess s.now))
  | .failing provider permission variant pending =>
    some (.next provider permission pending variant, s.recordFailure settings provider)
  | .awaiting _ _ _ _ _ | .ended _ => none

def ProviderStore.ask (s : ProviderStore P) : QueryPhase P → Option (QueryPhase P × ProviderStore P)
  | .asking _ [] => some (.answered false, s)
  | .asking query (provider :: pending) =>
    let asked := (s.breakers provider).allowRequest settings s.now
    let s' := { s with
      breakers := Function.update s.breakers provider asked.2
      probed := Function.update s.probed provider (s.probed provider || asked.2 ≠ s.breakers provider) }
    if asked.1 then some (.answered (query = .checkRecovery), s')
    else if pending = [] then some (.answered (query = .allProvidersUnavailable), s')
    else some (.asking query pending, s')
  | .answered _ => none

abbrev ProviderWorld (P : Type) := Party (ProviderStore P) (VerifyPhase P)

inductive ProviderEvent (P : Type)
  /-- With the providers that `resolve_llm` gives. -/
  | verifyClaim (providers : List P)
  | turn (call : ℕ) (exceeded : Bool)
  | answer (call : ℕ) (answer : Answer)
  | query (query : HealthQuery) (providers : List P)
  | ask (query : ℕ)
  | reset (provider : P)
  | pass (duration : ℚ)

def ProviderWorld.take (w : ProviderWorld P) : ProviderEvent P → Option (ProviderWorld P)
  | .verifyClaim providers => some (w.join (if providers = [] then .ended .noProviders else .choosing providers))
  | .turn i exceeded =>
    w.calls[i]?.bind fun phase => (phase.turn settings fallbackProvider exceeded w.store).map (w.put i)
  | .answer i answer => w.calls[i]?.bind fun phase => (phase.receive answer).map fun phase' => w.put i (phase', w.store)
  | .query query providers =>
    some (w.setStore { w.store with queries := w.store.queries ++ [.asking query providers] })
  | .ask k =>
    w.store.queries[k]?.bind fun phase => (w.store.ask settings phase).map fun result =>
      w.setStore { result.2 with queries := result.2.queries.set k result.1 }
  | .reset provider => some (w.setStore (w.store.reset provider))
  | .pass duration =>
    if 0 ≤ duration then some (w.setStore { w.store with now := w.store.now + duration }) else none

def ProviderWorld.Step (w : ProviderWorld P) (event : ProviderEvent P) (w' : ProviderWorld P) : Prop :=
  w.take settings fallbackProvider event = some w'

abbrev ProviderTransition (P : Type) := Transition (ProviderWorld P) (ProviderEvent P)

def ProviderWorld.initial : ProviderWorld P := { store := {}, calls := [] }

end Calls
end Soter.AiProviders
