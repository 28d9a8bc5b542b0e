import Soter.Notifications.Backpressure

/-! When the cutoff of a provider keeps its promises. -/
namespace Soter.Notifications
open Soter.Runs

variable {config : BackpressureConfig}

def Opens (p : NotificationProvider) (t : CircuitTransition) : Prop :=
  (t.post.service.states p).state = .opened ∧ (t.post.service.states p).openedAt = some t.label.now

def CircuitCall.IsAttempt (p : NotificationProvider) (call : CircuitCall) : Prop :=
  call.op = .assertAttemptAllowed ∧ call.provider = p

def CircuitCall.IsSuccess (p : NotificationProvider) (call : CircuitCall) : Prop :=
  call.op = .recordSuccess ∧ call.provider = p

def CircuitCall.IsOutcome (p : NotificationProvider) (call : CircuitCall) : Prop :=
  call.op ≠ .assertAttemptAllowed ∧ call.provider = p

def Admitted (config : BackpressureConfig) (p : NotificationProvider) (t : CircuitTransition) : Prop :=
  t.label.IsAttempt p ∧ (t.label.run config t.pre.service).1 = .ok ()

/-- Once the circuit opens, no attempt is admitted for a probe interval unless a success is recorded; then, until an
outcome is recorded, one is admitted for each probe interval; and while it is open no delay ends before the probe. -/
structure CutsOff (config : BackpressureConfig) (tr : List CircuitTransition) : Prop where
  cutoff : ∀ p before opening middle attempt after, tr = before ++ opening :: (middle ++ attempt :: after) →
    Opens p opening → (∀ t ∈ middle, ¬ t.label.IsSuccess p) → Admitted config p attempt →
    opening.label.now + config.probeIntervalMs ≤ attempt.label.now
  probe : ∀ p before opening middle probe between attempt after,
    tr = before ++ opening :: (middle ++ probe :: (between ++ attempt :: after)) → Opens p opening →
    (∀ t ∈ middle, ¬ t.label.IsOutcome p) → (∀ t ∈ between, ¬ t.label.IsOutcome p) →
    Admitted config p probe → Admitted config p attempt →
    probe.label.now + config.probeIntervalMs ≤ attempt.label.now
  delays : ∀ t ∈ tr, ∀ p, (t.post.service.states p).state = .opened → ∀ attemptsMade now : ℤ,
    (t.post.service.states p).probeAt ≤ now + getRetryDelay config t.post.service p attemptsMade now ∧
      (t.post.service.states p).probeAt ≤ now + getInitialDelay t.post.service p now

def AwaitsProbe (t : CircuitTransition) : Prop :=
  t.label.op = .assertAttemptAllowed → (t.pre.service.states t.label.provider).state = .halfOpen →
    (t.pre.service.states t.label.provider).probeAt ≤ t.label.now

instance (t : CircuitTransition) : Decidable (AwaitsProbe t) :=
  inferInstanceAs (Decidable (_ → _ → _))

section Circuit

structure Circuit where
  state : CircuitState
  consecutiveFailures : ℕ
  probeAt : ℤ
  openedAt : Option ℤ

def ProviderState.circuit (state : ProviderState) : Circuit :=
  ⟨state.state, state.consecutiveFailures, state.probeAt, state.openedAt⟩

def Circuit.open (config : BackpressureConfig) (now : ℤ) (c : Circuit) : Circuit :=
  ⟨.opened, c.consecutiveFailures, now + config.probeIntervalMs, some now⟩

def Circuit.after (config : BackpressureConfig) (now : ℤ) (c : Circuit) : CircuitOp → Circuit
  | .assertAttemptAllowed =>
    match c.state with
    | .closed => c
    | .halfOpen => if now < c.probeAt then c else c.open config now
    | .opened => if now < c.probeAt then c else { c with state := .halfOpen, probeAt := now + config.probeIntervalMs }
  | .recordSuccess => ⟨.closed, 0, 0, none⟩
  | .recordFailure =>
    let failed := { c with consecutiveFailures := c.consecutiveFailures + 1 }
    if config.failureThreshold ≤ failed.consecutiveFailures then failed.open config now else failed

def Service.circuit (service : Service) (p : NotificationProvider) : Circuit := (service.states p).circuit

theorem publish_circuit (p q : NotificationProvider) (now : ℤ) (service : Service) (state : ProviderState) :
    (publishCircuitMetrics config p now service state).circuit q =
      if q = p then state.circuit else service.circuit q := by
  simp only [Service.circuit, publishCircuitMetrics]
  split
  · rfl
  · rfl

section Calls
variable (p q : NotificationProvider) (now : ℤ) (service : Service)

theorem recordSuccess_circuit : (recordSuccess config p now service).circuit q =
    if q = p then (service.circuit p).after config now .recordSuccess else service.circuit q :=
  publish_circuit p q now service _

theorem recordFailure_circuit : (recordFailure config p now service).circuit q =
    if q = p then (service.circuit p).after config now .recordFailure else service.circuit q := by
  have hafter : (service.circuit p).after config now .recordFailure =
      if config.failureThreshold ≤ (service.states p).consecutiveFailures + 1 then
        ⟨.opened, (service.states p).consecutiveFailures + 1, now + config.probeIntervalMs, some now⟩
      else ⟨(service.states p).state, (service.states p).consecutiveFailures + 1, (service.states p).probeAt,
        (service.states p).openedAt⟩ := rfl
  rw [hafter]
  by_cases hthreshold : config.failureThreshold ≤ (service.states p).consecutiveFailures + 1
  · rw [if_pos hthreshold, recordFailure]
    exact (congrArg (Service.circuit · q) (if_pos hthreshold)).trans (publish_circuit p q now service _)
  · rw [if_neg hthreshold, recordFailure]
    exact (congrArg (Service.circuit · q) (if_neg hthreshold)).trans (publish_circuit p q now service _)

theorem assertAttemptAllowed_circuit (config : BackpressureConfig) :
    ((assertAttemptAllowed config p now service).1 = .ok () ↔ match (service.circuit p).state with
      | .closed => True
      | .halfOpen => now < (service.circuit p).probeAt
      | .opened => (service.circuit p).probeAt ≤ now) ∧
    (assertAttemptAllowed config p now service).2.circuit q =
      if q = p then (service.circuit p).after config now .assertAttemptAllowed else service.circuit q := by
  have hsame : service.circuit q = if q = p then service.circuit p else service.circuit q := by
    split
    · rename_i hq
      rw [hq]
    · rfl
  have hprobe : (service.circuit p).probeAt = (service.states p).probeAt := rfl
  cases hstate : (service.states p).state with
  | closed =>
    have hcircuit : (service.circuit p).state = .closed := hstate
    simp only [assertAttemptAllowed, Circuit.after, hstate, hcircuit]
    exact ⟨trivial, hsame⟩
  | halfOpen =>
    have hcircuit : (service.circuit p).state = .halfOpen := hstate
    by_cases hearly : now < (service.states p).probeAt
    · simp only [assertAttemptAllowed, Circuit.after, hstate, hcircuit, hprobe, if_pos hearly]
      exact ⟨⟨fun _ => hearly, fun _ => trivial⟩, hsame⟩
    · simp only [assertAttemptAllowed, Circuit.after, hstate, hcircuit, hprobe, if_neg hearly]
      exact ⟨iff_of_false (fun h => by cases h) hearly, publish_circuit p q now service _⟩
  | opened =>
    have hcircuit : (service.circuit p).state = .opened := hstate
    by_cases hearly : now < (service.states p).probeAt
    · simp only [assertAttemptAllowed, Circuit.after, hstate, hcircuit, hprobe, if_pos hearly]
      exact ⟨iff_of_false (fun h => by cases h) (not_le.mpr hearly), hsame⟩
    · simp only [assertAttemptAllowed, Circuit.after, hstate, hcircuit, hprobe, if_neg hearly]
      exact ⟨⟨fun _ => not_lt.mp hearly, fun _ => trivial⟩, publish_circuit p q now service _⟩

end Calls

theorem run_circuit (call : CircuitCall) (service : Service) (p : NotificationProvider) :
    (call.run config service).2.circuit p =
      if p = call.provider then (service.circuit call.provider).after config call.now call.op
      else service.circuit p := by
  rcases call with ⟨op, provider, now⟩
  cases op with
  | assertAttemptAllowed => exact (assertAttemptAllowed_circuit provider p now service config).2
  | recordSuccess => exact recordSuccess_circuit provider p now service
  | recordFailure => exact recordFailure_circuit provider p now service

theorem admitted_iff {p : NotificationProvider} {t : CircuitTransition} (h : t.label.IsAttempt p) :
    Admitted config p t ↔ match (t.pre.service.circuit p).state with
      | .closed => True
      | .halfOpen => t.label.now < (t.pre.service.circuit p).probeAt
      | .opened => (t.pre.service.circuit p).probeAt ≤ t.label.now := by
  rcases t with ⟨pre, ⟨op, provider, now⟩, post⟩
  obtain ⟨rfl, rfl⟩ := h
  rw [← (assertAttemptAllowed_circuit provider provider now pre.service config).1]
  exact ⟨fun h => h.2, fun h => ⟨⟨rfl, rfl⟩, h⟩⟩

inductive Moves (config : BackpressureConfig) (p : NotificationProvider) (call : CircuitCall) (c c' : Circuit) : Prop
  | stays (quiet : ¬ call.IsOutcome p) (same : c' = c)
  | probes (attempt : call.IsAttempt p) (state : c.state = .opened) (due : c.probeAt ≤ call.now)
      (after : c' = { c with state := .halfOpen, probeAt := call.now + config.probeIntervalMs })
  | reopens (attempt : call.IsAttempt p) (state : c.state = .halfOpen) (after : c' = c.open config call.now)
  | closes (success : call.IsSuccess p) (after : c' = ⟨.closed, 0, 0, none⟩)
  | opens (outcome : call.IsOutcome p) (reached : config.failureThreshold ≤ c.consecutiveFailures + 1)
      (after : c' = Circuit.open config call.now { c with consecutiveFailures := c.consecutiveFailures + 1 })
  | fails (outcome : call.IsOutcome p) (below : c.consecutiveFailures + 1 < config.failureThreshold)
      (after : c' = { c with consecutiveFailures := c.consecutiveFailures + 1 })

theorem after_moves (config : BackpressureConfig) (call : CircuitCall) (c : Circuit) :
    Moves config call.provider call c (c.after config call.now call.op) := by
  rcases call with ⟨op, p, now⟩
  cases op with
  | assertAttemptAllowed =>
    have hquiet : ¬ CircuitCall.IsOutcome p ⟨.assertAttemptAllowed, p, now⟩ := fun h => h.1 rfl
    cases hstate : c.state with
    | closed =>
      simp only [Circuit.after, hstate]
      exact .stays hquiet rfl
    | halfOpen =>
      simp only [Circuit.after, hstate]
      split
      · exact .stays hquiet rfl
      · exact .reopens ⟨rfl, rfl⟩ hstate rfl
    | opened =>
      simp only [Circuit.after, hstate]
      split
      · exact .stays hquiet rfl
      · rename_i hdue
        exact .probes ⟨rfl, rfl⟩ hstate (not_lt.mp hdue) rfl
  | recordSuccess => exact .closes ⟨rfl, rfl⟩ rfl
  | recordFailure =>
    have houtcome : CircuitCall.IsOutcome p ⟨.recordFailure, p, now⟩ := ⟨nofun, rfl⟩
    simp only [Circuit.after]
    split
    · rename_i hreached
      exact .opens houtcome hreached rfl
    · rename_i hbelow
      exact .fails houtcome (not_le.mp hbelow) rfl

variable {c c' : Clocked} {call : CircuitCall}

theorem step_moves (h : CircuitStep config c call c') (p : NotificationProvider) :
    Moves config p call (c.service.circuit p) (c'.service.circuit p) := by
  rw [h.2]
  change Moves config p call _ ((call.run config c.service).2.circuit p)
  rw [run_circuit]
  split
  · rename_i hp
    rw [hp]
    exact after_moves config call _
  · rename_i hp
    exact .stays (fun houtcome => hp houtcome.2.symm) rfl

theorem step_clock (h : CircuitStep config c call c') : c'.clock = call.now := by
  rw [h.2]

end Circuit
section Invariants
variable {p : NotificationProvider} {c c' : Clocked} {call : CircuitCall} {start : Clocked}
  {tr : List CircuitTransition}

/-- A circuit that is not closed has failed often enough, and one that is open knows since when. -/
structure Sound (config : BackpressureConfig) (p : NotificationProvider) (c : Clocked) : Prop where
  tripped : (c.service.circuit p).state ≠ .closed → config.failureThreshold ≤ (c.service.circuit p).consecutiveFailures
  since : (c.service.circuit p).state = .opened → ∃ time, (c.service.circuit p).openedAt = some time ∧
    (c.service.circuit p).probeAt = time + config.probeIntervalMs

theorem sound_step (h : Sound config p c) (hstep : CircuitStep config c call c') : Sound config p c' := by
  rcases step_moves hstep p with ⟨-, hsame⟩ | ⟨-, hstate, -, hafter⟩ | ⟨-, hstate, hafter⟩ | ⟨-, hafter⟩ |
    ⟨-, hreached, hafter⟩ | ⟨-, hbelow, hafter⟩
  · exact ⟨by rw [hsame]; exact h.tripped, by rw [hsame]; exact h.since⟩
  · have hfailures := h.tripped (by rw [hstate]; decide)
    refine ⟨fun _ => ?_, fun hopen => ?_⟩
    · rw [hafter]
      exact hfailures
    · rw [hafter] at hopen
      cases hopen
  · have hfailures := h.tripped (by rw [hstate]; decide)
    refine ⟨fun _ => ?_, fun _ => ⟨call.now, ?_, ?_⟩⟩
    · rw [hafter]
      exact hfailures
    · rw [hafter]
      rfl
    · rw [hafter]
      rfl
  · refine ⟨fun hopen => ?_, fun hopen => ?_⟩
    · rw [hafter] at hopen
      exact absurd rfl hopen
    · rw [hafter] at hopen
      cases hopen
  · refine ⟨fun _ => ?_, fun _ => ⟨call.now, ?_, ?_⟩⟩
    · rw [hafter]
      exact hreached
    · rw [hafter]
      rfl
    · rw [hafter]
      rfl
  · -- below the threshold the circuit was closed already
    have hclosed : (c.service.circuit p).state = .closed := by
      by_contra hopen
      have := h.tripped hopen
      omega
    refine ⟨fun hopen => ?_, fun hopen => ?_⟩
    · rw [hafter] at hopen
      exact absurd hclosed hopen
    · rw [hafter] at hopen
      have hopen : (c.service.circuit p).state = .opened := hopen
      rw [hclosed] at hopen
      cases hopen

theorem sound_of_run (hrun : Run (CircuitStep config) start tr c) (hstart : start.service = {}) :
    Sound config p c := by
  have hfirst : Sound config p start := by
    refine ⟨fun hopen => ?_, fun hopen => ?_⟩
    · rw [hstart] at hopen
      exact absurd rfl hopen
    · rw [hstart] at hopen
      cases hopen
  exact hrun.invariant (C := fun _ => True) hfirst (fun _ _ => trivial) fun t hstep _ hpre => sound_step hpre hstep

/-- After the circuit opened at `time`, without a success. -/
def Cut (config : BackpressureConfig) (p : NotificationProvider) (time : ℤ) (c : Clocked) : Prop :=
  time ≤ c.clock ∧
    ((c.service.circuit p).state = .opened ∧ time + config.probeIntervalMs ≤ (c.service.circuit p).probeAt ∨
      (c.service.circuit p).state = .halfOpen ∧ time + config.probeIntervalMs ≤ c.clock)

theorem cut_step {time : ℤ} (h : Cut config p time c) (hstep : CircuitStep config c call c')
    (hsuccess : ¬ call.IsSuccess p) : Cut config p time c' := by
  have hclock := step_clock hstep
  have hlater : time ≤ c'.clock := by
    rw [hclock]
    exact le_trans h.1 hstep.1
  refine ⟨hlater, ?_⟩
  rcases step_moves hstep p with ⟨-, hsame⟩ | ⟨-, hstate, hdue, hafter⟩ | ⟨-, hstate, hafter⟩ | ⟨hclosed, -⟩ |
    ⟨-, -, hafter⟩ | ⟨-, -, hafter⟩
  · rw [hsame]
    rcases h.2 with hopen | ⟨hhalf, hpast⟩
    · exact .inl hopen
    · refine .inr ⟨hhalf, ?_⟩
      rw [hclock]
      exact le_trans hpast hstep.1
  · rcases h.2 with ⟨-, hprobe⟩ | ⟨hhalf, -⟩
    · rw [hafter, hclock]
      exact .inr ⟨rfl, le_trans hprobe hdue⟩
    · rw [hstate] at hhalf
      cases hhalf
  · rw [hafter]
    refine .inl ⟨rfl, ?_⟩
    change time + _ ≤ call.now + _
    omega
  · exact absurd hclosed hsuccess
  · rw [hafter]
    refine .inl ⟨rfl, ?_⟩
    change time + _ ≤ call.now + _
    omega
  · rw [hafter]
    rcases h.2 with hopen | ⟨hhalf, hpast⟩
    · exact .inl hopen
    · refine .inr ⟨hhalf, ?_⟩
      rw [hclock]
      exact le_trans hpast hstep.1

/-- Since an attempt was admitted at `time`, without an outcome. -/
def Probing (config : BackpressureConfig) (p : NotificationProvider) (time : ℤ) (c : Clocked) : Prop :=
  time ≤ c.clock ∧ (c.service.circuit p).state ≠ .closed ∧
    time + config.probeIntervalMs ≤ (c.service.circuit p).probeAt

theorem probing_step {time : ℤ} (h : Probing config p time c) (hstep : CircuitStep config c call c')
    (houtcome : ¬ call.IsOutcome p) : Probing config p time c' := by
  have hclock := step_clock hstep
  have hlater : time ≤ c'.clock := by
    rw [hclock]
    exact le_trans h.1 hstep.1
  refine ⟨hlater, ?_⟩
  rcases step_moves hstep p with ⟨-, hsame⟩ | ⟨-, -, hdue, hafter⟩ | ⟨-, -, hafter⟩ | ⟨hclosed, -⟩ |
    ⟨hfailed, -, -⟩ | ⟨hfailed, -, -⟩
  · rw [hsame]
    exact h.2
  · rw [hafter]
    refine ⟨by simp, ?_⟩
    change time + _ ≤ call.now + _
    omega
  · rw [hafter]
    refine ⟨by simp [Circuit.open], ?_⟩
    change time + _ ≤ call.now + _
    omega
  · exact absurd ⟨by rw [hclosed.1]; decide, hclosed.2⟩ houtcome
  · exact absurd hfailed houtcome
  · exact absurd hfailed houtcome

def Explained (config : BackpressureConfig) (p : NotificationProvider) (tr : List CircuitTransition) (c : Clocked) :
    Prop :=
  match (c.service.circuit p).state with
  | .closed => True
  | .opened => ∃ before opening middle, tr = before ++ opening :: middle ∧ Opens p opening ∧
      ∀ t ∈ middle, ¬ t.label.IsOutcome p
  | .halfOpen => ∃ before opening middle probe between, tr = before ++ opening :: (middle ++ probe :: between) ∧
      Opens p opening ∧ (∀ t ∈ middle, ¬ t.label.IsOutcome p) ∧ (∀ t ∈ between, ¬ t.label.IsOutcome p) ∧
      Admitted config p probe ∧ (c.service.circuit p).probeAt = probe.label.now + config.probeIntervalMs

theorem forall_snoc {α : Type} {P : α → Prop} {l : List α} {a : α} (h : ∀ x ∈ l, P x) (ha : P a) : ∀ x ∈ l ++ [a], P x := by
  rw [List.forall_mem_append, List.forall_mem_singleton]
  exact ⟨h, ha⟩

theorem explained_step (h : Explained config p tr c) (hsound : Sound config p c)
    (hstep : CircuitStep config c call c') : Explained config p (tr ++ [⟨c, call, c'⟩]) c' := by
  have hopens : c'.service.circuit p = (c'.service.circuit p).open config call.now →
      Explained config p (tr ++ [⟨c, call, c'⟩]) c' := by
    intro hopen
    have hstate : (c'.service.circuit p).state = .opened := congrArg Circuit.state hopen
    rw [Explained, hstate]
    exact ⟨tr, _, [], rfl, ⟨hstate, congrArg Circuit.openedAt hopen⟩, fun _ h => absurd h List.not_mem_nil⟩
  rcases step_moves hstep p with ⟨hquiet, hsame⟩ | ⟨hattempt, hstate, hdue, hafter⟩ | ⟨-, -, hafter⟩ | ⟨-, hafter⟩ |
    ⟨-, -, hafter⟩ | ⟨-, hbelow, hafter⟩
  · rw [Explained] at h ⊢
    rw [hsame]
    cases hstate : (c.service.circuit p).state with
    | closed => trivial
    | opened =>
      rw [hstate] at h
      obtain ⟨before, opening, middle, rfl, hopening, hmiddle⟩ := h
      exact ⟨before, opening, middle ++ [⟨c, call, c'⟩], by simp, hopening, forall_snoc hmiddle hquiet⟩
    | halfOpen =>
      rw [hstate] at h
      obtain ⟨before, opening, middle, probe, between, rfl, hopening, hmiddle, hbetween, hprobe, hdue⟩ := h
      exact ⟨before, opening, middle, probe, between ++ [⟨c, call, c'⟩], by simp, hopening, hmiddle,
        forall_snoc hbetween hquiet, hprobe, hdue⟩
  · rw [Explained, hstate] at h
    obtain ⟨before, opening, middle, rfl, hopening, hmiddle⟩ := h
    have hhalf : (c'.service.circuit p).state = .halfOpen := by rw [hafter]
    have hadmitted : Admitted config p ⟨c, call, c'⟩ := by
      refine (admitted_iff hattempt).mpr ?_
      rw [hstate]
      exact hdue
    rw [Explained, hhalf]
    refine ⟨before, opening, middle, ⟨c, call, c'⟩, [], by simp, hopening, hmiddle,
      fun _ h => absurd h List.not_mem_nil, hadmitted, ?_⟩
    rw [hafter]
  · apply hopens
    rw [hafter]
    rfl
  · rw [Explained, hafter]
    trivial
  · apply hopens
    rw [hafter]
    rfl
  · have hclosed : (c'.service.circuit p).state = .closed := by
      rw [hafter]
      by_contra hopen
      have := hsound.tripped hopen
      omega
    rw [Explained, hclosed]
    trivial

theorem explained_of_run (hrun : Run (CircuitStep config) start tr c) (hstart : start.service = {}) :
    Explained config p tr c := by
  induction hrun with
  | nil =>
    rw [Explained, hstart]
    trivial
  | snoc hbefore hstep ih => exact explained_step ih (sound_of_run hbefore hstart) hstep

end Invariants
section Runs
variable {p : NotificationProvider} {start c : Clocked} {tr : List CircuitTransition}

variable {before middle after : List CircuitTransition} {opening attempt : CircuitTransition}

theorem opens_circuit {t : CircuitTransition} (h : Opens p t) (hsound : Sound config p t.post) :
    (t.post.service.circuit p).state = .opened ∧
      (t.post.service.circuit p).probeAt = t.label.now + config.probeIntervalMs := by
  refine ⟨h.1, ?_⟩
  obtain ⟨time, hsince, hprobe⟩ := hsound.since h.1
  have htime : some time = some t.label.now := hsince.symm.trans h.2
  rw [hprobe, Option.some.inj htime]

theorem gated_due {state : ProviderState} (h : state.state = .opened) (now : ℤ) :
    state.probeAt ≤ now + state.gated now := by
  rw [ProviderState.gated, if_pos h]
  omega

theorem delays_due {service : Service} (h : (service.states p).state = .opened) (attemptsMade now : ℤ) :
    (service.states p).probeAt ≤ now + getRetryDelay config service p attemptsMade now ∧
      (service.states p).probeAt ≤ now + getInitialDelay service p now := by
  have hgated := gated_due h now
  refine ⟨?_, hgated⟩
  calc (service.states p).probeAt ≤ now + (service.states p).gated now := hgated
    _ ≤ now + getRetryDelay config service p attemptsMade now := by
      apply Int.add_le_add_left
      exact le_max_right _ _

theorem cutoff_of_run (hrun : Run (CircuitStep config) start tr c) (hstart : start.service = {})
    (htr : tr = before ++ opening :: (middle ++ attempt :: after)) (hopens : Opens p opening)
    (hsuccess : ∀ t ∈ middle, ¬ t.label.IsSuccess p) (hadmitted : Admitted config p attempt) :
    opening.label.now + config.probeIntervalMs ≤ attempt.label.now := by
  rw [htr] at hrun
  obtain ⟨hbefore, hopening, hlater⟩ := hrun.split
  obtain ⟨hmiddle, hattempt, -⟩ := hlater.split
  have hopen := opens_circuit hopens (sound_of_run (hbefore.snoc hopening) hstart)
  have hfirst : Cut config p opening.label.now opening.post := by
    refine ⟨(step_clock hopening).ge, .inl ⟨hopen.1, ?_⟩⟩
    rw [hopen.2]
  have hcut : Cut config p opening.label.now attempt.pre :=
    hmiddle.invariant hfirst hsuccess fun t hstep hC hpre => cut_step hpre hstep hC
  have hallowed := (admitted_iff hadmitted.1).mp hadmitted
  rcases hcut.2 with ⟨hstate, hprobe⟩ | ⟨-, hpast⟩
  · rw [hstate] at hallowed
    exact le_trans hprobe hallowed
  · exact le_trans hpast hattempt.1

theorem probe_of_run (hrun : Run (CircuitStep config) start tr c) (hawaits : ∀ t ∈ tr, AwaitsProbe t)
    {between : List CircuitTransition} {probe : CircuitTransition}
    (htr : tr = before ++ opening :: (middle ++ probe :: (between ++ attempt :: after))) (hopens : Opens p opening)
    (hmiddle : ∀ t ∈ middle, ¬ t.label.IsOutcome p) (hbetween : ∀ t ∈ between, ¬ t.label.IsOutcome p)
    (hprobe : Admitted config p probe) (hattempt : Admitted config p attempt) :
    probe.label.now + config.probeIntervalMs ≤ attempt.label.now := by
  -- an attempt that is admitted while the circuit is not closed crosses the window
  have hcrosses : ∀ t ∈ tr, Admitted config p t → (t.pre.service.circuit p).state ≠ .closed →
      (t.pre.service.circuit p).state = .opened ∧ (t.pre.service.circuit p).probeAt ≤ t.label.now := by
    intro t ht hadmitted hopen
    have hallowed := (admitted_iff hadmitted.1).mp hadmitted
    cases hstate : (t.pre.service.circuit p).state with
    | closed => exact absurd hstate hopen
    | opened =>
      rw [hstate] at hallowed
      exact ⟨rfl, hallowed⟩
    | halfOpen =>
      rw [hstate] at hallowed
      have hlate := hawaits t ht hadmitted.1.1
      rw [hadmitted.1.2] at hlate
      exact absurd hallowed (not_lt.mpr (hlate hstate))
  have hin : probe ∈ tr ∧ attempt ∈ tr := by
    rw [htr]
    simp
  rw [htr] at hrun
  obtain ⟨-, -, hlater⟩ := hrun.split
  obtain ⟨hquiet, hstep, hlast⟩ := hlater.split
  obtain ⟨hwait, hattemptStep, -⟩ := hlast.split
  have hopen : (probe.pre.service.circuit p).state ≠ .closed := by
    have hfirst : (opening.post.service.circuit p).state ≠ .closed := by
      rw [show (opening.post.service.circuit p).state = .opened from hopens.1]
      decide
    refine hquiet.invariant (I := fun c => (c.service.circuit p).state ≠ .closed) hfirst hmiddle fun t hstep hC hpre => ?_
    rcases step_moves hstep p with ⟨-, hsame⟩ | ⟨-, -, -, hafter⟩ | ⟨-, -, hafter⟩ | ⟨hclosed, -⟩ |
      ⟨hfailed, -, -⟩ | ⟨hfailed, -, -⟩
    · rw [hsame]
      exact hpre
    · rw [hafter]
      simp
    · rw [hafter]
      simp [Circuit.open]
    · exact absurd ⟨by rw [hclosed.1]; decide, hclosed.2⟩ hC
    · exact absurd hfailed hC
    · exact absurd hfailed hC
  obtain ⟨hstate, hdue⟩ := hcrosses probe hin.1 hprobe hopen
  have hprobing : Probing config p probe.label.now probe.post := by
    have hafter : probe.post.service.circuit p =
        { probe.pre.service.circuit p with
          state := .halfOpen, probeAt := probe.label.now + config.probeIntervalMs } := by
      rw [hstep.2]
      change (probe.label.run config probe.pre.service).2.circuit p = _
      rw [run_circuit, if_pos hprobe.1.2.symm, hprobe.1.1, hprobe.1.2]
      simp only [Circuit.after, hstate, if_neg (not_lt.mpr hdue)]
    refine ⟨(step_clock hstep).ge, ?_, ?_⟩
    · rw [hafter]
      simp
    · rw [hafter]
  have hend : Probing config p probe.label.now attempt.pre :=
    hwait.invariant hprobing hbetween fun t hstep hC hpre => probing_step hpre hstep hC
  exact le_trans hend.2.2 (hcrosses attempt hin.2 hattempt hend.2.1).2

/-- The cutoff of every provider: in a run from a fresh service it keeps its promises exactly when no attempt comes
while a probe is out and its interval has not passed. -/
theorem cutsOff_iff (hrun : Run (CircuitStep config) start tr c) (hstart : start.service = {}) :
    CutsOff config tr ↔ ∀ t ∈ tr, AwaitsProbe t := by
  constructor
  · intro h t ht hattempt hstate
    by_contra hearly
    have hearly := not_le.mp hearly
    obtain ⟨earlier, later, rfl⟩ := List.append_of_mem ht
    obtain ⟨hearlier, -, -⟩ := hrun.split
    have hexplained := explained_of_run (p := t.label.provider) hearlier hstart
    rw [Explained, show (t.pre.service.circuit t.label.provider).state = .halfOpen from hstate] at hexplained
    obtain ⟨before, opening, middle, probe, between, rfl, hopens, hmiddle, hbetween, hprobe, hdue⟩ := hexplained
    have hadmitted : Admitted config t.label.provider t := by
      refine (admitted_iff ⟨hattempt, rfl⟩).mpr ?_
      rw [show (t.pre.service.circuit t.label.provider).state = .halfOpen from hstate]
      exact hearly
    have hpast := h.probe t.label.provider before opening middle probe between t later (by simp) hopens hmiddle
      hbetween hprobe hadmitted
    have hdue : (t.pre.service.states t.label.provider).probeAt = _ := hdue
    omega
  · intro hawaits
    refine ⟨?_, ?_, ?_⟩
    · intro p before opening middle attempt after htr hopens hsuccess hadmitted
      exact cutoff_of_run hrun hstart htr hopens hsuccess hadmitted
    · intro p before opening middle probe between attempt after htr hopens hmiddle hbetween hprobe hattempt
      exact probe_of_run hrun hawaits htr hopens hmiddle hbetween hprobe hattempt
    · intro t _ p hopen attemptsMade now
      exact delays_due hopen attemptsMade now

def call (config : BackpressureConfig) (c : Clocked) (call : CircuitCall) : Option Clocked :=
  if c.clock ≤ call.now then some ⟨(call.run config c.service).2, call.now⟩ else none

theorem call_step {c c' : Clocked} {circuitCall : CircuitCall} (h : call config c circuitCall = some c') :
    CircuitStep config c circuitCall c' := by
  rw [call] at h
  split at h
  · rename_i hclock
    cases h
    exact ⟨hclock, rfl⟩
  · cases h

def outage (calls : List CircuitCall) : List CircuitTransition × Clocked :=
  play (call {}) ⟨{}, 0⟩ ([1, 2, 3, 4, 5].map (⟨.recordFailure, .email, ·⟩) ++ calls)

theorem outage_run (calls : List CircuitCall) :
    Run (CircuitStep {}) ⟨{}, 0⟩ (outage calls).1 (outage calls).2 :=
  play_run (fun _ _ _ => call_step) _ _

theorem cutsOff_outage :
    CutsOff {} (outage [⟨.assertAttemptAllowed, .email, 60005⟩, ⟨.recordSuccess, .email, 60100⟩]).1 :=
  (cutsOff_iff (outage_run _) rfl).mpr (by decide +kernel)

def twoProbes : List CircuitTransition :=
  (outage [⟨.assertAttemptAllowed, .email, 60005⟩, ⟨.assertAttemptAllowed, .email, 60006⟩]).1

theorem twoProbes_admitted : ¬ CutsOff {} twoProbes := by
  intro h
  have hpast := h.probe .email (twoProbes.take 4) (twoProbes.get ⟨4, by decide +kernel⟩) []
    (twoProbes.get ⟨5, by decide +kernel⟩) [] (twoProbes.get ⟨6, by decide +kernel⟩) [] rfl ⟨rfl, rfl⟩
    (fun _ h => absurd h List.not_mem_nil) (fun _ h => absurd h List.not_mem_nil) ⟨⟨rfl, rfl⟩, rfl⟩ ⟨⟨rfl, rfl⟩, rfl⟩
  exact absurd hpast (by decide +kernel)

end Runs
end Soter.Notifications
