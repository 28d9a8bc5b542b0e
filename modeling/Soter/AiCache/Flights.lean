import Mathlib.Data.List.Nodup
import Mathlib.Order.Nat
import Soter.AiCache.SingleFlight

/-! Single flight: one execution for a flight key at a time, nobody waits in vain, and nobody is given what is older than an
invalidation or an error from before. -/
namespace Soter.AiCache
open Soter.Parties Soter.Runs Option Function

section Statement
variable {Req Key V Raw E : Type} [DecidableEq Key] (f : CachedFunction Req Key V Raw)

def FlightPhase.IsExecuting : FlightPhase Req V E → Prop
  | .computing _ | .fallback | .direct => True
  | _ => False

def FlightPhase.Owns (event : ℕ) : FlightPhase Req V E → Prop
  | .computing own | .storing own _ | .failing own _ => own = event
  | _ => False

def FlightPhase.IsOver : FlightPhase Req V E → Prop
  | .returned _ | .raised _ => True
  | _ => False

/-- What the request was given is not older than the last invalidation of its keys before it, and an error not older than the
request. -/
def FlightCall.IsFresh (c : FlightCall Req V E) : Prop :=
  match c.phase with
  | .returned result => c.since ≤ result.ended
  | .raised error => c.startedAt ≤ error.ended
  | _ => True

structure FlightWorld.IsSingleFlight (w : FlightWorld Req Key V Raw E) : Prop where
  atMostOne : ∀ (i k : ℕ) (c d : FlightCall Req V E), w.calls[i]? = some c → w.calls[k]? = some d →
    c.phase.IsExecuting → d.phase.IsExecuting → f.flightKey c.request = f.flightKey d.request → i = k
  /-- A call waits for one that is under way, or can go on. -/
  awaited : ∀ (i : ℕ) (c : FlightCall Req V E) (event : ℕ), w.calls[i]? = some c → c.phase = .waiting event →
    (∃ (k : ℕ) (d : FlightCall Req V E), w.calls[k]? = some d ∧ d.phase.Owns event) ∨
      ∀ redis, ((FlightWorld.take f w) (.turn i redis)).isSome
  /-- No key is blocked. -/
  unblocked : ∀ key event, w.store.computations key = some event →
    (∃ (k : ℕ) (d : FlightCall Req V E), w.calls[k]? = some d ∧ d.phase.Owns event) ∨ key ∈ w.store.cleanups
  bound : ∀ (i : ℕ) (c : FlightCall Req V E), w.calls[i]? = some c → c.phase ≠ .unbound
  fresh : ∀ (i : ℕ) (c : FlightCall Req V E), w.calls[i]? = some c → c.IsFresh

def EndsOnWaking (t : FlightTransition Req Key V Raw E) : Prop :=
  ∀ (i : ℕ) (redis : ℕ → Bool) (c d : FlightCall Req V E) (event : ℕ), t.label = .turn i redis →
    t.pre.calls[i]? = some c → c.phase = .waiting event → t.post.calls[i]? = some d → d.phase.IsOver

def SingleFlight (tr : List (FlightTransition Req Key V Raw E)) : Prop :=
  ∀ t ∈ tr, FlightWorld.IsSingleFlight f t.post ∧ EndsOnWaking t

end Statement
section Condition
variable {Req Key V Raw E : Type} [DecidableEq Key] (f : CachedFunction Req Key V Raw)

/-- What is written under the key, if it is, is not older than the last invalidation of it. -/
def CacheStore.MayWrite (s : CacheStore Req Key V Raw E) (answers : Bool) (key : Key) (result : Computed Req V) : Prop :=
  answers = true → (f.dumps result.value).isSome → s.invalidated key ≤ result.ended

def CacheStore.MayBackfill (s : CacheStore Req Key V Raw E) (answers : Bool) (r : Req) (result : Computed Req V) : Prop :=
  (f.contentKey r).isSome → s.MayWrite f answers (f.cacheKey r) result

def FlightPhase.IsRecent (startedAt since : ℕ) : FlightPhase Req V E → Prop
  | .storing _ result => since ≤ result.ended
  | .failing _ error => startedAt ≤ error.ended
  | _ => True

def FlightCall.FindsCurrent (c : FlightCall Req V E) (w : FlightWorld Req Key V Raw E) : Prop :=
  (∀ result ∈ w.store.results (f.flightKey c.request), c.since ≤ result.ended) ∧
  (w.store.results (f.flightKey c.request) = none →
    ∀ error ∈ w.store.errors (f.flightKey c.request), c.startedAt ≤ error.ended) ∧
  ∀ d ∈ w.calls, f.flightKey d.request = f.flightKey c.request → d.phase.IsRecent c.startedAt c.since

def FlightCall.IsTimely (c : FlightCall Req V E) (redis : ℕ → Bool) (w : FlightWorld Req Key V Raw E) : Prop :=
  match c.phase with
  | .locking =>
    c.FindsCurrent f w ∧
    ∀ result ∈ w.store.results (f.flightKey c.request), w.store.MayBackfill f (redis 0) c.request result
  | .waiting _ =>
    (w.store.results (f.flightKey c.request) ≠ none ∨ w.store.errors (f.flightKey c.request) ≠ none) ∧
    ∀ result ∈ w.store.results (f.flightKey c.request), w.store.MayBackfill f (redis 0) c.request result
  | .storing _ result =>
    w.store.MayWrite f (redis 0) (f.cacheKey c.request) result ∧
    ∀ contentKey ∈ f.contentKey c.request, w.store.MayWrite f (redis 1) contentKey result
  | _ => True

def FlightPhase.IsCancellable : FlightPhase Req V E → Prop
  | .computing _ | .storing _ _ | .failing _ _ => False
  | _ => True

/-- There is a cache; the call that computes is not cancelled, nor is its execution; a call that waits wakes before the
clean-up; and nothing is taken from a flight or written to the cache that an invalidation has overtaken. -/
def Admits (t : FlightTransition Req Key V Raw E) : Prop :=
  match t.label with
  | .arrive r redis =>
    f.enabled = true ∧ (t.pre.store.get f (redis 0) (f.cacheKey r) = none →
      ∀ result ∈ (f.contentKey r).bind (t.pre.store.get f (redis 1)), t.pre.store.MayBackfill f (redis 2) r result)
  | .turn i redis => ∀ c ∈ t.pre.calls[i]?, c.IsTimely f redis t.pre
  | .finish i .cancelled _ | .cancel i => ∀ c ∈ t.pre.calls[i]?, c.phase.IsCancellable
  | _ => True

section Decide
variable {f : CachedFunction Req Key V Raw}

instance (s : CacheStore Req Key V Raw E) (answers : Bool) (key : Key) (result : Computed Req V) :
    Decidable (s.MayWrite f answers key result) :=
  inferInstanceAs (Decidable (_ → _ → _ ≤ _))

instance (s : CacheStore Req Key V Raw E) (answers : Bool) (r : Req) (result : Computed Req V) :
    Decidable (s.MayBackfill f answers r result) :=
  inferInstanceAs (Decidable (_ → s.MayWrite f answers _ result))

instance (startedAt since : ℕ) : ∀ phase : FlightPhase Req V E, Decidable (phase.IsRecent startedAt since)
  | .storing _ result => inferInstanceAs (Decidable (since ≤ result.ended))
  | .failing _ error => inferInstanceAs (Decidable (startedAt ≤ error.ended))
  | .locking | .waiting _ | .computing _ | .fallback | .direct | .returned _ | .raised _ | .unbound | .cancelled =>
    inferInstanceAs (Decidable True)

instance (c : FlightCall Req V E) (w : FlightWorld Req Key V Raw E) : Decidable (c.FindsCurrent f w) :=
  inferInstanceAs (Decidable (_ ∧ _ ∧ _))

instance (redis : ℕ → Bool) (w : FlightWorld Req Key V Raw E) : ∀ c : FlightCall Req V E, Decidable (c.IsTimely f redis w)
  | ⟨r, startedAt, since, .locking⟩ =>
    inferInstanceAs (Decidable (FlightCall.FindsCurrent f ⟨r, startedAt, since, .locking⟩ w ∧
      ∀ result ∈ w.store.results (f.flightKey r), w.store.MayBackfill f (redis 0) r result))
  | ⟨r, _, _, .waiting _⟩ =>
    inferInstanceAs (Decidable ((w.store.results (f.flightKey r) ≠ none ∨ w.store.errors (f.flightKey r) ≠ none) ∧
      ∀ result ∈ w.store.results (f.flightKey r), w.store.MayBackfill f (redis 0) r result))
  | ⟨r, _, _, .storing _ result⟩ =>
    inferInstanceAs (Decidable (w.store.MayWrite f (redis 0) (f.cacheKey r) result ∧
      ∀ contentKey ∈ f.contentKey r, w.store.MayWrite f (redis 1) contentKey result))
  | ⟨_, _, _, .computing _⟩ | ⟨_, _, _, .failing _ _⟩ | ⟨_, _, _, .fallback⟩ | ⟨_, _, _, .direct⟩ | ⟨_, _, _, .returned _⟩
  | ⟨_, _, _, .raised _⟩ | ⟨_, _, _, .unbound⟩ | ⟨_, _, _, .cancelled⟩ => inferInstanceAs (Decidable True)

instance : ∀ phase : FlightPhase Req V E, Decidable phase.IsCancellable
  | .computing _ | .storing _ _ | .failing _ _ => inferInstanceAs (Decidable False)
  | .locking | .waiting _ | .fallback | .direct | .returned _ | .raised _ | .unbound | .cancelled =>
    inferInstanceAs (Decidable True)

instance (t : FlightTransition Req Key V Raw E) : Decidable (Admits f t) :=
  match t with
  | ⟨pre, .arrive r redis, _⟩ =>
    inferInstanceAs (Decidable (f.enabled = true ∧ (pre.store.get f (redis 0) (f.cacheKey r) = none →
      ∀ result ∈ (f.contentKey r).bind (pre.store.get f (redis 1)), pre.store.MayBackfill f (redis 2) r result)))
  | ⟨pre, .turn i redis, _⟩ => inferInstanceAs (Decidable (∀ c ∈ pre.calls[i]?, c.IsTimely f redis pre))
  | ⟨pre, .finish i .cancelled _, _⟩ | ⟨pre, .cancel i, _⟩ =>
    inferInstanceAs (Decidable (∀ c ∈ pre.calls[i]?, c.phase.IsCancellable))
  | ⟨_, .finish _ (.returns _) _, _⟩ | ⟨_, .finish _ (.raises _) _, _⟩ | ⟨_, .cleanup _, _⟩ | ⟨_, .deletePattern _, _⟩
  | ⟨_, .expire _, _⟩ => inferInstanceAs (Decidable True)

instance (event : ℕ) : ∀ phase : FlightPhase Req V E, Decidable (phase.Owns event)
  | .computing own | .storing own _ | .failing own _ => inferInstanceAs (Decidable (own = event))
  | .locking | .waiting _ | .fallback | .direct | .returned _ | .raised _ | .unbound | .cancelled =>
    inferInstanceAs (Decidable False)

end Decide
end Condition
section Invariant
variable {Req Key V Raw E : Type} [DecidableEq Key] (f : CachedFunction Req Key V Raw)

structure CacheStore.IsConsistent (s : CacheStore Req Key V Raw E) : Prop where
  invalidated_le : ∀ key, s.invalidated key ≤ s.now
  entry_current : ∀ key entry, s.entries key = some entry → s.invalidated key ≤ entry.ended
  event_lt : ∀ key event, s.computations key = some event → event < s.created
  set_lt : ∀ event, s.isSet event = true → event < s.created
  distinct : ∀ key key' event, s.computations key = some event → s.computations key' = some event → key = key'
  recorded : ∀ key, s.results key ≠ none ∨ s.errors key ≠ none →
    ∃ event, s.computations key = some event ∧ s.isSet event = true
  kept : ∀ key event, s.computations key = some event → s.isSet event = true → key ∈ s.cleanups
  due : ∀ key ∈ s.cleanups, ∃ event, s.computations key = some event ∧ s.isSet event = true
  once : s.cleanups.Nodup
  answered : ∀ key event, s.computations key = some event → s.isSet event = true →
    s.results key ≠ none ∨ s.errors key ≠ none

def CacheStore.IsOpen (s : CacheStore Req Key V Raw E) (key : Key) (event : ℕ) : Prop :=
  s.computations key = some event ∧ s.isSet event = false

def FlightPhase.Knows (s : CacheStore Req Key V Raw E) (key : Key) (startedAt since : ℕ) : FlightPhase Req V E → Prop
  | .locking | .cancelled => True
  | .waiting event =>
    event < s.created ∧ (s.isSet event = false → s.computations key = some event) ∧
      (∀ result, s.results key = some result → since ≤ result.ended) ∧
      ∀ error, s.errors key = some error → startedAt ≤ error.ended
  | .computing event => s.IsOpen key event
  | .storing event result => s.IsOpen key event ∧ since ≤ result.ended
  | .failing event error => s.IsOpen key event ∧ startedAt ≤ error.ended
  | .fallback | .direct | .unbound => False
  | .returned result => since ≤ result.ended
  | .raised error => startedAt ≤ error.ended

structure FlightCall.IsSound (s : CacheStore Req Key V Raw E) (c : FlightCall Req V E) : Prop where
  since_le : c.since ≤ c.startedAt
  started : c.startedAt ≤ s.now
  knows : c.phase.Knows s (f.flightKey c.request) c.startedAt c.since

/-- Two calls do not set one event, and what one of them is about to record is not too old for the other. -/
def FlightCall.IsApart (c d : FlightCall Req V E) : Prop :=
  (∀ event, c.phase.Owns event → ¬ d.phase.Owns event) ∧
    (f.flightKey c.request = f.flightKey d.request → ∀ event event',
      (∀ result, c.phase = .waiting event → d.phase = .storing event' result → c.since ≤ result.ended) ∧
        ∀ error, c.phase = .waiting event → d.phase = .failing event' error → c.startedAt ≤ error.ended)

structure FlightWorld.IsSound (w : FlightWorld Req Key V Raw E) : Prop where
  store : w.store.IsConsistent
  calls : ∀ (i : ℕ) (c : FlightCall Req V E), w.calls[i]? = some c → c.IsSound f w.store
  owned : ∀ key event, w.store.IsOpen key event →
    ∃ (i : ℕ) (c : FlightCall Req V E), w.calls[i]? = some c ∧ c.phase.Owns event ∧ f.flightKey c.request = key
  apart : ∀ (i k : ℕ) (c d : FlightCall Req V E), i ≠ k → w.calls[i]? = some c → w.calls[k]? = some d → c.IsApart f d

end Invariant
section Store
variable {Req Key V Raw E : Type} {s s' : CacheStore Req Key V Raw E} {key : Key} {event : ℕ}

structure CacheStore.SameFlights (s s' : CacheStore Req Key V Raw E) : Prop where
  computations : s'.computations = s.computations
  results : s'.results = s.results
  errors : s'.errors = s.errors
  created : s'.created = s.created
  isSet : s'.isSet = s.isSet
  cleanups : s'.cleanups = s.cleanups
  now : s.now ≤ s'.now

theorem CacheStore.SameFlights.refl (s : CacheStore Req Key V Raw E) : s.SameFlights s :=
  ⟨rfl, rfl, rfl, rfl, rfl, rfl, le_rfl⟩

theorem CacheStore.SameFlights.trans {s'' : CacheStore Req Key V Raw E} (h : s.SameFlights s') (h' : s'.SameFlights s'') :
    s.SameFlights s'' where
  computations := h'.computations.trans h.computations
  results := h'.results.trans h.results
  errors := h'.errors.trans h.errors
  created := h'.created.trans h.created
  isSet := h'.isSet.trans h.isSet
  cleanups := h'.cleanups.trans h.cleanups
  now := h.now.trans h'.now

theorem CacheStore.SameFlights.isConsistent (h : s.SameFlights s') (hs : s.IsConsistent)
    (hle : ∀ key, s'.invalidated key ≤ s'.now)
    (hcurrent : ∀ key entry, s'.entries key = some entry → s'.invalidated key ≤ entry.ended) : s'.IsConsistent := by
  obtain ⟨hcomputations, hresults, herrors, hcreated, hset, hcleanups, -⟩ := h
  refine ⟨hle, hcurrent, ?_, ?_, ?_, ?_, ?_, ?_, ?_, ?_⟩
  · rw [hcomputations, hcreated]
    exact hs.event_lt
  · rw [hset, hcreated]
    exact hs.set_lt
  · rw [hcomputations]
    exact hs.distinct
  · rw [hcomputations, hresults, herrors, hset]
    exact hs.recorded
  · rw [hcomputations, hset, hcleanups]
    exact hs.kept
  · rw [hcomputations, hset, hcleanups]
    exact hs.due
  · rw [hcleanups]
    exact hs.once
  · rw [hcomputations, hresults, herrors, hset]
    exact hs.answered

theorem CacheStore.IsConsistent.nothing (hs : s.IsConsistent) (hnone : s.computations key = none) :
    s.results key = none ∧ s.errors key = none ∧ key ∉ s.cleanups := by
  refine ⟨?_, ?_, ?_⟩
  · by_contra hresult
    obtain ⟨event, hevent, -⟩ := hs.recorded key (.inl hresult)
    rw [hnone] at hevent
    cases hevent
  · by_contra herror
    obtain ⟨event, hevent, -⟩ := hs.recorded key (.inr herror)
    rw [hnone] at hevent
    cases hevent
  · intro hdue
    obtain ⟨event, hevent, -⟩ := hs.due key hdue
    rw [hnone] at hevent
    cases hevent

theorem CacheStore.IsConsistent.unrecorded (hs : s.IsConsistent) (hopen : s.IsOpen key event) :
    s.results key = none ∧ s.errors key = none ∧ key ∉ s.cleanups := by
  obtain ⟨hevent, hunset⟩ := hopen
  have hset : ∀ event', s.computations key = some event' → s.isSet event' = true → False := by
    intro event' hevent' hset
    cases hevent.symm.trans hevent'
    rw [hunset] at hset
    cases hset
  refine ⟨?_, ?_, ?_⟩
  · by_contra hresult
    obtain ⟨event', hevent', hset'⟩ := hs.recorded key (.inl hresult)
    exact hset event' hevent' hset'
  · by_contra herror
    obtain ⟨event', hevent', hset'⟩ := hs.recorded key (.inr herror)
    exact hset event' hevent' hset'
  · intro hdue
    obtain ⟨event', hevent', hset'⟩ := hs.due key hdue
    exact hset event' hevent' hset'

theorem CacheStore.IsConsistent.unset_created (hs : s.IsConsistent) : s.isSet s.created = false := by
  by_contra hset
  have hlt := hs.set_lt s.created (by simpa using hset)
  omega

theorem consistent_tick (hs : s.IsConsistent) : s.tick.IsConsistent :=
  have hflights : s.SameFlights s.tick := ⟨rfl, rfl, rfl, rfl, rfl, rfl, Nat.le_succ _⟩
  hflights.isConsistent hs (fun key => (hs.invalidated_le key).trans (Nat.le_succ _)) hs.entry_current

theorem consistent_expire (hs : s.IsConsistent) (gone : Key → Bool) : (s.expire gone).IsConsistent := by
  have hflights : s.SameFlights (s.expire gone) := ⟨rfl, rfl, rfl, rfl, rfl, rfl, le_rfl⟩
  apply hflights.isConsistent hs hs.invalidated_le
  intro key entry hentry
  change (if gone key then none else s.entries key) = some entry at hentry
  split at hentry
  · cases hentry
  · exact hs.entry_current key entry hentry

theorem consistent_deletePattern (hs : s.IsConsistent) (isMatch : Key → Bool) : (s.deletePattern isMatch).IsConsistent := by
  have hflights : s.SameFlights (s.deletePattern isMatch) := ⟨rfl, rfl, rfl, rfl, rfl, rfl, le_rfl⟩
  apply hflights.isConsistent hs
  · intro key
    change (if isMatch key then s.now else s.invalidated key) ≤ s.now
    split
    · exact le_rfl
    · exact hs.invalidated_le key
  · intro key entry hentry
    change (if isMatch key then none else s.entries key) = some entry at hentry
    change (if isMatch key then s.now else s.invalidated key) ≤ entry.ended
    split at hentry
    · cases hentry
    · rename_i hmatch
      rw [if_neg hmatch]
      exact hs.entry_current key entry hentry

variable [DecidableEq Key] {f : CachedFunction Req Key V Raw} {result : Computed Req V} {r : Req}

theorem set_cases (s : CacheStore Req Key V Raw E) (answers : Bool) (key : Key) (result : Computed Req V) :
    s.set f answers key result = s ∨ answers = true ∧ ∃ raw, f.dumps result.value = some raw ∧ s.set f answers key result
        = { s with entries := update s.entries key (some { result with value := raw }) } := by
  cases answers with
  | false => exact .inl rfl
  | true =>
    cases hraw : f.dumps result.value with
    | none => exact .inl (by simp [CacheStore.set, hraw])
    | some raw => exact .inr ⟨rfl, raw, rfl, by simp [CacheStore.set, hraw]⟩

theorem sameFlights_set (s : CacheStore Req Key V Raw E) (answers : Bool) (key : Key) (result : Computed Req V) :
    s.SameFlights (s.set f answers key result) := by
  rcases set_cases s answers key result with hsame | ⟨-, raw, -, hset⟩
  · rw [hsame]
    exact .refl s
  · rw [hset]
    exact ⟨rfl, rfl, rfl, rfl, rfl, rfl, le_rfl⟩

theorem set_invalidated (s : CacheStore Req Key V Raw E) (answers : Bool) (key : Key) (result : Computed Req V) :
    (s.set f answers key result).invalidated = s.invalidated := by
  rcases set_cases s answers key result with hsame | ⟨-, raw, -, hset⟩
  · rw [hsame]
  · rw [hset]

theorem sameFlights_backfill (s : CacheStore Req Key V Raw E) (answers : Bool) (r : Req) (result : Computed Req V) :
    s.SameFlights (s.backfill f answers r result) := by
  rw [CacheStore.backfill]
  split
  · exact sameFlights_set s answers _ result
  · exact .refl s

theorem sameFlights_setKeys (s : CacheStore Req Key V Raw E) (redis : ℕ → Bool) (r : Req) (result : Computed Req V) :
    s.SameFlights (s.setKeys f redis r result) := by
  rw [CacheStore.setKeys]
  split
  · exact sameFlights_set s _ _ result
  · exact (sameFlights_set s _ _ result).trans (sameFlights_set _ _ _ result)

theorem consistent_set {answers : Bool} (hs : s.IsConsistent) (hwrite : s.MayWrite f answers key result) :
    (s.set f answers key result).IsConsistent := by
  rcases set_cases s answers key result with hsame | ⟨hanswers, raw, hraw, hset⟩
  · rw [hsame]
    exact hs
  · have hflights := sameFlights_set (f := f) s answers key result
    rw [hset] at hflights ⊢
    apply hflights.isConsistent hs hs.invalidated_le
    intro key' entry hentry
    by_cases hkey : key' = key
    · subst hkey
      have hentry : some { result with value := raw } = some entry := by simpa using hentry
      cases hentry
      exact hwrite hanswers (by rw [hraw]; rfl)
    · exact hs.entry_current key' entry (by simpa [update_of_ne hkey] using hentry)

theorem consistent_backfill {answers : Bool} (hs : s.IsConsistent) (hwrite : s.MayBackfill f answers r result) :
    (s.backfill f answers r result).IsConsistent := by
  rw [CacheStore.backfill]
  split
  · rename_i hsome
    exact consistent_set hs (hwrite hsome)
  · exact hs

theorem consistent_setKeys {redis : ℕ → Bool} (hs : s.IsConsistent) (hwrite : s.MayWrite f (redis 0) (f.cacheKey r) result)
    (hcontent : ∀ contentKey ∈ f.contentKey r, s.MayWrite f (redis 1) contentKey result) :
    (s.setKeys f redis r result).IsConsistent := by
  have hprimary := consistent_set hs hwrite
  rw [CacheStore.setKeys]
  split
  · exact hprimary
  · rename_i contentKey hkey
    apply consistent_set hprimary
    intro hanswers hraw
    rw [set_invalidated]
    exact hcontent contentKey hkey hanswers hraw

theorem consistent_begin (hs : s.IsConsistent) (hnone : s.computations key = none) : (s.begin key).IsConsistent := by
  obtain ⟨hresult, herror, hdue⟩ := hs.nothing hnone
  have hunset := hs.unset_created
  have hcases : ∀ key' event, (s.begin key).computations key' = some event →
      key' = key ∧ event = s.created ∨ key' ≠ key ∧ s.computations key' = some event := by
    intro key' event hevent
    by_cases hkey : key' = key
    · subst hkey
      have hevent : some s.created = some event := by simpa [CacheStore.begin] using hevent
      exact .inl ⟨rfl, (some.inj hevent).symm⟩
    · exact .inr ⟨hkey, by simpa [CacheStore.begin, update_of_ne hkey] using hevent⟩
  have hother : ∀ key' event, key' ≠ key → s.computations key' = some event →
      (s.begin key).computations key' = some event := by
    intro key' event hkey hevent
    simpa [CacheStore.begin, update_of_ne hkey] using hevent
  refine ⟨hs.invalidated_le, hs.entry_current, ?_, ?_, ?_, ?_, ?_, ?_, hs.once, ?_⟩
  · intro key' event hevent
    change event < s.created + 1
    rcases hcases key' event hevent with ⟨-, rfl⟩ | ⟨-, hold⟩
    · omega
    · have hlt := hs.event_lt key' event hold
      omega
  · intro event hset
    have hlt := hs.set_lt event hset
    change event < s.created + 1
    omega
  · intro key₁ key₂ event h₁ h₂
    rcases hcases key₁ event h₁ with ⟨rfl, rfl⟩ | ⟨-, hold₁⟩ <;> rcases hcases key₂ _ h₂ with ⟨rfl, hnew₂⟩ | ⟨-, hold₂⟩
    · rfl
    · exact absurd (hs.event_lt key₂ _ hold₂) (lt_irrefl _)
    · rw [hnew₂] at hold₁
      exact absurd (hs.event_lt key₁ _ hold₁) (lt_irrefl _)
    · exact hs.distinct key₁ key₂ event hold₁ hold₂
  · intro key' hrecorded
    obtain ⟨event, hevent, hset⟩ := hs.recorded key' hrecorded
    refine ⟨event, hother key' event ?_ hevent, hset⟩
    rintro rfl
    rw [hnone] at hevent
    cases hevent
  · intro key' event hevent hset
    rcases hcases key' event hevent with ⟨-, rfl⟩ | ⟨-, hold⟩
    · change s.isSet s.created = true at hset
      rw [hunset] at hset
      cases hset
    · exact hs.kept key' event hold hset
  · intro key' hkey'
    obtain ⟨event, hevent, hset⟩ := hs.due key' hkey'
    refine ⟨event, hother key' event ?_ hevent, hset⟩
    rintro rfl
    exact hdue hkey'
  · intro key' event hevent hset
    rcases hcases key' event hevent with ⟨-, rfl⟩ | ⟨-, hold⟩
    · change s.isSet s.created = true at hset
      rw [hunset] at hset
      cases hset
    · exact hs.answered key' event hold hset

theorem consistent_complete (hs : s.IsConsistent) (hopen : s.IsOpen key event) {results : Key → Option (Computed Req V)}
    {errors : Key → Option (Raised E)} (hresults : ∀ key', key' ≠ key → results key' = s.results key')
    (herrors : ∀ key', key' ≠ key → errors key' = s.errors key') (hanswered : results key ≠ none ∨ errors key ≠ none) :
    (CacheStore.complete { s with results := results, errors := errors } key event).IsConsistent := by
  obtain ⟨-, -, hdue⟩ := hs.unrecorded hopen
  obtain ⟨hevent, -⟩ := hopen
  have hset : ∀ event', update s.isSet event true event' = true ↔ event' = event ∨ s.isSet event' = true := by
    intro event'
    by_cases heq : event' = event
    · simp [heq]
    · simp [heq]
  refine ⟨hs.invalidated_le, hs.entry_current, hs.event_lt, ?_, hs.distinct, ?_, ?_, ?_, ?_, ?_⟩
  · intro event' hset'
    rcases (hset event').mp hset' with rfl | hset'
    · exact hs.event_lt key _ hevent
    · exact hs.set_lt event' hset'
  · intro key' hrecorded
    by_cases hkey : key' = key
    · exact ⟨event, by rw [hkey]; exact hevent, (hset event).mpr (.inl rfl)⟩
    · have hrecorded : results key' ≠ none ∨ errors key' ≠ none := hrecorded
      rw [hresults key' hkey, herrors key' hkey] at hrecorded
      obtain ⟨event', hevent', hset'⟩ := hs.recorded key' hrecorded
      exact ⟨event', hevent', (hset event').mpr (.inr hset')⟩
  · intro key' event' hevent' hset'
    apply List.mem_append.mpr
    rcases (hset event').mp hset' with rfl | hset'
    · rw [hs.distinct key' key _ hevent' hevent]
      exact .inr (List.mem_singleton_self key)
    · exact .inl (hs.kept key' event' hevent' hset')
  · intro key' hkey'
    rcases List.mem_append.mp hkey' with hkey' | hkey'
    · obtain ⟨event', hevent', hset'⟩ := hs.due key' hkey'
      exact ⟨event', hevent', (hset event').mpr (.inr hset')⟩
    · rw [List.mem_singleton.mp hkey']
      exact ⟨event, hevent, (hset event).mpr (.inl rfl)⟩
  · apply List.nodup_append.mpr
    refine ⟨hs.once, List.nodup_singleton key, ?_⟩
    intro key' hkey' last hlast heq
    rw [List.mem_singleton.mp hlast] at heq
    exact hdue (heq ▸ hkey')
  · intro key' event' hevent' hset'
    by_cases hkey : key' = key
    · rw [hkey]
      exact hanswered
    · change results key' ≠ none ∨ errors key' ≠ none
      rw [hresults key' hkey, herrors key' hkey]
      rcases (hset event').mp hset' with rfl | hset'
      · exact absurd (hs.distinct key' key _ hevent' hevent) hkey
      · exact hs.answered key' event' hevent' hset'

theorem consistent_cleanup (hs : s.IsConsistent) (hdue : key ∈ s.cleanups) : (s.cleanup key).IsConsistent := by
  have hcases : ∀ key' event, (s.cleanup key).computations key' = some event →
      key' ≠ key ∧ s.computations key' = some event := by
    intro key' event hevent
    by_cases hkey : key' = key
    · simp [CacheStore.cleanup, hkey] at hevent
    · exact ⟨hkey, by simpa [CacheStore.cleanup, update_of_ne hkey] using hevent⟩
  have hother : ∀ key', key' ≠ key → (s.cleanup key).computations key' = s.computations key' ∧
      (s.cleanup key).results key' = s.results key' ∧ (s.cleanup key).errors key' = s.errors key' := by
    intro key' hkey
    simp [CacheStore.cleanup, update_of_ne hkey]
  refine ⟨hs.invalidated_le, hs.entry_current, ?_, hs.set_lt, ?_, ?_, ?_, ?_, hs.once.erase key, ?_⟩
  · intro key' event hevent
    exact hs.event_lt key' event (hcases key' event hevent).2
  · intro key₁ key₂ event h₁ h₂
    exact hs.distinct key₁ key₂ event (hcases key₁ event h₁).2 (hcases key₂ event h₂).2
  · intro key' hrecorded
    have hkey : key' ≠ key := by
      rintro rfl
      simp [CacheStore.cleanup] at hrecorded
    obtain ⟨hcomputations, hresults, herrors⟩ := hother key' hkey
    rw [hresults, herrors] at hrecorded
    obtain ⟨event, hevent, hset⟩ := hs.recorded key' hrecorded
    exact ⟨event, hcomputations.trans hevent, hset⟩
  · intro key' event hevent hset
    obtain ⟨hkey, hold⟩ := hcases key' event hevent
    exact (List.mem_erase_of_ne hkey).mpr (hs.kept key' event hold hset)
  · intro key' hkey'
    have hmem := (hs.once.mem_erase_iff).mp hkey'
    obtain ⟨event, hevent, hset⟩ := hs.due key' hmem.2
    exact ⟨event, (hother key' hmem.1).1.trans hevent, hset⟩
  · intro key' event hevent hset
    obtain ⟨hkey, hold⟩ := hcases key' event hevent
    obtain ⟨-, hresults, herrors⟩ := hother key' hkey
    rw [hresults, herrors]
    exact hs.answered key' event hold hset

variable {w w' : FlightWorld Req Key V Raw E} {c c' d : FlightCall Req V E} {phase : FlightPhase Req V E}
  {i k startedAt since : ℕ}

/-- What a call knows is about its event as long as that is open, and about what is on record for its key. -/
theorem knows_mono (hknows : phase.Knows s key startedAt since) (hcreated : s.created ≤ s'.created)
    (hopen : ∀ event, phase.Owns event → s.IsOpen key event → s'.IsOpen key event)
    (hunset : ∀ event, phase = .waiting event → s'.isSet event = false →
      s.isSet event = false ∧ (s.computations key = some event → s'.computations key = some event))
    (hresults : ∀ event, phase = .waiting event → ∀ result, s'.results key = some result →
      s.results key = some result ∨ since ≤ result.ended)
    (herrors : ∀ event, phase = .waiting event → ∀ error, s'.errors key = some error →
      s.errors key = some error ∨ startedAt ≤ error.ended) : phase.Knows s' key startedAt since := by
  cases phase with
  | waiting event =>
    obtain ⟨hlt, hcomputations, hold, holdError⟩ := hknows
    refine ⟨by omega, fun hset => ?_, fun result hresult => ?_, fun error herror => ?_⟩
    · obtain ⟨hset, hkeeps⟩ := hunset event rfl hset
      exact hkeeps (hcomputations hset)
    · rcases hresults event rfl result hresult with hsame | hnew
      · exact hold result hsame
      · exact hnew
    · rcases herrors event rfl error herror with hsame | hnew
      · exact holdError error hsame
      · exact hnew
  | computing event => exact hopen event rfl hknows
  | storing event result | failing event error => exact ⟨hopen event rfl hknows.1, hknows.2⟩
  | _ => exact hknows

theorem CacheStore.SameFlights.isSound (h : s.SameFlights s') (hc : c.IsSound f s) : c.IsSound f s' := by
  obtain ⟨hcomputations, hresults, herrors, hcreated, hset, -, hnow⟩ := h
  refine ⟨hc.since_le, hc.started.trans hnow, knows_mono hc.knows hcreated.ge ?_ ?_ ?_ ?_⟩
  · rintro event - ⟨hevent, hunset⟩
    exact ⟨by rw [hcomputations, hevent], by rw [hset, hunset]⟩
  · intro event _ hunset
    rw [hset] at hunset
    exact ⟨hunset, fun hevent => by rw [hcomputations, hevent]⟩
  · intro event _ result hresult
    rw [hresults] at hresult
    exact .inl hresult
  · intro event _ error herror
    rw [herrors] at herror
    exact .inl herror

theorem CacheStore.SameFlights.isOpen (h : s.SameFlights s') (hopen : s'.IsOpen key event) : s.IsOpen key event := by
  obtain ⟨hevent, hunset⟩ := hopen
  rw [h.computations] at hevent
  rw [h.isSet] at hunset
  exact ⟨hevent, hunset⟩

theorem FlightCall.IsSound.isOpen (hc : c.IsSound f s) (howns : c.phase.Owns event) :
    s.IsOpen (f.flightKey c.request) event := by
  have hknows := hc.knows
  cases hphase : c.phase with
  | computing own =>
    rw [hphase] at howns hknows
    cases howns
    exact hknows
  | storing own result =>
    rw [hphase] at howns hknows
    cases howns
    exact hknows.1
  | failing own error =>
    rw [hphase] at howns hknows
    cases howns
    exact hknows.1
  | _ =>
    rw [hphase] at howns
    cases howns

theorem apart_of_quiet (howns : ∀ event, ¬ c.phase.Owns event) (hwaits : ∀ event, c.phase ≠ .waiting event)
    (d : FlightCall Req V E) : c.IsApart f d ∧ d.IsApart f c := by
  refine ⟨⟨fun event hown => absurd hown (howns event), fun _ event event' => ⟨?_, ?_⟩⟩,
    ⟨fun event _ => howns event, fun _ event event' => ⟨?_, ?_⟩⟩⟩
  · intro result hwaiting
    exact absurd hwaiting (hwaits event)
  · intro error hwaiting
    exact absurd hwaiting (hwaits event)
  · intro result _ hstoring
    exact absurd (show c.phase.Owns event' by rw [hstoring]; rfl) (howns event')
  · intro error _ hfailing
    exact absurd (show c.phase.Owns event' by rw [hfailing]; rfl) (howns event')

theorem put_sound (hw : w.IsSound f) (hi : w.calls[i]? = some c) (hstore : s'.IsConsistent) (hc : c'.IsSound f s')
    (hothers : ∀ k d, k ≠ i → w.calls[k]? = some d → d.IsSound f s')
    (howned : ∀ key event, s'.IsOpen key event → c'.phase.Owns event ∧ f.flightKey c'.request = key ∨
      w.store.IsOpen key event ∧ ¬ (c.phase.Owns event ∧ f.flightKey c.request = key))
    (hapart : ∀ k d, k ≠ i → w.calls[k]? = some d → c'.IsApart f d ∧ d.IsApart f c') :
    FlightWorld.IsSound f (w.put i (c', s')) where
  store := hstore
  calls k d hd := by
    rcases Party.put_cases hi hd with ⟨-, rfl⟩ | ⟨hki, hd⟩
    · exact hc
    · exact hothers k d hki hd
  owned key event hopen := by
    rcases howned key event hopen with ⟨hown, hkey⟩ | ⟨hopen, hnot⟩
    · exact ⟨i, c', Party.get_put hi, hown, hkey⟩
    · obtain ⟨k, d, hd, hown, hkey⟩ := hw.owned key event hopen
      refine ⟨k, d, ?_, hown, hkey⟩
      rw [Party.get_put_ne, hd]
      rintro rfl
      cases hi.symm.trans hd
      exact hnot ⟨hown, hkey⟩
  apart j k c₁ c₂ hjk h₁ h₂ := by
    rcases Party.put_cases hi h₁ with ⟨hj, hc₁⟩ | ⟨hj, hold₁⟩ <;> rcases Party.put_cases hi h₂ with ⟨hk, hc₂⟩ | ⟨hk, hold₂⟩
    · exact absurd (hj.trans hk.symm) hjk
    · rw [hc₁]
      exact (hapart k c₂ hk hold₂).1
    · rw [hc₂]
      exact (hapart j c₁ hj hold₁).2
    · exact hw.apart j k c₁ c₂ hjk hold₁ hold₂

theorem put_same (hw : w.IsSound f) (hi : w.calls[i]? = some c) (hstore : s'.IsConsistent) (hsame : w.store.SameFlights s')
    (hc : c'.IsSound f s') (howns : ∀ event, ¬ c.phase.Owns event)
    (hapart : ∀ k d, k ≠ i → w.calls[k]? = some d → c'.IsApart f d ∧ d.IsApart f c') :
    FlightWorld.IsSound f (w.put i (c', s')) :=
  put_sound hw hi hstore hc (fun k d _ hd => hsame.isSound (hw.calls k d hd))
    (fun _ event hopen => .inr ⟨hsame.isOpen hopen, fun hown => howns event hown.1⟩) hapart

theorem join_sound (hw : w.IsSound f) (hc : c.IsSound f w.store) (howns : ∀ event, ¬ c.phase.Owns event)
    (hwaits : ∀ event, c.phase ≠ .waiting event) : FlightWorld.IsSound f (w.join c) where
  store := hw.store
  calls k d hd := by
    rcases Party.join_cases hd with hd | ⟨-, rfl⟩
    · exact hw.calls k d hd
    · exact hc
  owned key event hopen := by
    obtain ⟨k, d, hd, hown⟩ := hw.owned key event hopen
    exact ⟨k, d, Party.get_join hd, hown⟩
  apart j k c₁ c₂ hjk h₁ h₂ := by
    rcases Party.join_cases h₁ with h₁ | ⟨rfl, rfl⟩ <;> rcases Party.join_cases h₂ with h₂ | ⟨rfl, rfl⟩
    · exact hw.apart j k c₁ c₂ hjk h₁ h₂
    · exact (apart_of_quiet howns hwaits c₁).2
    · exact (apart_of_quiet howns hwaits c₂).1
    · exact absurd rfl hjk

theorem setStore_sound (hw : w.IsSound f) (hstore : s'.IsConsistent)
    (hcalls : ∀ (k : ℕ) (d : FlightCall Req V E), w.calls[k]? = some d → d.IsSound f s')
    (hopen : ∀ key event, s'.IsOpen key event → w.store.IsOpen key event) : FlightWorld.IsSound f (w.setStore s') where
  store := hstore
  calls := hcalls
  owned key event h := hw.owned key event (hopen key event h)
  apart := hw.apart

theorem setStore_same (hw : w.IsSound f) (hstore : s'.IsConsistent) (hsame : w.store.SameFlights s') :
    FlightWorld.IsSound f (w.setStore s') :=
  setStore_sound hw hstore (fun k d hd => hsame.isSound (hw.calls k d hd)) fun _ _ => hsame.isOpen

theorem leave_sound (hw : w.IsSound f) (hi : w.calls[i]? = some c) (howns : ∀ event, ¬ c.phase.Owns event)
    (hstore : s'.IsConsistent) (hsame : w.store.SameFlights s')
    (hover : ∀ event, ¬ phase.Owns event) (hwaits : ∀ event, phase ≠ .waiting event)
    (hknows : phase.Knows s' (f.flightKey c.request) c.startedAt c.since) :
    FlightWorld.IsSound f (w.put i (c.to phase, s')) := by
  have hsound := hw.calls i c hi
  exact put_same hw hi hstore hsame ⟨hsound.since_le, hsound.started.trans hsame.now, hknows⟩ howns
    fun _ d _ _ => apart_of_quiet hover hwaits d

theorem get_current (hs : s.IsConsistent) {answers : Bool} {key : Key} {result : Computed Req V}
    (h : s.get f answers key = some result) : s.invalidated key ≤ result.ended := by
  rw [CacheStore.get] at h
  split at h
  · obtain ⟨entry, hentry, hresult⟩ := bind_eq_some_iff.mp h
    obtain ⟨value, -, rfl⟩ := map_eq_some_iff.mp hresult
    exact hs.entry_current key entry hentry
  · cases h

theorem since_le_cacheKey (s : CacheStore Req Key V Raw E) (r : Req) : s.since f r ≤ s.invalidated (f.cacheKey r) := by
  rw [CacheStore.since]
  split
  · exact le_rfl
  · exact Nat.min_le_left _ _

theorem since_le_contentKey {r : Req} {contentKey : Key} (s : CacheStore Req Key V Raw E) (hkey : f.contentKey r = some contentKey) :
    s.since f r ≤ s.invalidated contentKey := by
  rw [CacheStore.since, hkey]
  exact Nat.min_le_right _ _

theorem FlightCall.IsSound.computing (hc : c.IsSound f s) (hexecuting : c.phase.IsExecuting) :
    ∃ event, c.phase = .computing event := by
  have hknows := hc.knows
  cases hphase : c.phase with
  | computing event => exact ⟨event, rfl⟩
  | fallback =>
    rw [hphase] at hknows
    cases hknows
  | direct =>
    rw [hphase] at hknows
    cases hknows
  | _ =>
    rw [hphase] at hexecuting
    cases hexecuting

theorem tick_sound (hw : w.IsSound f) : FlightWorld.IsSound f (w.setStore w.store.tick) :=
  setStore_same hw (consistent_tick hw.store) ⟨rfl, rfl, rfl, rfl, rfl, rfl, Nat.le_succ _⟩

theorem admits_tick {t : FlightTransition Req Key V Raw E} (h : Admits f t) : Admits f ⟨t.pre.setStore t.pre.store.tick, t.label, t.post⟩ := by
  obtain ⟨pre, label, post⟩ := t
  cases label with
  | finish i outcome redis => cases outcome <;> exact h
  | _ => exact h

theorem cancel_sound (hw : w.IsSound f) (hi : w.calls[i]? = some c) (hcancel : c.phase.IsCancellable)
    (h : c.cancel = some c') : FlightWorld.IsSound f (w.put i (c', w.store)) := by
  unfold FlightCall.cancel at h
  cases hphase : c.phase with
  | locking =>
    rw [hphase] at h
    cases h
    have howns : ∀ event, ¬ c.phase.Owns event := by
      rw [hphase]
      exact fun _ h => h
    exact leave_sound hw hi howns hw.store (.refl _) (fun _ h => h) nofun trivial
  | waiting event =>
    rw [hphase] at h
    cases h
    have howns : ∀ event, ¬ c.phase.Owns event := by
      rw [hphase]
      exact fun _ h => h
    exact leave_sound hw hi howns hw.store (.refl _) (fun _ h => h) nofun trivial
  | storing event result =>
    rw [hphase] at hcancel
    exact absurd hcancel id
  | failing event error =>
    rw [hphase] at hcancel
    exact absurd hcancel id
  | _ =>
    rw [hphase] at h
    cases h

theorem initial_sound : FlightWorld.IsSound f (FlightWorld.initial : FlightWorld Req Key V Raw E) where
  store := by
    refine ⟨fun _ => le_rfl, ?_, ?_, ?_, ?_, ?_, ?_, ?_, List.nodup_nil, ?_⟩
    · rintro key entry ⟨⟩
    · rintro key event ⟨⟩
    · rintro event ⟨⟩
    · rintro key key' event ⟨⟩
    · rintro key (h | h)
      · exact absurd rfl h
      · exact absurd rfl h
    · rintro key event ⟨⟩
    · rintro key ⟨⟩
    · rintro key event ⟨⟩
  calls i c h := by cases h
  owned key event h := by cases h.1
  apart i k c d _ h := by cases h

variable {event' : ℕ} {error : Raised E} {redis : ℕ → Bool}

theorem owns_unique (h : phase.Owns event) (h' : phase.Owns event') : event' = event := by
  cases phase with
  | computing own | storing own result | failing own error => exact h'.symm.trans h
  | _ => cases h

theorem begin_sound (hw : w.IsSound f) (hi : w.calls[i]? = some c) (hphase : c.phase = .locking)
    (hnone : w.store.computations (f.flightKey c.request) = none) :
    FlightWorld.IsSound f (w.put i (c.to (.computing w.store.created), w.store.begin (f.flightKey c.request))) := by
  have hsound := hw.calls i c hi
  have hother : ∀ key, key ≠ f.flightKey c.request →
      (w.store.begin (f.flightKey c.request)).computations key = w.store.computations key := by
    intro key hkey
    simp [CacheStore.begin, update_of_ne hkey]
  have hne : ∀ (d : FlightCall Req V E) (event : ℕ), w.store.computations (f.flightKey d.request) = some event →
      f.flightKey d.request ≠ f.flightKey c.request := by
    intro d event hevent hkey
    rw [hkey, hnone] at hevent
    cases hevent
  apply put_sound hw hi (consistent_begin hw.store hnone)
  · refine ⟨hsound.since_le, hsound.started, ?_, hw.store.unset_created⟩
    simp [CacheStore.begin]
  · intro k d _ hd
    have hd := hw.calls k d hd
    refine ⟨hd.since_le, hd.started, knows_mono hd.knows (Nat.le_succ _) ?_ ?_ ?_ ?_⟩
    · rintro event - ⟨hevent, hunset⟩
      exact ⟨by rw [hother _ (hne d event hevent), hevent], hunset⟩
    · intro event _ hunset
      exact ⟨hunset, fun hevent => by rw [hother _ (hne d event hevent), hevent]⟩
    · intro event _ result hresult
      exact .inl hresult
    · intro event _ error herror
      exact .inl herror
  · rintro key event ⟨hevent, hunset⟩
    by_cases hkey : key = f.flightKey c.request
    · rw [hkey] at hevent
      have hevent : some w.store.created = some event := by simpa [CacheStore.begin] using hevent
      exact .inl ⟨some.inj hevent, hkey.symm⟩
    · rw [hother key hkey] at hevent
      refine .inr ⟨⟨hevent, hunset⟩, fun hown => ?_⟩
      rw [hphase] at hown
      exact hown.1
  · intro k d _ hd
    have hd := hw.calls k d hd
    -- nobody else can own an event that has just been created
    have hfresh : ¬ d.phase.Owns w.store.created := by
      intro hown
      have hlt := hw.store.event_lt _ _ (hd.isOpen hown).1
      omega
    refine ⟨⟨fun event hown => ?_, fun _ event event' => ⟨nofun, nofun⟩⟩,
      ⟨fun event hown hown' => ?_, fun _ event event' => ⟨nofun, nofun⟩⟩⟩
    · rw [← show w.store.created = event from hown]
      exact hfresh
    · rw [← show w.store.created = event from hown'] at hown
      exact hfresh hown

theorem complete_sound (hw : w.IsSound f) (hi : w.calls[i]? = some c) (howns : c.phase.Owns event)
    {s₁ : CacheStore Req Key V Raw E} (hsame : w.store.SameFlights s₁) (hs₁ : s₁.IsConsistent)
    {results : Key → Option (Computed Req V)} {errors : Key → Option (Raised E)}
    (hresults : ∀ key, key ≠ f.flightKey c.request → results key = s₁.results key)
    (herrors : ∀ key, key ≠ f.flightKey c.request → errors key = s₁.errors key)
    (hanswered : results (f.flightKey c.request) ≠ none ∨ errors (f.flightKey c.request) ≠ none)
    (hnew : ∀ k d event, k ≠ i → w.calls[k]? = some d → f.flightKey d.request = f.flightKey c.request →
      d.phase = .waiting event →
      (∀ result, results (f.flightKey c.request) = some result → d.since ≤ result.ended) ∧
        ∀ error, errors (f.flightKey c.request) = some error → d.startedAt ≤ error.ended)
    (hover : ∀ event, ¬ phase.Owns event) (hwaits : ∀ event, phase ≠ .waiting event)
    (hfresh : ∀ s : CacheStore Req Key V Raw E, phase.Knows s (f.flightKey c.request) c.startedAt c.since) :
    FlightWorld.IsSound f (w.put i (c.to phase,
      CacheStore.complete { s₁ with results := results, errors := errors } (f.flightKey c.request) event)) := by
  have hsound := hw.calls i c hi
  have hopen := hsound.isOpen howns
  have hopen₁ : s₁.IsOpen (f.flightKey c.request) event := by
    refine ⟨?_, ?_⟩
    · rw [hsame.computations]
      exact hopen.1
    · rw [hsame.isSet]
      exact hopen.2
  have hset : ∀ event', update s₁.isSet event true event' = false →
      event' ≠ event ∧ s₁.isSet event' = false := by
    intro event' hunset
    by_cases heq : event' = event
    · simp [heq] at hunset
    · exact ⟨heq, by simpa [update_of_ne heq] using hunset⟩
  apply put_sound hw hi (consistent_complete hs₁ hopen₁ hresults herrors hanswered)
  · exact ⟨hsound.since_le, hsound.started.trans hsame.now, hfresh _⟩
  · intro k d hki hd
    have hd₁ := hsame.isSound (hw.calls k d hd)
    refine ⟨hd₁.since_le, hd₁.started, knows_mono hd₁.knows le_rfl ?_ ?_ ?_ ?_⟩
    · rintro event' hown ⟨hevent', hunset⟩
      refine ⟨hevent', ?_⟩
      have hne : event' ≠ event := by
        rintro rfl
        exact (hw.apart i k c d (Ne.symm hki) hi hd).1 _ howns hown
      change update s₁.isSet event true event' = false
      rw [update_of_ne hne]
      exact hunset
    · intro event' _ hunset
      exact ⟨(hset event' hunset).2, id⟩
    · intro event' hwaiting result hresult
      by_cases hkey : f.flightKey d.request = f.flightKey c.request
      · change results (f.flightKey d.request) = some result at hresult
        rw [hkey] at hresult
        exact .inr ((hnew k d event' hki hd hkey hwaiting).1 result hresult)
      · exact .inl ((hresults _ hkey).symm.trans hresult)
    · intro event' hwaiting error herror
      by_cases hkey : f.flightKey d.request = f.flightKey c.request
      · change errors (f.flightKey d.request) = some error at herror
        rw [hkey] at herror
        exact .inr ((hnew k d event' hki hd hkey hwaiting).2 error herror)
      · exact .inl ((herrors _ hkey).symm.trans herror)
  · rintro key event' ⟨hevent', hunset⟩
    obtain ⟨hne, hunset⟩ := hset event' hunset
    exact .inr ⟨hsame.isOpen ⟨hevent', hunset⟩, fun hown => hne (owns_unique howns hown.1)⟩
  · intro k d _ _
    exact apart_of_quiet hover hwaits d

theorem record_set (s : CacheStore Req Key V Raw E) (answers : Bool) (key key' : Key) (result result' : Computed Req V) :
    (s.record key result).set f answers key' result' = (s.set f answers key' result').record key result := by
  unfold CacheStore.set
  cases answers <;> cases f.dumps result'.value <;> rfl

theorem record_setKeys (s : CacheStore Req Key V Raw E) (key : Key) (r : Req) (result result' : Computed Req V) :
    (s.record key result).setKeys f redis r result' = (s.setKeys f redis r result').record key result := by
  rw [CacheStore.setKeys, CacheStore.setKeys]
  cases f.contentKey r with
  | none => exact record_set s _ key _ result result'
  | some contentKey =>
    change ((s.record key result).set f _ _ result').set f _ _ result' = _
    rw [record_set, record_set]

theorem store_sound (hw : w.IsSound f) (hi : w.calls[i]? = some c) (hphase : c.phase = .storing event result)
    (htimely : c.IsTimely f redis w) : FlightWorld.IsSound f (w.put i (c.to (.returned result),
      ((w.store.record (f.flightKey c.request) result).setKeys f redis c.request result).complete
        (f.flightKey c.request) event)) := by
  have hknows := (hw.calls i c hi).knows
  have howns : c.phase.Owns event := by
    rw [hphase]
    rfl
  rw [FlightCall.IsTimely, hphase] at htimely
  rw [hphase] at hknows
  rw [record_setKeys]
  have hsame := sameFlights_setKeys (f := f) w.store redis c.request result
  refine complete_sound hw hi howns hsame (consistent_setKeys hw.store htimely.1 htimely.2)
    (fun key hkey => update_of_ne hkey _ _) (fun _ _ => rfl) (.inl ?_) ?_ (fun _ h => h) nofun fun _ => hknows.2
  · rw [update_self]
    exact some_ne_none result
  · intro k d event' hki hd hkey hwaiting
    refine ⟨fun result' hresult => ?_, fun error herror => ?_⟩
    · rw [update_self] at hresult
      cases hresult
      exact ((hw.apart k i d c hki hd hi).2 hkey event' event).1 result hwaiting hphase
    · rw [hsame.errors, ← hkey] at herror
      have hunrecorded := (hw.store.unrecorded hknows.1).2.1
      rw [← hkey, herror] at hunrecorded
      cases hunrecorded

theorem fail_sound (hw : w.IsSound f) (hi : w.calls[i]? = some c) (hphase : c.phase = .failing event error) :
    FlightWorld.IsSound f (w.put i (c.to (.raised error),
      (w.store.recordError (f.flightKey c.request) error).complete (f.flightKey c.request) event)) := by
  have hknows := (hw.calls i c hi).knows
  have howns : c.phase.Owns event := by
    rw [hphase]
    rfl
  rw [hphase] at hknows
  refine complete_sound hw hi howns (.refl w.store) hw.store (fun _ _ => rfl)
    (fun key hkey => update_of_ne hkey _ _) (.inr ?_) ?_ (fun _ h => h) nofun fun _ => hknows.2
  · rw [update_self]
    exact some_ne_none error
  · intro k d event' hki hd hkey hwaiting
    refine ⟨fun result hresult => ?_, fun error' herror => ?_⟩
    · have hunrecorded := (hw.store.unrecorded hknows.1).1
      rw [hresult] at hunrecorded
      cases hunrecorded
    · rw [update_self] at herror
      cases herror
      exact ((hw.apart k i d c hki hd hi).2 hkey event' event).2 error hwaiting hphase

theorem cleanup_sound (hw : w.IsSound f) (hdue : key ∈ w.store.cleanups) :
    FlightWorld.IsSound f (w.setStore (w.store.cleanup key)) := by
  obtain ⟨event, hevent, hset⟩ := hw.store.due key hdue
  have hother : ∀ key', key' ≠ key → (w.store.cleanup key).computations key' = w.store.computations key' := by
    intro key' hkey
    simp [CacheStore.cleanup, update_of_ne hkey]
  -- an event that is not set is not that of the key
  have hne : ∀ key' event', w.store.IsOpen key' event' → key' ≠ key := by
    rintro key' event' ⟨hevent', hunset⟩ rfl
    cases hevent.symm.trans hevent'
    rw [hset] at hunset
    cases hunset
  apply setStore_sound hw (consistent_cleanup hw.store hdue)
  · intro k d hd
    have hd := hw.calls k d hd
    refine ⟨hd.since_le, hd.started, knows_mono hd.knows le_rfl ?_ ?_ ?_ ?_⟩
    · intro event' _ hopen
      exact ⟨(hother _ (hne _ event' hopen)).trans hopen.1, hopen.2⟩
    · intro event' _ hunset
      exact ⟨hunset, fun hevent' => (hother _ (hne _ event' ⟨hevent', hunset⟩)).trans hevent'⟩
    · intro event' _ result hresult
      by_cases hkey : f.flightKey d.request = key
      · simp [CacheStore.cleanup, hkey] at hresult
      · exact .inl (by simpa [CacheStore.cleanup, update_of_ne hkey] using hresult)
    · intro event' _ error herror
      by_cases hkey : f.flightKey d.request = key
      · simp [CacheStore.cleanup, hkey] at herror
      · exact .inl (by simpa [CacheStore.cleanup, update_of_ne hkey] using herror)
  · rintro key' event' ⟨hevent', hunset⟩
    by_cases hkey : key' = key
    · simp [CacheStore.cleanup, hkey] at hevent'
    · exact ⟨(hother key' hkey).symm.trans hevent', hunset⟩

end Store
section Runs
variable {Req Key V Raw E : Type} [DecidableEq Key] {f : CachedFunction Req Key V Raw}
  {w w' : FlightWorld Req Key V Raw E} {c c' : FlightCall Req V E} {s : CacheStore Req Key V Raw E}
  {event i : ℕ} {redis : ℕ → Bool} {r : Req} {t : FlightTransition Req Key V Raw E}

variable {result : FlightCall Req V E × CacheStore Req Key V Raw E} {outcome : Outcome V E}

theorem lookup_current (hs : s.IsConsistent) {result : Computed Req V} (h : (s.lookup f redis r).1 = some result) :
    s.since f r ≤ result.ended := by
  unfold CacheStore.lookup at h
  split at h
  · rename_i found hfound
    cases h
    exact (since_le_cacheKey s r).trans (get_current hs hfound)
  · split at h
    · rename_i found hfound
      cases h
      obtain ⟨contentKey, hkey, hfound⟩ := bind_eq_some_iff.mp hfound
      exact (since_le_contentKey s hkey).trans (get_current hs hfound)
    · cases h

theorem lookup_same (s : CacheStore Req Key V Raw E) (redis : ℕ → Bool) (r : Req) :
    s.SameFlights (s.lookup f redis r).2 := by
  unfold CacheStore.lookup
  split
  · exact .refl s
  · split
    · exact sameFlights_backfill s _ r _
    · exact .refl s

theorem consistent_lookup (hs : s.IsConsistent) (hwrite : s.get f (redis 0) (f.cacheKey r) = none →
    ∀ result ∈ (f.contentKey r).bind (s.get f (redis 1)), s.MayBackfill f (redis 2) r result) :
    (s.lookup f redis r).2.IsConsistent := by
  unfold CacheStore.lookup
  split
  · exact hs
  · rename_i hmiss
    split
    · rename_i result hfound
      exact consistent_backfill hs (hwrite hmiss result hfound)
    · exact hs

theorem arrive_sound (hw : w.IsSound f) (henabled : f.enabled = true)
    (hwrite : w.store.get f (redis 0) (f.cacheKey r) = none →
      ∀ result ∈ (f.contentKey r).bind (w.store.get f (redis 1)), w.store.MayBackfill f (redis 2) r result) :
    FlightWorld.IsSound f ((w.setStore (w.store.arrive f redis r).2).join (w.store.arrive f redis r).1) := by
  have hsame := lookup_same (f := f) w.store redis r
  have hstore := consistent_lookup hw.store hwrite
  have hsince : w.store.since f r ≤ w.store.now := (since_le_cacheKey w.store r).trans (hw.store.invalidated_le _)
  cases hlookup : w.store.lookup f redis r with
  | mk found s' =>
    rw [hlookup] at hsame hstore
    have hw' := setStore_same hw hstore hsame
    cases found with
    | some result =>
      have harrive : w.store.arrive f redis r
          = ({ request := r, startedAt := w.store.now, since := w.store.since f r, phase := .returned result }, s') := by
        rw [CacheStore.arrive, if_pos henabled, hlookup]
      rw [harrive]
      exact join_sound hw' ⟨hsince, hsame.now, lookup_current hw.store (by rw [hlookup])⟩ (fun _ h => h) nofun
    | none =>
      have harrive : w.store.arrive f redis r
          = ({ request := r, startedAt := w.store.now, since := w.store.since f r, phase := .locking }, s') := by
        rw [CacheStore.arrive, if_pos henabled, hlookup]
      rw [harrive]
      exact join_sound hw' ⟨hsince, hsame.now, trivial⟩ (fun _ h => h) nofun

theorem locking_sound (hw : w.IsSound f) (hi : w.calls[i]? = some c) (hphase : c.phase = .locking)
    (htimely : c.IsTimely f redis w) : FlightWorld.IsSound f (w.put i (c.join f redis w.store)) := by
  have hsound := hw.calls i c hi
  have howns : ∀ event, ¬ c.phase.Owns event := by
    intro event hown
    rw [hphase] at hown
    exact hown
  rw [FlightCall.IsTimely, hphase] at htimely
  obtain ⟨⟨hresults, herrors, hothers⟩, hwrite⟩ := htimely
  unfold FlightCall.join
  split
  · rename_i hnone
    exact begin_sound hw hi hphase hnone
  · rename_i event hevent
    split
    · rename_i hset
      split
      · rename_i result hresult
        exact leave_sound hw hi howns (consistent_backfill hw.store (hwrite result hresult))
          (sameFlights_backfill w.store _ _ result) (fun _ h => h) nofun (hresults result hresult)
      · rename_i error hresult herror
        exact leave_sound hw hi howns hw.store (.refl _) (fun _ h => h) nofun (herrors hresult error herror)
      · rename_i hresult herror
        rcases hw.store.answered _ event hevent hset with hrecorded | hrecorded
        · exact absurd hresult hrecorded
        · exact absurd herror hrecorded
    · rename_i hunset
      have hunset : w.store.isSet event = false := by simpa using hunset
      obtain ⟨hresult, herror, -⟩ := hw.store.unrecorded ⟨hevent, hunset⟩
      apply put_same hw hi hw.store (.refl _) _ howns
      · -- the one that is about to record something has not ended before
        intro k d hki hd
        refine ⟨⟨fun _ hown => absurd hown id, fun hkey own own' => ⟨?_, ?_⟩⟩,
          ⟨fun _ _ hown => hown, fun _ own own' => ⟨nofun, nofun⟩⟩⟩
        · intro result _ hstoring
          have hcurrent := hothers d (List.mem_of_getElem? hd) hkey.symm
          rw [hstoring] at hcurrent
          exact hcurrent
        · intro error _ hfailing
          have hcurrent := hothers d (List.mem_of_getElem? hd) hkey.symm
          rw [hfailing] at hcurrent
          exact hcurrent
      · refine ⟨hsound.since_le, hsound.started, hw.store.event_lt _ event hevent, fun _ => hevent, ?_, ?_⟩
        · intro result hrecorded
          cases hresult.symm.trans hrecorded
        · intro error hrecorded
          cases herror.symm.trans hrecorded

theorem waiting_sound (hw : w.IsSound f) (hi : w.calls[i]? = some c) (hphase : c.phase = .waiting event)
    (htimely : c.IsTimely f redis w) :
    FlightWorld.IsSound f (w.put i (c.wake f redis w.store)) ∧ (c.wake f redis w.store).1.phase.IsOver := by
  have hknows := (hw.calls i c hi).knows
  have howns : ∀ event, ¬ c.phase.Owns event := by
    intro event hown
    rw [hphase] at hown
    exact hown
  rw [FlightCall.IsTimely, hphase] at htimely
  rw [hphase] at hknows
  obtain ⟨hrecorded, hwrite⟩ := htimely
  obtain ⟨-, -, hresults, herrors⟩ := hknows
  unfold FlightCall.wake
  split
  · rename_i result hresult
    exact ⟨leave_sound hw hi howns (consistent_backfill hw.store (hwrite result hresult))
      (sameFlights_backfill w.store _ _ result) (fun _ h => h) nofun (hresults result hresult), trivial⟩
  · rename_i error _ herror
    exact ⟨leave_sound hw hi howns hw.store (.refl _) (fun _ h => h) nofun (herrors error herror), trivial⟩
  · rename_i hresult herror
    rcases hrecorded with hrecorded | hrecorded
    · exact absurd hresult hrecorded
    · exact absurd herror hrecorded

theorem turn_sound (hw : w.IsSound f)
    (hi : w.calls[i]? = some c) (htimely : c.IsTimely f redis w) (h : c.turn f redis w.store = some result) :
    FlightWorld.IsSound f (w.put i result) := by
  unfold FlightCall.turn at h
  split at h
  · rename_i hphase
    cases h
    exact locking_sound hw hi hphase htimely
  · rename_i event hphase
    split at h
    · cases h
      exact (waiting_sound hw hi hphase htimely).1
    · cases h
  · rename_i event result hphase
    cases h
    exact store_sound hw hi hphase htimely
  · rename_i event error hphase
    cases h
    exact fail_sound hw hi hphase
  · cases h

theorem record_sound {phase : FlightPhase Req V E} (hw : w.IsSound f) (hi : w.calls[i]? = some c)
    (hphase : c.phase = .computing event)
    (hrecords : (∃ result, phase = .storing event result ∧ result.ended = w.store.now) ∨
      ∃ error, phase = .failing event error ∧ error.ended = w.store.now) :
    FlightWorld.IsSound f (w.put i (c.to phase, w.store)) := by
  have hsound := hw.calls i c hi
  have hopen : w.store.IsOpen (f.flightKey c.request) event := by
    have hknows := hsound.knows
    rw [hphase] at hknows
    exact hknows
  have howns : c.phase.Owns event := by
    rw [hphase]
    rfl
  have howns' : phase.Owns event := by
    rcases hrecords with ⟨result, rfl, -⟩ | ⟨error, rfl, -⟩ <;> rfl
  apply put_sound hw hi hw.store
  · refine ⟨hsound.since_le, hsound.started, ?_⟩
    rcases hrecords with ⟨result, rfl, hended⟩ | ⟨error, rfl, hended⟩
    · exact ⟨hopen, by rw [hended]; exact hsound.since_le.trans hsound.started⟩
    · exact ⟨hopen, by rw [hended]; exact hsound.started⟩
  · exact fun k d _ hd => hw.calls k d hd
  · intro key event' hopen'
    by_cases hown : c.phase.Owns event' ∧ f.flightKey c.request = key
    · obtain ⟨hown, hkey⟩ := hown
      rw [owns_unique howns hown]
      exact .inl ⟨howns', hkey⟩
    · exact .inr ⟨hopen', hown⟩
  · intro k d hki hd
    have hd' := hw.calls k d hd
    have hnot : ∀ event', phase.Owns event' → ¬ d.phase.Owns event' := by
      intro event' hown
      rw [owns_unique howns' hown]
      exact (hw.apart i k c d (Ne.symm hki) hi hd).1 event howns
    refine ⟨⟨hnot, fun _ own own' => ⟨?_, ?_⟩⟩, ⟨fun event' hown hown' => hnot event' hown' hown, fun _ own own' => ⟨?_, ?_⟩⟩⟩
    · intro result hwaiting
      have hwaiting : phase = .waiting own := hwaiting
      rw [hwaiting] at howns'
      cases howns'
    · intro error hwaiting
      have hwaiting : phase = .waiting own := hwaiting
      rw [hwaiting] at howns'
      cases howns'
    · intro result _ hstoring
      rcases hrecords with ⟨result', rfl, hended⟩ | ⟨error, rfl, -⟩
      · cases hstoring
        rw [hended]
        exact hd'.since_le.trans hd'.started
      · cases hstoring
    · intro error _ hfailing
      rcases hrecords with ⟨result, rfl, -⟩ | ⟨error', rfl, hended⟩
      · cases hfailing
      · cases hfailing
        rw [hended]
        exact hd'.started

theorem finish_executing (h : c.finish f redis s outcome = some result) : c.phase.IsExecuting := by
  unfold FlightCall.finish at h
  cases hphase : c.phase with
  | computing event | fallback | direct => trivial
  | _ =>
    rw [hphase] at h
    cases outcome <;> cases h

theorem finish_sound (hw : w.IsSound f) (hi : w.calls[i]? = some c) (hcancel : outcome = .cancelled → c.phase.IsCancellable)
    (h : c.finish f redis w.store outcome = some result) : FlightWorld.IsSound f (w.put i result) := by
  obtain ⟨event, hphase⟩ := (hw.calls i c hi).computing (finish_executing h)
  unfold FlightCall.finish at h
  rw [hphase] at h hcancel
  cases outcome with
  | returns value =>
    cases h
    exact record_sound hw hi hphase (.inl ⟨_, rfl, rfl⟩)
  | raises error =>
    cases h
    exact record_sound hw hi hphase (.inr ⟨_, rfl, rfl⟩)
  | cancelled => exact absurd (hcancel rfl) id

theorem act_sound {label : FlightEvent Req Key V E} (hw : w.IsSound f) (hadmits : Admits f ⟨w, label, w'⟩)
    (h : FlightWorld.act f w label = some w') : w'.IsSound f := by
  cases label with
  | arrive r redis =>
    cases h
    exact arrive_sound hw hadmits.1 hadmits.2
  | turn i redis =>
    obtain ⟨c, hi, h⟩ := bind_eq_some_iff.mp h
    obtain ⟨result, hresult, rfl⟩ := map_eq_some_iff.mp h
    exact turn_sound hw hi (hadmits c hi) hresult
  | finish i outcome redis =>
    obtain ⟨c, hi, h⟩ := bind_eq_some_iff.mp h
    obtain ⟨result, hresult, rfl⟩ := map_eq_some_iff.mp h
    apply finish_sound hw hi _ hresult
    rintro rfl
    exact hadmits c hi
  | cancel i =>
    obtain ⟨c, hi, h⟩ := bind_eq_some_iff.mp h
    obtain ⟨c', hc', rfl⟩ := map_eq_some_iff.mp h
    exact cancel_sound hw hi (hadmits c hi) hc'
  | cleanup key =>
    rw [FlightWorld.act] at h
    split at h
    · rename_i hdue
      cases h
      exact cleanup_sound hw hdue
    · cases h
  | deletePattern isMatch =>
    cases h
    exact setStore_same hw (consistent_deletePattern hw.store isMatch) ⟨rfl, rfl, rfl, rfl, rfl, rfl, le_rfl⟩
  | expire gone =>
    cases h
    exact setStore_same hw (consistent_expire hw.store gone) ⟨rfl, rfl, rfl, rfl, rfl, rfl, le_rfl⟩

theorem take_sound (hw : t.pre.IsSound f) (hadmits : Admits f t) (h : FlightWorld.take f t.pre t.label = some t.post) :
    t.post.IsSound f :=
  act_sound (tick_sound hw) (admits_tick hadmits) h

theorem FlightWorld.IsSound.isSingleFlight (hw : w.IsSound f) : FlightWorld.IsSingleFlight f w where
  atMostOne i k c d hc hd hexecuting hexecuting' hkey := by
    obtain ⟨event, hphase⟩ := (hw.calls i c hc).computing hexecuting
    obtain ⟨event', hphase'⟩ := (hw.calls k d hd).computing hexecuting'
    have howns : c.phase.Owns event := by
      rw [hphase]
      rfl
    have howns' : d.phase.Owns event' := by
      rw [hphase']
      rfl
    have hevent := ((hw.calls i c hc).isOpen howns).1
    rw [hkey, ((hw.calls k d hd).isOpen howns').1, some.injEq] at hevent
    rw [hevent] at howns'
    by_contra hne
    exact (hw.apart i k c d hne hc hd).1 event howns howns'
  awaited i c event hc hphase := by
    have hknows := (hw.calls i c hc).knows
    rw [hphase] at hknows
    cases hset : w.store.isSet event with
    | false =>
      obtain ⟨k, d, hd, hown, -⟩ := hw.owned _ event ⟨hknows.2.1 hset, hset⟩
      exact .inl ⟨k, d, hd, hown⟩
    | true =>
      refine .inr fun redis => ?_
      have hset' : w.store.tick.isSet event = true := hset
      simp [FlightWorld.take, FlightWorld.act, Party.setStore, hc, FlightCall.turn, hphase, hset']
  unblocked key event hevent := by
    cases hset : w.store.isSet event with
    | false =>
      obtain ⟨k, d, hd, hown, -⟩ := hw.owned key event ⟨hevent, hset⟩
      exact .inl ⟨k, d, hd, hown⟩
    | true => exact .inr (hw.store.kept key event hevent hset)
  bound i c hc hphase := by
    have hknows := (hw.calls i c hc).knows
    rw [hphase] at hknows
    exact hknows
  fresh i c hc := by
    have hknows := (hw.calls i c hc).knows
    unfold FlightCall.IsFresh
    split
    · rename_i result hphase
      rw [hphase] at hknows
      exact hknows
    · rename_i error hphase
      rw [hphase] at hknows
      exact hknows
    · trivial

theorem endsOnWaking_of_sound (hw : t.pre.IsSound f) (hadmits : Admits f t)
    (h : FlightWorld.take f t.pre t.label = some t.post) : EndsOnWaking t := by
  intro i redis c d event hlabel hi hphase hd
  have hadmits := admits_tick hadmits
  rw [FlightWorld.take, hlabel] at h
  rw [hlabel] at hadmits
  obtain ⟨c', hi', h⟩ := bind_eq_some_iff.mp h
  cases hi.symm.trans hi'
  obtain ⟨result, hresult, hput⟩ := map_eq_some_iff.mp h
  rw [FlightCall.turn, hphase] at hresult
  simp only [ite_none_right_eq_some, some.injEq] at hresult
  rw [← hput, ← hresult.2, Party.get_put hi'] at hd
  cases hd
  exact (waiting_sound (tick_sound hw) hi' hphase (hadmits c hi')).2

theorem singleFlight {tr : List (FlightTransition Req Key V Raw E)}
    (hrun : Run (FlightWorld.Step f) FlightWorld.initial tr w) (hadmits : ∀ t ∈ tr, Admits f t) : SingleFlight f tr := by
  intro t ht
  have hsound := hrun.invariant_at initial_sound hadmits (fun t hstep hadmit hpre => take_sound hpre hadmit hstep) ht
  exact ⟨hsound.2.isSingleFlight, endsOnWaking_of_sound hsound.1 (hadmits t ht) (hrun.step_of_mem ht)⟩

end Runs

def byParity : CachedFunction ℕ ℕ ℕ ℕ where
  enabled := true
  cacheKey r := r
  contentKey r := if r = 0 then none else some (100 + r % 2)
  dumps := some
  loads := some

abbrev parityRun (events : List (FlightEvent ℕ ℕ ℕ String)) : List (FlightTransition ℕ ℕ ℕ ℕ String) × FlightWorld ℕ ℕ ℕ ℕ String :=
  play (FlightWorld.take byParity) FlightWorld.initial events

/-- Two requests share an execution and a third one its result; after an invalidation the next one computes again, and fails. -/
def sharedFlight : List (FlightEvent ℕ ℕ ℕ String) :=
  [.arrive 2 fun _ => true, .turn 0 fun _ => true, .arrive 4 fun _ => true, .turn 1 fun _ => true,
    .finish 0 (.returns 7) fun _ => true, .turn 0 fun _ => true, .turn 1 fun _ => true, .arrive 2 fun _ => true,
    .cleanup 100, .deletePattern fun _ => true, .arrive 6 fun _ => true, .turn 3 fun _ => true,
    .finish 3 (.raises "timeout") fun _ => true, .turn 3 fun _ => true]

theorem singleFlight_shared : SingleFlight byParity (parityRun sharedFlight).1 :=
  singleFlight (play_run (fun _ _ _ h => h) sharedFlight FlightWorld.initial) (by decide +kernel)

/-- The request that computes is cancelled, and the one that waits for it waits for ever. -/
def cancelledFlight : List (FlightEvent ℕ ℕ ℕ String) :=
  [.arrive 0 fun _ => true, .turn 0 fun _ => true, .arrive 0 fun _ => true, .turn 1 fun _ => true,
    .finish 0 .cancelled fun _ => true]

def staleFlight : List (FlightEvent ℕ ℕ ℕ String) :=
  [.arrive 0 fun _ => true, .turn 0 fun _ => true, .finish 0 (.returns 7) fun _ => true, .turn 0 fun _ => true,
    .deletePattern fun _ => true, .arrive 0 fun _ => true, .turn 1 fun _ => true]

theorem cancelled_blocks : ¬ SingleFlight byParity (parityRun cancelledFlight).1 ∧
    ¬ SingleFlight byParity (parityRun staleFlight).1 := by
  constructor
  · intro h
    obtain ⟨t, ht⟩ : ∃ t, (parityRun cancelledFlight).1[4]? = some t := ⟨_, rfl⟩
    have hcalls : t.post.calls[1]? = some ⟨0, 3, 0, .waiting 0⟩ := by
      cases ht
      rfl
    have howners : ∀ d ∈ t.post.calls, ¬ d.phase.Owns 0 := by
      cases ht
      decide +kernel
    have hstuck : (FlightWorld.take byParity t.post (.turn 1 fun _ => true)).isSome = false := by
      cases ht
      rfl
    rcases (h t (List.mem_of_getElem? ht)).1.awaited 1 _ 0 hcalls rfl with ⟨k, d, hd, hown⟩ | hturn
    · exact howners d (List.mem_of_getElem? hd) hown
    · rw [hturn] at hstuck
      cases hstuck
  · intro h
    obtain ⟨t, ht⟩ : ∃ t, (parityRun staleFlight).1[6]? = some t := ⟨_, rfl⟩
    have hcalls : t.post.calls[1]? = some ⟨0, 6, 5, .returned ⟨7, 0, 3⟩⟩ := by
      cases ht
      rfl
    have hfresh : 5 ≤ 3 := (h t (List.mem_of_getElem? ht)).1.fresh 1 _ hcalls
    omega

end Soter.AiCache
