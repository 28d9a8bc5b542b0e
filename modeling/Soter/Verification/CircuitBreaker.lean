import Mathlib
import Soter.Lib.Run

/-! The circuit breaker of the verification service (`common/utils/circuit-breaker.util.ts`), with any number of calls of
`fire` under way. What a call does before its action starts is one step, and what it does with the outcome is another. -/
namespace Soter.Verification.Breaker
open Soter.Runs List

structure CircuitBreakerOptions where
  failureThreshold : ℕ
  resetTimeout : ℕ

inductive CircuitState
  | closed
  | opened
  | halfOpen
  deriving DecidableEq

structure CircuitBreaker where
  state : CircuitState := .closed
  failureCount : ℕ := 0
  nextAttempt : ℤ

namespace CircuitBreaker
variable (options : CircuitBreakerOptions) (now : ℤ) (b : CircuitBreaker)

/-- `fire`, up to the call of its action: whether it comes to that. -/
def enter : Bool × CircuitBreaker :=
  if b.state = .opened then
    if b.nextAttempt ≤ now then (true, { b with state := .halfOpen }) else (false, b)
  else (true, b)

def onSuccess : CircuitBreaker := { b with state := .closed, failureCount := 0 }

def onFailure : CircuitBreaker :=
  let counted := { b with failureCount := b.failureCount + 1 }
  if b.state = .halfOpen ∨ options.failureThreshold ≤ counted.failureCount then
    { counted with state := .opened, nextAttempt := now + options.resetTimeout }
  else counted

end CircuitBreaker
section Calls

/-- A call of `fire`. While its action is in flight, it is kept in which state of the breaker that was started. -/
inductive Call
  | inFlight (startedIn : CircuitState)
  | refused
  | settled (ok : Bool)
  deriving DecidableEq

structure World where
  now : ℤ
  breaker : CircuitBreaker
  calls : List Call := []

inductive Event
  | elapse (d : ℕ)
  | fire
  /-- The action of the call has an outcome. -/
  | settle (i : ℕ) (ok : Bool)

variable (options : CircuitBreakerOptions)

def Call.isInFlight : Call → Bool
  | .inFlight _ => true
  | _ => false

def CircuitBreaker.settle (now : ℤ) (ok : Bool) (b : CircuitBreaker) : CircuitBreaker :=
  if ok then b.onSuccess else b.onFailure options now

def World.take (w : World) : Event → Option World
  | .elapse d => some { w with now := w.now + d }
  | .fire =>
    let entered := w.breaker.enter w.now
    some { w with
      breaker := entered.2
      calls := w.calls ++ [if entered.1 then .inFlight entered.2.state else .refused] }
  | .settle i ok =>
    if (w.calls[i]?.map Call.isInFlight) = some true then
      some { w with breaker := w.breaker.settle options w.now ok, calls := w.calls.set i (.settled ok) }
    else none

def World.Step (w : World) (event : Event) (w' : World) : Prop := w.take options event = some w'

/-- `new CircuitBreaker(options)` -/
def World.initial (now : ℤ) : World := { now, breaker := { nextAttempt := now } }

abbrev BreakerTransition := Transition World Event

end Calls

def Invokes (t : BreakerTransition) : Prop := ∃ state, t.post.calls = t.pre.calls ++ [.inFlight state]

def Opens (t : BreakerTransition) : Prop := t.pre.breaker.state ≠ .opened ∧ t.post.breaker.state = .opened

def World.IsTrial (w : World) (i : ℕ) : Prop := w.calls[i]? = some (.inFlight .halfOpen)

def failuresSinceSuccess (tr : List BreakerTransition) : ℕ :=
  tr.foldl (fun count t =>
    match t.label with
    | .settle _ true => 0
    | .settle _ false => count + 1
    | _ => count) 0

structure CutsOff (options : CircuitBreakerOptions) (tr : List BreakerTransition) : Prop where
  cutoff : tr.Pairwise fun t t' => Opens t → Invokes t' → t.post.now + options.resetTimeout ≤ t'.pre.now
  alone : ∀ t ∈ tr, Invokes t → ∀ i, ¬ t.pre.IsTrial i
  single : ∀ t ∈ tr, ∀ i j, t.post.IsTrial i → t.post.IsTrial j → i = j
  opening : ∀ k t, tr[k]? = some t → (Opens t ↔ ∃ i, t.label = .settle i false ∧
    (t.pre.IsTrial i ∨ failuresSinceSuccess (tr.take (k + 1)) = options.failureThreshold))

/-- Nothing is fired during a trial, whose outcome is the only one that comes in meanwhile, and no success comes in while the
breaker is open. -/
def Timely (t : BreakerTransition) : Prop :=
  match t.label with
  | .elapse _ => True
  | .fire => t.pre.breaker.state ≠ .halfOpen
  | .settle i ok => (ok = true → t.pre.breaker.state ≠ .opened) ∧
      (t.pre.breaker.state = .halfOpen → t.pre.IsTrial i)

variable {w : World} {tr : List BreakerTransition}
section Kept
variable {options : CircuitBreakerOptions} {w' : World} {t : BreakerTransition} {d i j : ℕ} {ok : Bool}

structure Kept (options : CircuitBreakerOptions) (tr : List BreakerTransition) (w : World) : Prop where
  counted : w.breaker.failureCount = failuresSinceSuccess tr
  closed : w.breaker.state = .closed ↔ w.breaker.failureCount < options.failureThreshold
  trial : ∀ i, w.IsTrial i → w.breaker.state = .halfOpen
  single : ∀ i j, w.IsTrial i → w.IsTrial j → i = j
  soon : w.breaker.nextAttempt ≤ w.now + options.resetTimeout
  waited : ∀ t ∈ tr, Opens t → t.post.now + options.resetTimeout ≤
    if w.breaker.state = .opened then w.breaker.nextAttempt else w.now

structure Obeys (options : CircuitBreakerOptions) (tr : List BreakerTransition) (t : BreakerTransition) : Prop where
  cutoff : Invokes t → ∀ t' ∈ tr, Opens t' → t'.post.now + options.resetTimeout ≤ t.pre.now
  alone : Invokes t → ∀ i, ¬ t.pre.IsTrial i
  opening : Opens t ↔ ∃ i, t.label = .settle i false ∧
    (t.pre.IsTrial i ∨ failuresSinceSuccess (tr ++ [t]) = options.failureThreshold)

theorem failuresSinceSuccess_snoc (tr : List BreakerTransition) (t : BreakerTransition) : failuresSinceSuccess (tr ++ [t]) =
      match t.label with
      | .settle _ true => 0
      | .settle _ false => failuresSinceSuccess tr + 1
      | _ => failuresSinceSuccess tr := by
  rw [failuresSinceSuccess, foldl_append]
  rfl

theorem Kept.waited_snoc (h : Kept options tr w) (hopens : ¬ Opens t) {time : ℤ}
    (htime : (if w.breaker.state = .opened then w.breaker.nextAttempt else w.now) ≤ time) :
    ∀ t' ∈ tr ++ [t], Opens t' → t'.post.now + options.resetTimeout ≤ time := by
  intro t' ht' hopens'
  rcases mem_append.mp ht' with ht' | ht'
  · exact (h.waited t' ht' hopens').trans htime
  · rw [mem_singleton.mp ht'] at hopens'
    exact absurd hopens' hopens

theorem not_invokes_of_calls (h : t.post.calls = t.pre.calls) : ¬ Invokes t := by
  rintro ⟨state, hcalls⟩
  have hlength := congrArg length (h.symm.trans hcalls)
  rw [length_append, length_singleton] at hlength
  omega

theorem kept_elapse (h : Kept options tr w) (d : ℕ) :
    Kept options (tr ++ [⟨w, .elapse d, { w with now := w.now + d }⟩]) { w with now := w.now + d } ∧
      Obeys options tr ⟨w, .elapse d, { w with now := w.now + d }⟩ := by
  have hclosed : ¬ Opens ⟨w, .elapse d, { w with now := w.now + d }⟩ := fun hopens => hopens.1 hopens.2
  have hquiet : ¬ Invokes ⟨w, .elapse d, { w with now := w.now + d }⟩ := not_invokes_of_calls rfl
  constructor
  · refine ⟨?_, h.closed, h.trial, h.single, ?_, h.waited_snoc hclosed ?_⟩
    · rw [failuresSinceSuccess_snoc]
      exact h.counted
    · have hsoon := h.soon
      dsimp only
      omega
    · dsimp only
      split
      · exact le_rfl
      · omega
  · refine ⟨fun hinvokes => absurd hinvokes hquiet, fun hinvokes => absurd hinvokes hquiet, ?_⟩
    refine iff_of_false hclosed ?_
    rintro ⟨i, hlabel, -⟩
    cases hlabel

theorem fire_cases (hstep : World.Step options w .fire w') :
    (w.breaker.state = .opened ∧ w' = { w with calls := w.calls ++ [.refused] }) ∨
      (w.breaker.state = .opened ∧ w.breaker.nextAttempt ≤ w.now ∧
        w' = { w with breaker := { w.breaker with state := .halfOpen }, calls := w.calls ++ [.inFlight .halfOpen] }) ∨
      (w.breaker.state ≠ .opened ∧ w' = { w with calls := w.calls ++ [.inFlight w.breaker.state] }) := by
  rw [World.Step, World.take, Option.some.injEq] at hstep
  subst hstep
  rw [CircuitBreaker.enter]
  by_cases hopen : w.breaker.state = .opened
  · rw [if_pos hopen]
    split
    · rename_i htime
      exact .inr (.inl ⟨hopen, htime, rfl⟩)
    · exact .inl ⟨hopen, rfl⟩
  · rw [if_neg hopen]
    exact .inr (.inr ⟨hopen, rfl⟩)

theorem isTrial_snoc {calls : List Call} {c : Call} (h : (calls ++ [c])[i]? = some (.inFlight .halfOpen)) :
    calls[i]? = some (.inFlight .halfOpen) ∨ i = calls.length ∧ c = .inFlight .halfOpen := by
  rcases getElem?_snoc h with hold | ⟨hi, hc⟩
  · exact .inl hold
  · exact .inr ⟨hi, hc.symm⟩

theorem Kept.no_trial (h : Kept options tr w) (hstate : w.breaker.state ≠ .halfOpen) (i : ℕ) : ¬ w.IsTrial i :=
  fun htrial => hstate (h.trial i htrial)

theorem kept_fire (h : Kept options tr w) (hstep : World.Step options w .fire w') (htimely : w.breaker.state ≠ .halfOpen) :
    Kept options (tr ++ [⟨w, .fire, w'⟩]) w' ∧ Obeys options tr ⟨w, .fire, w'⟩ := by
  have hcounted : failuresSinceSuccess (tr ++ [⟨w, .fire, w'⟩]) = failuresSinceSuccess tr :=
    failuresSinceSuccess_snoc tr _
  have hnone := h.no_trial htimely
  have hnotFailed (P : ℕ → Prop) : ¬ ∃ i, Event.fire = .settle i false ∧ P i := by
    rintro ⟨i, hlabel, -⟩
    cases hlabel
  rcases fire_cases hstep with ⟨hopen, rfl⟩ | ⟨hopen, htime, rfl⟩ | ⟨hnot, rfl⟩
  · have hclosed : ¬ Opens ⟨w, .fire, { w with calls := w.calls ++ [.refused] }⟩ := fun hopens => hopens.1 hopen
    have htrials : ∀ i, ¬ World.IsTrial { w with calls := w.calls ++ [.refused] } i := by
      intro i htrial
      rcases isTrial_snoc htrial with hold | ⟨-, hc⟩
      · exact hnone i hold
      · cases hc
    have hquiet : ¬ Invokes ⟨w, .fire, { w with calls := w.calls ++ [.refused] }⟩ := by
      rintro ⟨state, hcalls⟩
      cases append_cancel_left hcalls
    refine ⟨⟨h.counted.trans hcounted.symm, h.closed, fun i hi => absurd hi (htrials i),
      fun i _ hi => absurd hi (htrials i), h.soon, h.waited_snoc hclosed le_rfl⟩, ?_⟩
    exact ⟨fun hinvokes => absurd hinvokes hquiet, fun hinvokes => absurd hinvokes hquiet,
      iff_of_false hclosed (hnotFailed _)⟩
  · have hclosed (post : World) (hpost : post.breaker.state = .halfOpen) : ¬ Opens ⟨w, .fire, post⟩ :=
      fun hopens => hopens.1 hopen
    have hwaited := h.waited
    rw [if_pos hopen] at hwaited
    have hfailures : ¬ w.breaker.failureCount < options.failureThreshold := fun hlt => by
      cases hopen.symm.trans (h.closed.mpr hlt)
    constructor
    · refine ⟨h.counted.trans hcounted.symm, ?_, fun _ _ => rfl, ?_, h.soon, h.waited_snoc (hclosed _ rfl) ?_⟩
      · exact iff_of_false (by rintro ⟨⟩) hfailures
      · intro i j hi hj
        rcases isTrial_snoc hi with hold | ⟨hi, -⟩
        · exact absurd hold (hnone i)
        · rcases isTrial_snoc hj with hold | ⟨hj, -⟩
          · exact absurd hold (hnone j)
          · rw [hi, hj]
      · rw [if_pos hopen]
        exact htime
    · refine ⟨fun _ t' ht' hopens => (hwaited t' ht' hopens).trans htime, fun _ => hnone, ?_⟩
      exact iff_of_false (hclosed _ rfl) (hnotFailed _)
  · have hclosed : ¬ Opens ⟨w, .fire, { w with calls := w.calls ++ [.inFlight w.breaker.state] }⟩ :=
      fun hopens => hnot hopens.2
    have htrials : ∀ i, ¬ World.IsTrial { w with calls := w.calls ++ [.inFlight w.breaker.state] } i := by
      intro i htrial
      rcases isTrial_snoc htrial with hold | ⟨-, hc⟩
      · exact hnone i hold
      · exact htimely (Call.inFlight.inj hc)
    have hwaited := h.waited
    rw [if_neg hnot] at hwaited
    refine ⟨⟨h.counted.trans hcounted.symm, h.closed, fun i hi => absurd hi (htrials i),
      fun i _ hi => absurd hi (htrials i), h.soon, h.waited_snoc hclosed le_rfl⟩, ?_⟩
    exact ⟨fun _ => hwaited, fun _ => hnone, iff_of_false hclosed (hnotFailed _)⟩

structure Settles (options : CircuitBreakerOptions) (w : World) (i : ℕ) (ok : Bool) (w' : World) : Prop where
  now : w'.now = w.now
  breaker : w'.breaker = w.breaker.settle options w.now ok
  calls : w'.calls = w.calls.set i (.settled ok)

theorem settles_of_step (hstep : World.Step options w (.settle i ok) w') : Settles options w i ok w' := by
  rw [World.Step, World.take] at hstep
  split at hstep
  · cases hstep
    exact ⟨rfl, rfl, rfl⟩
  · cases hstep

theorem Settles.not_invokes (hsettles : Settles options w i ok w') : ¬ Invokes ⟨w, .settle i ok, w'⟩ := by
  rintro ⟨state, hcalls⟩
  have hlength := congrArg length (hsettles.calls.symm.trans hcalls)
  dsimp only at hlength
  rw [length_set, length_append, length_singleton] at hlength
  omega

theorem Kept.trial_settled (h : Kept options tr w) (hsettles : Settles options w i ok w')
    (htimely : w.breaker.state = .halfOpen → w.IsTrial i) (j : ℕ) : ¬ w'.IsTrial j := by
  intro htrial
  rw [World.IsTrial, hsettles.calls] at htrial
  by_cases hij : i = j
  · subst hij
    rw [getElem?_set_self'] at htrial
    cases hold : w.calls[i]? with
    | none =>
      rw [hold] at htrial
      cases htrial
    | some c =>
      rw [hold] at htrial
      cases htrial
  · rw [getElem?_set_ne hij] at htrial
    exact hij (h.single i j (htimely (h.trial j htrial)) htrial)

theorem kept_success (h : Kept options tr w) (hthreshold : 0 < options.failureThreshold)
    (hsettles : Settles options w i true w') (hnot : w.breaker.state ≠ .opened)
    (htimely : w.breaker.state = .halfOpen → w.IsTrial i) :
    Kept options (tr ++ [⟨w, .settle i true, w'⟩]) w' ∧ Obeys options tr ⟨w, .settle i true, w'⟩ := by
  have htrials := h.trial_settled hsettles htimely
  have hbreaker : w'.breaker = w.breaker.onSuccess := hsettles.breaker
  have hclosed : ¬ Opens ⟨w, .settle i true, w'⟩ := by
    rintro ⟨-, hopen⟩
    rw [hbreaker] at hopen
    cases hopen
  constructor
  · refine ⟨?_, ?_, fun j hj => absurd hj (htrials j), fun j _ hj => absurd hj (htrials j), ?_, h.waited_snoc hclosed ?_⟩
    · rw [hbreaker, failuresSinceSuccess_snoc]
      rfl
    · rw [hbreaker]
      exact iff_of_true rfl hthreshold
    · rw [hbreaker, hsettles.now]
      exact h.soon
    · rw [if_neg hnot, hbreaker, hsettles.now]
      exact le_rfl
  · refine ⟨fun hinvokes => absurd hinvokes hsettles.not_invokes, fun hinvokes => absurd hinvokes hsettles.not_invokes,
      iff_of_false hclosed ?_⟩
    rintro ⟨j, hlabel, -⟩
    cases hlabel

theorem failure_cases (options : CircuitBreakerOptions) (b : CircuitBreaker) (now : ℤ) :
    ((b.state = .halfOpen ∨ options.failureThreshold ≤ b.failureCount + 1) ∧ b.settle options now false =
        { state := .opened, failureCount := b.failureCount + 1, nextAttempt := now + options.resetTimeout }) ∨
      (b.state ≠ .halfOpen ∧ b.failureCount + 1 < options.failureThreshold ∧
        b.settle options now false = { b with failureCount := b.failureCount + 1 }) := by
  rw [CircuitBreaker.settle, if_neg Bool.false_ne_true, CircuitBreaker.onFailure]
  dsimp only
  split
  · rename_i hopens
    exact .inl ⟨hopens, rfl⟩
  · rename_i hfirst
    rw [not_or, not_le] at hfirst
    exact .inr ⟨hfirst.1, hfirst.2, rfl⟩

theorem kept_failure (h : Kept options tr w) (hsettles : Settles options w i false w')
    (htimely : w.breaker.state = .halfOpen → w.IsTrial i) :
    Kept options (tr ++ [⟨w, .settle i false, w'⟩]) w' ∧ Obeys options tr ⟨w, .settle i false, w'⟩ := by
  have htrials := h.trial_settled hsettles htimely
  have hcount : failuresSinceSuccess (tr ++ [⟨w, .settle i false, w'⟩]) = w.breaker.failureCount + 1 := by
    rw [failuresSinceSuccess_snoc, h.counted]
  have hquiet : ¬ Invokes ⟨w, .settle i false, w'⟩ := hsettles.not_invokes
  have hbreaker := hsettles.breaker
  rcases failure_cases options w.breaker w.now with ⟨hopens, heq⟩ | ⟨hnot, hfirst, heq⟩
  · rw [heq] at hbreaker
    have hfailures : options.failureThreshold ≤ w.breaker.failureCount + 1 := by
      rcases hopens with hhalf | hfailures
      · have hmany : ¬ w.breaker.failureCount < options.failureThreshold := fun hlt => by
          cases hhalf.symm.trans (h.closed.mpr hlt)
        omega
      · exact hfailures
    constructor
    · refine ⟨?_, ?_, fun j hj => absurd hj (htrials j), fun j _ hj => absurd hj (htrials j), ?_, ?_⟩
      · rw [hbreaker, hcount]
      · rw [hbreaker]
        exact iff_of_false (by rintro ⟨⟩) (not_lt.mpr hfailures)
      · rw [hbreaker, hsettles.now]
      · intro t ht hopened
        rw [hbreaker, if_pos rfl]
        rcases mem_append.mp ht with ht | ht
        · have hwaited := h.waited t ht hopened
          have hsoon := h.soon
          dsimp only
          split at hwaited <;> omega
        · rw [mem_singleton.mp ht]
          dsimp only
          rw [hsettles.now]
    · refine ⟨fun hinvokes => absurd hinvokes hquiet, fun hinvokes => absurd hinvokes hquiet, ?_⟩
      rw [hcount]
      constructor
      · intro hopened
        refine ⟨i, rfl, ?_⟩
        rcases hopens with hhalf | hfailures
        · exact .inl (htimely hhalf)
        · by_cases hhalf : w.breaker.state = .halfOpen
          · exact .inl (htimely hhalf)
          · -- neither open nor half open, so closed: the threshold is reached with this failure
            have hstate : w.breaker.state = .closed := by
              cases hs : w.breaker.state with
              | closed => rfl
              | opened => exact absurd hs hopened.1
              | halfOpen => exact absurd hs hhalf
            have hfew := h.closed.mp hstate
            exact .inr (by omega)
      · intro hreached
        obtain ⟨j, hlabel, hreached⟩ := hreached
        cases hlabel
        refine ⟨fun hopen => ?_, ?_⟩
        · rcases hreached with htrial | hequal
          · cases hopen.symm.trans (h.trial i htrial)
          · cases hopen.symm.trans (h.closed.mpr (by omega))
        · dsimp only
          rw [hbreaker]
  · rw [heq] at hbreaker
    have hstate : w.breaker.state = .closed := h.closed.mpr (by omega)
    have hclosed : ¬ Opens ⟨w, .settle i false, w'⟩ := by
      rintro ⟨-, hopen⟩
      dsimp only at hopen
      rw [hbreaker] at hopen
      cases hstate.symm.trans hopen
    constructor
    · refine ⟨?_, ?_, fun j hj => absurd hj (htrials j), fun j _ hj => absurd hj (htrials j), ?_, h.waited_snoc hclosed ?_⟩
      · rw [hbreaker, hcount]
      · rw [hbreaker]
        exact iff_of_true hstate hfirst
      · rw [hbreaker, hsettles.now]
        exact h.soon
      · rw [hbreaker, hsettles.now]
    · refine ⟨fun hinvokes => absurd hinvokes hquiet, fun hinvokes => absurd hinvokes hquiet, ?_⟩
      rw [hcount]
      refine iff_of_false hclosed ?_
      rintro ⟨j, hlabel, htrial | hequal⟩
      · cases hlabel
        exact hnot (h.trial i htrial)
      · omega

end Kept
section Law
variable {options : CircuitBreakerOptions} {now : ℤ}

theorem kept_step (hthreshold : 0 < options.failureThreshold) (h : Kept options tr w) {event : Event} {w' : World}
    (hstep : World.Step options w event w') (htimely : Timely ⟨w, event, w'⟩) :
    Kept options (tr ++ [⟨w, event, w'⟩]) w' ∧ Obeys options tr ⟨w, event, w'⟩ := by
  cases event with
  | elapse d =>
    cases hstep
    exact kept_elapse h d
  | fire => exact kept_fire h hstep htimely
  | settle i ok =>
    obtain ⟨hsuccess, htrial⟩ := htimely
    cases ok with
    | true => exact kept_success h hthreshold (settles_of_step hstep) (hsuccess rfl) htrial
    | false => exact kept_failure h (settles_of_step hstep) htrial

theorem circuit_breaker_cutoff (hthreshold : 0 < options.failureThreshold)
    (hrun : Run (World.Step options) (World.initial now) tr w) (htimely : ∀ t ∈ tr, Timely t) :
    CutsOff options tr := by
  suffices hboth : CutsOff options tr ∧ Kept options tr w from hboth.1
  induction hrun with
  | nil =>
    have hnone : ∀ i, ¬ (World.initial now).IsTrial i := by
      rintro i ⟨⟩
    refine ⟨⟨List.Pairwise.nil, fun t ht => ?_, fun t ht => ?_, fun k t ht => ?_⟩,
      ⟨rfl, iff_of_true rfl hthreshold, fun i hi => absurd hi (hnone i), fun i _ hi => absurd hi (hnone i), ?_,
        fun t ht => ?_⟩⟩
    · cases ht
    · cases ht
    · cases ht
    · exact le_add_of_nonneg_right (Int.natCast_nonneg _)
    · cases ht
  | @snoc tr w event w' hrun hstep ih =>
    obtain ⟨hlaw, hkept⟩ := ih fun t ht => htimely t (mem_append_left _ ht)
    obtain ⟨hkept', hobeys⟩ := kept_step hthreshold hkept hstep (htimely _ (by simp))
    refine ⟨⟨?_, ?_, ?_, fun k t ht => ?_⟩, hkept'⟩
    · refine pairwise_append.mpr ⟨hlaw.cutoff, pairwise_singleton _ _, fun t ht t' ht' => ?_⟩
      intro hopens hinvokes
      rw [mem_singleton.mp ht'] at hinvokes ⊢
      exact hobeys.cutoff hinvokes t ht hopens
    · rw [forall_mem_append, forall_mem_singleton]
      exact ⟨hlaw.alone, hobeys.alone⟩
    · rw [forall_mem_append, forall_mem_singleton]
      exact ⟨hlaw.single, hkept'.single⟩
    · rcases getElem?_snoc ht with hold | ⟨rfl, rfl⟩
      · have hk : k + 1 ≤ tr.length := (List.getElem?_eq_some_iff.mp hold).1
        rw [List.take_append_of_le_length hk]
        exact hlaw.opening k t hold
      · rw [take_of_length_le (by simp)]
        exact hobeys.opening

instance : DecidablePred Timely
  | ⟨_, .elapse _, _⟩ => .isTrue trivial
  | ⟨pre, .fire, _⟩ => inferInstanceAs (Decidable (pre.breaker.state ≠ .halfOpen))
  | ⟨pre, .settle i ok, _⟩ => inferInstanceAs (Decidable ((ok = true → pre.breaker.state ≠ .opened) ∧
      (pre.breaker.state = .halfOpen → pre.calls[i]? = some (.inFlight .halfOpen))))

def touchy : CircuitBreakerOptions where
  failureThreshold := 1
  resetTimeout := 10

def played (events : List Event) : List BreakerTransition × World := play (World.take touchy) (World.initial 0) events

theorem played_run (events : List Event) :
    Run (World.Step touchy) (World.initial 0) (played events).1 (played events).2 :=
  play_run (fun _ _ _ h => h) events _

theorem circuit_breaker_cutoff_trial :
    CutsOff touchy (played [.fire, .settle 0 false, .elapse 10, .fire, .settle 1 true, .fire]).1 :=
  circuit_breaker_cutoff (by decide) (played_run _) (by decide)

theorem circuit_breaker_cutoff_fails :
    ¬ ∀ options : CircuitBreakerOptions, 0 < options.failureThreshold → 0 < options.resetTimeout →
      ∀ (now : ℤ) (tr : List BreakerTransition) (w : World), Run (World.Step options) (World.initial now) tr w →
        CutsOff options tr := by
  intro h
  have hlaw := h touchy (by decide) (by decide) 0 _ _ (played_run [.fire, .fire, .settle 0 false, .settle 1 true, .fire])
  have hpair := pairwise_iff_getElem.mp hlaw.cutoff 2 4 (by decide) (by decide) (by decide)
  have hlate := hpair ⟨by decide, by decide⟩ ⟨.closed, by decide⟩
  exact absurd hlate (by decide)

end Law
end Soter.Verification.Breaker
