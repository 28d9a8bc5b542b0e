import Soter.SyncQueue.Ledger

/-! A flush attempts no action that has come to an end, attempts none more often than it may be retried, and the queue has no two
waiting submissions of one claim: as long as a flush comes to waiting actions only, no ended action is requeued beside a waiting one
of its key, every action may be retried at all, and no late hydration changes the queue. -/
namespace Soter.SyncQueue
open Soter.Parties Soter.Runs Option

variable {K : Type}
section Statement

def Attempts (t : QueueTransition K) (action : QueuedSyncAction K) : Prop :=
  t.pre.store.attempted = none ∧ t.post.store.attempted = some action

structure IsTerminal (tr : List (QueueTransition K)) : Prop where
  quiet : ∀ t ∈ tr, ∀ action, Attempts t action → t.post.store.finished action.id = false
  bounded : ∀ t ∈ tr, ∀ action, Attempts t action → t.post.store.executions action.id ≤ action.maxRetries
  unique : ∀ t ∈ tr, t.post.store.items.Pairwise fun a b => a.isWaiting = true → b.isWaiting = true → ¬ a.SharesKey b

variable [DecidableEq K]

def QueueRequest.IsValid : QueueRequest K → Prop
  | .dispatch request _ => request.maxRetries ≠ some 0
  | _ => True

def CallPhase.CanTurn (s : QueueStore K) : CallPhase K → Prop
  | .read _ raw => s.hydrated = true → raw = s.items
  | .hydrated (.flush options) =>
    options.online = true → s.flush.isNone = true → IsWaitingNext (nextAttempt options s.now 0 s.items)
  | .hydrated (.requeue id) => s.CanRequeue id
  | _ => True

instance (s : QueueStore K) : ∀ phase, Decidable (CallPhase.CanTurn s phase)
  | .read _ raw => inferInstanceAs (Decidable (s.hydrated = true → raw = s.items))
  | .hydrated (.flush options) => inferInstanceAs
      (Decidable (options.online = true → s.flush.isNone = true → IsWaitingNext (nextAttempt options s.now 0 s.items)))
  | .hydrated (.requeue id) => inferInstanceAs (Decidable (s.CanRequeue id))
  | .hydrating _ | .hydrated (.dispatch _ _) | .hydrated (.discard _) | .hydrated .clear | .hydrated .getState | .running _
  | .enqueuing _ | .ended => inferInstanceAs (Decidable True)

def Admits (t : QueueTransition K) : Prop :=
  match t.label with
  | .call (.dispatch request _) => request.maxRetries ≠ some 0
  | .turn i => ∀ phase ∈ t.pre.calls[i]?, phase.CanTurn t.pre.store
  | .flushTurn => ∀ f ∈ t.pre.store.flush, IsWaitingNext f.next
  | _ => True

instance (t : QueueTransition K) : Decidable (Admits t) :=
  match t with
  | ⟨_, .call (.dispatch request _), _⟩ => inferInstanceAs (Decidable (request.maxRetries ≠ some 0))
  | ⟨pre, .turn i, _⟩ => inferInstanceAs (Decidable (∀ phase ∈ pre.calls[i]?, phase.CanTurn pre.store))
  | ⟨pre, .flushTurn, _⟩ => inferInstanceAs (Decidable (∀ f ∈ pre.store.flush, IsWaitingNext f.next))
  | ⟨_, .call (.flush _), _⟩ | ⟨_, .call (.requeue _), _⟩ | ⟨_, .call (.discard _), _⟩ | ⟨_, .call .clear, _⟩
  | ⟨_, .call .getState, _⟩ | ⟨_, .answer _ _, _⟩ | ⟨_, .flushAnswer _, _⟩ | ⟨_, .write, _⟩ | ⟨_, .clock _, _⟩
  | ⟨_, .relaunch, _⟩ => inferInstanceAs (Decidable True)

end Statement

def CallPhase.IsSound (s : QueueStore K) : CallPhase K → Prop
  | .hydrating request => request.IsValid
  | .read request raw => request.IsValid ∧ (s.hydrated = false → raw = s.storage)
  | .hydrated request => request.IsValid ∧ s.hydrated = true
  | .running request | .enqueuing request => request.maxRetries ≠ some 0 ∧ s.hydrated = true
  | .ended => True

structure QueueWorld.IsSound (w : QueueWorld K) : Prop where
  store : w.store.IsSound
  calls : ∀ (i : ℕ) (phase : CallPhase K), w.calls[i]? = some phase → phase.IsSound w.store

section Calls
variable {s s' : QueueStore K} {f : FlushRun K}

variable {phase phase' : CallPhase K} {outcome : Except SyncError Unit}

theorem CallPhase.IsSound.mono (h : phase.IsSound s) (hopen : s.hydrated = true → s'.hydrated = true)
    (hclosed : s'.hydrated = false → s'.storage = s.storage) : phase.IsSound s' := by
  cases phase with
  | hydrating request => exact h
  | read request raw =>
    refine ⟨h.1, fun hnot => ?_⟩
    have hnot' : s.hydrated = false := by
      by_contra hyes
      rw [hopen (by simpa using hyes)] at hnot
      cases hnot
    rw [hclosed hnot]
    exact h.2 hnot'
  | hydrated request | running request | enqueuing request => exact ⟨h.1, hopen h.2⟩
  | ended => trivial

theorem goOn_hydrated : (s.goOn f).hydrated = s.hydrated := by
  unfold QueueStore.goOn
  split
  · rfl
  · rfl

theorem startFlush_hydrated {options : FlushOptions} : (s.startFlush options).hydrated = s.hydrated := by
  unfold QueueStore.startFlush
  split
  · exact goOn_hydrated
  · rfl

theorem enqueue_hydrated [DecidableEq K] {request : SyncActionRequest K} : (s.enqueue request).hydrated = s.hydrated := by
  unfold QueueStore.enqueue
  split
  · rfl
  · rfl

theorem turn_sound [DecidableEq K] (hs : s.IsSound) (hphase : phase.IsSound s)
    (hadmits : phase.CanTurn s) (h : phase.turn s = some (phase', s')) :
    s'.IsSound ∧ phase'.IsSound s' ∧ (s.hydrated = true → s'.hydrated = true) ∧ (s'.hydrated = false → s'.storage = s.storage) := by
  have hstays : ∀ {store : QueueStore K}, store.IsSound → s.hydrated = true → store.hydrated = s.hydrated →
      store.IsSound ∧ CallPhase.IsSound store .ended ∧ (s.hydrated = true → store.hydrated = true) ∧
        (store.hydrated = false → store.storage = s.storage) := by
    intro store hstore hopen hsame
    refine ⟨hstore, trivial, fun _ => hsame.trans hopen, fun hclosed => ?_⟩
    rw [hsame, hopen] at hclosed
    cases hclosed
  cases phase with
  | hydrating request =>
    cases h
    exact ⟨hs, ⟨hphase, fun _ => rfl⟩, id, fun _ => rfl⟩
  | read request raw =>
    cases h
    exact ⟨hydrate_sound hs hphase.2 hadmits, ⟨hphase.1, rfl⟩, fun _ => rfl, nofun⟩
  | hydrated request =>
    obtain ⟨hvalid, hopen⟩ := hphase
    cases request with
    | dispatch request online =>
      cases online with
      | false =>
        cases h
        exact ⟨hs, ⟨hvalid, hopen⟩, id, fun _ => rfl⟩
      | true =>
        cases h
        exact ⟨hs, ⟨hvalid, hopen⟩, id, fun _ => rfl⟩
    | flush options =>
      cases h
      exact hstays (startFlush_sound hs hopen hadmits) hopen startFlush_hydrated
    | requeue id =>
      cases h
      exact hstays (requeue_sound hs hopen hadmits) hopen rfl
    | discard id =>
      cases h
      exact hstays (sublist_sound hs hopen List.filter_sublist _) hopen rfl
    | clear =>
      cases h
      exact hstays (sublist_sound hs hopen (List.nil_sublist _) _) hopen rfl
    | getState =>
      cases h
      exact hstays hs hopen rfl
  | enqueuing request =>
    cases h
    exact hstays (enqueue_sound hs hphase.2 hphase.1) hphase.2 enqueue_hydrated
  | running request | ended => cases h

theorem answer_sound (hs : s.IsSound) (hphase : phase.IsSound s)
    (h : phase.receive s outcome = some (phase', s')) : s'.IsSound ∧ phase'.IsSound s' ∧ s'.hydrated = s.hydrated ∧ s.hydrated = true := by
  cases phase with
  | running request =>
    obtain ⟨hvalid, hopen⟩ := hphase
    cases outcome with
    | ok u =>
      cases u
      cases h
      exact ⟨hs, trivial, rfl, hopen⟩
    | error error =>
      simp only [CallPhase.receive] at h
      split at h
      · cases h
        exact ⟨recordConflict_sound hs hopen hvalid, trivial, rfl, hopen⟩
      · split at h
        · cases h
          exact ⟨hs, ⟨hvalid, hopen⟩, rfl, hopen⟩
        · cases h
          exact ⟨hs, trivial, rfl, hopen⟩
  | _ => cases h

theorem clock_sound (hs : s.IsSound) (now : ℤ) : ({ s with now } : QueueStore K).IsSound := by
  have hkeeps : ∀ a, s.Allows a → ({ s with now } : QueueStore K).Allows a := fun a ha => ha.congr ⟨rfl, rfl, rfl, rfl⟩
  refine ⟨hs.fresh, hs.good.mono fun a _ => hkeeps a, hs.marked, fun f hf => ?_, fun hclosed => ?_, hs.stored⟩
  · exact (hs.flush f hf).mono fun a _ => hkeeps a
  · obtain ⟨hitems, hwrites, hflush, hstorage⟩ := hs.closed hclosed
    exact ⟨hitems, hwrites, hflush, hstorage.mono fun a _ => hkeeps a⟩

theorem flushTurn_sound (hs : s.IsSound) (hadmits : ∀ f ∈ s.flush, IsWaitingNext f.next) (h : s.flushTurn = some s') :
    s'.IsSound ∧ s'.hydrated = s.hydrated := by
  obtain ⟨f, hf, h⟩ := bind_eq_some_iff.mp h
  have hopen : s.hydrated = true := by
    by_contra hclosed
    have hnone := (hs.closed (by simpa using hclosed)).2.2.1
    rw [hf] at hnone
    cases hnone
  split at h
  · rename_i hphase
    cases h
    refine ⟨goOn_sound hs hopen ?_ (hs.flush f hf) (hadmits f hf), goOn_hydrated⟩
    rw [attempted_of_flush hf, hphase]
  · cases h

theorem flushAnswer_sound (hs : s.IsSound) (h : s.flushAnswer outcome = some s') :
    s'.IsSound ∧ s'.hydrated = s.hydrated := by
  obtain ⟨f, hf, h⟩ := bind_eq_some_iff.mp h
  split at h
  · rename_i action hphase
    cases h
    exact ⟨receive_sound hs hf hphase, rfl⟩
  · cases h

end Calls
section Histories
variable {w w' : QueueWorld K} {event : QueueEvent K} {tr : List (QueueTransition K)}

theorem initial_sound : (QueueWorld.initial : QueueWorld K).IsSound where
  store := by
    have hgood : (QueueWorld.initial : QueueWorld K).store.IsGood [] :=
      ⟨fun a ha => absurd ha List.not_mem_nil, List.nodup_nil, fun a ha => absurd ha List.not_mem_nil⟩
    refine ⟨fun _ _ => ⟨rfl, rfl⟩, hgood, fun a ha => absurd ha List.not_mem_nil, fun f hf => ?_,
      fun _ => ⟨rfl, rfl, rfl, hgood⟩, fun hopen => ?_⟩
    · have hnone : none = some f := hf
      cases hnone
    · have hclosed : false = true := hopen
      cases hclosed
  calls i phase h := by
    have hnone : none = some phase := h
    cases hnone

theorem setStore_sound {s' : QueueStore K} (hw : w.IsSound) (hs : s'.IsSound) (hhydrated : s'.hydrated = w.store.hydrated)
    (hstorage : w.store.hydrated = false → s'.storage = w.store.storage) :
    QueueWorld.IsSound (w.setStore s') where
  store := hs
  calls i phase h := (hw.calls i phase h).mono (fun hopen => hhydrated.trans hopen) fun hclosed => hstorage (hhydrated.symm.trans hclosed)

variable [DecidableEq K]

theorem take_sound (hw : w.IsSound) (hadmits : Admits ⟨w, event, w'⟩) (h : w.take event = some w') : w'.IsSound := by
  have hflush : ∀ f, w.store.flush = some f → w.store.hydrated = true := by
    intro f hf
    by_contra hclosed
    have hnone := (hw.store.closed (by simpa using hclosed)).2.2.1
    rw [hf] at hnone
    cases hnone
  cases event with
  | call request =>
    cases h
    have hvalid : request.IsValid := by
      cases request with
      | dispatch request online => exact hadmits
      | _ => trivial
    refine ⟨hw.store, Party.forall_join (P := fun s _ (phase : CallPhase K) => phase.IsSound s) hw.calls ?_⟩
    split
    · rename_i hopen
      exact ⟨hvalid, hopen⟩
    · exact hvalid
  | turn i =>
    obtain ⟨phase, hi, h⟩ := bind_eq_some_iff.mp h
    obtain ⟨⟨phase', s'⟩, hturn, rfl⟩ := map_eq_some_iff.mp h
    obtain ⟨hs, hphase, hopen, hclosed⟩ := turn_sound hw.store (hw.calls i phase hi) (hadmits phase hi) hturn
    exact ⟨hs, Party.forall_put (P := fun s _ (phase : CallPhase K) => phase.IsSound s) hi hw.calls hphase fun k d _ hd => hd.mono hopen hclosed⟩
  | answer i outcome =>
    obtain ⟨phase, hi, h⟩ := bind_eq_some_iff.mp h
    obtain ⟨⟨phase', s'⟩, hanswer, rfl⟩ := map_eq_some_iff.mp h
    obtain ⟨hs, hphase, hsame, hopen⟩ := answer_sound hw.store (hw.calls i phase hi) hanswer
    refine ⟨hs, Party.forall_put (P := fun s _ (phase : CallPhase K) => phase.IsSound s) hi hw.calls hphase fun k d _ hd => hd.mono ?_ ?_⟩
    · exact fun hopen => hsame.trans hopen
    · intro hclosed
      rw [hsame, hopen] at hclosed
      cases hclosed
  | flushAnswer outcome =>
    obtain ⟨s', hs', rfl⟩ := map_eq_some_iff.mp h
    obtain ⟨hs, hsame⟩ := flushAnswer_sound hw.store hs'
    obtain ⟨f, hf, -⟩ := bind_eq_some_iff.mp hs'
    refine setStore_sound hw hs hsame fun hclosed => ?_
    rw [hflush f hf] at hclosed
    cases hclosed
  | flushTurn =>
    obtain ⟨s', hs', rfl⟩ := map_eq_some_iff.mp h
    obtain ⟨hs, hsame⟩ := flushTurn_sound hw.store hadmits hs'
    obtain ⟨f, hf, -⟩ := bind_eq_some_iff.mp hs'
    refine setStore_sound hw hs hsame fun hclosed => ?_
    rw [hflush f hf] at hclosed
    cases hclosed
  | write =>
    obtain ⟨s', hs', rfl⟩ := map_eq_some_iff.mp h
    refine setStore_sound hw (write_sound hw.store hs') ?_ ?_
    · unfold QueueStore.write at hs'
      split at hs'
      · cases hs'
      · cases hs'
        rfl
    · intro hclosed
      have hnone := (hw.store.closed hclosed).2.1
      rw [QueueStore.write, hnone] at hs'
      cases hs'
  | clock now =>
    cases h
    exact setStore_sound hw (clock_sound hw.store now) rfl fun _ => rfl
  | relaunch =>
    obtain ⟨s', hs', rfl⟩ := map_eq_some_iff.mp h
    exact ⟨relaunch_sound hw.store hs', nofun⟩

theorem terminal_of_run (hrun : Run QueueWorld.Step QueueWorld.initial tr w) (hadmits : ∀ t ∈ tr, Admits t) : IsTerminal tr := by
  have hsound : ∀ t ∈ tr, t.post.IsSound := fun t ht =>
    (hrun.invariant_at (I := QueueWorld.IsSound) initial_sound hadmits (fun _ hstep hadmit hpre => take_sound hpre hadmit hstep) ht).2
  have hattempts : ∀ t ∈ tr, ∀ action, Attempts t action → t.post.store.Allows action ∧ action.isWaiting = true := by
    intro t ht action hattempt
    obtain ⟨f, hf, hphase⟩ := bind_eq_some_iff.mp hattempt.2
    have hflush := (hsound t ht).store.flush f hf
    split at hphase
    · rename_i a hattempting
      cases hphase
      obtain ⟨hmem, hwaits, -⟩ := hflush.attempting action hattempting
      exact ⟨hflush.good.allows action hmem, hwaits⟩
    · cases hphase
  refine ⟨fun t ht action hattempt => ?_, fun t ht action hattempt => ?_, fun t ht => (hsound t ht).store.good.pairwise⟩
  · obtain ⟨hallows, hwaits⟩ := hattempts t ht action hattempt
    exact (hallows.waiting hwaits).1
  · exact (hattempts t ht action hattempt).1.bounded

end Histories

abbrev syncRun (events : List (QueueEvent ℕ)) : List (QueueTransition ℕ) × QueueWorld ℕ := play QueueWorld.take QueueWorld.initial events

/-- The `n`-th call, which does not wait for any answer; `turns` says how often it has its turn. -/
def callEvents (n : ℕ) (request : QueueRequest ℕ) (turns : ℕ) : List (QueueEvent ℕ) := .call request :: List.replicate turns (.turn n)

def claimRequest : SyncActionRequest ℕ where
  payload := .claimSubmission 7
  maxRetries := some 2

def networkError : SyncError where
  message := "Network request failed"

def badRequest : SyncError where
  message := "HTTP error! status: 400"

def answerEvents (outcome : Except SyncError Unit) : List (QueueEvent ℕ) := [.flushAnswer outcome, .write, .flushTurn]

/-- A submission fails twice, is requeued, and goes through at last; before that the app has been opened once more, and read the storage
in two places. -/
def requeuedClaim : List (QueueEvent ℕ) :=
  callEvents 0 (.dispatch claimRequest false) 4 ++ [.write] ++ callEvents 1 (.flush {}) 1 ++ answerEvents (.error networkError) ++
    [.relaunch, .clock 100000, .call .getState, .call (.flush {}), .turn 0, .turn 1, .turn 0, .turn 1, .turn 1] ++
    answerEvents (.error networkError) ++ callEvents 2 (.requeue 0) 1 ++ [.write] ++ callEvents 3 (.flush {}) 1 ++ answerEvents (.ok ()) ++
    callEvents 4 (.dispatch claimRequest true) 1 ++ [.answer 4 (.error networkError), .turn 4, .write]

theorem terminal_requeued : IsTerminal (syncRun requeuedClaim).1 :=
  terminal_of_run (play_run (fun _ _ _ h => h) requeuedClaim QueueWorld.initial) (by decide +kernel)

def submittedTwice : List (QueueEvent ℕ) :=
  callEvents 0 (.dispatch claimRequest false) 4 ++ [.write] ++ callEvents 1 (.flush {}) 1 ++ answerEvents (.ok ()) ++
    callEvents 2 (.flush {}) 1

def failedAgain : List (QueueEvent ℕ) :=
  callEvents 0 (.dispatch claimRequest false) 4 ++ [.write] ++ callEvents 1 (.flush {}) 1 ++ answerEvents (.error networkError) ++
    [.clock 100000] ++ callEvents 2 (.flush {}) 1 ++ answerEvents (.error networkError) ++ [.clock 1000000] ++ callEvents 3 (.flush {}) 1

def requeuedBeside : List (QueueEvent ℕ) :=
  callEvents 0 (.dispatch claimRequest false) 4 ++ [.write] ++ callEvents 1 (.flush {}) 1 ++ answerEvents (.error badRequest) ++
    callEvents 2 (.dispatch claimRequest false) 2 ++ [.write] ++ callEvents 3 (.requeue 0) 1

theorem terminal_revived :
    ¬ IsTerminal (syncRun submittedTwice).1 ∧ ¬ IsTerminal (syncRun failedAgain).1 ∧ ¬ IsTerminal (syncRun requeuedBeside).1 := by
  refine ⟨fun h => ?_, fun h => ?_, fun h => ?_⟩
  · have hagain : ((syncRun submittedTwice).1.any fun t => decide (t.pre.store.attempted = none) &&
        t.post.store.attempted.any fun a => t.post.store.finished a.id) = true := by decide +kernel
    obtain ⟨t, ht, hagain⟩ := List.any_eq_true.mp hagain
    obtain ⟨hpre, hpost⟩ := Bool.and_eq_true_iff.mp hagain
    obtain ⟨a, ha, hfinished⟩ := (any_eq_true _ _).mp hpost
    rw [h.quiet t ht a ⟨of_decide_eq_true hpre, ha⟩] at hfinished
    cases hfinished
  · have hagain : ((syncRun failedAgain).1.any fun t => decide (t.pre.store.attempted = none) &&
        t.post.store.attempted.any fun a => a.maxRetries < t.post.store.executions a.id) = true := by decide +kernel
    obtain ⟨t, ht, hagain⟩ := List.any_eq_true.mp hagain
    obtain ⟨hpre, hpost⟩ := Bool.and_eq_true_iff.mp hagain
    obtain ⟨a, ha, hmore⟩ := (any_eq_true _ _).mp hpost
    have hbounded := h.bounded t ht a ⟨of_decide_eq_true hpre, ha⟩
    exact absurd (of_decide_eq_true hmore) (not_lt.mpr hbounded)
  · have hbeside : ¬ ∀ t ∈ (syncRun requeuedBeside).1, t.post.store.items.Pairwise fun a b =>
        a.isWaiting = true → b.isWaiting = true → ¬ a.SharesKey b := by decide +kernel
    exact hbeside h.unique

end Soter.SyncQueue
