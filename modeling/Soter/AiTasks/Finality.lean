import Soter.AiTasks.TaskStatus

/-! What `get_task_status` has reported as the end of a task stays its end, as long as nobody ends the task once more, the backend
can be read and a revoked task is not started. -/
namespace Soter.AiTasks
open Soter.Runs TaskWorld

/-- The task has been called off before it could be started, or its caller has been told so. -/
def TaskStatus.isCalledOff : TaskStatus → Bool
  | .cancelled | .expired | .timedOut => true
  | _ => false

structure TaskWorld.IsFinal (w : TaskWorld) : Prop where
  final : w.reports.Pairwise fun s s' => s.isFinal = true → s' = s
  callback : w.completedSent = true → ∀ before ∈ w.reportedBefore, ∀ s ∈ before, s.isCalledOff = false
  refused : w.refused = true → .pending ∉ w.reports

def TaskWorld.isKept (w : TaskWorld) : Bool := w.entry.any (·.status.isReported)

def TaskWorld.CanForget (w : TaskWorld) : Prop := ∀ s ∈ w.reports, s.isFinal = true → w.isKept = true

def TaskWorld.CanEnd (w : TaskWorld) (status : TaskStatus) : Prop := ∀ s ∈ w.reports, s.isFinal = true → s = status

instance (w : TaskWorld) : Decidable w.CanForget := inferInstanceAs (Decidable (∀ _ ∈ _, _))
instance (w : TaskWorld) (status : TaskStatus) : Decidable (w.CanEnd status) := inferInstanceAs (Decidable (∀ _ ∈ _, _))

def Admits (t : TaskTransition) : Prop :=
  match t.label with
  | .create .refused => False
  | .fetch false _ | .forget => t.pre.CanForget
  | .cancel _ => t.pre.CanEnd .cancelled
  | .expire _ => t.pre.CanEnd .expired
  | .start => t.pre.worker = .queued → ∀ s ∈ t.pre.reports, s.isCalledOff = false
  | _ => True

instance (t : TaskTransition) : Decidable (Admits t) :=
  match t with
  | ⟨_, .create .refused, _⟩ => inferInstanceAs (Decidable False)
  | ⟨pre, .fetch false _, _⟩ | ⟨pre, .forget, _⟩ => inferInstanceAs (Decidable pre.CanForget)
  | ⟨pre, .cancel _, _⟩ => inferInstanceAs (Decidable (pre.CanEnd .cancelled))
  | ⟨pre, .expire _, _⟩ => inferInstanceAs (Decidable (pre.CanEnd .expired))
  | ⟨pre, .start, _⟩ => inferInstanceAs (Decidable (pre.worker = .queued → ∀ s ∈ pre.reports, s.isCalledOff = false))
  | ⟨_, .create .queued, _⟩ | ⟨_, .create (.failed _), _⟩ | ⟨_, .poll, _⟩ | ⟨_, .fetch true _, _⟩ | ⟨_, .track, _⟩ | ⟨_, .retry, _⟩
  | ⟨_, .complete, _⟩ | ⟨_, .store, _⟩ | ⟨_, .fail, _⟩ | ⟨_, .drop, _⟩ | ⟨_, .pass _, _⟩ => inferInstanceAs (Decidable True)

/-- Whoever asks is told `s`, by the entry or else by the backend. -/
def TaskWorld.Tells (w : TaskWorld) (s : TaskStatus) : Prop :=
  ∃ e, w.entry = some e ∧ (e.status = s ∨ e.status.isReported = false ∧ w.backend.outcome = some s)

structure TaskWorld.IsSound (w : TaskWorld) : Prop where
  unborn : w.entry = none → w.reports = [] ∧ w.worker = .idle
  told : ∀ s ∈ w.reports, s.isFinal = true → w.Tells s
  settled : w.backend.outcome ≠ none → w.worker = .ended
  /-- While the backend is asked the entry does not say how the task ended, and behind the first question nothing has. -/
  polling : ∀ phase, w.polling = some phase → (∃ e, w.entry = some e ∧ e.status.isReported = false) ∧
    (phase ≠ .ready → ∀ s ∈ w.reports, s.isFinal = false)
  final : w.reports.Pairwise fun s s' => s.isFinal = true → s' = s
  callback : ∀ before, w.reportedBefore = some before → ∀ s ∈ before, s.isCalledOff = false
  accepted : w.refused = false

section Steps
variable {settings : TaskSettings} {w w' : TaskWorld} {s status : TaskStatus} {e : TaskEntry}

variable {reached : Bool} {event : TaskEvent}

theorem isReported_of_isFinal (h : s.isFinal = true) : s.isReported = true := by
  cases s with
  | pending | processing => cases h
  | _ => rfl

theorem entry_of_tells (h : w.Tells s) (he : w.entry = some e) (hkept : e.status.isReported = true) : e.status = s := by
  obtain ⟨e', he', htells⟩ := h
  rw [he, Option.some.injEq] at he'
  subst he'
  rcases htells with hsame | ⟨hnot, -⟩
  · exact hsame
  · rw [hkept] at hnot
    cases hnot

theorem backend_of_tells (h : w.Tells s) (hs : s.isFinal = true) (he : w.entry = some e) (hkept : e.status.isReported = false) :
    w.backend.outcome = some s := by
  obtain ⟨e', he', htells⟩ := h
  rw [he, Option.some.injEq] at he'
  subst he'
  rcases htells with rfl | ⟨-, hsome⟩
  · rw [isReported_of_isFinal hs] at hkept
    cases hkept
  · exact hsome

theorem report_sound (hw : w.IsSound) (hborn : w.entry ≠ none) (hagrees : ∀ s ∈ w.reports, s.isFinal = true → status = s)
    (htells : status.isFinal = true → w.Tells status) : (w.report status).IsSound where
  unborn h := absurd h hborn
  told s hs hfinal := by
    rcases List.mem_append.mp hs with hs | hs
    · exact hw.told s hs hfinal
    · rw [List.mem_singleton] at hs
      subst hs
      exact htells hfinal
  settled := hw.settled
  polling phase h := by cases h
  final := by
    show (w.reports ++ [status]).Pairwise _
    rw [List.pairwise_append]
    refine ⟨hw.final, List.pairwise_singleton _ _, fun s hs s' hs' hfinal => ?_⟩
    rw [List.mem_singleton.mp hs']
    exact hagrees s hs hfinal
  callback := hw.callback
  accepted := hw.accepted

theorem report_open (hw : w.IsSound) (hborn : w.entry ≠ none) (hopen : ∀ s ∈ w.reports, s.isFinal = false)
    (hstatus : status.isFinal = false) : (w.report status).IsSound := by
  apply report_sound hw hborn
  · intro s hs hfinal
    rw [hopen s hs] at hfinal
    cases hfinal
  · intro hfinal
    rw [hstatus] at hfinal
    cases hfinal

theorem working_sound {worker : WorkerPhase} {backend : BackendState} {reportedBefore : Option (List TaskStatus)} {completedSent : Bool}
    (hw : w.IsSound) (hborn : w.worker ≠ .idle) (hworks : w.worker ≠ .ended) (hsettled : backend.outcome ≠ none → worker = .ended)
    (hcallback : ∀ before, reportedBefore = some before → ∀ s ∈ before, s.isCalledOff = false) :
    ({ w with worker, backend, reportedBefore, completedSent } : TaskWorld).IsSound where
  unborn h := absurd (hw.unborn h).2 hborn
  told s hs hfinal := by
    obtain ⟨e, he, hsame | ⟨-, hsome⟩⟩ := hw.told s hs hfinal
    · exact ⟨e, he, .inl hsame⟩
    · have hover : w.worker = .ended := hw.settled (by rw [hsome]; exact Option.some_ne_none s)
      exact absurd hover hworks
  settled := hsettled
  polling := hw.polling
  final := hw.final
  callback := hcallback
  accepted := hw.accepted

theorem ended_sound {polling : Option PollPhase} (revoked : Bool) (hw : w.IsSound) (hpolling : polling = none)
    (hend : w.CanEnd status) : (({ w with revoked, polling } : TaskWorld).updateTaskStatus status).IsSound where
  unborn h := by cases h
  told s hs hfinal := ⟨_, rfl, .inl (hend s hs hfinal).symm⟩
  settled := hw.settled
  polling phase h := by
    rw [hpolling] at h
    cases h
  final := hw.final
  callback := hw.callback
  accepted := hw.accepted

theorem create_sound {outcome : CreateOutcome} (hw : w.IsSound) (hnew : w.entry = none) (hadmits : outcome ≠ .refused) :
    (w.createTask outcome).IsSound := by
  obtain ⟨hreports, hidle⟩ := hw.unborn hnew
  have hpolling : ∀ phase, w.polling ≠ some phase := by
    intro phase h
    obtain ⟨⟨e, he, -⟩, -⟩ := hw.polling phase h
    rw [hnew] at he
    cases he
  have hbackend : w.backend.outcome = none := by
    by_contra h
    rw [hw.settled h] at hidle
    cases hidle
  have hsound : ∀ (entry : TaskEntry) (worker : WorkerPhase), ({ w with entry := some entry, worker } : TaskWorld).IsSound := by
    intro entry worker
    refine ⟨nofun, ?_, fun h => absurd hbackend h, fun phase h => absurd h (hpolling phase), hw.final, hw.callback, hw.accepted⟩
    show ∀ s ∈ w.reports, _
    rw [hreports]
    nofun
  cases outcome with
  | queued => exact hsound _ _
  | refused => exact absurd rfl hadmits
  | failed sent => exact hsound _ _

theorem poll_sound (hw : w.IsSound) (he : w.entry = some e) : (w.beginPoll e).IsSound := by
  have hborn : w.entry ≠ none := by
    rw [he]
    exact Option.some_ne_none e
  unfold beginPoll
  split
  · rename_i hkept
    apply report_sound hw hborn
    · intro s hs hfinal
      exact entry_of_tells (hw.told s hs hfinal) he hkept
    · exact fun _ => ⟨e, he, .inl rfl⟩
  · rename_i hkept
    refine ⟨hw.unborn, hw.told, hw.settled, fun phase h => ?_, hw.final, hw.callback, hw.accepted⟩
    cases h
    exact ⟨⟨e, he, by simpa using hkept⟩, fun h => absurd rfl h⟩

theorem open_of_canForget (he : w.entry = some e) (hkept : e.status.isReported = false) (h : w.CanForget) :
    ∀ s ∈ w.reports, s.isFinal = false := by
  intro s hs
  by_contra hfinal
  have hkeeps := h s hs (by simpa using hfinal)
  rw [isKept, he, Option.any_some, hkept] at hkeeps
  cases hkeeps

theorem not_final_of_not_reported (h : s.isReported = false) : s.isFinal = false := by
  cases hs : s.isFinal with
  | false => rfl
  | true =>
    rw [isReported_of_isFinal hs] at h
    cases h

theorem fetch_sound {phase : PollPhase} {revoked : Bool} (hw : w.IsSound) (hphase : w.polling = some phase)
    (he : w.entry = some e) (hforget : reached = false → w.CanForget) :
    (w.fetch settings e reached revoked phase).IsSound := by
  have hborn : w.entry ≠ none := by
    rw [he]
    exact Option.some_ne_none e
  obtain ⟨⟨e', he', hkept⟩, hopen⟩ := hw.polling phase hphase
  rw [he, Option.some.injEq] at he'
  subst he'
  cases reached with
  | false =>
    have hlocal := report_open hw hborn (open_of_canForget he hkept (hforget rfl)) (not_final_of_not_reported hkept)
    cases phase <;> exact hlocal
  | true =>
    cases phase with
    | ready =>
      unfold fetch
      simp only [if_true]
      split
      · rename_i status hstatus
        apply report_sound hw hborn
        · intro s hs hfinal
          have htells := backend_of_tells (hw.told s hs hfinal) hfinal he hkept
          rw [hstatus, Option.some.injEq] at htells
          exact htells
        · exact fun _ => ⟨e, he, .inr ⟨hkept, hstatus⟩⟩
      · rename_i hnone
        have hopen : ∀ s ∈ w.reports, s.isFinal = false := by
          intro s hs
          by_contra hfinal
          have hfinal : s.isFinal = true := by simpa using hfinal
          have htells := backend_of_tells (hw.told s hs hfinal) hfinal he hkept
          rw [hnone] at htells
          cases htells
        exact ⟨hw.unborn, hw.told, hw.settled, fun _ _ => ⟨⟨e, he, hkept⟩, fun _ => hopen⟩, hw.final, hw.callback, hw.accepted⟩
    | started =>
      have hopen := hopen (by decide)
      unfold fetch
      simp only [if_true]
      split
      · exact report_open hw hborn hopen rfl
      · exact ⟨hw.unborn, hw.told, hw.settled, fun _ _ => ⟨⟨e, he, hkept⟩, fun _ => hopen⟩, hw.final, hw.callback, hw.accepted⟩
    | state =>
      have hopen := hopen (by decide)
      unfold fetch
      simp only [if_true]
      split
      · have hend : w.CanEnd .timedOut := by
          intro s hs hfinal
          rw [hopen s hs] at hfinal
          cases hfinal
        have hended := ended_sound (w.revoked || revoked) hw rfl hend
        have hreported : (report _ .timedOut).IsSound :=
          report_sound hended nofun (fun s hs hfinal => (hend s hs hfinal).symm) fun _ => ⟨_, rfl, .inl rfl⟩
        exact hreported
      · exact report_open hw hborn hopen rfl

theorem finish_sound (hw : w.IsSound) (hpolling : w.polling = none) (hend : w.CanEnd status) : (w.finish status reached).IsSound := by
  unfold finish
  split
  · exact ended_sound true hw hpolling hend
  · exact hw

def TaskEvent.isWork : TaskEvent → Bool
  | .start | .track | .retry | .complete | .store | .fail | .drop => true
  | _ => false

theorem work_cases (hevent : event.isWork = true) (h : w.take settings event = some w') :
    w.worker ≠ .idle ∧ w.worker ≠ .ended ∧ ∃ worker backend reportedBefore completedSent,
      w' = { w with worker, backend, reportedBefore, completedSent } ∧ (backend.outcome ≠ none → worker = .ended ∨ backend = w.backend) ∧
        (reportedBefore = w.reportedBefore ∨ event = .start ∧ w.worker = .queued ∧ reportedBefore = some w.reports) := by
  cases event with
  | start =>
    simp only [take, start] at h
    split at h
    · rename_i hworker
      cases h
      rw [hworker]
      exact ⟨nofun, nofun, _, _, _, _, rfl, fun _ => .inr rfl, .inr ⟨rfl, rfl, rfl⟩⟩
    · rename_i hworker
      cases h
      rw [hworker]
      exact ⟨nofun, nofun, _, _, _, _, rfl, fun _ => .inr rfl, .inl rfl⟩
    · cases h
  | track =>
    simp only [take] at h
    split at h
    · rename_i hworker
      cases h
      rw [hworker]
      exact ⟨nofun, nofun, _, _, _, _, rfl, fun hsome => absurd rfl hsome, .inl rfl⟩
    · cases h
  | retry =>
    simp only [take, retry] at h
    split at h
    · rename_i hworker
      split at h
      · cases h
        rw [hworker]
        exact ⟨nofun, nofun, _, _, _, _, rfl, fun hsome => absurd rfl hsome, .inl rfl⟩
      · cases h
    · cases h
  | complete =>
    simp only [take, complete] at h
    split at h
    · rename_i hworker
      cases h
      rw [hworker]
      exact ⟨nofun, nofun, _, _, _, _, rfl, fun _ => .inr rfl, .inl rfl⟩
    · cases h
  | store =>
    simp only [take] at h
    split at h
    · rename_i hworker
      cases h
      rw [hworker]
      exact ⟨nofun, nofun, _, _, _, _, rfl, fun _ => .inl rfl, .inl rfl⟩
    · cases h
  | fail =>
    simp only [take, fail] at h
    split at h
    · rename_i hworker
      split at h
      · cases h
      · cases h
        rw [hworker]
        exact ⟨nofun, nofun, _, _, _, _, rfl, fun _ => .inl rfl, .inl rfl⟩
    · cases h
  | drop =>
    simp only [take, drop] at h
    split at h
    case h_4 => cases h
    all_goals
      rename_i hworker
      cases h
      rw [hworker]
      exact ⟨nofun, nofun, _, _, _, _, rfl, fun _ => .inl rfl, .inl rfl⟩
  | _ => cases hevent

theorem work_sound (hw : w.IsSound) (hadmits : Admits ⟨w, event, w'⟩) (hevent : event.isWork = true)
    (h : w.take settings event = some w') : w'.IsSound := by
  obtain ⟨hborn, hworks, worker, backend, reportedBefore, completedSent, rfl, hsettled, hcallback⟩ := work_cases hevent h
  apply working_sound hw hborn hworks
  · intro hsome
    rcases hsettled hsome with hover | rfl
    · exact hover
    · exact absurd (hw.settled hsome) hworks
  · rcases hcallback with rfl | ⟨rfl, hqueued, rfl⟩
    · exact hw.callback
    · rintro before ⟨⟩
      exact hadmits hqueued

theorem take_sound (hw : w.IsSound) (hadmits : Admits ⟨w, event, w'⟩) (h : w.take settings event = some w') :
    w'.IsSound := by
  cases event with
  | create outcome =>
    simp only [take] at h
    split at h
    · rename_i hnew
      cases h
      refine create_sound hw hnew ?_
      rintro rfl
      exact hadmits
    · cases h
  | poll =>
    simp only [take] at h
    split at h
    · obtain ⟨e, he, rfl⟩ := Option.map_eq_some_iff.mp h
      exact poll_sound hw he
    · cases h
  | fetch reached revoked =>
    obtain ⟨phase, hphase, h⟩ := Option.bind_eq_some_iff.mp h
    obtain ⟨e, he, rfl⟩ := Option.map_eq_some_iff.mp h
    refine fetch_sound hw hphase he ?_
    rintro rfl
    exact hadmits
  | cancel reached =>
    simp only [take] at h
    split at h
    · rename_i hfree
      cases h
      exact finish_sound hw hfree.1 hadmits
    · cases h
  | expire reached =>
    simp only [take] at h
    split at h
    · rename_i hfree
      cases h
      exact finish_sound hw hfree.1 hadmits
    · cases h
  | forget =>
    cases h
    refine ⟨hw.unborn, fun s hs hfinal => ?_, fun h => absurd rfl h, hw.polling, hw.final, hw.callback, hw.accepted⟩
    -- the entry says what has been reported
    obtain ⟨e, he, htells⟩ := hw.told s hs hfinal
    have hkept := hadmits s hs hfinal
    rw [isKept, he, Option.any_some] at hkept
    exact ⟨e, he, .inl (entry_of_tells (hw.told s hs hfinal) he hkept)⟩
  | pass duration =>
    simp only [take] at h
    split at h
    · cases h
      exact ⟨hw.unborn, hw.told, hw.settled, hw.polling, hw.final, hw.callback, hw.accepted⟩
    · cases h
  | _ => exact work_sound hw hadmits rfl h

theorem initial_sound : initial.IsSound where
  unborn _ := ⟨rfl, rfl⟩
  told := nofun
  settled h := absurd rfl h
  polling := nofun
  final := List.Pairwise.nil
  callback := nofun
  accepted := rfl

variable {tr : List TaskTransition}

theorem final_of_run (hrun : Run (Step settings) initial tr w) (hadmits : ∀ t ∈ tr, Admits t) : w.IsFinal := by
  have hw : w.IsSound := hrun.invariant initial_sound hadmits fun _ hstep hadmit hpre => take_sound hpre hadmit hstep
  refine ⟨hw.final, fun _ => hw.callback, fun hrefused => ?_⟩
  rw [hw.accepted] at hrefused
  cases hrefused

end Steps

def tenMinutes : TaskSettings where
  maxRetries := 3
  idleTimeout := 600

abbrev taskRun (events : List TaskEvent) : List TaskTransition × TaskWorld := play (take tenMinutes) initial events

/-- The task is started when it has waited for some time, fails once and completes; later on it is reported time and again. -/
def retriedTask : List TaskEvent :=
  [.create .queued, .pass 500, .poll, .fetch true false, .fetch true false, .start, .fetch true false, .track, .retry, .poll,
    .fetch true false, .fetch false false, .start, .track, .pass 200, .poll, .fetch true false, .fetch true false, .complete, .store,
    .poll, .fetch true false, .pass 600, .poll, .fetch true false]

theorem final_retried : (taskRun retriedTask).2.IsFinal :=
  final_of_run (play_run (fun _ _ _ h => h) retriedTask initial) (by decide +kernel)

def cancelledTooLate : List TaskEvent :=
  [.create .queued, .start, .complete, .store, .poll, .fetch true false, .cancel true, .poll]

def forgottenResult : List TaskEvent :=
  [.create .queued, .start, .complete, .store, .poll, .fetch true false, .poll, .fetch false false]

def startedAfterCancel : List TaskEvent := [.create .queued, .cancel true, .poll, .start, .complete]

def refusedTask : List TaskEvent := [.create .refused, .poll, .fetch true false, .fetch true false, .fetch true false]

theorem cancelled_after_completed :
    ¬ (taskRun cancelledTooLate).2.IsFinal ∧ ¬ (taskRun forgottenResult).2.IsFinal ∧ ¬ (taskRun startedAfterCancel).2.IsFinal ∧
      ¬ (taskRun refusedTask).2.IsFinal := by
  refine ⟨fun h => ?_, fun h => ?_, fun h => ?_, fun h => ?_⟩
  · exact absurd h.final (by decide +kernel)
  · exact absurd h.final (by decide +kernel)
  · exact absurd (h.callback (by decide +kernel) [.cancelled] (by decide +kernel)) (by decide +kernel)
  · exact h.refused (by decide +kernel) (by decide +kernel)

end Soter.AiTasks
