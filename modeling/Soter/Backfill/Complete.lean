import Soter.Backfill.Progress

/-! When a backfill is complete and its count is exact. -/
namespace Soter.Backfill
open Soter.Tasks Soter.Runs

section Kept
variable {range : Range} {p p' : BackfillPool} {stages : List Stage} {event : Event} {turn : Turn BackfillOp}

def AskedBy (op : BackfillOp) : Query → Prop
  | .takeJob _ => ∃ pick, op = .runJob pick
  | _ => True

variable {i : ℕ} {op : BackfillOp} {q : Query} {next : q.Reply → Handler Unit}

theorem body_asks (op : BackfillOp) : (op.body range).Asks (AskedBy op) := by
  cases op with
  | triggerBackfill batchSize triggeredBy newId =>
    refine Task.Asks.bind_done ⟨trivial, fun found => ?_⟩
    rcases found with e | _ | existing
    · trivial
    · refine ⟨trivial, fun now => ⟨trivial, fun created => ?_⟩⟩
      cases created with
      | error e => trivial
      | ok checkpoint => exact ⟨trivial, fun _ => trivial⟩
    · refine Task.asks_ite (fun _ => trivial) fun _ => Task.asks_ite (fun _ => trivial) fun _ => ?_
      refine ⟨trivial, fun now => ⟨trivial, fun updated => ?_⟩⟩
      cases updated with
      | error e => trivial
      | ok checkpoint => exact ⟨trivial, fun _ => trivial⟩
  | cancelBackfill checkpointId =>
    refine ⟨trivial, fun found => ?_⟩
    rcases found with e | _ | checkpoint
    · trivial
    · trivial
    · refine Task.asks_ite (fun _ => trivial) fun _ => ⟨trivial, fun now => ⟨trivial, fun reply => ?_⟩⟩
      trivial
  | runJob pick =>
    refine Task.Asks.of_forall (fun q => ?_) _
    cases q with
    | takeJob pick' => exact ⟨pick, rfl⟩
    | _ => trivial
  | elapse d | foresee weather => exact ⟨trivial, fun _ => trivial⟩

/-- Every handler is at its stage, only workers are at a job, and the stages fit the store. -/
structure Kept (range : Range) (p : BackfillPool) (stages : List Stage) : Prop where
  follows : p.At (protocol range) settled stages
  asks : ∀ thread ∈ p.threads, thread.2.Asks (AskedBy thread.1)
  workers : ∀ (i : ℕ) (w : Work) thread, stages[i]? = some (.working w) → p.threads[i]? = some thread →
    ∃ pick, thread.1 = .runJob pick
  tidy : Tidy range stages p.store

theorem Kept.atWork (h : Kept range p stages) {w : Work} (hi : stages[i]? = some (.working w))
    {thread : BackfillOp × Handler Unit} (hthread : p.threads[i]? = some thread) :
    Backfill.atWork thread = true := by
  obtain ⟨op, rest⟩ := thread
  obtain ⟨σ, hσ, hfollows⟩ := h.follows.thread hthread
  rw [hi] at hσ
  cases hσ
  obtain ⟨pick, rfl⟩ : ∃ pick, op = .runJob pick := h.workers i w _ hi hthread
  cases rest with
  | done result =>
    have hstuck : w.Stuck := hfollows w rfl
    have hforward := (h.tidy.working i w hi).forward
    exact absurd hforward (not_or.mpr ⟨Int.not_lt.mpr hstuck.1, Int.not_lt.mpr hstuck.2⟩)
  | ask q next =>
    have hallowed : w.allowed q := hfollows.1
    cases q with
    | takeJob pick' => exact hallowed.elim
    | _ => rfl

theorem Kept.rest (h : Kept range p stages) (hrest : p.AtRest) (i : ℕ) (w : Work) : stages[i]? ≠ some (.working w) := by
  intro hi
  obtain ⟨thread, hthread, -⟩ := h.follows.stage hi
  have hidle := hrest thread (List.mem_of_getElem? hthread)
  rw [h.atWork hi hthread] at hidle
  cases hidle

theorem Kept.start (h : Kept range p stages) (op : BackfillOp) :
    Kept range { p with threads := p.threads ++ [(op, op.body range)] } (stages ++ [.idle]) where
  follows := List.rel_append h.follows (List.Forall₂.cons (body_follows op) List.Forall₂.nil)
  asks thread hthread := by
    rcases List.mem_append.mp hthread with hthread | hthread
    · exact h.asks thread hthread
    · rw [List.mem_singleton.mp hthread]
      exact body_asks op
  workers i w thread hi hthread := by
    rcases getElem?_snoc hi with hi | ⟨-, hidle⟩
    · obtain ⟨old, hold, -⟩ := h.follows.stage hi
      rw [List.getElem?_append_left (List.getElem?_eq_some_iff.mp hold).1, hold] at hthread
      cases hthread
      exact h.workers i w _ hi hold
    · cases hidle
  tidy := h.tidy.start

theorem Kept.workers_set (h : Kept range p stages) {old rest : Handler Unit}
    {σ : Stage} (hthread : p.threads[i]? = some (op, old))
    (hσ : ∀ w, σ = .working w → ∃ pick, op = .runJob pick) (j : ℕ) (w : Work)
    (thread : BackfillOp × Handler Unit) (hj : (stages.set i σ)[j]? = some (.working w))
    (hthreadj : (p.threads.set i (op, rest))[j]? = some thread) : ∃ pick, thread.1 = .runJob pick := by
  rcases getElem?_set_some hj with ⟨rfl, hw⟩ | ⟨hne, hj⟩
  · rw [List.getElem?_set_self (List.getElem?_eq_some_iff.mp hthread).1] at hthreadj
    cases hthreadj
    exact hσ w hw.symm
  · rw [List.getElem?_set_ne (Ne.symm hne)] at hthreadj
    exact h.workers j w thread hj hthreadj

theorem Kept.crash (h : Kept range p stages) (hi : p.threads[i]? = some (op, .ask q next))
    (hcareful : ∀ thread ∈ p.threads[i]?, Backfill.atWork thread = true → p.store.unsaved = 0) :
    Kept range { p with threads := p.threads.set i (op, .done (.error "crashed")) }
      (stages.set i .ended) where
  follows := by
    have hdead : ((op, .done (.error "crashed")) : BackfillOp × Handler Unit).2.Follows (protocol range)
        settled .ended := settled_over
    exact h.follows.set i hdead p.store
  asks thread hthread := by
    rcases List.mem_or_eq_of_mem_set hthread with hthread | rfl
    · exact h.asks thread hthread
    · trivial
  workers := h.workers_set hi fun w hw => by cases hw
  tidy := by
    obtain ⟨σ, hσ, -⟩ := h.follows.thread hi
    by_cases hw : ∃ w, σ = .working w
    · obtain ⟨w, rfl⟩ := hw
      exact h.tidy.atJob hσ h.tidy.sound (fun _ hid => hid) (fun w' hw' => by cases hw')
        (fun _ => hcareful _ hi (h.atWork hσ hi)) fun id hid => by cases hid
    · exact h.tidy.aside (fun w' hw' => by cases hw') hσ (fun w' hw' => hw ⟨w', hw'⟩) h.tidy.sound
        (fun _ hid => hid) h.tidy.working rfl fun id hid => by cases hid

theorem Kept.serve (h : Kept range p stages) (hi : p.threads[i]? = some (op, .ask q next)) (hcareful : q.Careful range p) :
    ∃ stages', Kept range { store := (perform q p.store).2, threads := p.threads.set i (op, next (perform q p.store).1) }
      stages' := by
  obtain ⟨σ, hσ, hfollows⟩ := h.follows.thread hi
  have hasks := h.asks _ (List.mem_of_getElem? hi)
  refine ⟨stages.set i ((protocol range).next σ q (perform q p.store).1), ?_⟩
  refine ⟨h.follows.set i (hfollows.2 _) _, fun thread hthread => ?_, h.workers_set hi fun w hw => ?_,
    h.tidy.serve hσ h.rest hfollows.1 hcareful⟩
  · rcases List.mem_or_eq_of_mem_set hthread with hthread | rfl
    · exact h.asks thread hthread
    · exact hasks.2 _
  · -- only a worker gets to a job
    cases σ with
    | working w' => exact h.workers i w' _ hσ hi
    | idle =>
      cases q with
      | takeJob pick => exact hasks.1
      | createCheckpoint row | resume id triggeredBy now => exact absurd hw (heldBy_aside _ w)
      | _ => cases hw
    | holding id | ended => cases hw

theorem Kept.step (h : Kept range p stages) (hstep : BackfillStep range p event p')
    (hcareful : Careful range ⟨p, event, p'⟩) : ∃ stages', Kept range p' stages' := by
  cases event with
  | turn turn =>
    rcases Pool.Step.cases hstep with ⟨op, rfl, rfl⟩ | ⟨i, op, q, next, rfl, hi, hq, rfl⟩
    · exact ⟨stages ++ [.idle], h.start op⟩
    · exact h.serve hi (hcareful q (Pool.asked_of_request hq))
  | crash i =>
    simp only [BackfillStep, BackfillPool.take] at hstep
    split at hstep
    · rename_i op q next hi
      cases hstep
      exact ⟨stages.set i .ended, h.crash hi hcareful⟩
    · cases hstep

theorem status_perform {s : Store} (h : (perform q s).2.status = some .completed) :
    s.status = some .completed ∨ (∃ id now, q = .finish id .completed now) ∨
      ∃ row, q = .createCheckpoint row ∧ row.status = .completed := by
  have hupdate : ∀ (id : String) (f : BackfillCheckpoint → BackfillCheckpoint),
      (commit (noRow (s.update id f)) s).2.status = some .completed →
        s.status = some .completed ∨ ∃ row, (f row).status = .completed := by
    intro id f hstatus
    rcases update_cases s id f with ⟨e, he, -⟩ | ⟨row, -, -, hok⟩
    · rw [he] at hstatus
      exact .inl hstatus
    · rw [hok] at hstatus
      exact .inr ⟨row, Option.some.inj hstatus⟩
  cases q with
  | createCheckpoint row =>
    change (commit (s.createCheckpoint row) s).2.status = some .completed at h
    rcases commit_cases (s.createCheckpoint row) s with ⟨e, -, hcommit⟩ | ⟨row', s', htx, hcommit⟩
    · rw [hcommit] at h
      exact .inl h
    · rw [hcommit] at h
      rw [Store.createCheckpoint] at htx
      split at htx
      · cases htx
      · cases htx
      · cases htx
        exact .inr (.inr ⟨row, rfl, Option.some.inj h⟩)
  | resume id triggeredBy now =>
    change (commit (s.update id (resumed triggeredBy now)) s).2.status = some .completed at h
    rcases update_cases s id (resumed triggeredBy now) with ⟨e, he, -⟩ | ⟨row, -, -, hok⟩
    · rw [he] at h
      exact .inl h
    · rw [hok] at h
      cases h
  | finish id status now =>
    rcases hupdate id (finished status now) h with hold | ⟨row, hstatus⟩
    · exact .inl hold
    · exact .inr (.inl ⟨id, now, by rw [show status = .completed from hstatus]⟩)
  | cancel id now =>
    rcases hupdate id (cancelled now) h with hold | ⟨row, hstatus⟩
    · exact .inl hold
    · cases hstatus
  | saveProgress id save =>
    change (commit ((s.record save).saveProgress id save) (s.record save)).2.status = some .completed at h
    rw [Store.saveProgress] at h
    rcases update_cases (s.record save) id (saved save) with ⟨e, he, -⟩ | ⟨row, hrow, -, hok⟩
    · rw [he] at h
      exact .inl h
    · rw [hok] at h
      rw [Store.status, show s.checkpoint = some row from hrow]
      exact .inl h
  | createEntry row batchEnd =>
    change (commit (s.createEntry row) s).2.status = some .completed at h
    rcases commit_cases (s.createEntry row) s with ⟨e, -, hcommit⟩ | ⟨_, s', htx, hcommit⟩
    · rw [hcommit] at h
      exact .inl h
    · rw [hcommit] at h
      rw [Store.createEntry] at htx
      split at htx
      · cases htx
      · split at htx
        · cases htx
        · cases htx
          exact .inl h
  | _ => exact .inl h

theorem Kept.staysCancelled (h : Kept range p stages) (hi : p.threads[i]? = some (op, .ask q next))
    (hcancelled : p.store.status = some .cancelled) : (perform q p.store).2.status ≠ some .completed := by
  intro hcompleted
  obtain ⟨σ, hσ, hallowed, -⟩ := h.follows.thread hi
  rcases status_perform hcompleted with hold | ⟨id, now, rfl⟩ | ⟨row, rfl, hrow⟩
  · rw [hcancelled] at hold
    cases hold
  · cases σ with
    | working w => exact (h.tidy.working i w hσ).running hcancelled
    | _ => exact hallowed
  · cases σ with
    | idle =>
      have hrunning : row.status = .running := hallowed.1
      rw [hrow] at hrunning
      cases hrunning
    | _ => exact hallowed

theorem Kept.law (hpre : Kept range p stages) (hstep : BackfillStep range p event p')
    (hcareful : Careful range ⟨p, event, p'⟩) : Law range ⟨p, event, p'⟩ := by
  obtain ⟨stages', hpost⟩ := hpre.step hstep hcareful
  refine ⟨fun pick job hserved hjob => ?_, hpost.tidy.sound.complete, fun hrest => ?_, hpost.tidy.sound.once,
    fun hcancelled => ?_⟩
  · cases event with
    | turn turn => exact (ends_iff job).mpr (hcareful _ hserved job hjob).1
    | crash i => cases hserved
  · have hexact := hpost.tidy.sound.exact
    have hsaved : p'.store.unsaved = 0 := hpost.tidy.saved (hpost.rest hrest)
    change p'.store.processedCount = p'.store.inserted
    omega
  · have hpending : p.store.status ≠ some .completed := by
      rw [show p.store.status = some .cancelled from hcancelled]
      exact fun h => by cases h
    cases event with
    | turn turn =>
      rcases Pool.Step.cases hstep with ⟨op, rfl, rfl⟩ | ⟨i, op, q, next, rfl, hi, hq, rfl⟩
      · exact hpending
      · exact hpre.staysCancelled hi hcancelled
    | crash i =>
      simp only [BackfillStep, BackfillPool.take] at hstep
      split at hstep
      · cases hstep
        exact hpending
      · cases hstep

end Kept
section Runs
variable {range : Range} {s : Store} {p : BackfillPool} {tr : List BackfillTransition}

structure Store.Fresh (s : Store) : Prop where
  checkpoint : s.checkpoint = none
  jobs : s.jobs = []
  inserted : s.inserted = 0
  unsaved : s.unsaved = 0
  once : (s.entries.map (·.id)).Nodup

theorem Kept.fresh (h : s.Fresh) : Kept range { store := s } [] where
  follows := List.Forall₂.nil
  asks thread hthread := by cases hthread
  workers i w thread hi := by cases hi
  tidy :=
    { sound :=
        { jobs := fun job hjob => by rw [h.jobs] at hjob; cases hjob
          complete := fun hcompleted => by rw [Store.status, h.checkpoint] at hcompleted; cases hcompleted
          exact := by rw [Store.processedCount, h.checkpoint, h.unsaved, h.inserted]; rfl
          once := h.once }
      holding := fun i id hi => by cases hi
      working := fun i w hi => by cases hi
      alone := fun i j w w' hi => by cases hi
      saved := fun _ => h.unsaved }

/-- Backfill of a range: in a run whose transitions all meet the condition, every transition keeps every
promise. -/
theorem backfill_lawful (h : s.Fresh) (hrun : Run (BackfillStep range) { store := s } tr p)
    (hcareful : ∀ t ∈ tr, Careful range t) : ∀ t ∈ tr, Law range t := by
  intro t ht
  have hkept : ∃ stages, Kept range t.pre stages := by
    refine (hrun.invariant_at (I := fun p => ∃ stages, Kept range p stages) ⟨[], Kept.fresh h⟩ hcareful
      (fun t hstep hc hpre => ?_) ht).1
    obtain ⟨stages, hpre⟩ := hpre
    exact hpre.step hstep hc
  obtain ⟨stages, hkept⟩ := hkept
  exact hkept.law (hrun.step_of_mem ht) (hcareful t ht)

def firstOnly : Weather where
  fetchLedgerRange startLedger _ :=
    if startLedger = 1 then .ok [{ id := "payout-1", eventType := "credit", amount := 10, createdAt := 0 }]
    else .ok []

/-- The backfill of the first ledgers up to `endLedger`, by batches of a hundred. -/
def firstLedgers (endLedger : ℤ) : Range := ⟨1, endLedger, none⟩

def workedOff (endLedger : ℤ) (turns : ℕ) : List BackfillTransition × BackfillPool :=
  play (BackfillPool.take (firstLedgers endLedger)) { store := { weather := firstOnly } }
    ([.turn (.start (.triggerBackfill 100 none "checkpoint-1"))] ++
      List.replicate 4 (.turn (.advance 0)) ++ [.turn (.start (.runJob 0))] ++
      List.replicate turns (.turn (.advance 1)))

theorem workedOff_run (endLedger : ℤ) (turns : ℕ) :
    Run (BackfillStep (firstLedgers endLedger)) { store := { weather := firstOnly } }
      (workedOff endLedger turns).1 (workedOff endLedger turns).2 :=
  play_run (fun _ _ _ h => h) _ _

theorem backfill_lawful_workedOff : ∃ t ∈ (workedOff 100 9).1,
    t.post.store.status = some .completed ∧ t.post.store.inserted = 1 ∧ Law (firstLedgers 100) t := by
  have hfresh : ({ weather := firstOnly } : Store).Fresh := ⟨rfl, rfl, rfl, rfl, List.nodup_nil⟩
  have hlaw := backfill_lawful hfresh (workedOff_run 100 9) (by decide +kernel)
  have hend : ∃ t ∈ (workedOff 100 9).1, t.post.store.status = some .completed ∧ t.post.store.inserted = 1 := by
    decide +kernel
  obtain ⟨t, ht, hcompleted, hinserted⟩ := hend
  exact ⟨t, ht, hcompleted, hinserted, hlaw t ht⟩

theorem workedOff_countsTwice : Run (BackfillStep (firstLedgers 200)) { store := { weather := firstOnly } }
    (workedOff 200 14).1 (workedOff 200 14).2 ∧ ∃ t ∈ (workedOff 200 14).1, ¬ Law (firstLedgers 200) t := by
  refine ⟨workedOff_run 200 14, ?_⟩
  have hend : ∃ t ∈ (workedOff 200 14).1,
      t.post.AtRest ∧ t.post.store.processedCount = 2 ∧ t.post.store.inserted = 1 := by decide +kernel
  obtain ⟨t, ht, hrest, hcount, hinserted⟩ := hend
  refine ⟨t, ht, fun hlaw => ?_⟩
  have hexact := hlaw.exact hrest
  omega

end Runs
end Soter.Backfill
