import Mathlib.Data.Int.Range
import Mathlib.Data.List.Nodup
import Soter.Backfill.Jobs

/-! What a backfill promises, and what the tables and the job at work tell about each other. -/
namespace Soter.Backfill
open Soter.Tasks Soter.Runs

def Store.status (s : Store) : Option BackfillStatus := s.checkpoint.map (·.status)

def Store.processedCount (s : Store) : ℕ := (s.checkpoint.map (·.processedCount)).getD 0

def Store.Processed (s : Store) (ledger : ℤ) : Prop :=
  ∃ batch ∈ s.processed, batch.1 ≤ ledger ∧ ledger ≤ batch.2

instance (s : Store) (ledger : ℤ) : Decidable (s.Processed ledger) :=
  inferInstanceAs (Decidable (∃ batch ∈ s.processed, batch.1 ≤ ledger ∧ ledger ≤ batch.2))

def atWork : BackfillOp × Handler Unit → Bool
  | (.runJob _, .ask (.takeJob _) _) => false
  | (.runJob _, .ask _ _) => true
  | _ => false

def BackfillPool.AtRest (p : BackfillPool) : Prop := ∀ thread ∈ p.threads, atWork thread = false

instance (p : BackfillPool) : Decidable p.AtRest :=
  inferInstanceAs (Decidable (∀ thread ∈ p.threads, atWork thread = false))

def BackfillPool.served (p : BackfillPool) : Event → Option Query
  | .turn turn => p.asked turn
  | .crash _ => none

def Store.job (s : Store) (pick : ℕ) : Option BackfillJobData := s.jobs[pick % s.jobs.length]?

/-- What a backfill promises of one transition: a job that is taken comes to an end; a checkpoint is
completed only when every ledger of the range was processed; the count is the number of entries that were
inserted whenever no job is half done; no entry is there twice; and what is cancelled is not completed. -/
structure Law (range : Range) (t : BackfillTransition) : Prop where
  terminates : ∀ pick job, t.pre.served t.label = some (.takeJob pick) → t.pre.store.job pick = some job →
    Ends job
  complete : t.post.store.status = some .completed →
    ∀ ledger, range.startLedger ≤ ledger → ledger ≤ range.endLedger → t.post.store.Processed ledger
  exact : t.post.AtRest → t.post.store.processedCount = t.post.store.inserted
  once : (t.post.store.entries.map (·.id)).Nodup
  staysCancelled : t.pre.store.status = some .cancelled → t.post.store.status ≠ some .completed

/-- Jobs are taken one at a time, with a batch size that moves forward or no ledger left, never for a
cancelled checkpoint, and from a ledger before which nothing was missed. Entries are inserted in the last
batch of a job only. Where something was inserted since the progress was last written, the batch goes
through and its progress is written. A checkpoint is cancelled while no job is at it. -/
def Query.Careful (range : Range) (p : BackfillPool) : Query → Prop
  | .takeJob pick => ∀ job ∈ p.store.job pick,
    (0 < job.batchSize ∨ job.endLedger < job.startLedger) ∧ p.AtRest ∧ p.store.status ≠ some .cancelled ∧
      ∀ ledger, range.startLedger ≤ ledger → ledger < job.startLedger → ledger ≤ range.endLedger →
        p.store.Processed ledger
  | .createEntry _ batchEnd => batchEnd = range.endLedger
  | .saveProgress _ save => p.store.unsaved = 0 ∨ (save.batch.isSome ∧ p.store.weather.db.isOk)
  | .cancel .. => p.AtRest
  | _ => True

instance (range : Range) (p : BackfillPool) (q : Query) : Decidable (q.Careful range p) :=
  match q with
  | .takeJob pick => inferInstanceAs (Decidable (∀ job ∈ p.store.job pick,
      (0 < job.batchSize ∨ job.endLedger < job.startLedger) ∧ p.AtRest ∧ p.store.status ≠ some .cancelled ∧
        ∀ ledger, range.startLedger ≤ ledger → ledger < job.startLedger → ledger ≤ range.endLedger →
          p.store.Processed ledger))
  | .createEntry _ batchEnd => inferInstanceAs (Decidable (batchEnd = range.endLedger))
  | .saveProgress _ save =>
    inferInstanceAs (Decidable (p.store.unsaved = 0 ∨ (save.batch.isSome ∧ p.store.weather.db.isOk)))
  | .cancel .. => inferInstanceAs (Decidable p.AtRest)
  | .clock | .elapse _ | .findByKey _ | .findById _ | .createCheckpoint _ | .resume .. | .addJob _
  | .findEntries _ | .fetchLedgerRange .. | .finish .. | .foresee _ => .isTrue trivial

def Careful (range : Range) (t : BackfillTransition) : Prop :=
  match t.label with
  | .turn turn => ∀ q ∈ t.pre.asked turn, q.Careful range t.pre
  | .crash i => ∀ thread ∈ t.pre.threads[i]?, atWork thread = true → t.pre.store.unsaved = 0

instance (range : Range) : DecidablePred (Careful range) := fun t =>
  match t with
  | ⟨pre, .turn turn, _⟩ => inferInstanceAs (Decidable (∀ q ∈ pre.asked turn, q.Careful range pre))
  | ⟨pre, .crash i, _⟩ =>
    inferInstanceAs (Decidable (∀ thread ∈ pre.threads[i]?, atWork thread = true → pre.store.unsaved = 0))

variable {range : Range} {q : Query} {s : Store}
section Sound
variable {id : String}

def Store.Named (s : Store) (id : String) : Prop := ∃ row, s.checkpoint = some row ∧ row.id = id

structure Sound (range : Range) (s : Store) : Prop where
  jobs : ∀ job ∈ s.jobs, job.endLedger = range.endLedger ∧ s.Named job.checkpointId
  complete : s.status = some .completed →
    ∀ ledger, range.startLedger ≤ ledger → ledger ≤ range.endLedger → s.Processed ledger
  exact : s.processedCount + s.unsaved = s.inserted
  once : (s.entries.map (·.id)).Nodup

structure Work.Tidy (range : Range) (s : Store) (w : Work) : Prop where
  named : s.Named w.job.checkpointId
  atEnd : w.job.endLedger = range.endLedger
  forward : 0 < w.job.batchSize ∨ w.job.endLedger < w.ledger
  running : s.status ≠ some .cancelled
  covered : w.clean = true → ∀ ledger, range.startLedger ≤ ledger → ledger < w.ledger →
    ledger ≤ range.endLedger → s.Processed ledger
  unsaved : s.unsaved = w.fresh
  first : w.ledger ≤ w.job.endLedger → w.processed = 0
  last : w.fresh ≠ 0 → w.batchEnd = w.job.endLedger
  finished : w.job.endLedger < w.ledger → w.fresh = 0

theorem update_cases (s : Store) (id : String) (f : BackfillCheckpoint → BackfillCheckpoint) :
    (∃ e, s.update id f = .error e ∧ (s.Named id → s.weather.db.isOk = false)) ∨
      ∃ row, s.checkpoint = some row ∧ row.id = id ∧
        s.update id f = .ok (f row, { s with checkpoint := some (f row) }) := by
  rw [Store.update]
  cases hdb : s.weather.db with
  | error e => exact .inl ⟨e, rfl, fun _ => rfl⟩
  | ok _ =>
    cases hrow : s.checkpoint.filter (·.id = id) with
    | none =>
      refine .inl ⟨_, rfl, fun ⟨row, hrow', hid⟩ => ?_⟩
      rw [hrow', Option.filter_some, if_pos (by simpa using hid)] at hrow
      cases hrow
    | some row =>
      obtain ⟨hrow, hid⟩ := Option.filter_eq_some_iff.mp hrow
      exact .inr ⟨row, hrow, by simpa using hid, rfl⟩

structure Rewrites (f : BackfillCheckpoint → BackfillCheckpoint) : Prop where
  id : ∀ row, (f row).id = row.id
  count : ∀ row, (f row).processedCount = row.processedCount

theorem Store.Named.updated {f : BackfillCheckpoint → BackfillCheckpoint} {row : BackfillCheckpoint}
    (hrow : s.checkpoint = some row) (hid : (f row).id = row.id) (h : s.Named id) :
    ({ s with checkpoint := some (f row) } : Store).Named id := by
  obtain ⟨row', hrow', hid'⟩ := h
  rw [hrow] at hrow'
  cases hrow'
  exact ⟨f row, rfl, hid.trans hid'⟩

theorem Sound.updated {f : BackfillCheckpoint → BackfillCheckpoint} {row : BackfillCheckpoint}
    (h : Sound range s) (hf : Rewrites f) (hrow : s.checkpoint = some row)
    (hcomplete : (f row).status = .completed →
      ∀ ledger, range.startLedger ≤ ledger → ledger ≤ range.endLedger → s.Processed ledger) :
    Sound range { s with checkpoint := some (f row) } where
  jobs job hjob := ⟨(h.jobs job hjob).1, (h.jobs job hjob).2.updated hrow (hf.id row)⟩
  complete hstatus := hcomplete (Option.some.inj hstatus)
  exact := by
    have hcount := h.exact
    rw [Store.processedCount, hrow] at hcount
    exact (congrArg (· + s.unsaved) (hf.count row)).trans hcount
  once := h.once

theorem Sound.passes (h : Sound range s) (now : Time) (weather : Weather) :
    Sound range { s with now := now, weather := weather } where
  jobs := h.jobs
  complete := h.complete
  exact := h.exact
  once := h.once

theorem Work.Tidy.frame {s' : Store} {w : Work} (h : w.Tidy range s) (hnamed : ∀ id, s.Named id → s'.Named id)
    (hrunning : s'.status ≠ some .cancelled) (hprocessed : s'.processed = s.processed)
    (hunsaved : s'.unsaved = s.unsaved) : w.Tidy range s' where
  named := hnamed _ h.named
  atEnd := h.atEnd
  forward := h.forward
  running := hrunning
  covered hclean ledger hfrom hto hle := by
    have hcovered := h.covered hclean ledger hfrom hto hle
    rw [Store.Processed, ← hprocessed] at hcovered
    exact hcovered
  unsaved := hunsaved.trans h.unsaved
  first := h.first
  last := h.last
  finished := h.finished

end Sound
variable {i : ℕ} {w : Work} {stages : List Stage}
section Tidy
variable {s' : Store} {σ : Stage}

/-- The stages of the handlers and the store: at most one handler is at a job, and what is not saved yet
is its own. -/
structure Tidy (range : Range) (stages : List Stage) (s : Store) : Prop where
  sound : Sound range s
  holding : ∀ (i : ℕ) (id : String), stages[i]? = some (.holding id) → s.Named id
  working : ∀ (i : ℕ) (w : Work), stages[i]? = some (.working w) → w.Tidy range s
  alone : ∀ (i j : ℕ) (w w' : Work), stages[i]? = some (.working w) → stages[j]? = some (.working w') → j = i
  saved : (∀ (i : ℕ) (w : Work), stages[i]? ≠ some (.working w)) → s.unsaved = 0

theorem getElem?_set_some {l : List Stage} {i j : ℕ} {σ τ : Stage} (h : (l.set i σ)[j]? = some τ) :
    (j = i ∧ τ = σ) ∨ (j ≠ i ∧ l[j]? = some τ) := by
  by_cases hij : i = j
  · subst hij
    rw [List.getElem?_set_self (by simpa using (List.getElem?_eq_some_iff.mp h).1)] at h
    exact .inl ⟨rfl, (Option.some.inj h).symm⟩
  · rw [List.getElem?_set_ne hij] at h
    exact .inr ⟨Ne.symm hij, h⟩

theorem Tidy.atJob (h : Tidy range stages s) (hi : stages[i]? = some (.working w))
    (hsound : Sound range s') (hnamed : ∀ id, s.Named id → s'.Named id)
    (hw : ∀ w', σ = .working w' → w'.Tidy range s')
    (hsaved : (∀ w', σ ≠ .working w') → s'.unsaved = 0) (hheld : ∀ id, σ ≠ .holding id) :
    Tidy range (stages.set i σ) s' where
  sound := hsound
  holding j id hj := by
    rcases getElem?_set_some hj with ⟨-, hid⟩ | ⟨-, hj⟩
    · exact absurd hid.symm (hheld id)
    · exact hnamed id (h.holding j id hj)
  working j w' hj := by
    rcases getElem?_set_some hj with ⟨-, hw'⟩ | ⟨hne, hj⟩
    · exact hw w' hw'.symm
    · exact absurd (h.alone i j w w' hi hj) hne
  alone j k w' w'' hj hk := by
    have honly : ∀ {m : ℕ} {v : Work}, (stages.set i σ)[m]? = some (.working v) → m = i := by
      intro m v hm
      rcases getElem?_set_some hm with ⟨hmi, -⟩ | ⟨-, hm⟩
      · exact hmi
      · exact h.alone i m w v hi hm
    exact (honly hk).trans (honly hj).symm
  saved hnone := hsaved fun w' hw' => by
    have hlt := (List.getElem?_eq_some_iff.mp hi).1
    exact hnone i w' (by rw [List.getElem?_set_self hlt, hw'])

theorem Tidy.aside (h : Tidy range stages s) (hσ' : ∀ w', σ ≠ .working w') {τ : Stage}
    (hi : stages[i]? = some τ) (hτ : ∀ w', τ ≠ .working w')
    (hsound : Sound range s') (hnamed : ∀ id, s.Named id → s'.Named id)
    (hw : ∀ (j : ℕ) (w' : Work), stages[j]? = some (.working w') → w'.Tidy range s')
    (hunsaved : s'.unsaved = s.unsaved) (hheld : ∀ id, σ = .holding id → s'.Named id) :
    Tidy range (stages.set i σ) s' := by
  have hback : ∀ {j : ℕ} {w' : Work}, (stages.set i σ)[j]? = some (.working w') → stages[j]? = some (.working w') := by
    intro j w' hj
    rcases getElem?_set_some hj with ⟨-, hw'⟩ | ⟨-, hj⟩
    · exact absurd hw'.symm (hσ' w')
    · exact hj
  refine ⟨hsound, fun j id hj => ?_, fun j w' hj => hw j w' (hback hj),
    fun j k w' w'' hj hk => h.alone j k w' w'' (hback hj) (hback hk), fun hnone => ?_⟩
  · rcases getElem?_set_some hj with ⟨-, hid⟩ | ⟨-, hj⟩
    · exact hheld id hid.symm
    · exact hnamed id (h.holding j id hj)
  · refine hunsaved.trans (h.saved fun j w' hj => hnone j w' ?_)
    have hne : i ≠ j := by
      rintro rfl
      rw [hi] at hj
      exact hτ w' (Option.some.inj hj)
    rw [List.getElem?_set_ne hne]
    exact hj

theorem Tidy.take (h : Tidy range stages s) (hi : i < stages.length)
    (hrest : ∀ (j : ℕ) (w' : Work), stages[j]? ≠ some (.working w')) (hw : w.Tidy range s) :
    Tidy range (stages.set i (.working w)) s := by
  have honly : ∀ {j : ℕ} {w' : Work}, (stages.set i (.working w))[j]? = some (.working w') →
      j = i ∧ w' = w := by
    intro j w' hj
    rcases getElem?_set_some hj with ⟨hji, hw'⟩ | ⟨-, hj⟩
    · exact ⟨hji, Stage.working.inj hw'⟩
    · exact absurd hj (hrest j w')
  refine ⟨h.sound, fun j id hj => ?_, fun j w' hj => (honly hj).2 ▸ hw,
    fun j k w' w'' hj hk => (honly hk).1.trans (honly hj).1.symm, fun hnone => ?_⟩
  · rcases getElem?_set_some hj with ⟨-, hid⟩ | ⟨-, hj⟩
    · cases hid
    · exact h.holding j id hj
  · exact absurd (List.getElem?_set_self hi) (hnone i w)

theorem Tidy.start (h : Tidy range stages s) : Tidy range (stages ++ [.idle]) s := by
  have hback : ∀ {j : ℕ} {τ : Stage}, τ ≠ .idle → (stages ++ [Stage.idle])[j]? = some τ → stages[j]? = some τ := by
    intro j τ hτ hj
    rcases getElem?_snoc hj with hj | ⟨-, hidle⟩
    · exact hj
    · exact absurd hidle hτ
  have hw : ∀ {j : ℕ} {w' : Work}, (stages ++ [Stage.idle])[j]? = some (.working w') →
      stages[j]? = some (.working w') := hback (by simp)
  refine ⟨h.sound, fun j id hj => h.holding j id (hback (by simp) hj), fun j w' hj => h.working j w' (hw hj),
    fun j k w' w'' hj hk => h.alone j k w' w'' (hw hj) (hw hk), fun hnone => h.saved fun j w' hj => ?_⟩
  refine hnone j w' ?_
  rw [List.getElem?_append_left (List.getElem?_eq_some_iff.mp hj).1]
  exact hj

end Tidy

def Stage.Aside (σ : Stage) : Prop := ∀ w, σ ≠ .working w

theorem heldBy_aside (reply : Except String BackfillCheckpoint) : (heldBy reply).Aside := by
  cases reply with
  | error e | ok row => exact fun w h => by cases h

theorem Tidy.createCheckpoint (h : Tidy range stages s) (hi : stages[i]? = some .idle)
    {row : BackfillCheckpoint} (hstatus : row.status = .running) (hcount : row.processedCount = 0) :
    Tidy range (stages.set i (heldBy (perform (.createCheckpoint row) s).1)) (perform (.createCheckpoint row) s).2 := by
  have haside : ∀ w', Stage.idle ≠ .working w' := fun w' h => by cases h
  change Tidy range (stages.set i (heldBy (commit (s.createCheckpoint row) s).1)) (commit (s.createCheckpoint row) s).2
  rcases commit_cases (s.createCheckpoint row) s with ⟨e, -, hcommit⟩ | ⟨row', s', htx, hcommit⟩
  · rw [hcommit]
    exact h.aside (heldBy_aside _) hi haside h.sound (fun _ hid => hid) h.working rfl fun id hid => by cases hid
  · rw [hcommit]
    have hnone : s.checkpoint = none ∧ row' = row ∧ s' = { s with checkpoint := some row } := by
      rw [Store.createCheckpoint] at htx
      split at htx
      · cases htx
      · cases htx
      · rename_i hnone
        cases htx
        exact ⟨hnone, rfl, rfl⟩
    obtain ⟨hnone, rfl, rfl⟩ := hnone
    have hunnamed : ∀ id, ¬ s.Named id := by
      rintro id ⟨row', hrow', -⟩
      rw [hnone] at hrow'
      cases hrow'
    refine h.aside (heldBy_aside _) hi haside ?_ (fun id hid => absurd hid (hunnamed id))
      (fun j w' hj => absurd (h.working j w' hj).named (hunnamed _)) rfl fun id hid => ?_
    · refine ⟨fun job hjob => absurd (h.sound.jobs job hjob).2 (hunnamed _), fun hcompleted => ?_, ?_, h.sound.once⟩
      · have hcompleted : row'.status = .completed := Option.some.inj hcompleted
        rw [hstatus] at hcompleted
        cases hcompleted
      · have hexact := h.sound.exact
        rw [Store.processedCount, hnone] at hexact
        exact (congrArg (· + s.unsaved) hcount).trans hexact
    · cases hid
      exact ⟨row', rfl, rfl⟩

theorem Tidy.resume (h : Tidy range stages s) (hi : stages[i]? = some .idle) {id : String}
    {triggeredBy : Option String} {now : Time} :
    Tidy range (stages.set i (heldBy (perform (.resume id triggeredBy now) s).1))
      (perform (.resume id triggeredBy now) s).2 := by
  have haside : ∀ w', Stage.idle ≠ .working w' := fun w' h => by cases h
  have hf : Rewrites (resumed triggeredBy now) := ⟨fun _ => rfl, fun _ => rfl⟩
  change Tidy range (stages.set i (heldBy (commit (s.update id (resumed triggeredBy now)) s).1))
    (commit (s.update id (resumed triggeredBy now)) s).2
  rcases update_cases s id (resumed triggeredBy now) with ⟨e, he, -⟩ | ⟨row, hrow, -, hok⟩
  · rw [he]
    exact h.aside (heldBy_aside _) hi haside h.sound (fun _ hid => hid) h.working rfl fun id hid => by cases hid
  · rw [hok]
    refine h.aside (heldBy_aside _) hi haside (h.sound.updated hf hrow fun hcompleted => ?_)
      (fun id hid => hid.updated hrow (hf.id row))
      (fun j w' hj => (h.working j w' hj).frame (fun id hid => hid.updated hrow (hf.id row)) ?_ rfl rfl) rfl
      fun id hid => ?_
    · cases hcompleted
    · exact fun hcancelled => by cases hcancelled
    · cases hid
      exact ⟨_, rfl, rfl⟩

theorem Tidy.cancel (h : Tidy range stages s) (hi : stages[i]? = some .idle)
    (hrest : ∀ (j : ℕ) (w' : Work), stages[j]? ≠ some (.working w')) {id : String} {now : Time} :
    Tidy range (stages.set i .idle) (perform (.cancel id now) s).2 := by
  have haside : ∀ w', Stage.idle ≠ .working w' := fun w' h => by cases h
  have hf : Rewrites (cancelled now) := ⟨fun _ => rfl, fun _ => rfl⟩
  change Tidy range (stages.set i .idle) (commit (noRow (s.update id (cancelled now))) s).2
  rcases update_cases s id (cancelled now) with ⟨e, he, -⟩ | ⟨row, hrow, -, hok⟩
  · rw [he]
    exact h.aside haside hi haside h.sound (fun _ hid => hid) h.working rfl fun id hid => by cases hid
  · rw [hok]
    refine h.aside haside hi haside (h.sound.updated hf hrow fun hcompleted => ?_)
      (fun id hid => hid.updated hrow (hf.id row)) (fun j w' hj => absurd hj (hrest j w')) rfl
      fun id hid => ?_
    · cases hcompleted
    · cases hid

theorem Tidy.addJob (h : Tidy range stages s) {id : String} (hi : stages[i]? = some (.holding id))
    {job : BackfillJobData} (hjob : holdingAllowed range id (.addJob job)) :
    Tidy range (stages.set i (.holding id)) (perform (.addJob job) s).2 := by
  have haside : ∀ w', Stage.holding id ≠ .working w' := fun w' h => by cases h
  have hnamed := h.holding i id hi
  refine h.aside haside hi haside ⟨fun job' hjob' => ?_, h.sound.complete, h.sound.exact, h.sound.once⟩ (fun _ hid => hid)
    (fun j w' hj => (h.working j w' hj).frame (fun _ hid => hid) (h.working j w' hj).running rfl rfl) rfl
    fun id' hid => ?_
  · rcases List.mem_append.mp hjob' with hjob' | hjob'
    · exact h.sound.jobs job' hjob'
    · rw [List.mem_singleton.mp hjob']
      exact ⟨hjob.2, hjob.1 ▸ hnamed⟩
  · cases hid
    exact hnamed

theorem Tidy.takeJob (h : Tidy range stages s) (hi : stages[i]? = some .idle) {job : BackfillJobData}
    (hjob : job ∈ s.jobs) (hforward : 0 < job.batchSize ∨ job.endLedger < job.startLedger)
    (hrest : ∀ (j : ℕ) (w' : Work), stages[j]? ≠ some (.working w')) (hstatus : s.status ≠ some .cancelled)
    (hbefore : ∀ ledger, range.startLedger ≤ ledger → ledger < job.startLedger → ledger ≤ range.endLedger →
      s.Processed ledger) : Tidy range (stages.set i (.working job.work)) s := by
  obtain ⟨hend, hnamed⟩ := h.sound.jobs job hjob
  refine h.take (List.getElem?_eq_some_iff.mp hi).1 hrest ?_
  exact
    { named := hnamed
      atEnd := hend
      forward := hforward
      running := hstatus
      covered := fun _ ledger hfrom hto hle => hbefore ledger hfrom hto hle
      unsaved := h.saved hrest
      first := fun _ => rfl
      last := fun hfresh => absurd rfl hfresh
      finished := fun _ => rfl }

theorem Sound.createEntry (h : Sound range s) {row : LedgerEntry} (hrow : row.id ∉ s.entries.map (·.id)) : Sound range
      { s with entries := s.entries ++ [row], inserted := s.inserted + 1, unsaved := s.unsaved + 1 } where
  jobs := h.jobs
  complete := h.complete
  exact := by
    have hexact := h.exact
    change s.processedCount + (s.unsaved + 1) = s.inserted + 1
    omega
  once := by
    rw [List.map_append, List.map_singleton]
    exact List.nodup_append.mpr ⟨h.once, List.nodup_singleton _, fun a ha b hb => by
      rw [List.mem_singleton.mp hb]
      exact fun hab => hrow (hab ▸ ha)⟩

theorem Tidy.createEntry (h : Tidy range stages s) (hi : stages[i]? = some (.working w)) {row : LedgerEntry}
    {batchEnd : ℤ} (hallowed : w.allowed (.createEntry row batchEnd)) (hlast : batchEnd = range.endLedger) :
    Tidy range (stages.set i (w.next (.createEntry row batchEnd) (perform (.createEntry row batchEnd) s).1))
      (perform (.createEntry row batchEnd) s).2 := by
  have hw := h.working i w hi
  change Tidy range (stages.set i (w.next (.createEntry row batchEnd) (commit (s.createEntry row) s).1))
    (commit (s.createEntry row) s).2
  rcases commit_cases (s.createEntry row) s with ⟨e, -, hcommit⟩ | ⟨_, s', htx, hcommit⟩
  · rw [hcommit]
    exact h.atJob hi h.sound (fun _ hid => hid) (fun w' hw' => by cases hw'; exact hw)
      (fun hnot => absurd rfl (hnot w)) fun id hid => by cases hid
  · rw [hcommit]
    rw [Store.createEntry] at htx
    split at htx
    · cases htx
    · split at htx
      · cases htx
      · rename_i hrow
        cases htx
        refine h.atJob hi (h.sound.createEntry hrow) (fun _ hid => hid) (fun w' hw' => ?_)
          (fun hnot => absurd rfl (hnot _)) fun id hid => by cases hid
        cases hw'
        exact
          { named := hw.named
            atEnd := hw.atEnd
            forward := hw.forward
            running := hw.running
            covered := hw.covered
            unsaved := congrArg (· + 1) hw.unsaved
            first := hw.first
            last := fun _ => (hallowed.2.symm.trans hlast).trans hw.atEnd.symm
            finished := fun hover => absurd hallowed.1 (Int.not_le.mpr hover) }

theorem Store.record_mono {save : SaveData} {ledger : ℤ} (h : s.Processed ledger) : (s.record save).Processed ledger := by
  obtain ⟨batch, hbatch, hin⟩ := h
  exact ⟨batch, List.mem_append_left _ hbatch, hin⟩

theorem Sound.record (h : Sound range s) (save : SaveData) : Sound range (s.record save) where
  jobs := h.jobs
  complete hcompleted ledger hfrom hto := Store.record_mono (h.complete hcompleted ledger hfrom hto)
  exact := h.exact
  once := h.once

theorem Work.Tidy.counts (h : w.Tidy range s) {save : SaveData} (hle : w.ledger ≤ w.job.endLedger)
    (hsaves : w.Saves save) (hcareful : s.unsaved = 0 ∨ save.batch.isSome = true) :
    save.processed = s.unsaved := by
  have hfirst := h.first hle
  have hunsaved := h.unsaved
  rcases hsaves with ⟨-, hprocessed⟩ | ⟨hbatch, hprocessed⟩
  · omega
  · rw [hbatch] at hcareful
    have hzero : s.unsaved = 0 := hcareful.resolve_right (by simp)
    omega

theorem Work.Tidy.save (h : w.Tidy range s) {save : SaveData} {row row' : BackfillCheckpoint}
    (hle : w.ledger ≤ w.job.endLedger) (hsaves : w.Saves save) (hrow : s.checkpoint = some row)
    (hid : row'.id = row.id) (hstatus : row'.status = row.status) :
    (w.save save).Tidy range { s.record save with checkpoint := some row', unsaved := 0 } where
  named := h.named.updated (f := fun _ => row') hrow hid
  atEnd := h.atEnd
  forward := .inl (h.forward.resolve_right (Int.not_lt.mpr hle))
  running := by
    have hrunning := h.running
    rw [Store.status, hrow] at hrunning
    exact fun hcancelled => hrunning ((congrArg some hstatus.symm).trans hcancelled)
  covered hclean ledger hfrom hto hin := by
    obtain ⟨hbefore, hbatch⟩ := Bool.and_eq_true_iff.mp hclean
    by_cases hold : ledger < w.ledger
    · exact Store.record_mono (h.covered hbefore ledger hfrom hold hin)
    · have hsaved : save.batch = some (w.ledger, w.batchEnd) := by
        rcases hsaves with ⟨hsome, -⟩ | ⟨hnone, -⟩
        · exact hsome
        · rw [hnone] at hbatch
          cases hbatch
      refine ⟨(w.ledger, w.batchEnd), List.mem_append_right _ (by simp [hsaved]), Int.not_lt.mp hold, ?_⟩
      have hto : ledger < w.ledger + w.job.batchSize := hto
      have hatEnd := h.atEnd
      change ledger ≤ min (w.ledger + w.job.batchSize - 1) w.job.endLedger
      omega
  unsaved := rfl
  first hnext := by
    have hnext : w.ledger + w.job.batchSize ≤ w.job.endLedger := hnext
    have hfirst := h.first hle
    have hfresh : w.fresh = 0 := by
      by_contra hfresh
      have hlast : min (w.ledger + w.job.batchSize - 1) w.job.endLedger = w.job.endLedger := h.last hfresh
      omega
    change save.processed = 0
    rcases hsaves with ⟨-, hprocessed⟩ | ⟨-, hprocessed⟩
    · omega
    · omega
  last hfresh := absurd rfl hfresh
  finished _ := rfl

theorem Tidy.saveProgress (h : Tidy range stages s) (hi : stages[i]? = some (.working w)) {id : String}
    {save : SaveData} (hallowed : w.allowed (.saveProgress id save))
    (hcareful : s.unsaved = 0 ∨ (save.batch.isSome = true ∧ s.weather.db.isOk = true)) :
    Tidy range (stages.set i (w.next (.saveProgress id save) (perform (.saveProgress id save) s).1))
      (perform (.saveProgress id save) s).2 := by
  have hw := h.working i w hi
  obtain ⟨hle, rfl, hsaves⟩ := hallowed
  have hrecorded := h.sound.record save
  change Tidy range (stages.set i (w.next (.saveProgress w.job.checkpointId save)
      (commit ((s.record save).saveProgress w.job.checkpointId save) (s.record save)).1))
    (commit ((s.record save).saveProgress w.job.checkpointId save) (s.record save)).2
  rw [Store.saveProgress]
  rcases update_cases (s.record save) w.job.checkpointId (Backfill.saved save) with ⟨e, he, hdb⟩ | ⟨row, hrow, -, hok⟩
  · rw [he]
    refine h.atJob hi hrecorded (fun _ hid => hid) (fun w' hw' => by cases hw') (fun _ => ?_) fun id hid => by cases hid
    -- the progress of a batch that inserted something is written
    refine hcareful.resolve_right fun hwritten => ?_
    have hdb : s.weather.db.isOk = false := hdb hw.named
    rw [hdb] at hwritten
    cases hwritten.2
  · rw [hok]
    have hcounts := hw.counts hle hsaves (hcareful.imp_right And.left)
    refine h.atJob hi ?_ (fun id hid => hid.updated (f := Backfill.saved save) hrow rfl) (fun w' hw' => ?_)
      (fun hnot => absurd rfl (hnot _)) fun id hid => by cases hid
    · refine ⟨fun job hjob => ?_, fun hcompleted => hrecorded.complete ?_, ?_, h.sound.once⟩
      · obtain ⟨hend, hnamed⟩ := h.sound.jobs job hjob
        exact ⟨hend, hnamed.updated (f := Backfill.saved save) hrow rfl⟩
      · rw [Store.status, hrow]
        exact hcompleted
      · have hexact := h.sound.exact
        rw [Store.processedCount, show s.checkpoint = some row from hrow] at hexact
        change row.processedCount + save.processed + 0 = s.inserted
        rw [hcounts]
        exact hexact
    · cases hw'
      exact hw.save hle hsaves hrow rfl rfl

theorem Tidy.finish (h : Tidy range stages s) (hi : stages[i]? = some (.working w)) {id : String}
    {status : BackfillStatus} {now : Time} (hallowed : w.allowed (.finish id status now)) :
    Tidy range (stages.set i .ended) (perform (.finish id status now) s).2 := by
  have hw := h.working i w hi
  obtain ⟨hover, rfl, -, hcompleted⟩ := hallowed
  have hunsaved : s.unsaved = 0 := hw.unsaved.trans (hw.finished hover)
  have hf : Rewrites (finished status now) := ⟨fun _ => rfl, fun _ => rfl⟩
  change Tidy range (stages.set i .ended) (commit (noRow (s.update w.job.checkpointId (finished status now))) s).2
  rcases update_cases s w.job.checkpointId (finished status now) with ⟨e, he, -⟩ | ⟨row, hrow, -, hok⟩
  · rw [he]
    exact h.atJob hi h.sound (fun _ hid => hid) (fun w' hw' => by cases hw') (fun _ => hunsaved) fun id hid => by cases hid
  · rw [hok]
    refine h.atJob hi (h.sound.updated hf hrow fun hstatus ledger hfrom hto => ?_)
      (fun id hid => hid.updated hrow (hf.id row)) (fun w' hw' => by cases hw') (fun _ => hunsaved)
      fun id hid => by cases hid
    have hatEnd := hw.atEnd
    exact hw.covered (hcompleted hstatus) ledger hfrom (by omega) hto

theorem Tidy.serve {p : BackfillPool} {σ : Stage} (h : Tidy range stages p.store) (hi : stages[i]? = some σ)
    (hrest : p.AtRest → ∀ (j : ℕ) (w' : Work), stages[j]? ≠ some (.working w'))
    (hallowed : (protocol range).allowed σ q) (hcareful : q.Careful range p) :
    Tidy range (stages.set i ((protocol range).next σ q (perform q p.store).1)) (perform q p.store).2 := by
  cases σ with
  | idle =>
    have hidle : ∀ w', Stage.idle ≠ .working w' := fun w' h => by cases h
    have hpasses : ∀ now weather, Tidy range (stages.set i .idle) { p.store with now := now, weather := weather } := by
      intro now weather
      exact h.aside hidle hi hidle (h.sound.passes now weather) (fun _ hid => hid)
        (fun j w' hj => (h.working j w' hj).frame (fun _ hid => hid) (h.working j w' hj).running rfl rfl) rfl
        fun id hid => by cases hid
    cases q with
    | clock => exact hpasses p.store.now p.store.weather
    | elapse d => exact hpasses (p.store.now + d) p.store.weather
    | foresee weather => exact hpasses p.store.now weather
    | findByKey jobKey | findById id => exact hpasses p.store.now p.store.weather
    | createCheckpoint row => exact h.createCheckpoint hi hallowed.1 hallowed.2
    | resume id triggeredBy now => exact h.resume hi
    | cancel id now => exact h.cancel hi (hrest hcareful)
    | takeJob pick =>
      change Tidy range (stages.set i (idleNext (.takeJob pick) (p.store.job pick))) p.store
      cases hjob : p.store.job pick with
      | none =>
        exact h.aside (fun w' h => by cases h) hi hidle h.sound (fun _ hid => hid) h.working rfl fun id hid => by cases hid
      | some job =>
        obtain ⟨hforward, hatRest, hstatus, hbefore⟩ := hcareful job hjob
        exact h.takeJob hi (List.mem_of_getElem? hjob) hforward (hrest hatRest) hstatus hbefore
    | addJob | findEntries | fetchLedgerRange | createEntry | saveProgress | finish => exact hallowed.elim
  | holding id =>
    cases q with
    | addJob job => exact h.addJob hi hallowed
    | _ => exact hallowed.elim
  | working w =>
    have hstays : Tidy range (stages.set i (.working w)) p.store :=
      h.atJob hi h.sound (fun _ hid => hid) (fun w' hw' => by cases hw'; exact h.working i w hi)
        (fun hnot => absurd rfl (hnot w)) fun id hid => by cases hid
    cases q with
    | clock | findEntries since | fetchLedgerRange startLedger endLedger => exact hstays
    | createEntry row batchEnd => exact h.createEntry hi hallowed hcareful
    | saveProgress id save => exact h.saveProgress hi hallowed hcareful
    | finish id status now => exact h.finish hi hallowed
    | _ => exact hallowed.elim
  | ended => exact hallowed.elim

end Soter.Backfill
