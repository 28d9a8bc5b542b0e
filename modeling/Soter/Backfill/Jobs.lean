import Soter.Lib.Protocol
import Soter.Backfill.Service

/-! What a job of the backfill asks for, batch by batch, and when it comes to an end. -/
namespace Soter.Backfill
open Soter.Tasks Soter.Runs

/-- Where a job stands: the totals before the batch that begins with `ledger`, what this batch has inserted
so far, and whether every batch before it went through. -/
structure Work where
  job : BackfillJobData
  ledger : ℤ
  processed : ℕ := 0
  fresh : ℕ := 0
  clean : Bool := true

def Work.batchEnd (w : Work) : ℤ := min (w.ledger + w.job.batchSize - 1) w.job.endLedger

inductive Stage
  | idle
  /-- The checkpoint of this id was written, and a job for it may be added. -/
  | holding (id : String)
  | working (w : Work)
  | ended

def Work.Stuck (w : Work) : Prop := w.job.batchSize ≤ 0 ∧ w.ledger ≤ w.job.endLedger

def Work.Saves (w : Work) (save : SaveData) : Prop :=
  (save.batch = some (w.ledger, w.batchEnd) ∧ save.processed = w.processed + w.fresh) ∨
    (save.batch = none ∧ save.processed = w.processed)

def Work.allowed (w : Work) : Query → Prop
  | .clock | .findEntries _ | .fetchLedgerRange .. => True
  | .createEntry _ batchEnd => w.ledger ≤ w.job.endLedger ∧ batchEnd = w.batchEnd
  | .saveProgress id save => w.ledger ≤ w.job.endLedger ∧ id = w.job.checkpointId ∧ w.Saves save
  | .finish id status _ =>
    w.job.endLedger < w.ledger ∧ id = w.job.checkpointId ∧ status ≠ .cancelled ∧
      (status = .completed → w.clean = true)
  | _ => False

def Work.save (w : Work) (save : SaveData) : Work :=
  { w with
    ledger := w.ledger + w.job.batchSize
    processed := save.processed
    fresh := 0
    clean := w.clean && save.batch.isSome }

def Work.next (w : Work) : (q : Query) → q.Reply → Stage
  | .createEntry .., reply =>
    match (reply : Except String Unit) with
    | .ok () => .working { w with fresh := w.fresh + 1 }
    | .error _ => .working w
  | .saveProgress _ save, reply =>
    match (reply : Except String Unit) with
    | .ok () => .working (w.save save)
    | .error _ => .ended
  | .finish .., _ => .ended
  | _, _ => .working w

def idleAllowed : Query → Prop
  | .createCheckpoint row => row.status = .running ∧ row.processedCount = 0
  | .clock | .elapse _ | .foresee _ | .findByKey _ | .findById _ | .resume .. | .takeJob _ | .cancel .. => True
  | _ => False

def heldBy (reply : Except String BackfillCheckpoint) : Stage :=
  match reply with
  | .ok row => .holding row.id
  | .error _ => .ended

def idleNext : (q : Query) → q.Reply → Stage
  | .takeJob _, reply =>
    match (reply : Option BackfillJobData) with
    | some job => .working { job := job, ledger := job.startLedger }
    | none => .ended
  | .createCheckpoint _, reply => heldBy reply
  | .resume .., reply => heldBy reply
  | _, _ => .idle

def holdingAllowed (range : Range) (id : String) : Query → Prop
  | .addJob job => job.checkpointId = id ∧ job.endLedger = range.endLedger
  | _ => False

def protocol (range : Range) : Protocol Query Query.Reply Stage where
  allowed
    | .idle => idleAllowed
    | .holding id => holdingAllowed range id
    | .working w => w.allowed
    | .ended => fun _ => False
  next
    | .idle => idleNext
    | .holding id => fun _ _ => .holding id
    | .working w => w.next
    | .ended => fun _ _ => .ended

def settled {ε α : Type} (σ : Stage) (_ : Except ε α) : Prop := ∀ w, σ = .working w → w.Stuck

variable {range : Range}
section Loop
variable {w : Work}

def inserted (w : Work) (σ : Stage) (result : Except String Counts) : Prop :=
  ∃ fresh, σ = .working { w with fresh := fresh } ∧ ∀ counts, result = .ok counts → counts.processed = fresh

variable {campaignId : Option String}

theorem createEntries_follows {existingIds : List String}
    (hw : w.ledger ≤ w.job.endLedger) : ∀ (rows : List FetchedEntry) (counts : Counts),
      (createEntries existingIds campaignId w.batchEnd counts rows).Follows (protocol range) (inserted w)
        (.working { w with fresh := counts.processed })
  | [], counts => by
    refine ⟨counts.processed, rfl, fun counts' hcounts => ?_⟩
    cases hcounts
    rfl
  | row :: rows, counts => by
    rw [createEntries]
    apply Task.follows_ite
    · exact fun _ => createEntries_follows hw rows { counts with skipped := counts.skipped + 1 }
    · refine fun _ => ⟨⟨hw, rfl⟩, fun reply => ?_⟩
      cases reply with
      | error e => exact ⟨counts.processed, rfl, fun counts' hcounts => by cases hcounts⟩
      | ok _ => exact createEntries_follows hw rows { counts with processed := counts.processed + 1 }

theorem processLedgerRange_follows (hw : w.ledger ≤ w.job.endLedger) (hfresh : w.fresh = 0) :
    (processLedgerRange w.ledger w.batchEnd campaignId).Follows (protocol range) (inserted w) (.working w) := by
  have hnone : ∀ e : String, inserted w (.working w) (.error e) :=
    fun e => ⟨w.fresh, rfl, fun counts hcounts => by cases hcounts⟩
  refine ⟨trivial, fun now => ⟨trivial, fun existingIds => ?_⟩⟩
  cases existingIds with
  | error e => exact hnone e
  | ok existingIds =>
    refine ⟨trivial, fun ledgerData => ?_⟩
    cases ledgerData with
    | error e => exact hnone e
    | ok ledgerData =>
      have hstart : w = { w with fresh := ({} : Counts).processed } := by rw [← hfresh]
      rw [hstart]
      exact createEntries_follows hw ledgerData {}

def Work.Rounds (w : Work) (n : ℕ) : Prop := (w.job.endLedger - w.ledger + 1).toNat + 1 ≤ n ∨ w.Stuck

theorem Work.Rounds.save {n : ℕ} {save : SaveData} (h : w.Rounds (n + 1))
    (hw : w.ledger ≤ w.job.endLedger) : (w.save save).Rounds n := by
  simp only [Work.Rounds, Work.Stuck, Work.save] at h ⊢
  omega

def looped (job : BackfillJobData) (σ : Stage) : Except String (Option BatchTotals) → Prop
  | .ok (some totals) =>
    ∃ w, σ = .working w ∧ w.job = job ∧ w.job.endLedger < w.ledger ∧
      (w.clean = true ↔ totals.errors = [])
  | .ok none => ∃ w, σ = .working w ∧ w.job = job ∧ w.Stuck
  | .error _ => σ = .ended

theorem totals_add {totals : BatchTotals} {fresh : ℕ} {result : Except String Counts} (now : Time)
    (hprocessed : totals.processed = w.processed) (hclean : w.clean = true ↔ totals.errors = [])
    (hfresh : ∀ counts, result = .ok counts → counts.processed = fresh) :
    ({ w with fresh := fresh } : Work).Saves
        ((totals.add w.ledger w.batchEnd result).save w.ledger w.batchEnd result now) ∧
      ((w.clean && ((totals.add w.ledger w.batchEnd result).save w.ledger w.batchEnd result now).batch.isSome)
        = true ↔ (totals.add w.ledger w.batchEnd result).errors = []) := by
  cases result with
  | error e =>
    refine ⟨.inr ⟨rfl, hprocessed⟩, ?_⟩
    simp [BatchTotals.add, BatchTotals.save]
  | ok counts =>
    refine ⟨.inl ⟨rfl, ?_⟩, ?_⟩
    · have hcount := hfresh counts rfl
      change totals.processed + counts.processed = w.processed + fresh
      omega
    · rw [← show totals.errors = (totals.add w.ledger w.batchEnd (.ok counts)).errors from rfl, ← hclean]
      simp [BatchTotals.save]

theorem batchLoop_follows : ∀ (n : ℕ) (w : Work) (totals : BatchTotals), w.fresh = 0 → w.Rounds n →
    totals.processed = w.processed → (w.clean = true ↔ totals.errors = []) →
      (batchLoop w.job n w.ledger totals).Follows (protocol range) (looped w.job) (.working w)
  | 0, w, totals, _, hrounds, _, _ => by
    refine ⟨w, rfl, rfl, hrounds.resolve_left ?_⟩
    omega
  | n + 1, w, totals, hfresh, hrounds, hprocessed, hclean => by
    rw [batchLoop]
    refine Task.follows_ite (fun hw => ?_) (fun hw => ⟨w, rfl, rfl, Int.not_le.mp hw, hclean⟩)
    have hbatch := @processLedgerRange_follows range w w.job.campaignId hw hfresh
    refine Task.Follows.bind (fun σ result hresult => ?_) (fun σ e hresult => ?_) (Task.Follows.attempt hbatch)
    · obtain ⟨caught, hcaught, fresh, rfl, hcounts⟩ := hresult
      cases hcaught
      refine ⟨trivial, fun now => ?_⟩
      obtain ⟨hsaves, hclean'⟩ := totals_add now hprocessed hclean hcounts
      refine ⟨⟨hw, rfl, hsaves⟩, fun reply => ?_⟩
      cases reply with
      | error e => exact rfl
      | ok _ => exact batchLoop_follows n (Work.save { w with fresh := fresh } _) _ rfl (hrounds.save hw) rfl hclean'
    · obtain ⟨caught, hcaught, -⟩ := hresult
      cases hcaught

end Loop
section Handlers

variable {α ε : Type} {result : Except ε α}

theorem Follows.ends {t : Handler α} {σ : Stage} (h : t.Follows (protocol range) settled σ) :
    (t.bind fun _ => .done (.ok ())).Follows (protocol range) settled σ := by
  refine Task.Follows.bind (fun σ a hσ => ?_) (fun σ e hσ => ?_) h
  · exact hσ
  · exact hσ

theorem settled_over : settled .ended result :=
  fun _ h => by cases h

theorem settled_idle : settled .idle result :=
  fun _ h => by cases h

theorem settled_holding {id : String} : settled (.holding id) result :=
  fun _ h => by cases h

def BackfillJobData.work (job : BackfillJobData) : Work := { job := job, ledger := job.startLedger }

theorem batchLoop_start (job : BackfillJobData) :
    (batchLoop job (rounds job) job.startLedger {}).Follows (protocol range) (looped job) (.working job.work) :=
  batchLoop_follows (rounds job) job.work {} rfl (.inl (Nat.le_refl _)) rfl ⟨fun _ => rfl, fun _ => rfl⟩

theorem processBackfillBatch_follows (job : BackfillJobData) :
    (processBackfillBatch job).Follows (protocol range) settled (.working job.work) := by
  refine Task.Follows.bind (fun σ outcome houtcome => ?_) (fun σ e he => ?_) (batchLoop_start job)
  · cases outcome with
    | none =>
      obtain ⟨w, rfl, -, hstuck⟩ := houtcome
      intro w' hw'
      cases hw'
      exact hstuck
    | some totals =>
      obtain ⟨w, rfl, rfl, hend, hclean⟩ := houtcome
      refine ⟨trivial, fun now => ⟨⟨hend, rfl, ?_, ?_⟩, fun reply => ?_⟩⟩
      · split <;> exact fun h => by cases h
      · intro hcompleted
        apply hclean.mpr
        by_contra herrors
        rw [if_neg herrors] at hcompleted
        cases hcompleted
      · cases reply with
        | error e | ok _ => exact settled_over
  · rw [show σ = .ended from he]
    exact settled_over

theorem runJob_follows (pick : ℕ) : (runJob pick).Follows (protocol range) settled .idle := by
  refine ⟨trivial, fun taken => ?_⟩
  cases taken with
  | none => exact settled_over
  | some job => exact Follows.ends (processBackfillBatch_follows job)

theorem triggerBackfill_follows (batchSize : ℤ) (triggeredBy : Option String) (newId : String) :
    (triggerBackfill range batchSize triggeredBy newId).Follows (protocol range) settled .idle := by
  refine ⟨trivial, fun found => ?_⟩
  rcases found with e | _ | existing
  · exact settled_idle
  · refine ⟨trivial, fun now => ⟨⟨rfl, rfl⟩, fun created => ?_⟩⟩
    cases created with
    | error e => exact settled_over
    | ok checkpoint => exact ⟨⟨rfl, rfl⟩, fun _ => settled_holding⟩
  · refine Task.follows_ite (fun _ => settled_idle) fun _ => Task.follows_ite (fun _ => settled_idle) fun _ => ?_
    refine ⟨trivial, fun now => ⟨trivial, fun updated => ?_⟩⟩
    cases updated with
    | error e => exact settled_over
    | ok checkpoint => exact ⟨⟨rfl, rfl⟩, fun _ => settled_holding⟩

theorem cancelBackfill_follows (checkpointId : String) :
    (cancelBackfill checkpointId).Follows (protocol range) settled .idle := by
  refine ⟨trivial, fun found => ?_⟩
  rcases found with e | _ | checkpoint
  · exact settled_idle
  · exact settled_idle
  · refine Task.follows_ite (fun _ => settled_idle) fun _ => ⟨trivial, fun now => ⟨trivial, fun reply => ?_⟩⟩
    exact settled_idle

theorem body_follows (op : BackfillOp) : (op.body range).Follows (protocol range) settled .idle := by
  cases op with
  | triggerBackfill batchSize triggeredBy newId =>
    exact Follows.ends (triggerBackfill_follows batchSize triggeredBy newId)
  | cancelBackfill checkpointId => exact cancelBackfill_follows checkpointId
  | runJob pick => exact runJob_follows pick
  | elapse d | foresee weather => exact ⟨trivial, fun _ => settled_idle⟩

end Handlers

/-- The loop over the batches of a job is at its end after so many rounds, whatever it is told. -/
def Ends (job : BackfillJobData) : Prop :=
  ∃ n, (batchLoop job n job.startLedger {}).Gives (· ≠ .ok none)

theorem batchLoop_runs_on {job : BackfillJobData} (hjob : job.batchSize ≤ 0) :
    ∀ (n : ℕ) (ledger : ℤ) (totals : BatchTotals), ledger ≤ job.endLedger →
      ¬ (batchLoop job n ledger totals).Gives (· ≠ .ok none)
  | 0, _, _, _ => fun h => h rfl
  | n + 1, ledger, totals, hledger => by
    intro h
    rw [batchLoop, if_pos hledger] at h
    have hnext : ledger + job.batchSize ≤ job.endLedger := by omega
    have hround := h (0 : Time) (.error "" : Except String (List String)) (0 : Time) (.ok () : Except String Unit)
    exact batchLoop_runs_on hjob n _ _ hnext hround

theorem ends_iff (job : BackfillJobData) : Ends job ↔ 0 < job.batchSize ∨ job.endLedger < job.startLedger := by
  constructor
  · rintro ⟨n, hn⟩
    by_contra hstuck
    rw [not_or, Int.not_lt, Int.not_lt] at hstuck
    exact batchLoop_runs_on hstuck.1 n job.startLedger {} hstuck.2 hn
  · rintro (hforward | hnone)
    · refine ⟨rounds job, (@batchLoop_start ⟨0, 0, none⟩ job).gives fun σ result hlooped => ?_⟩
      rintro rfl
      obtain ⟨w, -, rfl, hstuck⟩ := hlooped
      exact absurd hforward (Int.not_lt.mpr hstuck.1)
    · refine ⟨1, ?_⟩
      rw [batchLoop, if_neg (Int.not_le.mpr hnone)]
      exact fun h => by cases h

end Soter.Backfill
