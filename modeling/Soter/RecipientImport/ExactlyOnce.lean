import Soter.Lib.Exclusive
import Soter.Lib.Served
import Soter.RecipientImport.Processor

/-! When a file is imported exactly once. -/
namespace Soter.RecipientImport
open Soter.Tasks Soter.Runs List Option Store

namespace Store
variable (s : Store)

def status (jobId : ℕ) : Option ImportJobStatus := s.jobs[jobId]?.map (·.status)

def processedRows (jobId : ℕ) : ℕ := (s.jobs[jobId]?.map (·.processedRows)).getD 0

def csv (jobId : ℕ) : Option Csv :=
  (((s.jobs[jobId]?.bind (·.filePath)).bind (s.files[·]?)).map parseCsv).bind (·.toOption)

def claimsOf (jobId rowNumber : ℕ) : ℕ := s.claims.countP (isClaimOf jobId rowNumber)

def Matches (data : ImportJobData) : Prop :=
  ∃ job, s.jobs[data.jobId]? = some job ∧ data.campaignId = job.campaignId

def Genuine (claim : Claim) : Prop :=
  ∃ data csv n row, s.Matches data ∧ s.csv data.jobId = some csv ∧ csv.rows[n]? = some row ∧
    (validateRow row csv.headers (n + 2)).valid = true ∧ claim = claimOf data n (validateRow row csv.headers (n + 2))

/-- The job is past all of its rows: each is imported by one claim or recorded, and those that are recorded are counted,
and recorded once. -/
structure IsComplete (csv : Csv) (jobId : ℕ) (job : ImportJob) : Prop where
  processed : job.processedRows = csv.rows.length
  counted : job.errorRows = (recordedRows job.view.errors).card
  settled : ∀ n < csv.rows.length, s.claimsOf jobId (n + 2) = 1 ∨ n + 2 ∈ recordedRows job.view.errors
  once : ∀ e ∈ job.view.errors, ∃ n, e.row = n + 2 ∧ Explains csv n (job.view.errors.filter (·.row = e.row))

end Store

def Query.Observes (s : Store) : Query → Prop
  | .setJobProcessing jobId | .getResumeState jobId | .isCancellationRequested jobId =>
    s.fate.db.isOk = true ∧ s.status jobId = some .cancelled
  | _ => False

/-- A claim that is accepted is there from then on, and is the only one of its row; there are no others than those of the
valid rows; once a run is through, the job says so; a job that is cancelled stays so, and a worker that is told of it
imports nothing more. -/
structure ImportedOnce (tr : List ImportTransition) : Prop where
  single : ∀ t ∈ tr, ∀ jobId rowNumber, t.post.store.claimsOf jobId rowNumber ≤ 1
  accepted : ∀ t ∈ tr, ∀ claim, t.pre.asked t.label = some (.createClaim claim) →
    (perform (.createClaim claim) t.pre.store).1 = .ok () → claim ∈ t.post.store.claims
  kept : tr.Pairwise fun t t' => ∀ claim ∈ t.post.store.claims, claim ∈ t'.post.store.claims
  genuine : ∀ t ∈ tr, ∀ claim ∈ t.post.store.claims, t.post.store.Genuine claim
  complete : ∀ t ∈ tr, ∀ jobId, t.post.Returned (.finished jobId) → ∃ job csv, t.post.store.jobs[jobId]? = some job ∧
    t.post.store.csv jobId = some csv ∧ t.post.store.IsComplete csv jobId job
  stays : ∀ t ∈ tr, ∀ jobId, t.pre.store.status jobId = some .cancelled → t.post.store.status jobId = some .cancelled
  heeds : tr.Pairwise fun t t' => (∃ q, t.pre.asked t.label = some q ∧ q.Observes t.pre.store) →
    t'.label.thread = t.label.thread → ∀ claim, t'.pre.asked t'.label ≠ some (.createClaim claim)

/-- A job that is cancelled is not completed, and after a run is through no other one that is behind writes its own
counters. -/
def Query.IsOrderly (p : ImportPool) : Query → Prop
  | .updateJobProgress jobId view => p.store.fate.db.isOk = true →
    p.Returned (.finished jobId) → p.store.processedRows jobId ≤ view.processedRows
  | .completeJob jobId view _ _ => p.store.fate.db.isOk = true → p.store.status jobId ≠ some .cancelled ∧
    (p.Returned (.finished jobId) → p.store.processedRows jobId ≤ view.processedRows)
  | _ => True

def Orderly (t : ImportTransition) : Prop := ∀ q ∈ t.pre.asked t.label, q.IsOrderly t.pre

instance (p : ImportPool) (q : Query) : Decidable (q.IsOrderly p) :=
  match q with
  | .updateJobProgress jobId view => inferInstanceAs (Decidable (p.store.fate.db.isOk = true →
      p.Returned (.finished jobId) → p.store.processedRows jobId ≤ view.processedRows))
  | .completeJob jobId view _ _ => inferInstanceAs (Decidable (p.store.fate.db.isOk = true →
      p.store.status jobId ≠ some .cancelled ∧
        (p.Returned (.finished jobId) → p.store.processedRows jobId ≤ view.processedRows)))
  | .elapse _ | .foresee _ | .upload .. | .resumeInterruptedJobs | .cancelJob _ | .pickUp _ | .setJobProcessing _
  | .getResumeState _ | .readFile _ | .isCancellationRequested _ | .hasImportedRow .. | .createClaim _
  | .updateProgress _ => .isTrue trivial

instance (t : ImportTransition) : Decidable (Orderly t) :=
  inferInstanceAs (Decidable (∀ q ∈ t.pre.asked t.label, q.IsOrderly t.pre))

variable {view : View} {csv : Csv} {data : ImportJobData}
section Stages

/-- Where a call stands; `n` is the place of the row that a worker has come to. -/
inductive Stage
  | fresh
  | picked (data : ImportJobData)
  | started (data : ImportJobData)
  | resumed (data : ImportJobData) (job : ImportJob)
  | ready (data : ImportJobData) (csv : Csv) (n : ℕ) (view : View)
  /-- The job was not cancelled. -/
  | checked (data : ImportJobData) (csv : Csv) (n : ℕ) (view : View)
  /-- The row is valid and was not imported. -/
  | importing (data : ImportJobData) (csv : Csv) (n : ℕ) (view : View)
  /-- The view is past a row and has to be written. -/
  | moved (data : ImportJobData) (csv : Csv) (n : ℕ) (view : View)
  | written (data : ImportJobData) (csv : Csv) (n : ℕ) (view : View)
  | failing (data : ImportJobData) (view : View)
  | finished (jobId : ℕ)
  | ended

def Stage.allowed : Stage → Query → Prop
  | .fresh, .elapse _ | .fresh, .foresee _ | .fresh, .upload .. | .fresh, .resumeInterruptedJobs | .fresh, .cancelJob _
  | .fresh, .pickUp _ => True
  | .picked data, .setJobProcessing jobId | .started data, .getResumeState jobId => jobId = data.jobId
  | .resumed data job, .readFile path => path = job.filePath.getD data.filePath
  | .ready data csv n _, .isCancellationRequested jobId => jobId = data.jobId ∧ n < csv.rows.length
  | .ready data csv n view, .completeJob jobId view' _ statusOverride =>
    jobId = data.jobId ∧ view' = view ∧ statusOverride = none ∧ csv.rows.length ≤ n
  | .checked data _ n _, .hasImportedRow jobId rowNumber => jobId = data.jobId ∧ rowNumber = n + 2
  | .importing data csv n _, .createClaim claim => ∃ row, csv.rows[n]? = some row ∧
    (validateRow row csv.headers (n + 2)).valid = true ∧ claim = claimOf data n (validateRow row csv.headers (n + 2))
  | .moved data _ _ view, .updateJobProgress jobId view' => jobId = data.jobId ∧ view' = view
  | .written .., .updateProgress _ => True
  | .failing data view, .completeJob jobId view' _ statusOverride =>
    jobId = data.jobId ∧ view' = view ∧ statusOverride = some .failed
  | _, _ => False

def Stage.ofRow (data : ImportJobData) (csv : Csv) (n : ℕ) (view : View) : Option (List Text) → Stage
  | none => .ended
  | some row =>
    if (validateRow row csv.headers (n + 2)).valid then .importing data csv n view
    else .moved data csv (n + 1) (view.reject (validateRow row csv.headers (n + 2)).errors)

def Stage.ofContent (data : ImportJobData) (job : ImportJob) : Except Message Csv → Stage
  | .error _ => .failing data job.view
  | .ok csv => .ready data csv job.checkpointRow job.view

def Stage.next : Stage → (q : Query) → q.Reply → Stage
  | .fresh, .pickUp _, some data => .picked data
  | .picked data, .setJobProcessing _, .ok true => .started data
  | .started data, .getResumeState _, .ok (job : ImportJob) =>
    if job.status = .cancelled then .ended else .resumed data job
  | .resumed data job, .readFile _, .ok (content : Text) => Stage.ofContent data job (parseCsv content)
  | .resumed data job, .readFile _, .error _ => .failing data job.view
  | .ready data csv n view, .isCancellationRequested _, .ok false => .checked data csv n view
  | .ready data _ _ view, .isCancellationRequested _, .error _ => .failing data view
  | .ready data _ _ _, .completeJob .., .ok _ => .finished data.jobId
  | .ready data _ _ view, .completeJob .., .error _ => .failing data view
  | .checked data csv n view, .hasImportedRow .., .ok true => .moved data csv (n + 1) (view.skip n)
  | .checked data csv n view, .hasImportedRow .., .ok false => Stage.ofRow data csv n view csv.rows[n]?
  | .checked data _ _ view, .hasImportedRow .., .error _ => .failing data view
  | .importing data csv n view, .createClaim _, (reply : Except ClaimFailure Unit) =>
    .moved data csv (n + 1) (view.afterCreate n reply)
  | .moved data csv n view, .updateJobProgress .., .ok _ => .written data csv n view
  | .moved data _ _ view, .updateJobProgress .., .error _ => .failing data view
  | .written data csv n view, .updateProgress _, .ok _ => .ready data csv n view
  | .written data _ _ view, .updateProgress _, .error _ => .failing data view
  | _, _, _ => .ended

def protocol : Protocol Query Query.Reply Stage where
  allowed := Stage.allowed
  next := Stage.next

def Ends (σ : Stage) (result : Except Failure Outcome) : Prop :=
  (∀ q, ¬ σ.allowed q) ∧ ∀ jobId, σ = .finished jobId ↔ result = .ok (.finished jobId)

abbrev Proceeds (σ : Stage) (t : Handler) : Prop := t.Follows protocol Ends σ

theorem ends_over {result : Except Failure Outcome} (h : ∀ jobId, result ≠ .ok (.finished jobId)) :
    Ends .ended result :=
  ⟨fun _ => id, fun jobId => ⟨nofun, fun hresult => absurd hresult (h jobId)⟩⟩

variable {n : ℕ}

theorem failJob_follows (data : ImportJobData) (view : View) (error : Failure) :
    Proceeds (.failing data view) (failJob data view error) := by
  refine ⟨⟨rfl, rfl, rfl⟩, fun reply => ?_⟩
  cases reply with
  | error e | ok _ => exact ends_over fun _ => nofun

theorem checkpoint_follows {next : Handler} (h : Proceeds (.ready data csv n view) next) :
    Proceeds (.moved data csv n view) (checkpoint data view next) := by
  refine ⟨⟨rfl, rfl⟩, fun stored => ?_⟩
  cases stored with
  | error e => exact failJob_follows data view e
  | ok _ =>
    refine ⟨trivial, fun reported => ?_⟩
    cases reported with
    | error e => exact failJob_follows data view e
    | ok _ => exact h

theorem finish_follows (h : csv.rows.length ≤ n) : Proceeds (.ready data csv n view) (finish data view) := by
  refine ⟨⟨rfl, rfl, rfl, h⟩, fun reply => ?_⟩
  cases reply with
  | error e => exact failJob_follows data view e
  | ok _ =>
    refine ⟨fun _ => id, fun jobId => ⟨fun hid => ?_, fun hid => ?_⟩⟩
    · cases hid
      rfl
    · cases hid
      rfl

theorem importRows_follows (data : ImportJobData) (csv : Csv) : ∀ (rows : List (List Text)) (n : ℕ) (view : View),
    csv.rows.drop n = rows → Proceeds (.ready data csv n view) (importRows data csv.headers rows n view)
  | [], n, view, hrows => finish_follows (drop_eq_nil_iff.mp hrows)
  | row :: rows, n, view, hrows => by
    have hlt : n < csv.rows.length := by
      by_contra hge
      rw [drop_eq_nil_of_le (not_lt.mp hge)] at hrows
      cases hrows
    have hrow : csv.rows[n]? = some row := by
      rw [← Nat.add_zero n, ← getElem?_drop, hrows]
      rfl
    have hnext : ∀ view', Proceeds (.ready data csv (n + 1) view')
        (importRows data csv.headers rows (n + 1) view') := by
      intro view'
      apply importRows_follows
      rw [← drop_drop, hrows]
      rfl
    refine ⟨⟨rfl, hlt⟩, fun cancelled => ?_⟩
    rcases cancelled with e | cancelled
    · exact failJob_follows data view e
    cases cancelled with
    | true => exact ends_over fun _ => nofun
    | false =>
      refine ⟨⟨rfl, rfl⟩, fun imported => ?_⟩
      rcases imported with e | imported
      · exact failJob_follows data view e
      cases imported with
      | true => exact checkpoint_follows (hnext _)
      | false =>
        change Proceeds (Stage.ofRow data csv n view csv.rows[n]?)
          (if (validateRow row csv.headers (n + 2)).valid then _ else _)
        rw [hrow, Stage.ofRow]
        by_cases hvalid : (validateRow row csv.headers (n + 2)).valid = true
        · rw [if_pos hvalid, if_pos hvalid]
          exact ⟨⟨row, hrow, hvalid, rfl⟩, fun created => checkpoint_follows (hnext _)⟩
        · rw [if_neg hvalid, if_neg hvalid]
          exact checkpoint_follows (hnext _)

theorem process_follows (data : ImportJobData) : Proceeds (.picked data) (process data) := by
  refine ⟨rfl, fun started => ?_⟩
  rcases started with e | started
  · exact ends_over fun _ => nofun
  cases started with
  | false => exact ends_over fun _ => nofun
  | true =>
    refine ⟨rfl, fun state => ?_⟩
    rcases state with e | job
    · exact ends_over fun _ => nofun
    change Proceeds (if job.status = .cancelled then .ended else .resumed data job)
      (if job.status = .cancelled then _ else _)
    by_cases hcancelled : job.status = .cancelled
    · rw [if_pos hcancelled, if_pos hcancelled]
      exact ends_over fun _ => nofun
    · rw [if_neg hcancelled, if_neg hcancelled]
      refine ⟨rfl, fun read => ?_⟩
      rcases read with e | content
      · exact failJob_follows data job.view e
      change Proceeds (Stage.ofContent data job (parseCsv content)) (match parseCsv content with
        | .error message => _
        | .ok csv => _)
      cases parseCsv content with
      | error message => exact failJob_follows data job.view _
      | ok csv => exact importRows_follows data csv _ _ _ rfl

theorem orFail_follows {α : Type} (reply : Except Failure α) :
    Proceeds .ended (orFail (fun _ => .done (.ok .none)) reply) := by
  cases reply with
  | error e | ok a => exact ends_over fun _ => nofun

theorem body_follows (op : ImportOp) : Proceeds .fresh op.body := by
  cases op with
  | elapse d | foresee fate => exact ⟨trivial, fun _ => ends_over fun _ => nofun⟩
  | upload campaignId fileName content | onModuleInit | cancelJob jobId => exact ⟨trivial, orFail_follows⟩
  | work jobId =>
    refine ⟨trivial, fun picked => ?_⟩
    cases picked with
    | none => exact ends_over fun _ => nofun
    | some data => exact process_follows data

end Stages
variable {s' : Store} {q : Query} {jobId : ℕ}
section Effects
variable {s : Store}

structure Touches (f : ImportJob → ImportJob) : Prop where
  campaignId : ∀ job, (f job).campaignId = job.campaignId
  filePath : ∀ job, (f job).filePath = job.filePath
  view : ∀ job, (f job).view = job.view
  checkpointRow : ∀ job, (f job).checkpointRow = job.checkpointRow

structure Writes (v : View) (f : ImportJob → ImportJob) : Prop where
  campaignId : ∀ job, (f job).campaignId = job.campaignId
  filePath : ∀ job, (f job).filePath = job.filePath
  view : ∀ job, (f job).view = v
  checkpointRow : ∀ job, (f job).checkpointRow = v.processedRows

def Query.writes : Query → Option (ℕ × View)
  | .updateJobProgress jobId view | .completeJob jobId view _ _ => some (jobId, view)
  | _ => none

inductive Effect (s : Store) : Query → Store → Prop
  | none {q : Query} {s' : Store} : s'.files = s.files → s'.jobs = s.jobs → s'.queue = s.queue →
      s'.claims = s.claims → Effect s q s'
  | saved {campaignId : ℕ} {fileName : String} {content : Text} :
      Effect s (.upload campaignId fileName content) { s with files := s.files ++ [content] }
  | created {campaignId : ℕ} {fileName : String} {content : Text} {csv : Csv} {job : ImportJob} {queue : List ImportJobData} :
      parseCsv content = .ok csv → job.filePath = some s.files.length → job.view = {} → job.checkpointRow = 0 →
      job.status = .pending →
      (∀ data ∈ queue, data ∈ s.queue ∨ data.jobId = s.jobs.length ∧ data.campaignId = job.campaignId) →
      Effect s (.upload campaignId fileName content)
        { s with files := s.files ++ [content], jobs := s.jobs ++ [job], queue := queue }
  | queued {queue : List ImportJobData} : (∀ data ∈ queue, data ∈ s.queue ∨ s.Matches data) →
      Effect s .resumeInterruptedJobs { s with queue := queue }
  | touched {q : Query} {jobId : ℕ} {f : ImportJob → ImportJob} {queue : List ImportJobData} :
      s.status jobId ≠ some .cancelled → (∀ data ∈ queue, data ∈ s.queue) → Touches f →
      Effect s q { s with jobs := s.jobs.modify jobId f, queue := queue }
  | wrote {q : Query} {jobId : ℕ} {view : View} {f : ImportJob → ImportJob} :
      q.writes = some (jobId, view) → s.fate.db.isOk = true → Writes view f →
      ((∀ job, (f job).status = job.status) ∨ ∃ reportUrl statusOverride,
        q = .completeJob jobId view reportUrl statusOverride ∧
          ∀ job, (f job).status = statusOverride.getD (if 0 < view.errorRows then .failed else .completed)) →
      Effect s q { s with jobs := s.jobs.modify jobId f }
  | claimed {claim : Claim} : s.claimsOf claim.importJobId claim.importRowNumber = 0 →
      Effect s (.createClaim claim) { s with claims := s.claims ++ [claim] }

variable {α : Type} {queue : List ImportJobData}

theorem Effect.refl (s : Store) (q : Query) : Effect s q s := .none rfl rfl rfl rfl

theorem orDown_effect {up : Except Message Unit} {answer : Except Failure α × Store}
    (h : up.isOk = true → Effect s q answer.2) : Effect s q (orDown up answer s).2 := by
  cases up with
  | error message => exact Effect.refl s q
  | ok _ => exact h rfl

theorem orDown_snd (up : Except Message Unit) (answer : Except Failure α) (s : Store) : (orDown up (answer, s) s).2 = s := by
  cases up <;> rfl

theorem parse_stringify (errors : List ImportError) : parseErrors (stringifyErrors errors) = errors := by
  rw [stringifyErrors]
  split
  · rfl
  · rename_i hempty
    exact (length_eq_zero_iff.mp (Nat.eq_zero_of_not_pos hempty)).symm

theorem writes_write (view : View) : Writes view (ImportJob.write view) where
  campaignId _ := rfl
  filePath _ := rfl
  view job := by
    change View.mk view.processedRows view.errorRows (parseErrors (stringifyErrors view.errors)) = view
    rw [parse_stringify]
  checkpointRow _ := rfl

theorem mem_addJob {data' : ImportJobData} (h : data' ∈ addJob data queue) : data' ∈ queue ∨ data' = data := by
  rw [addJob] at h
  split at h
  · exact .inl h
  · rcases mem_append.mp h with h | h
    · exact .inl h
    · exact .inr (mem_singleton.mp h)

theorem mem_requeue (h : data ∈ s.requeue queue jobId) : data ∈ queue ∨ s.Matches data := by
  rw [requeue] at h
  split at h
  · exact .inl h
  · rename_i job hjob
    split at h
    · exact .inl h
    · split at h
      · rcases mem_addJob h with h | rfl
        · exact .inl h
        · exact .inr ⟨job, hjob, rfl⟩
      · exact .inl h

theorem mem_foldl_requeue : ∀ (ids : List ℕ) (queue : List ImportJobData),
    data ∈ ids.foldl s.requeue queue → data ∈ queue ∨ s.Matches data
  | [], _, h => .inl h
  | jobId :: ids, queue, h => by
    rcases mem_foldl_requeue ids (s.requeue queue jobId) h with h | h
    · exact mem_requeue h
    · exact .inr h

theorem removeJob_eq (s : Store) (jobId : ℕ) :
    ∃ queue, s.removeJob jobId = { s with queue := queue } ∧ ∀ data ∈ queue, data ∈ s.queue := by
  rw [removeJob]
  split
  · exact ⟨s.queue, rfl, fun _ h => h⟩
  · exact ⟨_, rfl, fun _ h => mem_of_mem_filter h⟩

theorem upload_effect (campaignId : ℕ) (fileName : String) (content : Text) :
    Effect s (.upload campaignId fileName content) (s.upload campaignId fileName content).2 := by
  rw [upload]
  split
  · exact .saved
  · rename_i csv hcsv
    have hqueue : ∀ data ∈ addJob
          (ImportJob.data { campaignId, fileName, filePath := some s.files.length, totalRows := csv.rows.length }
            s.jobs.length s.files.length) s.queue,
        data ∈ s.queue ∨ data.jobId = s.jobs.length ∧ data.campaignId = campaignId := by
      intro data hdata
      rcases mem_addJob hdata with hdata | rfl
      · exact .inl hdata
      · exact .inr ⟨rfl, rfl⟩
    rw [createJob]
    cases s.fate.db with
    | error message => exact .saved
    | ok _ =>
      simp only [orDown]
      by_cases hcampaign : campaignId ∉ s.campaigns
      · rw [if_pos hcampaign]
        exact .saved
      rw [if_neg hcampaign]
      by_cases hempty : csv.rows.length = 0
      · rw [if_pos hempty]
        exact .saved
      rw [if_neg hempty]
      cases s.fate.queue with
      | error message => exact .created hcsv rfl rfl rfl rfl fun data hdata => .inl hdata
      | ok _ =>
        cases s.fate.audit with
        | error message | ok _ => exact .created hcsv rfl rfl rfl rfl hqueue

theorem status_of_get {job : ImportJob} (h : s.jobs[jobId]? = some job) : s.status jobId = some job.status := by
  rw [status, h]
  rfl

theorem updateOne_effect {view : View} {f : ImportJob → ImportJob} (after : Except Message Unit)
    (hwrites : q.writes = some (jobId, view)) (hf : Writes view f)
    (hstatus : (∀ job, (f job).status = job.status) ∨ ∃ reportUrl statusOverride,
      q = .completeJob jobId view reportUrl statusOverride ∧
        ∀ job, (f job).status = statusOverride.getD (if 0 < view.errorRows then .failed else .completed)) :
    Effect s q (s.updateOne jobId f after).2 := by
  rw [updateOne]
  refine orDown_effect fun hdb => ?_
  split
  · exact Effect.refl s q
  · rw [orDown_snd]
    exact .wrote hwrites hdb hf hstatus

theorem perform_effect (q : Query) (s : Store) : Effect s q (perform q s).2 := by
  cases q with
  | elapse d | foresee fate => exact .none rfl rfl rfl rfl
  | pickUp jobId => exact Effect.refl s _
  | upload campaignId fileName content => exact upload_effect campaignId fileName content
  | resumeInterruptedJobs =>
    exact orDown_effect fun _ => orDown_effect fun _ => .queued fun data hdata => mem_foldl_requeue _ _ hdata
  | cancelJob jobId =>
    refine orDown_effect fun _ => ?_
    split
    · exact Effect.refl s _
    · rename_i job hjob
      split
      · exact Effect.refl s _
      · rename_i hopen
        refine orDown_effect fun _ => ?_
        rw [orDown_snd]
        obtain ⟨queue, hremoved, hqueue⟩ := removeJob_eq s jobId
        rw [hremoved]
        refine .touched ?_ hqueue ⟨fun _ => rfl, fun _ => rfl, fun _ => rfl, fun _ => rfl⟩
        rw [status_of_get hjob]
        intro hcancelled
        rw [some.inj hcancelled] at hopen
        exact hopen rfl
  | setJobProcessing jobId =>
    refine orDown_effect fun _ => ?_
    split
    · exact Effect.refl s _
    · rename_i job hjob
      split
      · exact Effect.refl s _
      · rename_i hopen
        refine .touched ?_ (fun _ h => h : ∀ data ∈ s.queue, data ∈ s.queue) ⟨fun _ => rfl, fun _ => rfl, fun _ => rfl, fun _ => rfl⟩
        rw [status_of_get hjob]
        exact fun hcancelled => hopen (some.inj hcancelled)
  | getResumeState jobId =>
    refine orDown_effect fun _ => ?_
    split <;> exact Effect.refl s _
  | readFile path =>
    refine orDown_effect fun _ => ?_
    split <;> exact Effect.refl s _
  | isCancellationRequested jobId => exact orDown_effect fun _ => Effect.refl s _
  | hasImportedRow jobId rowNumber | updateProgress view => exact orDown_effect fun _ => Effect.refl s _
  | createClaim claim =>
    change Effect s _ (s.createClaim claim).2
    rw [createClaim]
    split
    · exact Effect.refl s _
    · split
      · exact Effect.refl s _
      · rename_i hnone
        refine .claimed (countP_eq_zero.mpr fun c hc hclaim => hnone ?_)
        exact any_eq_true.mpr ⟨c, hc, hclaim⟩
  | updateJobProgress jobId view =>
    exact updateOne_effect (.ok ()) rfl (writes_write view) (.inl fun _ => rfl)
  | completeJob jobId view reportUrl statusOverride =>
    have hwrite := writes_write view
    refine updateOne_effect s.fate.audit rfl ⟨fun _ => rfl, fun _ => rfl, fun job => ?_, fun _ => rfl⟩
      (.inr ⟨reportUrl, statusOverride, rfl, fun _ => rfl⟩)
    exact hwrite.view job

end Effects
section Growth
variable {s : Store}

structure Grows (s s' : Store) : Prop where
  jobs : ∀ (jobId : ℕ) (job : ImportJob), s.jobs[jobId]? = some job →
    ∃ job' : ImportJob, s'.jobs[jobId]? = some job' ∧ job'.campaignId = job.campaignId ∧ job'.filePath = job.filePath
  files : ∀ (path : ℕ) (content : Text), s.files[path]? = some content → s'.files[path]? = some content
  claims : ∀ claim ∈ s.claims, claim ∈ s'.claims

variable {f : ImportJob → ImportJob}

theorem grows_jobs_same (h : s'.jobs = s.jobs) : ∀ (jobId : ℕ) (job : ImportJob), s.jobs[jobId]? = some job →
    ∃ job' : ImportJob, s'.jobs[jobId]? = some job' ∧ job'.campaignId = job.campaignId ∧ job'.filePath = job.filePath := by
  intro jobId job hjob
  rw [h]
  exact ⟨job, hjob, rfl, rfl⟩

theorem modify_get {jobs : List ImportJob} {jobId id : ℕ} {job' : ImportJob} (h : (jobs.modify jobId f)[id]? = some job') :
    ∃ job, jobs[id]? = some job ∧ (id = jobId ∧ job' = f job ∨ id ≠ jobId ∧ job' = job) := by
  rw [getElem?_modify] at h
  obtain ⟨job, hjob, hf⟩ := map_eq_some_iff.mp h
  refine ⟨job, hjob, ?_⟩
  by_cases hid : jobId = id
  · rw [if_pos hid] at hf
    exact .inl ⟨hid.symm, hf.symm⟩
  · rw [if_neg hid] at hf
    exact .inr ⟨fun h => hid h.symm, hf.symm⟩

theorem grows_modify {jobId : ℕ} (hjobs : s'.jobs = s.jobs.modify jobId f)
    (hcampaign : ∀ job, (f job).campaignId = job.campaignId) (hpath : ∀ job, (f job).filePath = job.filePath) :
    ∀ (id : ℕ) (job : ImportJob), s.jobs[id]? = some job →
      ∃ job' : ImportJob, s'.jobs[id]? = some job' ∧ job'.campaignId = job.campaignId ∧ job'.filePath = job.filePath := by
  intro id job hjob
  rw [hjobs, getElem?_modify, hjob]
  by_cases hid : jobId = id
  · exact ⟨f job, by simp [hid], hcampaign job, hpath job⟩
  · exact ⟨job, by simp [hid], rfl, rfl⟩

theorem Effect.grows (h : Effect s q s') : Grows s s' := by
  cases h with
  | none hfiles hjobs hqueue hclaims =>
    exact ⟨grows_jobs_same hjobs, fun path content h => hfiles ▸ h, fun claim h => hclaims ▸ h⟩
  | saved =>
    refine ⟨grows_jobs_same rfl, fun path content hcontent => ?_, fun _ h => h⟩
    exact (List.getElem?_append_left (List.getElem?_eq_some_iff.mp hcontent).1).trans hcontent
  | created =>
    refine ⟨fun jobId job hjob => ⟨job, ?_, rfl, rfl⟩, fun path content hcontent => ?_, fun _ h => h⟩
    · exact (List.getElem?_append_left (List.getElem?_eq_some_iff.mp hjob).1).trans hjob
    · exact (List.getElem?_append_left (List.getElem?_eq_some_iff.mp hcontent).1).trans hcontent
  | queued => exact ⟨grows_jobs_same rfl, fun _ _ h => h, fun _ h => h⟩
  | touched _ _ hf | wrote _ _ hf => exact ⟨grows_modify rfl hf.campaignId hf.filePath, fun _ _ h => h, fun _ h => h⟩
  | claimed => exact ⟨grows_jobs_same rfl, fun _ _ h => h, fun claim h => mem_append_left _ h⟩

theorem csv_eq_some : s.csv jobId = some csv ↔ ∃ job path content, s.jobs[jobId]? = some job ∧
    job.filePath = some path ∧ s.files[path]? = some content ∧ parseCsv content = .ok csv := by
  rw [Store.csv]
  constructor
  · intro h
    obtain ⟨parsed, hparsed, hcsv⟩ := bind_eq_some_iff.mp h
    obtain ⟨content, hcontent, rfl⟩ := map_eq_some_iff.mp hparsed
    obtain ⟨path, hpath, hfile⟩ := bind_eq_some_iff.mp hcontent
    obtain ⟨job, hjob, hfilePath⟩ := bind_eq_some_iff.mp hpath
    refine ⟨job, path, content, hjob, hfilePath, hfile, ?_⟩
    cases hparse : parseCsv content with
    | error message =>
      rw [hparse] at hcsv
      cases hcsv
    | ok csv' =>
      rw [hparse] at hcsv
      exact congrArg Except.ok (some.inj hcsv)
  · intro h
    obtain ⟨job, path, content, hjob, hpath, hcontent, hcsv⟩ := h
    rw [hjob, bind_some, hpath, bind_some, hcontent, map_some, hcsv]
    rfl

theorem Grows.csv_stays (h : Grows s s') (hcsv : s.csv jobId = some csv) : s'.csv jobId = some csv := by
  obtain ⟨job, path, content, hjob, hpath, hcontent, hparse⟩ := csv_eq_some.mp hcsv
  obtain ⟨job', hjob', -, hpath'⟩ := h.jobs jobId job hjob
  exact csv_eq_some.mpr ⟨job', path, content, hjob', hpath'.trans hpath, h.files path content hcontent, hparse⟩

theorem Grows.matches (h : Grows s s') (hdata : s.Matches data) : s'.Matches data := by
  obtain ⟨job, hjob, hcampaign⟩ := hdata
  obtain ⟨job', hjob', hcampaign', -⟩ := h.jobs _ job hjob
  exact ⟨job', hjob', hcampaign.trans hcampaign'.symm⟩

theorem Grows.genuine (h : Grows s s') {claim : Claim} (hclaim : s.Genuine claim) : s'.Genuine claim := by
  obtain ⟨data, csv, n, row, hdata, hcsv, hrow⟩ := hclaim
  exact ⟨data, csv, n, row, h.matches hdata, h.csv_stays hcsv, hrow⟩

def Store.Imported (s : Store) (jobId rowNumber : ℕ) : Prop :=
  ∃ claim ∈ s.claims, isClaimOf jobId rowNumber claim = true

def Store.Tells (s : Store) (jobId : ℕ) (csv : Csv) (view : View) : Prop :=
  s.csv jobId = some csv ∧ Sound (s.Imported jobId) csv view

theorem Grows.tells (h : Grows s s') (htells : s.Tells jobId csv view) : s'.Tells jobId csv view := by
  refine ⟨h.csv_stays htells.1, htells.2.mono fun r himported => ?_⟩
  obtain ⟨claim, hclaim, hof⟩ := himported
  exact ⟨claim, h.claims claim hclaim, hof⟩

def Stage.Knows (s : Store) : Stage → Prop
  | .picked data | .started data => s.Matches data
  | .resumed data job => s.Matches data ∧ ∃ csv path, s.Tells data.jobId csv job.view ∧ job.filePath = some path ∧
    (s.files[path]?).map parseCsv = some (.ok csv) ∧ job.checkpointRow = job.view.processedRows
  | .ready data csv n view | .importing data csv n view | .moved data csv n view | .written data csv n view =>
    s.Matches data ∧ s.Tells data.jobId csv view ∧ n = view.processedRows
  | .checked data csv n view => s.Matches data ∧ s.Tells data.jobId csv view ∧ n = view.processedRows ∧ n < csv.rows.length
  | .failing data view => s.Matches data ∧ ∃ csv, s.Tells data.jobId csv view
  | .fresh | .finished _ | .ended => True

theorem Grows.knows (h : Grows s s') {σ : Stage} (hσ : σ.Knows s) : σ.Knows s' := by
  cases σ with
  | picked data | started data => exact h.matches hσ
  | resumed data job =>
    obtain ⟨hdata, csv, path, htells, hpath, hparse, hcheckpoint⟩ := hσ
    obtain ⟨content, hcontent, hcsv⟩ := map_eq_some_iff.mp hparse
    refine ⟨h.matches hdata, csv, path, h.tells htells, hpath, ?_, hcheckpoint⟩
    rw [h.files path content hcontent, map_some, hcsv]
  | ready data csv n view | importing data csv n view | moved data csv n view | written data csv n view
  | checked data csv n view => exact ⟨h.matches hσ.1, h.tells hσ.2.1, hσ.2.2⟩
  | failing data view =>
    obtain ⟨hdata, csv, htells⟩ := hσ
    exact ⟨h.matches hdata, csv, h.tells htells⟩
  | fresh | finished jobId | ended => trivial

variable {claim : Claim}

theorem orDown_ok {α : Type} {up : Except Message Unit} {answer : Except Failure α × Store} {a : α}
    (h : (orDown up answer s).1 = .ok a) : up.isOk = true ∧ answer.1 = .ok a := by
  cases up with
  | error message => cases h
  | ok _ => exact ⟨rfl, h⟩

theorem getResumeState_ok {job : ImportJob} (h : (s.getResumeState jobId).1 = .ok job) : s.jobs[jobId]? = some job := by
  have hanswer := (orDown_ok h).2
  split at hanswer
  · cases hanswer
  · rename_i job' hjob
    cases hanswer
    exact hjob

theorem readFile_ok {path : ℕ} {content : Text} (h : (s.readFile path).1 = .ok content) : s.files[path]? = some content := by
  have hanswer := (orDown_ok h).2
  split at hanswer
  · cases hanswer
  · rename_i content' hcontent
    cases hanswer
    exact hcontent

theorem hasImportedRow_ok {rowNumber : ℕ} (h : (s.hasImportedRow jobId rowNumber).1 = .ok true) :
    s.Imported jobId rowNumber := by
  have hany : s.claims.any (isClaimOf jobId rowNumber) = true := Except.ok.inj (orDown_ok h).2
  exact any_eq_true.mp hany

theorem createClaim_imported (h : ∀ message, (s.createClaim claim).1 ≠ .error (.refused message)) :
    (s.createClaim claim).2.Imported claim.importJobId claim.importRowNumber := by
  rw [createClaim] at h ⊢
  split
  · rename_i message hrefused
    rw [hrefused] at h
    exact absurd rfl (h message)
  · split
    · rename_i hany
      exact any_eq_true.mp hany
    · refine ⟨claim, mem_append_right _ (mem_singleton_self claim), ?_⟩
      exact decide_eq_true ⟨rfl, rfl⟩

theorem createClaim_ok (h : (s.createClaim claim).1 = .ok ()) : claim ∈ (s.createClaim claim).2.claims := by
  rw [createClaim] at h ⊢
  split at h
  · cases h
  · split at h
    · cases h
    · rename_i hnone
      rw [if_neg hnone]
      exact mem_append_right _ (mem_singleton_self claim)

end Growth
variable {i : ℕ} {σ : Stage} {stages : List Stage}
section Invariant
variable {s : Store}

/-- What holds in every run: no row has two claims, and none a claim that is not its own; the counters tell what was
done, those of a job and those that a worker has. -/
structure Kept (stages : List Stage) (s : Store) : Prop where
  single : ∀ jobId rowNumber, s.claimsOf jobId rowNumber ≤ 1
  genuine : ∀ claim ∈ s.claims, s.Genuine claim
  rows : ∀ jobId job, s.jobs[jobId]? = some job →
    (∃ csv, s.Tells jobId csv job.view) ∧ job.checkpointRow = job.view.processedRows
  queue : ∀ data ∈ s.queue, s.Matches data
  knows : ∀ σ ∈ stages, σ.Knows s

theorem writes_tells (hknows : σ.Knows s) (hallowed : σ.allowed q) {jobId : ℕ} {view : View}
    (hwrites : q.writes = some (jobId, view)) : ∃ csv, s.Tells jobId csv view := by
  cases q with
  | updateJobProgress jobId' view' =>
    cases hwrites
    cases σ with
    | moved data csv n v =>
      obtain ⟨rfl, rfl⟩ := hallowed
      exact ⟨csv, hknows.2.1⟩
    | _ => exact hallowed.elim
  | completeJob jobId' view' reportUrl statusOverride =>
    cases hwrites
    cases σ with
    | ready data csv n v =>
      obtain ⟨rfl, rfl, -⟩ := hallowed
      exact ⟨csv, hknows.2.1⟩
    | failing data v =>
      obtain ⟨rfl, rfl, -⟩ := hallowed
      exact hknows.2
    | _ => exact hallowed.elim
  | _ => cases hwrites

theorem createClaim_genuine (hknows : σ.Knows s) {claim : Claim} (hallowed : σ.allowed (.createClaim claim)) :
    s.Genuine claim := by
  cases σ with
  | importing data csv n view =>
    obtain ⟨row, hrow, hvalid, hclaim⟩ := hallowed
    exact ⟨data, csv, n, row, hknows.1, hknows.2.1.1, hrow, hvalid, hclaim⟩
  | _ => exact hallowed.elim

theorem single_serve (h : Kept stages s) (q : Query) (jobId rowNumber : ℕ) :
    (perform q s).2.claimsOf jobId rowNumber ≤ 1 := by
  have hsingle := h.single jobId rowNumber
  have heffect := perform_effect q s
  generalize (perform q s).2 = s' at heffect
  cases heffect with
  | none hfiles hjobs hqueue hclaims =>
    rw [claimsOf, hclaims]
    exact hsingle
  | @claimed claim hnone =>
    rw [claimsOf, countP_append, countP_singleton]
    rw [claimsOf] at hsingle hnone
    by_cases hof : isClaimOf jobId rowNumber claim = true
    · have hkey : claim.importJobId = jobId ∧ claim.importRowNumber = rowNumber := of_decide_eq_true hof
      rw [hkey.1, hkey.2] at hnone
      rw [hnone, if_pos hof]
    · rw [if_neg hof]
      exact hsingle
  | _ => exact hsingle

theorem genuine_serve (h : Kept stages s) (hi : stages[i]? = some σ) (hallowed : σ.allowed q) :
    ∀ claim ∈ (perform q s).2.claims, (perform q s).2.Genuine claim := by
  have hknows := h.knows σ (mem_of_getElem? hi)
  have heffect := perform_effect q s
  generalize (perform q s).2 = s' at heffect
  have hgrows := heffect.grows
  suffices hclaims : ∀ claim ∈ s'.claims, s.Genuine claim from fun claim hclaim => hgrows.genuine (hclaims claim hclaim)
  intro claim hclaim
  cases heffect with
  | none hfiles hjobs hqueue hclaims =>
    rw [hclaims] at hclaim
    exact h.genuine claim hclaim
  | claimed hnone =>
    rcases mem_append.mp hclaim with hclaim | hclaim
    · exact h.genuine claim hclaim
    · rw [mem_singleton.mp hclaim]
      exact createClaim_genuine hknows hallowed
  | _ => exact h.genuine claim hclaim

theorem rows_serve (h : Kept stages s) (hi : stages[i]? = some σ) (hallowed : σ.allowed q) :
    ∀ jobId job, (perform q s).2.jobs[jobId]? = some job →
      (∃ csv, (perform q s).2.Tells jobId csv job.view) ∧ job.checkpointRow = job.view.processedRows := by
  have hknows := h.knows σ (mem_of_getElem? hi)
  have heffect := perform_effect q s
  generalize (perform q s).2 = s' at heffect
  have hgrows := heffect.grows
  intro jobId job hjob
  have hsame : s.jobs[jobId]? = some job →
      (∃ csv, s'.Tells jobId csv job.view) ∧ job.checkpointRow = job.view.processedRows := by
    intro hold
    obtain ⟨⟨csv, htells⟩, hcheckpoint⟩ := h.rows jobId job hold
    exact ⟨⟨csv, hgrows.tells htells⟩, hcheckpoint⟩
  cases heffect with
  | none hfiles hjobs hqueue hclaims =>
    rw [hjobs] at hjob
    exact hsame hjob
  | @created campaignId fileName content csv new queue hcsv hpath hview hcheckpoint hstatus hqueue =>
    rcases getElem?_snoc hjob with hold | ⟨hlast, hnew⟩
    · exact hsame hold
    · rw [hnew, hview, hcheckpoint]
      refine ⟨⟨csv, csv_eq_some.mpr ⟨new, s.files.length, content, ?_, hpath, ?_, hcsv⟩, sound_start⟩, rfl⟩
      · rw [hlast]
        exact getElem?_concat_length
      · exact getElem?_concat_length
  | touched hopen hqueue hf =>
    obtain ⟨old, hold, ⟨-, hnew⟩ | ⟨-, hnew⟩⟩ := modify_get hjob
    · obtain ⟨⟨csv, htells⟩, hcheckpoint⟩ := h.rows jobId old hold
      rw [hnew, hf.view, hf.checkpointRow]
      exact ⟨⟨csv, hgrows.tells htells⟩, hcheckpoint⟩
    · rw [hnew] at hsame ⊢
      exact hsame hold
  | @wrote _ id view f hwrites hdb hf =>
    obtain ⟨old, hold, ⟨hid, hnew⟩ | ⟨-, hnew⟩⟩ := modify_get hjob
    · obtain ⟨csv, htells⟩ := writes_tells hknows hallowed hwrites
      rw [hnew, hf.view, hf.checkpointRow, hid]
      exact ⟨⟨csv, hgrows.tells htells⟩, rfl⟩
    · rw [hnew] at hsame ⊢
      exact hsame hold
  | _ => exact hsame hjob

theorem queue_serve (h : Kept stages s) (q : Query) : ∀ data ∈ (perform q s).2.queue, (perform q s).2.Matches data := by
  have heffect := perform_effect q s
  generalize (perform q s).2 = s' at heffect
  have hgrows := heffect.grows
  intro data hdata
  have hsame : data ∈ s.queue → s'.Matches data := fun hold => hgrows.matches (h.queue data hold)
  cases heffect with
  | none hfiles hjobs hqueue hclaims =>
    rw [hqueue] at hdata
    exact hsame hdata
  | @created campaignId fileName content csv job queue hcsv hpath hview hcheckpoint hstatus hqueue =>
    rcases hqueue data hdata with hold | ⟨hlast, hcampaign⟩
    · exact hsame hold
    · refine ⟨job, ?_, hcampaign⟩
      rw [hlast]
      exact getElem?_concat_length
  | queued hqueue =>
    rcases hqueue data hdata with hold | hmatches
    · exact hsame hold
    · exact hgrows.matches hmatches
  | touched hopen hqueue hf => exact hsame (hqueue data hdata)
  | _ => exact hsame hdata

theorem next_knows (h : Kept stages s) (hi : stages[i]? = some σ) (hallowed : σ.allowed q) :
    (Stage.next σ q (perform q s).1).Knows (perform q s).2 := by
  have hgrows := (perform_effect q s).grows
  have hknows := h.knows σ (mem_of_getElem? hi)
  have hthen := hgrows.knows hknows
  cases σ with
  | fresh =>
    cases q with
    | pickUp jobId =>
      change (Stage.next .fresh (.pickUp jobId) (s.queue.find? (·.jobId = jobId))).Knows s
      cases hfound : s.queue.find? (·.jobId = jobId) with
      | none => trivial
      | some data => exact h.queue data (mem_of_find?_eq_some hfound)
    | _ => trivial
  | picked data =>
    cases q with
    | setJobProcessing jobId =>
      rcases hreply : (perform (.setJobProcessing jobId) s).1 with e | started
      · trivial
      cases started with
      | false => trivial
      | true => exact hthen
    | _ => exact hallowed.elim
  | started data =>
    cases q with
    | getResumeState jobId =>
      rcases hreply : (perform (.getResumeState jobId) s).1 with e | job
      · trivial
      have hid : jobId = data.jobId := hallowed
      have hjob := getResumeState_ok hreply
      change (if job.status = .cancelled then Stage.ended else .resumed data job).Knows _
      split
      · trivial
      · obtain ⟨⟨csv, htells⟩, hcheckpoint⟩ := h.rows jobId job hjob
        obtain ⟨job', path, content, hjob', hpath, hcontent, hparse⟩ := csv_eq_some.mp htells.1
        rw [hjob] at hjob'
        rw [hid] at htells
        refine hgrows.knows (σ := .resumed data job) ⟨hknows, csv, path, htells, ?_, ?_, hcheckpoint⟩
        · rw [some.inj hjob']
          exact hpath
        · rw [hcontent, map_some, hparse]
    | _ => exact hallowed.elim
  | resumed data job =>
    cases q with
    | readFile path =>
      obtain ⟨hmatches, csv, path', htells, hpath, hparse, hcheckpoint⟩ := hthen
      rcases hreply : (perform (.readFile path) s).1 with e | content
      · exact ⟨hmatches, csv, htells⟩
      have hcontent := hgrows.files path content (readFile_ok hreply)
      have hsame : path = path' := by
        have hread : path = job.filePath.getD data.filePath := hallowed
        rw [hread, hpath]
        rfl
      rw [← hsame, hcontent, map_some] at hparse
      change (Stage.ofContent data job (parseCsv content)).Knows _
      rw [some.inj hparse]
      exact ⟨hmatches, htells, hcheckpoint⟩
    | _ => exact hallowed.elim
  | ready data csv n view =>
    cases q with
    | isCancellationRequested jobId =>
      rcases hreply : (perform (.isCancellationRequested jobId) s).1 with e | cancelled
      · exact ⟨hthen.1, csv, hthen.2.1⟩
      cases cancelled with
      | true => trivial
      | false => exact ⟨hthen.1, hthen.2.1, hthen.2.2, hallowed.2⟩
    | completeJob jobId view' reportUrl statusOverride =>
      rcases hreply : (perform (.completeJob jobId view' reportUrl statusOverride) s).1 with e | _
      · exact ⟨hthen.1, csv, hthen.2.1⟩
      · trivial
    | _ => exact hallowed.elim
  | checked data csv n view =>
    cases q with
    | hasImportedRow jobId rowNumber =>
      obtain ⟨hmatches, ⟨hcsv, hsound⟩, hn, hlt⟩ := hthen
      rcases hreply : (perform (.hasImportedRow jobId rowNumber) s).1 with e | imported
      · exact ⟨hmatches, csv, hcsv, hsound⟩
      cases imported with
      | true =>
        have himported : s.Imported jobId rowNumber := hasImportedRow_ok hreply
        rw [hallowed.1, hallowed.2, hn] at himported
        obtain ⟨claim, hclaim, hof⟩ := himported
        have haccept := hsound.accept (hn ▸ hlt) ⟨claim, hgrows.claims claim hclaim, hof⟩
        change Stage.Knows _ (.moved data csv (n + 1) (view.skip n))
        rw [hn, View.skip_eq_accept]
        exact ⟨hmatches, ⟨hcsv, haccept⟩, rfl⟩
      | false =>
        change (Stage.ofRow data csv n view csv.rows[n]?).Knows _
        obtain ⟨row, hrow⟩ : ∃ row, csv.rows[n]? = some row := ⟨_, getElem?_eq_getElem hlt⟩
        rw [hrow, Stage.ofRow]
        subst hn
        split
        · exact ⟨hmatches, ⟨hcsv, hsound⟩, rfl⟩
        · rename_i hinvalid
          have hexplains := Explains.invalid hrow (Bool.eq_false_iff.mpr hinvalid)
          exact ⟨hmatches, ⟨hcsv, hsound.reject hexplains⟩, rfl⟩
    | _ => exact hallowed.elim
  | importing data csv n view =>
    cases q with
    | createClaim claim =>
      obtain ⟨hmatches, ⟨hcsv, hsound⟩, hn⟩ := hthen
      obtain ⟨row, hrow, hvalid, hclaim⟩ := hallowed
      have hlt : n < csv.rows.length := (List.getElem?_eq_some_iff.mp hrow).1
      subst hn
      have hid : claim.importJobId = data.jobId := congrArg Claim.importJobId hclaim
      have hnumber : claim.importRowNumber = view.processedRows + 2 := congrArg Claim.importRowNumber hclaim
      change Stage.Knows _ (.moved data csv (view.processedRows + 1)
        (view.afterCreate view.processedRows (s.createClaim claim).1))
      have himported : (∀ message, (s.createClaim claim).1 ≠ .error (.refused message)) →
          Sound ((perform (.createClaim claim) s).2.Imported data.jobId) csv view.accept := by
        intro haccepted
        have hthere := createClaim_imported haccepted
        rw [hid, hnumber] at hthere
        exact hsound.accept hlt hthere
      rcases hreply : (s.createClaim claim).1 with (_ | message) | _
      · exact ⟨hmatches, ⟨hcsv, himported fun message => by rw [hreply]; nofun⟩, rfl⟩
      · exact ⟨hmatches, ⟨hcsv, hsound.reject (.refused message hrow hvalid)⟩, rfl⟩
      · exact ⟨hmatches, ⟨hcsv, himported fun message => by rw [hreply]; nofun⟩, rfl⟩
    | _ => exact hallowed.elim
  | moved data csv n view =>
    cases q with
    | updateJobProgress jobId view' =>
      rcases hreply : (perform (.updateJobProgress jobId view') s).1 with e | _
      · exact ⟨hthen.1, csv, hthen.2.1⟩
      · exact hthen
    | _ => exact hallowed.elim
  | written data csv n view =>
    cases q with
    | updateProgress view' =>
      rcases hreply : (perform (.updateProgress view') s).1 with e | _
      · exact ⟨hthen.1, csv, hthen.2.1⟩
      · exact hthen
    | _ => exact hallowed.elim
  | failing data view =>
    cases q with
    | completeJob jobId view' reportUrl statusOverride => trivial
    | _ => exact hallowed.elim
  | finished jobId | ended => exact hallowed.elim

theorem kept_serve (h : Kept stages s) (hi : stages[i]? = some σ) (hallowed : σ.allowed q) :
    Kept (stages.set i (Stage.next σ q (perform q s).1)) (perform q s).2 where
  single := single_serve h q
  genuine := genuine_serve h hi hallowed
  rows := rows_serve h hi hallowed
  queue := queue_serve h q
  knows := forall_mem_set (next_knows h hi hallowed) fun _ τ _ hτ =>
    (perform_effect q s).grows.knows (h.knows τ (mem_of_getElem? hτ))

theorem kept_start (h : Kept stages s) : Kept (stages ++ [.fresh]) s where
  single := h.single
  genuine := h.genuine
  rows := h.rows
  queue := h.queue
  knows σ hσ := by
    rcases mem_append.mp hσ with hσ | hσ
    · exact h.knows σ hσ
    · rw [mem_singleton.mp hσ]
      trivial

end Invariant
section Finish
variable {s : Store}

def Settled (stages : List Stage) (s : Store) : Prop :=
  ∀ jobId, .finished jobId ∈ stages → ∃ job csv, s.jobs[jobId]? = some job ∧ s.csv jobId = some csv ∧
    job.processedRows = csv.rows.length

/-- `IsOrderly`, of the stages that the handlers are at. -/
structure OrderlyAt (stages : List Stage) (s : Store) (q : Query) : Prop where
  open_ : ∀ jobId view reportUrl statusOverride, q = .completeJob jobId view reportUrl statusOverride →
    s.fate.db.isOk = true → s.status jobId ≠ some .cancelled
  ahead : ∀ jobId view, q.writes = some (jobId, view) → s.fate.db.isOk = true → .finished jobId ∈ stages →
    s.processedRows jobId ≤ view.processedRows

theorem status_stays (horderly : OrderlyAt stages s q) (hcancelled : s.status jobId = some .cancelled) :
    (perform q s).2.status jobId = some .cancelled := by
  have heffect := perform_effect q s
  generalize (perform q s).2 = s' at heffect
  obtain ⟨job, hjob, hstatus⟩ := map_eq_some_iff.mp hcancelled
  have hmodify : ∀ (id : ℕ) (f : ImportJob → ImportJob), (id = jobId → (f job).status = job.status) →
      ((s.jobs.modify id f)[jobId]?.map (·.status)) = some .cancelled := by
    intro id f hf
    rw [List.getElem?_modify, hjob, Option.map_eq_map, Option.map_some, Option.map_some]
    by_cases hid : id = jobId
    · rw [if_pos hid, hf hid, hstatus]
    · rw [if_neg hid]
      exact congrArg some hstatus
  cases heffect with
  | none hfiles hjobs hqueue hclaims =>
    rw [status, hjobs]
    exact hcancelled
  | created =>
    rw [status, List.getElem?_append_left (List.getElem?_eq_some_iff.mp hjob).1]
    exact hcancelled
  | @touched _ id f queue hopen =>
    refine hmodify id f fun hid => ?_
    rw [hid] at hopen
    exact absurd hcancelled hopen
  | @wrote _ id view f hwrites hdb hf hset =>
    refine hmodify id f fun hid => ?_
    rcases hset with hsame | ⟨reportUrl, statusOverride, hquery, -⟩
    · exact hsame job
    · rw [hid] at hquery
      exact absurd hcancelled (horderly.open_ _ _ _ _ hquery hdb)
  | _ => exact hcancelled

theorem updateOne_ok {f : ImportJob → ImportJob} {after : Except Message Unit} (h : (s.updateOne jobId f after).1 = .ok ()) :
    ∃ job, s.jobs[jobId]? = some job ∧ (s.updateOne jobId f after).2 = s.update jobId f := by
  rw [updateOne] at h ⊢
  obtain ⟨hdb, hanswer⟩ := orDown_ok h
  cases hup : s.fate.db with
  | error message =>
    rw [hup] at hdb
    cases hdb
  | ok _ =>
    cases hjob : s.jobs[jobId]? with
    | none =>
      simp only [hjob] at hanswer
      cases hanswer
    | some job => exact ⟨job, rfl, orDown_snd after (.ok ()) _⟩

theorem view_processedRows (job : ImportJob) : job.view.processedRows = job.processedRows := rfl

theorem next_finished {reply : q.Reply} (h : Stage.next σ q reply = .finished jobId) :
    ∃ data csv n view id view' reportUrl statusOverride, σ = .ready data csv n view ∧
      q = .completeJob id view' reportUrl statusOverride ∧ data.jobId = jobId := by
  unfold Stage.next at h
  split at h
  all_goals try cases h
  · split at h <;> cases h
  · rename_i data job path content
    cases hparse : parseCsv content with
    | error message =>
      rw [hparse] at h
      cases h
    | ok csv =>
      rw [hparse] at h
      cases h
  · exact ⟨_, _, _, _, _, _, _, _, rfl, rfl, rfl⟩
  · rename_i data csv n view id rowNumber
    unfold Stage.ofRow at h
    split at h
    · cases h
    · split at h <;> cases h

theorem settled_next (h : Kept stages s) (hi : stages[i]? = some σ) (hallowed : σ.allowed q)
    (hnext : Stage.next σ q (perform q s).1 = .finished jobId) :
    ∃ job csv, (perform q s).2.jobs[jobId]? = some job ∧ (perform q s).2.csv jobId = some csv ∧
      job.processedRows = csv.rows.length := by
  have hgrows := (perform_effect q s).grows
  obtain ⟨data, csv, n, view, id, view', reportUrl, statusOverride, rfl, rfl, rfl⟩ := next_finished hnext
  obtain ⟨rfl, rfl, rfl, hend⟩ := hallowed
  obtain ⟨-, htells, hn⟩ := h.knows _ (mem_of_getElem? hi)
  rcases hreply : (perform (.completeJob data.jobId view' reportUrl none) s).1 with e | _
  · rw [hreply] at hnext
    have hfailing : Stage.failing data view' = .finished data.jobId := hnext
    cases hfailing
  · obtain ⟨job, hjob, hstore⟩ := updateOne_ok hreply
    refine ⟨{ job.write view' with
      status := (none : Option ImportJobStatus).getD (if 0 < view'.errorRows then .failed else .completed)
      reportUrl := reportUrl
      completedAt := some s.now }, csv, ?_, hgrows.csv_stays htells.1, ?_⟩
    · change (s.updateOne data.jobId _ s.fate.audit).2.jobs[data.jobId]? = _
      rw [hstore, update, getElem?_modify_eq, hjob]
      rfl
    · exact le_antisymm htells.2.bound (le_of_le_of_eq hend hn)

theorem settled_serve (h : Kept stages s) (horderly : OrderlyAt stages s q) (hi : stages[i]? = some σ)
    (hallowed : σ.allowed q) (hsettled : Settled stages s) :
    Settled (stages.set i (Stage.next σ q (perform q s).1)) (perform q s).2 := by
  suffices hall : ∀ τ ∈ stages.set i (Stage.next σ q (perform q s).1), ∀ jobId, τ = .finished jobId →
      ∃ job csv, (perform q s).2.jobs[jobId]? = some job ∧ (perform q s).2.csv jobId = some csv ∧
        job.processedRows = csv.rows.length from
    fun jobId hjobId => hall _ hjobId jobId rfl
  refine forall_mem_set (fun jobId hnext => settled_next h hi hallowed hnext) fun j τ _ hτ jobId hfinished => ?_
  have hknows := h.knows σ (mem_of_getElem? hi)
  have heffect := perform_effect q s
  generalize (perform q s).2 = s' at heffect
  have hgrows := heffect.grows
  have hmem : .finished jobId ∈ stages := hfinished ▸ mem_of_getElem? hτ
  obtain ⟨job, csv, hjob, hcsv, hlength⟩ := hsettled jobId hmem
  have hthen : ∀ (id : ℕ) (f : ImportJob → ImportJob), (id = jobId → (f job).processedRows = csv.rows.length) →
      ∃ job, (s.jobs.modify id f)[jobId]? = some job ∧ job.processedRows = csv.rows.length := by
    intro id f hf
    rw [List.getElem?_modify, hjob, Option.map_eq_map, Option.map_some]
    by_cases hid : id = jobId
    · rw [if_pos hid]
      exact ⟨_, rfl, hf hid⟩
    · rw [if_neg hid]
      exact ⟨_, rfl, hlength⟩
  suffices hrow : ∃ job, s'.jobs[jobId]? = some job ∧ job.processedRows = csv.rows.length by
    obtain ⟨job', hjob', hlength'⟩ := hrow
    exact ⟨job', csv, hjob', hgrows.csv_stays hcsv, hlength'⟩
  cases heffect with
  | none hfiles hjobs hqueue hclaims =>
    rw [hjobs]
    exact ⟨job, hjob, hlength⟩
  | created =>
    refine ⟨job, ?_, hlength⟩
    rw [List.getElem?_append_left (List.getElem?_eq_some_iff.mp hjob).1]
    exact hjob
  | @touched _ id f queue hopen hqueue hf =>
    refine hthen id f fun _ => ?_
    rw [← view_processedRows, hf.view]
    exact hlength
  | @wrote _ id view f hwrites hdb hf =>
    refine hthen id f fun hid => ?_
    rw [← view_processedRows, hf.view]
    -- the view is not behind, and no view is past the last row
    obtain ⟨csv', htells⟩ := writes_tells hknows hallowed hwrites
    rw [hid] at htells
    have hsame : csv' = csv := some.inj (htells.1.symm.trans hcsv)
    have hahead := horderly.ahead id view hwrites hdb (hid ▸ hmem)
    rw [processedRows, hid, hjob] at hahead
    exact le_antisymm (hsame ▸ htells.2.bound) (le_of_eq_of_le hlength.symm hahead)
  | _ => exact ⟨job, hjob, hlength⟩

theorem writes_store {view : View} {job : ImportJob} (hwrites : q.writes = some (jobId, view))
    (hdb : s.fate.db.isOk = true) (hjob : s.jobs[jobId]? = some job) :
    ∃ job', (perform q s).2.jobs[jobId]? = some job' ∧ job'.processedRows = view.processedRows ∧
      ∀ reportUrl statusOverride, q = .completeJob jobId view reportUrl statusOverride →
        job'.status = statusOverride.getD (if 0 < view.errorRows then .failed else .completed) := by
  have hupdate : ∀ (f : ImportJob → ImportJob) (after : Except Message Unit),
      (s.updateOne jobId f after).2.jobs[jobId]? = some (f job) := by
    intro f after
    cases hup : s.fate.db with
    | error message =>
      rw [hup] at hdb
      cases hdb
    | ok _ =>
      rw [updateOne]
      simp only [hup, orDown, hjob]
      change (orDown after (.ok (), s.update jobId f) (s.update jobId f)).2.jobs[jobId]? = _
      rw [orDown_snd, update, getElem?_modify_eq, hjob]
      rfl
  cases q with
  | updateJobProgress id view' =>
    cases hwrites
    exact ⟨_, hupdate _ _, rfl, fun _ _ => nofun⟩
  | completeJob id view' reportUrl statusOverride =>
    cases hwrites
    refine ⟨_, hupdate _ _, rfl, fun reportUrl' statusOverride' hq => ?_⟩
    cases hq
    rfl
  | _ => cases hwrites

end Finish
section Runs
variable {now : ℤ} {campaigns : List ℕ} {p : ImportPool} {tr : List ImportTransition}

def Started (p : ImportPool) : Prop := ∃ stages, p.At protocol Ends stages ∧ Kept stages p.store

def InOrder (p : ImportPool) : Prop := ∃ stages, p.At protocol Ends stages ∧ Kept stages p.store ∧ Settled stages p.store

variable {t : ImportTransition}

theorem kept_idle : Kept [] ({ now := now, campaigns := campaigns } : Store) where
  single _ _ := Nat.zero_le _
  genuine _ h := absurd h not_mem_nil
  rows _ _ h := by cases h
  queue _ h := absurd h not_mem_nil
  knows _ h := absurd h not_mem_nil

theorem started_of_run (hrun : Run ImportStep { store := { now := now, campaigns := campaigns } } tr p) (ht : t ∈ tr) : Started t.pre ∧ Started t.post := by
  refine hrun.invariant_at (I := Started) (C := fun _ => True) ⟨[], List.Forall₂.nil, kept_idle⟩ (fun _ _ => trivial)
    (fun t hstep _ hpre => ?_) ht
  obtain ⟨stages, hat, hkept⟩ := hpre
  rcases hat.step body_follows hstep with ⟨-, hstore, hat'⟩ | ⟨i, σ, q, -, hq, hσ, hallowed, hstore, hat'⟩
  · refine ⟨_, hat', ?_⟩
    rw [hstore]
    exact kept_start hkept
  · refine ⟨_, hat', ?_⟩
    rw [hstore]
    exact kept_serve hkept hσ hallowed

theorem orderlyAt {stages : List Stage} (h : p.At protocol Ends stages) (hq : q.IsOrderly p) :
    OrderlyAt stages p.store q where
  open_ jobId view reportUrl statusOverride heq hdb := by
    subst heq
    exact (hq hdb).1
  ahead jobId view hwrites hdb hfinished := by
    have hreturned : p.Returned (.finished jobId) :=
      h.returned_of_stage hfinished (fun _ => id) fun result hends => (hends.2 jobId).mp rfl
    cases q with
    | updateJobProgress id view' =>
      cases hwrites
      exact hq hdb hreturned
    | completeJob id view' reportUrl statusOverride =>
      cases hwrites
      exact (hq hdb).2 hreturned
    | _ => cases hwrites

theorem inOrder_of_run (hrun : Run ImportStep { store := { now := now, campaigns := campaigns } } tr p)
    (horderly : ∀ t ∈ tr, Orderly t) (ht : t ∈ tr) : InOrder t.pre ∧ InOrder t.post := by
  refine hrun.invariant_at (I := InOrder) (C := Orderly)
    ⟨[], List.Forall₂.nil, kept_idle, fun _ h => absurd h not_mem_nil⟩ horderly (fun t hstep hC hpre => ?_) ht
  obtain ⟨stages, hat, hkept, hsettled⟩ := hpre
  rcases hat.step body_follows hstep with ⟨-, hstore, hat'⟩ | ⟨i, σ, q, -, hq, hσ, hallowed, hstore, hat'⟩
  · refine ⟨_, hat', ?_⟩
    rw [hstore]
    refine ⟨kept_start hkept, fun jobId hjobId => ?_⟩
    rcases mem_append.mp hjobId with hjobId | hjobId
    · exact hsettled jobId hjobId
    · cases mem_singleton.mp hjobId
  · refine ⟨_, hat', ?_⟩
    rw [hstore]
    exact ⟨kept_serve hkept hσ hallowed, settled_serve hkept (orderlyAt hat (hC q hq)) hσ hallowed hsettled⟩

theorem complete_of_inOrder (h : InOrder p) (hreturned : p.Returned (.finished jobId)) :
    ∃ job csv, p.store.jobs[jobId]? = some job ∧ p.store.csv jobId = some csv ∧ p.store.IsComplete csv jobId job := by
  obtain ⟨stages, hat, hkept, hsettled⟩ := h
  obtain ⟨σ, hσ, hends⟩ := hat.stage_of_returned hreturned
  rw [(hends.2 jobId).mpr rfl] at hσ
  obtain ⟨job, csv, hjob, hcsv, hlength⟩ := hsettled jobId hσ
  obtain ⟨⟨csv', hcsv', hsound⟩, -⟩ := hkept.rows jobId job hjob
  have hsame : csv' = csv := some.inj (hcsv'.symm.trans hcsv)
  subst hsame
  refine ⟨job, csv', hjob, hcsv, hlength, hsound.counted, fun n hn => ?_, hsound.once⟩
  rcases hsound.covered n (lt_of_lt_of_eq hn hlength.symm) with himported | hrecorded
  · obtain ⟨claim, hclaim, hof⟩ := himported
    exact .inl (le_antisymm (hkept.single _ _) (countP_pos_iff.mpr ⟨claim, hclaim, hof⟩))
  · exact .inr hrecorded

theorem orDown_up {α : Type} {up : Except Message Unit} (h : up.isOk = true) (answer : Except Failure α × Store)
    (s : Store) : orDown up answer s = answer := by
  cases up with
  | error message => cases h
  | ok _ => rfl

theorem observes_over {σ : Stage} {s : Store} (hallowed : σ.allowed q) (h : q.Observes s) :
    Stage.next σ q (perform q s).1 = .ended := by
  cases q with
  | setJobProcessing jobId =>
    obtain ⟨job, hjob, hcancelled⟩ := map_eq_some_iff.mp h.2
    have hreply : (perform (.setJobProcessing jobId) s).1 = .ok false := by
      change (s.setJobProcessing jobId).1 = _
      rw [setJobProcessing, orDown_up h.1, hjob]
      dsimp only
      rw [if_pos hcancelled]
    rw [hreply]
    cases σ with
    | picked data => rfl
    | _ => exact hallowed.elim
  | getResumeState jobId =>
    obtain ⟨job, hjob, hcancelled⟩ := map_eq_some_iff.mp h.2
    have hreply : (perform (.getResumeState jobId) s).1 = .ok job := by
      change (s.getResumeState jobId).1 = _
      rw [getResumeState, orDown_up h.1, hjob]
    rw [hreply]
    cases σ with
    | started data => exact if_pos hcancelled
    | _ => exact hallowed.elim
  | isCancellationRequested jobId =>
    have hreply : (perform (.isCancellationRequested jobId) s).1 = .ok true := by
      change (s.isCancellationRequested jobId).1 = _
      rw [isCancellationRequested, orDown_up h.1]
      exact congrArg Except.ok (decide_eq_true h.2)
    rw [hreply]
    cases σ with
    | ready data csv n view => rfl
    | _ => exact hallowed.elim
  | _ => exact h.elim

theorem heeds_of_run (hrun : Run ImportStep { store := { now := now, campaigns := campaigns } } tr p) :
    tr.Pairwise fun t t' => (∃ q, t.pre.asked t.label = some q ∧ q.Observes t.pre.store) →
      t'.label.thread = t.label.thread → ∀ claim, t'.pre.asked t'.label ≠ some (.createClaim claim) := by
  -- what is done stays done
  have hdone : tr.Pairwise fun t t' => ∀ (i : ℕ) op result, t.post.threads[i]? = some (op, .done result) →
      t'.pre.threads[i]? = some (op, .done result) := by
    let Stays (a b : ImportPool) : Prop := ∀ (i : ℕ) op result, a.threads[i]? = some (op, .done result) →
      b.threads[i]? = some (op, .done result)
    have htrans : ∀ a b c, Stays a b → Stays b c → Stays a c :=
      fun _ _ _ hab hbc i op result h => hbc i op result (hab i op result h)
    exact hrun.pairwise_pre (R := Stays) (fun _ _ _ _ h => h) htrans fun t ht i op result h =>
      (hrun.step_of_mem ht).done_stays h
  refine hdone.imp_of_mem fun {t t'} ht _ hstays hobserves hthread claim hclaim => ?_
  obtain ⟨q, hq, hobserves⟩ := hobserves
  obtain ⟨stages, hat, -⟩ := (started_of_run hrun ht).1
  rcases hat.step body_follows (hrun.step_of_mem ht) with ⟨hnone, -⟩ | ⟨i, σ, q', hturn, hq', hσ, hallowed, -, hat'⟩
  · rw [hq] at hnone
    cases hnone
  rw [hq] at hq'
  cases hq'
  have hnext : protocol.next σ q (perform q t.pre.store).1 = .ended := observes_over hallowed hobserves
  rw [hnext] at hat'
  have hover : (stages.set i Stage.ended)[i]? = some .ended :=
    List.getElem?_set_self (List.getElem?_eq_some_iff.mp hσ).1
  obtain ⟨op, result, hended⟩ := hat'.quiet hover fun _ => id
  have hlater := hstays i op result hended
  rw [hturn] at hthread
  cases hlabel : t'.label with
  | start op' =>
    rw [hlabel] at hthread
    cases hthread
  | advance j =>
    rw [hlabel] at hthread hclaim
    cases hthread
    simp only [Pool.asked, hlater] at hclaim
    cases hclaim

theorem importedOnce_of_orderly (hrun : Run ImportStep { store := { now := now, campaigns := campaigns } } tr p)
    (horderly : ∀ t ∈ tr, Orderly t) : ImportedOnce tr where
  single t ht := by
    obtain ⟨stages, -, hkept⟩ := (started_of_run hrun ht).2
    exact hkept.single
  accepted t ht claim hq hreply := by
    rw [(hrun.step_of_mem ht).store_of_asked hq]
    exact createClaim_ok hreply
  kept := by
    have htrans : ∀ a b c : ImportPool, (∀ claim ∈ a.store.claims, claim ∈ b.store.claims) →
        (∀ claim ∈ b.store.claims, claim ∈ c.store.claims) → ∀ claim ∈ a.store.claims, claim ∈ c.store.claims :=
      fun _ _ _ hab hbc claim h => hbc claim (hab claim h)
    refine hrun.pairwise_post (fun _ _ h => h) htrans fun t ht => ?_
    rcases (hrun.step_of_mem ht).store with ⟨-, hstore⟩ | ⟨q, -, hstore⟩
    · rw [hstore]
      exact fun _ h => h
    · rw [hstore]
      exact (perform_effect q t.pre.store).grows.claims
  genuine t ht := by
    obtain ⟨stages, -, hkept⟩ := (started_of_run hrun ht).2
    exact hkept.genuine
  complete t ht jobId hreturned := complete_of_inOrder (inOrder_of_run hrun horderly ht).2 hreturned
  stays t ht jobId hcancelled := by
    obtain ⟨stages, hat, -⟩ := (inOrder_of_run hrun horderly ht).1
    rcases (hrun.step_of_mem ht).store with ⟨-, hstore⟩ | ⟨q, hq, hstore⟩
    · rw [hstore]
      exact hcancelled
    · rw [hstore]
      exact status_stays (orderlyAt hat (horderly t ht q hq)) hcancelled
  heeds := heeds_of_run hrun

theorem ahead_of_importedOnce (hrun : Run ImportStep { store := { now := now, campaigns := campaigns } } tr p)
    (h : ImportedOnce tr) (ht : t ∈ tr) (hq : t.pre.asked t.label = some q) {view : View} (hwrites : q.writes = some (jobId, view)) (hdb : t.pre.store.fate.db.isOk = true)
    (hreturned : t.pre.Returned (.finished jobId)) : t.pre.store.processedRows jobId ≤ view.processedRows := by
  have hstep := hrun.step_of_mem ht
  have hstore := hstep.store_of_asked hq
  obtain ⟨stages, -, hkept⟩ := (started_of_run hrun ht).1
  rw [processedRows]
  rcases hjob : t.pre.store.jobs[jobId]? with _ | job
  · exact Nat.zero_le _
  obtain ⟨⟨csv, hcsv, hsound⟩, -⟩ := hkept.rows jobId job hjob
  obtain ⟨job', csv', hjob', hcsv', hcomplete⟩ := h.complete t ht jobId (hstep.returned_stays hreturned)
  have hgrows := (perform_effect q t.pre.store).grows
  rw [hstore] at hjob' hcsv'
  obtain ⟨new, hnew, hprocessed, -⟩ := writes_store hwrites hdb hjob
  have hsame : job' = new := some.inj (hjob'.symm.trans hnew)
  have hfile : csv' = csv := some.inj (hcsv'.symm.trans (hgrows.csv_stays hcsv))
  calc
    job.processedRows ≤ csv.rows.length := hsound.bound
    _ = job'.processedRows := by rw [hcomplete.processed, hfile]
    _ = view.processedRows := by rw [hsame, hprocessed]

/-- Exactly-once import: in a run every valid row is imported once, and the jobs keep their books and stay cancelled,
exactly when no job that is cancelled is completed and no worker that is behind writes its counters after another one
went through the rows. -/
theorem importedOnce_iff (hrun : Run ImportStep { store := { now := now, campaigns := campaigns } } tr p) :
    ImportedOnce tr ↔ ∀ t ∈ tr, Orderly t := by
  refine ⟨fun h t ht q hq => ?_, importedOnce_of_orderly hrun⟩
  cases q with
  | updateJobProgress jobId view => exact ahead_of_importedOnce hrun h ht hq rfl
  | completeJob jobId view reportUrl statusOverride =>
    refine fun hdb => ⟨fun hcancelled => ?_, ahead_of_importedOnce hrun h ht hq rfl hdb⟩
    have hstays := h.stays t ht jobId hcancelled
    obtain ⟨job, hjob, -⟩ := map_eq_some_iff.mp hcancelled
    have hwrites : (Query.completeJob jobId view reportUrl statusOverride).writes = some (jobId, view) := rfl
    obtain ⟨new, hnew, -, hstatus⟩ := writes_store hwrites hdb hjob
    rw [(hrun.step_of_mem ht).store_of_asked hq, status_of_get hnew, hstatus reportUrl statusOverride rfl] at hstays
    -- a job is completed as `completed` or as `failed`
    obtain ⟨stages, hat, -⟩ := (started_of_run hrun ht).1
    rcases hat.step body_follows (hrun.step_of_mem ht) with ⟨hnone, -⟩ | ⟨i, σ, q, -, hq', -, hallowed, -⟩
    · rw [hq] at hnone
      cases hnone
    rw [hq] at hq'
    cases hq'
    have hoverride : statusOverride = none ∨ statusOverride = some .failed := by
      cases σ with
      | ready data csv n view' => exact .inl hallowed.2.2.1
      | failing data view' => exact .inr hallowed.2.2
      | _ => exact hallowed.elim
    rcases hoverride with rfl | rfl
    · by_cases herrors : 0 < view.errorRows
      · simp [herrors] at hstays
      · simp [herrors] at hstays
    · simp at hstays
  | _ => trivial

def importing (turns : List ℕ) : List ImportTransition × ImportPool :=
  play (Pool.take perform ImportOp.body) { store := { now := 0, campaigns := [7] } }
    ([.start (.upload 7 "recipients.csv" "recipientref,amount\nada,5".toList), .start (.work 0), .start (.cancelJob 0)]
      ++ turns.map .advance)

theorem importing_run (turns : List ℕ) :
    Run ImportStep { store := { now := 0, campaigns := [7] } } (importing turns).1 (importing turns).2 :=
  play_run (fun _ _ _ h => h) _ _

theorem importedOnce_importing : ImportedOnce (importing [0, 1, 1, 1, 1, 1, 1, 1, 1, 1, 1, 2]).1 :=
  (importedOnce_iff (importing_run _)).mpr (by decide +kernel)

theorem lateCancel_completed : ¬ ImportedOnce (importing [0, 1, 1, 1, 1, 1, 1, 1, 1, 1, 2, 1]).1 := by
  intro h
  have hlost : ¬ ∀ t ∈ (importing [0, 1, 1, 1, 1, 1, 1, 1, 1, 1, 2, 1]).1,
      t.pre.store.status 0 = some .cancelled → t.post.store.status 0 = some .cancelled := by
    decide +kernel
  exact hlost fun t ht => h.stays t ht 0

end Runs
end Soter.RecipientImport
