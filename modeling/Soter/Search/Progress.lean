import Soter.Lib.Exclusive
import Soter.Search.Counting
import Soter.Search.Release

/-! The progress that a rebuild of the search index reports: documents that were processed, of those that were counted. -/
namespace Soter.Search
open Soter.Runs Soter.Tasks List SearchIndexBuild Phase

section Progress
variable (lower : String → String) (source : Source)

/-- The numbers of all builds add up: a build that is completed has processed all documents that were counted, none
ever more than that, and the number never falls. -/
structure AddsUp (tr : List RebuildTransition) : Prop where
  completed : ∀ t ∈ tr, ∀ (b : ℕ) (build : SearchIndexBuild), t.post.store.builds[b]? = some build →
    build.status = .completed → build.processedDocuments = build.totalDocuments
  bounded : ∀ t ∈ tr, ∀ (b : ℕ) (build : SearchIndexBuild), t.post.store.builds[b]? = some build →
    build.processedDocuments ≤ build.totalDocuments
  grows : ∀ t ∈ tr, ∀ (b : ℕ) (build build' : SearchIndexBuild), t.pre.store.builds[b]? = some build →
    t.post.store.builds[b]? = some build' → build.processedDocuments ≤ build'.processedDocuments

def Phase.carries : Phase → Option ℕ
  | .scanning job _ _ _ _ | .upserting job _ _ _ _ _ _ | .persisting job _ _ _ _ | .purging job _ _ _
  | .completing job _ => some job.id
  | _ => none

/-- The build that `processBuild` is about to read. -/
def Phase.loads : Phase → Option ℕ
  | .loading id => some id
  | _ => none

/-- What `processBuild` is to find: the documents of the build were counted as its scans come to them, nobody else
scans for it, and of the recipients that are left none came before. -/
structure Ready (w : World) (id : ℕ) (build : SearchIndexBuild) : Prop where
  named : source.Named
  total : build.totalDocuments = source.countDocuments.total
  fits : source.Fits (resolveEntityTypes build.entityTypes)
  alone : ∀ worker ∈ w.workers, worker.phase.carries ≠ some id
  unseen : .recipient ∈ resolveEntityTypes build.entityTypes →
    (build.checkpoint.getD emptyCheckpoint .recipient).done = false →
      ∀ r ∈ source.left lower (build.checkpoint.getD emptyCheckpoint .recipient).cursor .recipient,
        recipientKey r ∉ source.seenBefore lower (build.checkpoint.getD emptyCheckpoint .recipient).cursor

def LoadsReady (t : RebuildTransition) : Prop :=
  match t.label with
  | .advance i => ∀ worker ∈ t.pre.workers[i]?, ∀ id ∈ worker.phase.loads, t.pre.store.Loads worker.inst id →
      ∀ build ∈ t.pre.store.builds[id]?, Ready lower source t.pre id build
  | _ => True

end Progress
section Builds
variable (lower : String → String) (source : Source)

def SearchIndexBuild.size (build : SearchIndexBuild) : ℕ :=
  source.remainingOf lower (resolveEntityTypes build.entityTypes) emptyCheckpoint

structure SearchIndexBuild.Sums (build : SearchIndexBuild) : Prop where
  left : build.mode = .rebuild → build.processedDocuments +
    source.remainingOf lower (resolveEntityTypes build.entityTypes) (build.checkpoint.getD emptyCheckpoint) =
      build.size lower source
  begun : build.mode = .rebuild → build.processedDocuments = 0 ∨
    build.totalDocuments = source.countDocuments.total ∧ build.size lower source = source.countDocuments.total
  completed : build.mode = .rebuild → build.status = .completed →
    build.processedDocuments = build.totalDocuments ∧ build.totalDocuments = source.countDocuments.total
  dry : build.mode = .dryRun → build.processedDocuments = build.totalDocuments ∧
    (build.totalDocuments = 0 ∨ build.totalDocuments = source.countDocuments.total)

variable {lower source} {build : SearchIndexBuild}

theorem SearchIndexBuild.Sums.bounded (h : build.Sums lower source) : build.processedDocuments ≤ build.totalDocuments := by
  cases hmode : build.mode with
  | dryRun => exact le_of_eq (h.dry hmode).1
  | rebuild =>
    have hleft := h.left hmode
    rcases h.begun hmode with hzero | ⟨htotal, hsize⟩
    · omega
    · omega

theorem SearchIndexBuild.Sums.of_completed (h : build.Sums lower source) (hstatus : build.status = .completed) :
    build.processedDocuments = build.totalDocuments := by
  cases hmode : build.mode with
  | dryRun => exact (h.dry hmode).1
  | rebuild => exact (h.completed hmode hstatus).1

end Builds
variable {entityType : SearchIndexEntityType} {job : Job} {s' s : Store} {progress : Progress} {phase : Phase}
  {rest : List SearchIndexEntityType} {seen : List String}
section Calls
variable (lower : String → String) (source : Source)

/-- What becomes of a build in a step: only who carries it, or a dry run, moves the number of processed documents. -/
structure SearchIndexBuild.Follows (carried : Prop) (build build' : SearchIndexBuild) : Prop where
  mode : build'.mode = build.mode
  entityTypes : build'.entityTypes = build.entityTypes
  total : build'.totalDocuments = build.totalDocuments ∨ build'.totalDocuments = source.countDocuments.total
  grows : build.processedDocuments ≤ build'.processedDocuments
  processed : build.mode = .rebuild → ¬ carried → build'.processedDocuments = build.processedDocuments

def Store.Follows (carried : Option ℕ) (s s' : Store) : Prop :=
  ∀ (b : ℕ) (build : SearchIndexBuild), s.builds[b]? = some build →
    ∃ build', s'.builds[b]? = some build' ∧ SearchIndexBuild.Follows source (carried = some b) build build'

/-- The build of a job, and the progress in it: what was processed and what is left make up what was counted. -/
structure Store.Working (s : Store) (job : Job) (progress : Progress) : Prop where
  build : ∃ build, s.builds[job.id]? = some build ∧ build.mode = .rebuild ∧
    job.entityTypes = resolveEntityTypes build.entityTypes ∧ build.totalDocuments = source.countDocuments.total ∧
      build.processedDocuments ≤ progress.processed
  batch : 0 < job.batchSize
  named : source.Named
  size : source.remainingOf lower job.entityTypes emptyCheckpoint = source.countDocuments.total
  left : progress.processed + source.remainingOf lower job.entityTypes progress.checkpoint =
    source.countDocuments.total

structure Todo (job : Job) (checkpoint : RebuildCheckpoint) (rest : List SearchIndexEntityType) : Prop where
  nodup : rest.Nodup
  subset : ∀ t ∈ rest, t ∈ job.entityTypes
  unseen : .recipient ∈ rest → (checkpoint .recipient).done = false →
    source.SeenRight lower (checkpoint .recipient).cursor []

structure Store.Scanning (s : Store) (job : Job) (progress : Progress) (entityType : SearchIndexEntityType)
    (rest : List SearchIndexEntityType) (seen : List String) : Prop where
  working : s.Working lower source job progress
  todo : Todo lower source job progress.checkpoint rest
  mem : entityType ∈ job.entityTypes
  alone : entityType ∉ rest
  done : ∀ t ∈ job.entityTypes, t = entityType ∨ t ∈ rest ∨ (progress.checkpoint t).done = true
  seen : entityType = .recipient → (progress.checkpoint entityType).done = false →
    source.SeenRight lower (progress.checkpoint entityType).cursor seen

def Store.IsDryRun (s : Store) (id : ℕ) (dryRun : Bool) : Prop :=
  ∃ build, s.builds[id]? = some build ∧ build.mode = if dryRun then .dryRun else .rebuild

def Phase.Accounts (s : Store) : Phase → Prop
  | .counting id dryRun _ => s.IsDryRun id dryRun
  | .totalling id dryRun _ counts => s.IsDryRun id dryRun ∧ counts = source.countDocuments
  | .scanning job progress entityType rest seen => s.Scanning lower source job progress entityType rest seen ∧
    (progress.checkpoint entityType).done = false
  | .upserting job progress entityType rest seen _ _ | .persisting job progress entityType rest seen =>
    s.Scanning lower source job progress entityType rest seen
  | .purging job progress _ _ | .completing job progress => s.Working lower source job progress ∧
    ∀ t ∈ job.entityTypes, (progress.checkpoint t).done = true
  | _ => True

variable {lower source} {carried : Option ℕ}

theorem SearchIndexBuild.Follows.refl (carried : Prop) (build : SearchIndexBuild) : build.Follows source carried build :=
  ⟨rfl, rfl, .inl rfl, le_refl _, fun _ _ => rfl⟩

theorem follows_of_builds (h : s'.builds = s.builds) : s.Follows source carried s' :=
  fun _ build hbuild => ⟨build, h ▸ hbuild, .refl _ build⟩

theorem Store.Follows.working (h : s.Follows source carried s') (hcarried : carried ≠ some job.id)
    (hworking : s.Working lower source job progress) : s'.Working lower source job progress := by
  obtain ⟨⟨build, hbuild, hmode, htypes, htotal, hprocessed⟩, hbatch, hnamed, hsize, hleft⟩ := hworking
  obtain ⟨build', hbuild', hfollows⟩ := h job.id build hbuild
  refine ⟨⟨build', hbuild', hfollows.mode.trans hmode, ?_, ?_, ?_⟩, hbatch, hnamed, hsize, hleft⟩
  · rw [hfollows.entityTypes]
    exact htypes
  · exact hfollows.total.elim (fun hsame => hsame.trans htotal) fun hcounts => hcounts
  · rw [hfollows.processed hmode hcarried]
    exact hprocessed

theorem Store.Follows.isDryRun (h : s.Follows source carried s') {id : ℕ} {dryRun : Bool} (hdry : s.IsDryRun id dryRun) :
    s'.IsDryRun id dryRun := by
  obtain ⟨build, hbuild, hmode⟩ := hdry
  obtain ⟨build', hbuild', hfollows⟩ := h id build hbuild
  exact ⟨build', hbuild', hfollows.mode.trans hmode⟩

theorem Store.Follows.scanning (h : s.Follows source carried s') (hcarried : carried ≠ some job.id)
    (hscanning : s.Scanning lower source job progress entityType rest seen) :
    s'.Scanning lower source job progress entityType rest seen :=
  ⟨h.working hcarried hscanning.working, hscanning.todo, hscanning.mem, hscanning.alone, hscanning.done, hscanning.seen⟩

theorem Store.Follows.accounts (h : s.Follows source carried s') (hcarried : ∀ b, phase.carries = some b → carried ≠ some b)
    (hphase : phase.Accounts lower source s) : phase.Accounts lower source s' := by
  cases phase with
  | counting id dryRun triggeredBy => exact h.isDryRun hphase
  | totalling id dryRun triggeredBy counts => exact ⟨h.isDryRun hphase.1, hphase.2⟩
  | scanning job progress entityType rest seen => exact ⟨h.scanning (hcarried job.id rfl) hphase.1, hphase.2⟩
  | upserting job progress entityType rest seen record records => exact h.scanning (hcarried job.id rfl) hphase
  | persisting job progress entityType rest seen => exact h.scanning (hcarried job.id rfl) hphase
  | purging job progress entityType rest => exact ⟨h.working (hcarried job.id rfl) hphase.1, hphase.2⟩
  | completing job progress => exact ⟨h.working (hcarried job.id rfl) hphase.1, hphase.2⟩
  | _ => exact hphase

theorem accounts_of_builds (h : phase.Accounts lower source s) (hbuilds : s'.builds = s.builds) :
    phase.Accounts lower source s' := by
  have hfollows : s.Follows source none s' := follows_of_builds hbuilds
  exact hfollows.accounts (fun _ _ h => by cases h) h

theorem purge_accounts (hworking : s.Working lower source job progress)
    (hdone : ∀ t ∈ job.entityTypes, (progress.checkpoint t).done = true) :
    (purge job progress rest).Accounts lower source s := by
  cases rest with
  | nil | cons => exact ⟨hworking, hdone⟩

theorem index_accounts (hworking : s.Working lower source job progress) : ∀ (rest : List SearchIndexEntityType),
    Todo lower source job progress.checkpoint rest →
      (∀ t ∈ job.entityTypes, t ∈ rest ∨ (progress.checkpoint t).done = true) →
        (index job progress rest).Accounts lower source s
  | [], _, hdone => purge_accounts hworking fun t ht => (hdone t ht).resolve_left not_mem_nil
  | entityType :: rest, htodo, hdone => by
    have hnodup := nodup_cons.mp htodo.nodup
    have htodo' : Todo lower source job progress.checkpoint rest :=
      ⟨hnodup.2, fun t ht => htodo.subset t (mem_cons_of_mem _ ht), fun ht => htodo.unseen (mem_cons_of_mem _ ht)⟩
    rw [index]
    by_cases hskip : (progress.checkpoint entityType).done = true
    · rw [if_pos hskip]
      refine index_accounts hworking rest htodo' fun t ht => ?_
      rcases hdone t ht with hmem | hthen
      · rcases mem_cons.mp hmem with rfl | hmem
        · exact .inr hskip
        · exact .inl hmem
      · exact .inr hthen
    · rw [if_neg hskip]
      have hfresh : (progress.checkpoint entityType).done = false := Bool.eq_false_iff.mpr hskip
      refine ⟨⟨hworking, htodo', htodo.subset _ mem_cons_self, hnodup.1, fun t ht => ?_, fun hrecipient _ => ?_⟩, hfresh⟩
      · rcases hdone t ht with hmem | hthen
        · exact (mem_cons.mp hmem).imp_right .inl
        · exact .inr (.inr hthen)
      · subst hrecipient
        exact htodo.unseen mem_cons_self hfresh

theorem upsert_accounts {records : List IndexRecord} (h : s.Scanning lower source job progress entityType rest seen) :
    (upsert job progress entityType rest seen records).Accounts lower source s := by
  cases records with
  | nil | cons => exact h

theorem scanning_batch (h : s.Scanning lower source job progress entityType rest seen)
    (hfresh : (progress.checkpoint entityType).done = false) {batch : EntityBatch}
    (hbatch : Counted lower source entityType (progress.checkpoint entityType).cursor batch) :
    s.Scanning lower source job (progress.add entityType batch) entityType rest batch.seen := by
  have hother : ∀ t, t ≠ entityType → (progress.add entityType batch).checkpoint t = progress.checkpoint t :=
    fun t ht => if_neg ht
  have hself : (progress.add entityType batch).checkpoint entityType =
      { cursor := batch.nextCursor, done := batch.nextCursor = none } := if_pos rfl
  have hbefore : source.remaining lower entityType { cursor := (progress.checkpoint entityType).cursor } =
      source.remaining lower entityType (progress.checkpoint entityType) := by
    rw [← hfresh]
  have hstep : batch.records.length +
      source.remaining lower entityType ((progress.add entityType batch).checkpoint entityType) =
        source.remaining lower entityType (progress.checkpoint entityType) := by
    rw [hself, ← hbefore]
    cases hnext : batch.nextCursor with
    | none => exact hbatch.last hnext
    | some next => exact hbatch.more next hnext
  obtain ⟨⟨build, hbuild, hmode, htypes, htotal, hprocessed⟩, hpos, hnamed, hsize, hleft⟩ := h.working
  have hnodup : job.entityTypes.Nodup := by
    rw [htypes]
    exact nodup_resolveEntityTypes build.entityTypes
  have hsum : batch.records.length + source.remainingOf lower job.entityTypes (progress.add entityType batch).checkpoint =
        source.remainingOf lower job.entityTypes progress.checkpoint :=
    sum_step hnodup h.mem (fun t ht => by rw [hother t ht]) hstep
  refine ⟨⟨⟨build, hbuild, hmode, htypes, htotal, ?_⟩, hpos, hnamed, hsize, ?_⟩, ⟨h.todo.nodup, h.todo.subset, ?_⟩, h.mem,
    h.alone, ?_, ?_⟩
  · exact hprocessed.trans (Nat.le_add_right _ _)
  · change progress.processed + batch.records.length + _ = _
    omega
  · intro hmem
    rw [hother .recipient fun heq => h.alone (heq ▸ hmem)]
    exact h.todo.unseen hmem
  · intro t ht
    by_cases hsame : t = entityType
    · exact .inl hsame
    · rw [hother t hsame]
      exact h.done t ht
  · intro hrecipient hdone
    rw [hself] at hdone ⊢
    cases hnext : batch.nextCursor with
    | none =>
      rw [hnext] at hdone
      cases hdone
    | some next => exact hbatch.seen hrecipient next hnext

end Calls
variable {w : World}
section Act
variable {lower : String → String} {source : Source} {inst id : ℕ} {phase' : Phase}

variable {f : SearchIndexBuild → SearchIndexBuild}

theorem index_carries (job : Job) (progress : Progress) (rest : List SearchIndexEntityType) :
    (index job progress rest).carries = some job.id := by
  induction rest with
  | nil =>
    rw [index]
    cases job.entityTypes with
    | nil | cons => rfl
  | cons entityType rest ih =>
    rw [index]
    split
    · exact ih
    · rfl

theorem purge_carries (job : Job) (progress : Progress) (rest : List SearchIndexEntityType) :
    (purge job progress rest).carries = some job.id := by
  cases rest with
  | nil | cons => rfl

theorem upsert_carries (job : Job) (progress : Progress) (entityType : SearchIndexEntityType)
    (rest : List SearchIndexEntityType) (seen : List String) (records : List IndexRecord) :
    (upsert job progress entityType rest seen records).carries = some job.id := by
  cases records with
  | nil | cons => rfl

theorem remainingOf_done {entityTypes : List SearchIndexEntityType} {checkpoint : RebuildCheckpoint}
    (h : ∀ t ∈ entityTypes, (checkpoint t).done = true) : source.remainingOf lower entityTypes checkpoint = 0 := by
  rw [Source.remainingOf, List.sum_eq_zero_iff_forall_eq_nat]
  intro n hn
  obtain ⟨t, ht, rfl⟩ := mem_map.mp hn
  exact if_pos (h t ht)

variable (lower source) in
def Store.AllSum (s : Store) : Prop :=
  ∀ (b : ℕ) (build : SearchIndexBuild), s.builds[b]? = some build → build.Sums lower source

variable (lower source) in
structure Balances (inst : ℕ) (phase : Phase) (s : Store) (result : Phase × Store) : Prop where
  rows : result.2.AllSum lower source
  follows : s.Follows source phase.carries result.2
  accounts : result.1.Accounts lower source result.2
  carries : ∀ b, result.1.carries = some b → phase.carries = some b ∨ phase = .loading b ∧ s.Loads inst b

theorem allSum_of_builds (h : s.AllSum lower source) (hbuilds : s'.builds = s.builds) : s'.AllSum lower source :=
  fun b build hbuild => h b build (hbuilds ▸ hbuild)

theorem balances_same (hrows : s.AllSum lower source) (hbuilds : s'.builds = s.builds)
    (haccounts : phase'.Accounts lower source s') (hcarries : ∀ b, phase'.carries = some b → phase.carries = some b) :
    Balances lower source inst phase s (phase', s') :=
  ⟨allSum_of_builds hrows hbuilds, follows_of_builds hbuilds, haccounts, fun b hb => .inl (hcarries b hb)⟩

theorem balances_ended (hrows : s.AllSum lower source) (hbuilds : s'.builds = s.builds)
    (haccounts : phase'.Accounts lower source s') (hcarries : phase'.carries = none) :
    Balances lower source inst phase s (phase', s') :=
  balances_same hrows hbuilds haccounts fun b hb => by
    rw [hcarries] at hb
    cases hb

theorem allSum_update (hrows : s.AllSum lower source)
    (hf : ∀ build, s.builds[id]? = some build → (f build).Sums lower source) : (s.update id f).AllSum lower source := by
  intro b build' hbuild'
  obtain ⟨build, hbuild, ⟨rfl, rfl⟩ | ⟨-, rfl⟩⟩ := update_get hbuild'
  · have hsums := hf build hbuild
    exact ⟨hsums.left, hsums.begun, hsums.completed, hsums.dry⟩
  · exact hrows b build' hbuild

theorem follows_update {carried : Option ℕ} (hf : ∀ build, s.builds[id]? = some build →
      Follows source (carried = some id) build (f build)) :
    s.Follows source carried (s.update id f) := by
  intro b build hbuild
  refine ⟨_, get_update hbuild, ?_⟩
  by_cases hid : id = b
  · subst hid
    have hfollows := hf build hbuild
    rw [if_pos rfl]
    exact ⟨hfollows.mode, hfollows.entityTypes, hfollows.total, hfollows.grows, hfollows.processed⟩
  · rw [if_neg hid]
    exact .refl _ build

structure Plain (f : SearchIndexBuild → SearchIndexBuild) : Prop where
  keeps : ∀ build, (f build).mode = build.mode ∧ (f build).entityTypes = build.entityTypes ∧
    (f build).checkpoint = build.checkpoint
  numbers : ∀ build, (f build).totalDocuments = build.totalDocuments ∧
    (f build).processedDocuments = build.processedDocuments
  status : ∀ build, (f build).status = .completed → build.status = .completed

theorem Plain.sums (hf : Plain f) {build : SearchIndexBuild}
    (h : build.Sums lower source) : (f build).Sums lower source := by
  obtain ⟨hmode, htypes, hcheckpoint⟩ := hf.keeps build
  obtain ⟨htotal, hprocessed⟩ := hf.numbers build
  have hsize : (f build).size lower source = build.size lower source := by
    rw [size, size, htypes]
  refine ⟨?_, ?_, ?_, ?_⟩
  · rw [hmode, htypes, hcheckpoint, hprocessed, hsize]
    exact h.left
  · rw [hmode, htotal, hprocessed, hsize]
    exact h.begun
  · rw [hmode, htotal, hprocessed]
    exact fun hrebuild hstatus => h.completed hrebuild (hf.status build hstatus)
  · rw [hmode, htotal, hprocessed]
    exact h.dry

theorem Plain.follows (hf : Plain f) (carried : Prop) (build : SearchIndexBuild) : Follows source carried build (f build) :=
  ⟨(hf.keeps build).1, (hf.keeps build).2.1, .inl (hf.numbers build).1, le_of_eq (hf.numbers build).2.symm,
    fun _ _ => (hf.numbers build).2⟩

theorem balances_plain (hrows : s.AllSum lower source) (hf : Plain f)
    (haccounts : phase'.Accounts lower source s') (hcarries : phase'.carries = none)
    (hbuilds : s'.builds = (s.update id f).builds) : Balances lower source inst phase s (phase', s') where
  rows := allSum_of_builds (allSum_update hrows fun build hbuild => hf.sums (hrows id build hbuild)) hbuilds
  follows b build hbuild := by
    rw [hbuilds]
    exact follows_update (fun build _ => hf.follows _ build) b build hbuild
  accounts := haccounts
  carries b hb := by
    rw [hcarries] at hb
    cases hb

theorem plain_supersede (now : ℤ) : Plain (supersede now) :=
  ⟨fun _ => ⟨rfl, rfl, rfl⟩, fun _ => ⟨rfl, rfl⟩, fun _ h => by cases h⟩

theorem plain_retrigger (triggeredBy : String) : Plain (.retrigger triggeredBy) :=
  ⟨fun _ => ⟨rfl, rfl, rfl⟩, fun _ => ⟨rfl, rfl⟩, fun _ h => h⟩

theorem plain_fail (message : String) (now : ℤ) : Plain (.fail message now) :=
  ⟨fun _ => ⟨rfl, rfl, rfl⟩, fun _ => ⟨rfl, rfl⟩, fun _ h => by cases h⟩

theorem balances_created {s₀ : Store} (hrows : s₀.AllSum lower source) (hfollows : s.Follows source none s₀)
    (options : RebuildOptions) : Balances lower source inst (.claiming options) s
      (Phase.afterClaim inst options (s₀.createBuild options)) := by
  have hget : ∀ (b : ℕ) (build : SearchIndexBuild), s₀.builds[b]? = some build →
      (s₀.createBuild options).2.builds[b]? = some build := by
    intro b build hbuild
    change (s₀.builds ++ _)[b]? = some build
    rw [List.getElem?_append_left (List.getElem?_eq_some_iff.mp hbuild).1, hbuild]
  obtain ⟨new, hnew, hmode, hsums⟩ : ∃ new, (s₀.createBuild options).2.builds = s₀.builds ++ [new] ∧
      new.mode = (if options.dryRun then .dryRun else .rebuild) ∧ new.Sums lower source := by
    refine ⟨_, rfl, rfl, fun _ => ?_, fun _ => .inl rfl, fun _ h => (by cases h), fun _ => ⟨rfl, .inl rfl⟩⟩
    dsimp only
    rw [Nat.zero_add]
    split <;> rfl
  have hall : (s₀.createBuild options).2.AllSum lower source := by
    intro b build hbuild
    rw [hnew] at hbuild
    rcases getElem?_snoc hbuild with hold | ⟨-, rfl⟩
    · exact hrows b build hold
    · exact hsums
  have hdry : (s₀.createBuild options).2.IsDryRun s₀.builds.length options.dryRun := by
    refine ⟨new, ?_, hmode⟩
    rw [hnew, getElem?_append_right (le_refl _), Nat.sub_self]
    rfl
  have hthen : s.Follows source none (s₀.createBuild options).2 := by
    intro b build hbuild
    obtain ⟨build', hbuild', hfollow⟩ := hfollows b build hbuild
    exact ⟨build', hget b build' hbuild', hfollow⟩
  change Balances lower source inst (.claiming options) s
    (afterClaim inst options (.created s₀.builds.length options.dryRun, (s₀.createBuild options).2))
  generalize (s₀.createBuild options).2 = s₁ at hall hdry hthen
  cases hoption : options.dryRun with
  | true =>
    rw [hoption] at hdry
    exact ⟨hall, hthen, hdry, fun b hb => by cases hb⟩
  | false =>
    rw [hoption] at hdry
    exact ⟨allSum_of_builds hall rfl, hthen, hdry, fun b hb => by cases hb⟩

theorem balances_claiming (hrows : s.AllSum lower source) (options : RebuildOptions) :
    Balances lower source inst (.claiming options) s ((Phase.claiming options).act lower source inst s) := by
  rw [Phase.act]
  cases hclaim : s.claim inst options with
  | error e => exact balances_ended hrows rfl trivial rfl
  | ok claimed =>
    rcases claim_ok hclaim with ⟨id, -, rfl⟩ | rfl | ⟨id, -, rfl⟩
    · exact balances_ended hrows rfl trivial rfl
    · exact balances_created hrows (follows_of_builds rfl) options
    · have hplain := plain_supersede s.now
      exact balances_created (allSum_update hrows fun build hbuild => hplain.sums (hrows id build hbuild))
        (follows_update fun build _ => hplain.follows _ build) options

theorem balances_totalling {dryRun : Bool} {triggeredBy : Option String} {counts : EntityCounts}
    (hrows : s.AllSum lower source) (hdry : s.IsDryRun id dryRun) (hcounts : counts = source.countDocuments) :
    Balances lower source inst (.totalling id dryRun triggeredBy counts) s
      ((Phase.totalling id dryRun triggeredBy counts).act lower source inst s) := by
  subst hcounts
  obtain ⟨build, hbuild, hmode⟩ := hdry
  rw [Phase.act]
  cases hdb : s.db with
  | error e => exact balances_ended hrows rfl trivial rfl
  | ok _ =>
    cases dryRun with
    | true =>
      have hbuildDry : ∀ other, s.builds[id]? = some other → other.mode = .dryRun := by
        intro other hother
        rw [hbuild] at hother
        cases hother
        exact hmode
      refine ⟨allSum_update hrows fun other hother => ?_, follows_update fun other hother => ?_, trivial,
        fun b hb => by cases hb⟩
      · have hno : other.mode ≠ .rebuild := by
          rw [hbuildDry other hother]
          decide
        exact ⟨fun h => absurd h hno, fun h => absurd h hno, fun h => absurd h hno, fun _ => ⟨rfl, .inr rfl⟩⟩
      · have hdrySums := (hrows id other hother).dry (hbuildDry other hother)
        refine ⟨rfl, rfl, .inr rfl, ?_, fun h => ?_⟩
        · change other.processedDocuments ≤ source.countDocuments.total
          omega
        · rw [hbuildDry other hother] at h
          cases h
    | false =>
      have hbuildMode : ∀ other, s.builds[id]? = some other → other.mode = .rebuild := by
        intro other hother
        rw [hbuild] at hother
        cases hother
        exact hmode
      refine ⟨allSum_of_builds (allSum_update (f := .total source.countDocuments) hrows fun other hother => ?_) rfl,
        follows_update (f := .total source.countDocuments) fun other hother => ?_, trivial, fun b hb => by cases hb⟩
      · have hsums := hrows id other hother
        refine ⟨hsums.left, fun h => (hsums.begun h).imp_right fun hbegun => ⟨rfl, hbegun.2⟩, fun h hstatus => ?_, fun h => ?_⟩
        · obtain ⟨hprocessed, htotal⟩ := hsums.completed h hstatus
          exact ⟨hprocessed.trans htotal, rfl⟩
        · rw [total] at h
          rw [hbuildMode other hother] at h
          cases h
      · exact ⟨rfl, rfl, .inr rfl, le_refl _, fun _ _ => rfl⟩

theorem balances_loading (hrows : s.AllSum lower source)
    (hready : ∀ build, s.Loads inst id → s.builds[id]? = some build → Ready lower source w id build) :
    Balances lower source inst (.loading id) s ((Phase.loading id).act lower source inst s) := by
  rw [Phase.act]
  cases hdb : s.db with
  | error e => exact balances_ended hrows rfl trivial rfl
  | ok _ =>
    cases hbuild : s.builds[id]? with
    | none => exact balances_ended hrows rfl trivial rfl
    | some build =>
      dsimp only
      split
      · exact balances_ended hrows rfl trivial rfl
      · rename_i hguard
        obtain ⟨hdry, hstatus, hother⟩ := not_or.mp hguard |>.imp_right not_or.mp
        have hmode : build.mode = .rebuild := by
          cases hmode : build.mode with
          | dryRun => exact absurd hmode hdry
          | rebuild => rfl
        have hloads : s.Loads inst id := by
          refine ⟨by rw [hdb]; rfl, ?_, ?_, ?_⟩
          · rw [Store.IsRunning, hbuild, Option.map_some, not_not.mp hstatus]
          · rw [hbuild, Option.map_some, hmode]
          · cases hslot : s.activeBuildId inst with
            | none => rfl
            | some other =>
              rw [hslot] at hother
              simpa using hother
        have hr := hready build hloads hbuild
        have hsums := hrows id build hbuild
        have hnodup := nodup_resolveEntityTypes build.entityTypes
        have hsize : source.remainingOf lower (resolveEntityTypes build.entityTypes) emptyCheckpoint =
            source.countDocuments.total := remainingOf_start hr.fits hnodup
        refine ⟨allSum_of_builds hrows rfl, follows_of_builds rfl, ?_, fun b hb => .inr ?_⟩
        · refine index_accounts ⟨⟨build, hbuild, hmode, rfl, hr.total, le_refl _⟩,
            clampBatchSize_pos (some build.batchSize), hr.named, hsize,
            (hsums.left hmode).trans hsize⟩ _ ⟨hnodup, fun t ht => ht, fun hmem hdone r hleft => ?_⟩ fun t ht => .inl ht
          exact iff_of_false not_mem_nil (hr.unseen hmem hdone r hleft)
        · rw [index_carries] at hb
          cases hb
          exact ⟨rfl, hloads⟩

theorem balances_persisting (hrows : s.AllSum lower source) (h : s.Scanning lower source job progress entityType rest seen) :
    Balances lower source inst (.persisting job progress entityType rest seen) s
      ((Phase.persisting job progress entityType rest seen).act lower source inst s) := by
  obtain ⟨⟨build, hbuild, hmode, htypes, htotal, hprocessed⟩, hpos, hnamed, hsize, hleft⟩ := h.working
  rw [Phase.act]
  cases hdb : s.db with
  | error e => exact balances_ended hrows rfl trivial rfl
  | ok _ =>
    have hsame : ∀ other, s.builds[job.id]? = some other → other = build := by
      intro other hother
      rw [hbuild] at hother
      exact (Option.some.inj hother).symm
    have hworking : (s.update job.id (.persist progress.checkpoint progress.processed s.now)).Working lower source job
        progress := by
      refine ⟨⟨_, get_update hbuild, ?_⟩, hpos, hnamed, hsize, hleft⟩
      rw [if_pos rfl]
      exact ⟨hmode, htypes, htotal, le_refl _⟩
    have hnext : (if (progress.checkpoint entityType).done then index job progress rest
        else scanning job progress entityType rest seen).Accounts lower source
          (s.update job.id (.persist progress.checkpoint progress.processed s.now)) ∧
        (if (progress.checkpoint entityType).done then index job progress rest
          else scanning job progress entityType rest seen).carries = some job.id := by
      by_cases hdone : (progress.checkpoint entityType).done = true
      · rw [if_pos hdone]
        refine ⟨index_accounts hworking rest h.todo fun t ht => ?_, index_carries job progress rest⟩
        rcases h.done t ht with rfl | hmem | hthen
        · exact .inr hdone
        · exact .inl hmem
        · exact .inr hthen
      · rw [if_neg hdone]
        exact ⟨⟨⟨hworking, h.todo, h.mem, h.alone, h.done, h.seen⟩, Bool.eq_false_iff.mpr hdone⟩, rfl⟩
    refine ⟨allSum_update hrows fun other hother => ?_, follows_update fun other hother => ?_, hnext.1,
      fun b hb => .inl (hnext.2.symm.trans hb)⟩
    · rw [hsame other hother]
      have hbuildSize : build.size lower source = source.countDocuments.total := by
        rw [size, ← htypes]
        exact hsize
      refine ⟨fun _ => ?_, fun _ => .inr ⟨htotal, hbuildSize⟩, fun hrebuild hstatus => ⟨?_, htotal⟩, fun hdry => ?_⟩
      · change progress.processed + source.remainingOf lower (resolveEntityTypes build.entityTypes) progress.checkpoint =
          build.size lower source
        rw [← htypes, hbuildSize, hleft]
      · -- a build that is completed had processed everything before
        obtain ⟨hall, -⟩ := (hrows job.id build hbuild).completed hrebuild hstatus
        change progress.processed = build.totalDocuments
        omega
      · rw [persist, hmode] at hdry
        cases hdry
    · rw [hsame other hother]
      exact ⟨rfl, rfl, .inl rfl, hprocessed, fun _ hno => absurd rfl hno⟩

theorem balances_completing (hrows : s.AllSum lower source) (h : s.Working lower source job progress)
    (hdone : ∀ t ∈ job.entityTypes, (progress.checkpoint t).done = true) :
    Balances lower source inst (.completing job progress) s ((Phase.completing job progress).act lower source inst s) := by
  obtain ⟨⟨build, hbuild, hmode, htypes, htotal, hprocessed⟩, hpos, hnamed, hsize, hleft⟩ := h
  rw [Phase.act]
  cases hdb : s.db with
  | error e => exact balances_ended hrows rfl trivial rfl
  | ok _ =>
    have hsame : ∀ other, s.builds[job.id]? = some other → other = build := by
      intro other hother
      rw [hbuild] at hother
      exact (Option.some.inj hother).symm
    have hall : progress.processed = source.countDocuments.total := by
      rw [remainingOf_done hdone, Nat.add_zero] at hleft
      exact hleft
    refine ⟨allSum_update hrows fun other hother => ?_, follows_update fun other hother => ?_, trivial,
      fun b hb => by cases hb⟩
    · rw [hsame other hother]
      have hbuildSize : build.size lower source = source.countDocuments.total := by
        rw [size, ← htypes]
        exact hsize
      refine ⟨fun _ => ?_, fun _ => .inr ⟨htotal, hbuildSize⟩, fun _ _ => ⟨hall.trans htotal.symm, htotal⟩, fun hdry => ?_⟩
      · change progress.processed + source.remainingOf lower (resolveEntityTypes build.entityTypes) progress.checkpoint =
          build.size lower source
        rw [← htypes, hbuildSize, hleft]
      · rw [complete, hmode] at hdry
        cases hdry
    · rw [hsame other hother]
      exact ⟨rfl, rfl, .inl rfl, hprocessed, fun _ hno => absurd rfl hno⟩

theorem balances_fails (hrows : s.AllSum lower source) (id : ℕ) (message : String) :
    Balances lower source inst phase s (.failing id message, s) :=
  balances_ended hrows rfl trivial rfl

theorem act_balances {phase : Phase} (hrows : s.AllSum lower source) (hphase : phase.Accounts lower source s)
    (hready : ∀ id build, phase = .loading id → s.Loads inst id → s.builds[id]? = some build →
      Ready lower source w id build) : Balances lower source inst phase s (phase.act lower source inst s) := by
  cases phase with
  | claiming options => exact balances_claiming hrows options
  | counting id dryRun triggeredBy =>
    rw [Phase.act]
    cases hdb : s.db with
    | error e => exact balances_ended hrows rfl trivial rfl
    | ok _ => exact balances_ended hrows rfl ⟨hphase, rfl⟩ rfl
  | totalling id dryRun triggeredBy counts => exact balances_totalling hrows hphase.1 hphase.2
  | auditingDryRun => exact balances_ended hrows rfl trivial rfl
  | resuming id triggeredBy =>
    rw [Phase.act]
    split
    · exact balances_ended hrows rfl trivial rfl
    · exact balances_ended hrows rfl trivial rfl
    · split
      · exact balances_ended hrows rfl trivial rfl
      · split
        · exact balances_ended hrows rfl trivial rfl
        · exact balances_ended hrows rfl trivial rfl
  | retriggering id triggeredBy =>
    rw [Phase.act]
    cases hdb : s.db with
    | error e => exact balances_ended hrows rfl trivial rfl
    | ok _ => exact balances_plain hrows (plain_retrigger triggeredBy) trivial rfl rfl
  | booting =>
    rw [Phase.act]
    split
    · exact balances_ended hrows rfl trivial rfl
    · exact balances_ended hrows rfl trivial rfl
    · split
      · exact balances_ended hrows rfl trivial rfl
      · exact balances_ended hrows rfl trivial rfl
  | loading id => exact balances_loading hrows fun build => hready id build rfl
  | scanning job progress entityType rest seen =>
    rw [Phase.act]
    cases hdb : s.db with
    | error e => exact balances_fails hrows job.id e
    | ok _ =>
      have hcounted : Counted lower source entityType (progress.checkpoint entityType).cursor
          (scanEntityBatch lower source entityType (progress.checkpoint entityType).cursor job.batchSize seen) :=
        scanEntityBatch_counted entityType hphase.1.working.named hphase.1.working.batch
          fun hrecipient => hphase.1.seen hrecipient hphase.2
      exact balances_same hrows rfl (upsert_accounts (scanning_batch hphase.1 hphase.2 hcounted)) fun b hb => by
        rw [upsert_carries] at hb
        exact hb
  | upserting job progress entityType rest seen record records =>
    rw [Phase.act]
    cases hdb : s.db with
    | error e => exact balances_fails hrows job.id e
    | ok _ =>
      have hkept : (s.upsertEntry record job.id).Scanning lower source job progress entityType rest seen :=
        ⟨⟨hphase.working.build, hphase.working.batch, hphase.working.named, hphase.working.size, hphase.working.left⟩,
          hphase.todo, hphase.mem, hphase.alone, hphase.done, hphase.seen⟩
      exact balances_same hrows rfl (upsert_accounts hkept) fun b hb => by
        rw [upsert_carries] at hb
        exact hb
  | persisting job progress entityType rest seen => exact balances_persisting hrows hphase
  | purging job progress entityType rest =>
    rw [Phase.act]
    cases hdb : s.db with
    | error e => exact balances_fails hrows job.id e
    | ok _ =>
      have hkept : (s.deleteStale entityType job.id).Working lower source job progress :=
        ⟨hphase.1.build, hphase.1.batch, hphase.1.named, hphase.1.size, hphase.1.left⟩
      exact balances_same hrows rfl (purge_accounts hkept hphase.2) fun b hb => by
        rw [purge_carries] at hb
        exact hb
  | completing job progress => exact balances_completing hrows hphase.1 hphase.2
  | auditing job =>
    rw [Phase.act]
    cases hdb : s.db with
    | error e => exact balances_fails hrows job.id e
    | ok _ => exact balances_ended hrows (release_builds s inst job.id) trivial rfl
  | failing id message =>
    rw [Phase.act]
    cases hdb : s.db with
    | error e => exact balances_ended hrows (release_builds s inst id) trivial rfl
    | ok _ => exact balances_plain hrows (plain_fail message s.now) trivial rfl (release_builds _ inst id)
  | ended => exact balances_ended hrows rfl trivial rfl

end Act
section Runs
variable {lower : String → String} {source : Source} {w' : World} {tr : List RebuildTransition}

variable (lower source) in
structure World.Balanced (w : World) : Prop where
  rows : w.store.AllSum lower source
  calls : ∀ worker ∈ w.workers, worker.phase.Accounts lower source w.store
  alone : Exclusive (fun (worker : Worker) b => worker.phase.carries = some b) w.workers

theorem World.Balanced.start (h : w.Balanced lower source) {worker : Worker}
    (haccounts : worker.phase.Accounts lower source w.store) (hcarries : worker.phase.carries = none) :
    World.Balanced lower source { w with workers := w.workers ++ [worker] } where
  rows := h.rows
  calls other hother := by
    rcases mem_append.mp hother with hother | hother
    · exact h.calls other hother
    · rw [mem_singleton.mp hother]
      exact haccounts
  alone := h.alone.snoc fun b hb => by
    rw [hcarries] at hb
    cases hb

theorem World.Balanced.crash (h : w.Balanced lower source) (inst : ℕ) : World.Balanced lower source
      { store := w.store.setActive inst none, workers := w.workers.map (Worker.crash inst) } where
  rows := allSum_of_builds h.rows rfl
  calls worker hworker := by
    obtain ⟨before, hbefore, rfl⟩ := mem_map.mp hworker
    rw [Worker.crash]
    split
    · trivial
    · exact accounts_of_builds (h.calls before hbefore) rfl
  alone i j worker worker' b hi hj hb hb' := by
    have hbefore : ∀ {k : ℕ} {after : Worker}, (w.workers.map (Worker.crash inst))[k]? = some after →
        after.phase.carries = some b → ∃ before, w.workers[k]? = some before ∧ before.phase.carries = some b := by
      intro k after hk hcarries
      rw [getElem?_map] at hk
      obtain ⟨before, hbefore, rfl⟩ := Option.map_eq_some_iff.mp hk
      rw [Worker.crash] at hcarries
      split at hcarries
      · cases hcarries
      · exact ⟨before, hbefore, hcarries⟩
    obtain ⟨old, hold, hcarries⟩ := hbefore hi hb
    obtain ⟨old', hold', hcarries'⟩ := hbefore hj hb'
    exact h.alone i j old old' b hold hold' hcarries hcarries'

theorem World.Balanced.advance (h : w.Balanced lower source) {i : ℕ} {worker : Worker}
    (hi : w.workers[i]? = some worker) {phase' : Phase} {s' : Store}
    (hacts : Balances lower source worker.inst worker.phase w.store (phase', s'))
    (hfree : ∀ b, worker.phase = .loading b → w.store.Loads worker.inst b →
      ∀ other ∈ w.workers, other.phase.carries ≠ some b) :
    World.Balanced lower source { store := s', workers := w.workers.set i { worker with phase := phase' } } where
  rows := hacts.rows
  calls := by
    refine forall_mem_set hacts.accounts fun j other hji hj => ?_
    refine hacts.follows.accounts (fun b hb => ?_) (h.calls other (mem_of_getElem? hj))
    exact fun hcarries => h.alone.other hi hji hj hcarries hb
  alone := h.alone.set hi fun b hb => (hacts.carries b hb).imp_right fun hloads => hfree b hloads.1 hloads.2

theorem step_balanced {event : Event} (hstep : w.Step lower source event w')
    (hready : LoadsReady lower source ⟨w, event, w'⟩) (h : w.Balanced lower source) :
    w'.Balanced lower source ∧ ∃ carried, w.store.Follows source carried w'.store := by
  cases event with
  | startRebuild inst options =>
    cases hstep
    exact ⟨h.start trivial rfl, none, follows_of_builds rfl⟩
  | onModuleInit inst =>
    cases hstep
    exact ⟨h.start trivial rfl, none, follows_of_builds rfl⟩
  | advance i =>
    simp only [World.Step, World.take] at hstep
    cases hi : w.workers[i]? with
    | none =>
      rw [hi] at hstep
      cases hstep
    | some worker =>
      rw [hi] at hstep
      cases hstep
      have hloads : ∀ id build, worker.phase = .loading id → w.store.Loads worker.inst id →
          w.store.builds[id]? = some build → Ready lower source w id build :=
        fun id build hphase hl hbuild => hready worker hi id (by rw [hphase]; rfl) hl build hbuild
      have hacts : Balances lower source worker.inst worker.phase w.store
          (worker.phase.act lower source worker.inst w.store) :=
        act_balances h.rows (h.calls worker (mem_of_getElem? hi)) hloads
      refine ⟨h.advance hi hacts fun b hphase hl => ?_, _, hacts.follows⟩
      obtain ⟨build, hbuild, -⟩ := Option.map_eq_some_iff.mp hl.2.1
      exact (hloads b build hphase hl hbuild).alone
  | crash inst =>
    cases hstep
    exact ⟨h.crash inst, none, follows_of_builds rfl⟩
  | elapse d =>
    cases hstep
    exact ⟨⟨allSum_of_builds h.rows rfl, fun worker hworker => accounts_of_builds (h.calls worker hworker) rfl,
      h.alone⟩, none, follows_of_builds rfl⟩
  | foresee db locked =>
    cases hstep
    exact ⟨⟨allSum_of_builds h.rows rfl, fun worker hworker => accounts_of_builds (h.calls worker hworker) rfl,
      h.alone⟩, none, follows_of_builds rfl⟩

theorem balanced_of_run (hs : s.builds = []) (hrun : Run (World.Step lower source) { store := s } tr w)
    (hready : ∀ t ∈ tr, LoadsReady lower source t) {t : RebuildTransition} (ht : t ∈ tr) :
    t.pre.Balanced lower source ∧ t.post.Balanced lower source := by
  have hidle : World.Balanced lower source { store := s } := by
    refine ⟨fun b build hbuild => ?_, fun _ hworker => absurd hworker not_mem_nil, .nil⟩
    rw [hs] at hbuild
    cases hbuild
  exact hrun.invariant_at hidle hready (fun t hstep hC hpre => (step_balanced hstep hC hpre).1) ht

theorem addsUp_of_ready (hs : s.builds = []) (hrun : Run (World.Step lower source) { store := s } tr w)
    (hready : ∀ t ∈ tr, LoadsReady lower source t) : AddsUp tr where
  completed t ht b build hbuild hstatus :=
    ((balanced_of_run hs hrun hready ht).2.rows b build hbuild).of_completed hstatus
  bounded t ht b build hbuild := ((balanced_of_run hs hrun hready ht).2.rows b build hbuild).bounded
  grows t ht b build build' hbuild hbuild' := by
    obtain ⟨-, carried, hfollows⟩ :=
      step_balanced (hrun.step_of_mem ht) (hready t ht) (balanced_of_run hs hrun hready ht).1
    obtain ⟨next, hnext, hfollow⟩ := hfollows b build hbuild
    rw [hbuild'] at hnext
    cases hnext
    exact hfollow.grows

def resumption (entityTypes : List SearchIndexEntityType) (before after : List ℕ) : List RebuildTransition × World :=
  play (World.take id oneCampaign) { store := {} }
    ([.startRebuild 0 { entityTypes }] ++ before.map .advance ++ [.crash 0, .elapse 300001, .onModuleInit 0] ++
      after.map .advance)

theorem resumption_run (entityTypes : List SearchIndexEntityType) (before after : List ℕ) :
    Run (World.Step id oneCampaign) { store := {} } (resumption entityTypes before after).1
      (resumption entityTypes before after).2 :=
  play_run (fun _ _ _ h => h) _ _

theorem addsUp_resumption : AddsUp (resumption [.campaign] [0, 0, 0, 0, 0, 0, 0] [1, 1, 1, 1, 1, 1, 1]).1 := by
  refine addsUp_of_ready rfl (resumption_run _ _ _) fun t ht => ?_
  have hfound : ∀ t ∈ (resumption [.campaign] [0, 0, 0, 0, 0, 0, 0] [1, 1, 1, 1, 1, 1, 1]).1,
      ∀ worker ∈ t.pre.workers, ∀ id ∈ worker.phase.loads, ∀ build ∈ t.pre.store.builds[id]?,
        build.entityTypes = [.campaign] ∧ build.totalDocuments = 1 ∧
          ∀ other ∈ t.pre.workers, other.phase.carries ≠ some id := by decide +kernel
  have hfits : oneCampaign.Fits (resolveEntityTypes [.campaign]) := by
    refine ⟨fun t ht => ?_, fun _ => by decide +kernel, fun h => ?_, fun h => ?_, fun h => ?_⟩
    · cases t with
      | campaign => exact absurd (by decide) ht
      | _ => decide +kernel
    · exact absurd h (by decide)
    · exact absurd h (by decide)
    · exact absurd h (by decide)
  have hnamed : oneCampaign.Named := ⟨by decide, by decide, by decide⟩
  rw [LoadsReady]
  split
  · intro worker hworker id hid _ build hbuild
    obtain ⟨htypes, htotal, halone⟩ := hfound t ht worker (mem_of_getElem? hworker) id hid build hbuild
    refine ⟨hnamed, ?_, ?_, halone, fun h => ?_⟩
    · rw [htotal]
      decide +kernel
    · rw [htypes]
      exact hfits
    · rw [htypes] at h
      exact absurd h (by decide)
  · trivial

theorem claims_never_add_up : ¬ AddsUp (resumption [.claim] [0, 0, 0, 0, 0, 0, 0, 0] []).1 := by
  intro h
  have hcompleted : ∃ t ∈ (resumption [.claim] [0, 0, 0, 0, 0, 0, 0, 0] []).1, ∃ build ∈ t.post.store.builds[0]?,
      build.status = .completed ∧ build.processedDocuments ≠ build.totalDocuments := by decide +kernel
  obtain ⟨t, ht, build, hbuild, hstatus, hne⟩ := hcompleted
  exact hne (h.completed t ht 0 build hbuild hstatus)

end Runs
end Soter.Search
