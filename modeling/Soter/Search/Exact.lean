import Soter.Search.Rebuild

/-! When a rebuilt index is what the source says. -/
namespace Soter.Search
open Soter.Keyset Soter.Runs List Phase

variable (lower : String → String) (source : Source)

namespace Store
variable (s : Store)

def IsExact (entityType : SearchIndexEntityType) : Prop :=
  ∀ record : IndexRecord, record.entityType = entityType →
    s.entries.countP (·.record = record) = if record ∈ source.records lower entityType then 1 else 0

def rebuilds : ℕ := s.builds.countP (·.mode = .rebuild)

def isSuperseded (id : ℕ) : Bool := (s.builds.drop (id + 1)).any (·.mode = .rebuild)

end Store

def World.marks (w : World) : Event → Option ℕ
  | .advance i =>
    match w.workers[i]? with
    | some ⟨_, .completing job _⟩ => if w.store.db.isOk then some job.id else none
    | _ => none
  | _ => none

/-- From the step that marks a build as completed, and until the next rebuild starts, the index is exact for the types of
the build. -/
def Rebuilt (tr : List RebuildTransition) : Prop :=
  ∀ before t between after, tr = before ++ t :: (between ++ after) → ∀ id, t.pre.marks t.label = some id →
    (∀ u ∈ between, u.post.store.rebuilds = u.pre.store.rebuilds) → ∀ build, t.post.store.builds[id]? = some build →
      ∀ u ∈ t :: between, ∀ entityType ∈ build.entityTypes, u.post.store.IsExact lower source entityType

def Phase.writes : Phase → Option ℕ
  | .upserting job .. | .purging job .. => some job.id
  | _ => none

def Orderly (t : RebuildTransition) : Prop :=
  match t.label with
  | .advance i => t.pre.store.db.isOk = true → ∀ worker ∈ t.pre.workers[i]?, ∀ id ∈ worker.phase.writes,
      t.pre.store.isSuperseded id = false
  | _ => True

instance (t : RebuildTransition) : Decidable (Orderly t) :=
  match t with
  | ⟨pre, .advance i, _⟩ => inferInstanceAs (Decidable (pre.store.db.isOk = true → ∀ worker ∈ pre.workers[i]?,
      ∀ id ∈ worker.phase.writes, pre.store.isSuperseded id = false))
  | ⟨_, .startRebuild .., _⟩ | ⟨_, .onModuleInit _, _⟩ | ⟨_, .crash _, _⟩ | ⟨_, .elapse _, _⟩ | ⟨_, .foresee .., _⟩ =>
    .isTrue trivial

section Covers
variable {lower source} {s s' : Store} {b : ℕ} {r : IndexRecord} {entityType : SearchIndexEntityType}

def Store.IsRebuild (s : Store) (b : ℕ) : Prop := ∃ build, s.builds[b]? = some build ∧ build.mode = .rebuild

def Store.Covers (s : Store) (b : ℕ) (r : IndexRecord) : Prop :=
  ∃ entry ∈ s.entries, entry.record = r ∧ (s.isSuperseded b = false → entry.buildId = b)

variable (lower source) in
def Store.IsClean (s : Store) (entityType : SearchIndexEntityType) : Prop :=
  ∀ entry ∈ s.entries, entry.record.entityType = entityType → entry.record ∈ source.records lower entityType

variable (lower source) in
/-- The entries of the builds from `base` on are those of the source, and no two have one key. -/
structure Store.IsSane (base : ℕ) (s : Store) : Prop where
  keys : (s.entries.map (·.record.key)).Nodup
  genuine : ∀ entry ∈ s.entries, base ≤ entry.buildId → entry.record ∈ source.records lower entry.record.entityType

variable {f : SearchIndexBuild → SearchIndexBuild} {id : ℕ}

theorem IsRebuild.eq {b b' : ℕ} (h : s.IsRebuild b) (h' : s.IsRebuild b') (hb : s.isSuperseded b = false)
    (hb' : s.isSuperseded b' = false) : b = b' := by
  have hlater : ∀ {a c : ℕ}, s.IsRebuild c → s.isSuperseded a = false → ¬ a < c := by
    intro a c hc ha hlt
    obtain ⟨build, hbuild, hmode⟩ := hc
    have hmem : build ∈ s.builds.drop (a + 1) := by
      apply mem_of_getElem? (i := c - (a + 1))
      rw [getElem?_drop, Nat.add_sub_cancel' hlt]
      exact hbuild
    have hany : (s.builds.drop (a + 1)).any (·.mode = .rebuild) = true :=
      any_eq_true.mpr ⟨build, hmem, decide_eq_true hmode⟩
    rw [Store.isSuperseded, hany] at ha
    cases ha
  exact le_antisymm (not_lt.mp (hlater h hb')) (not_lt.mp (hlater h' hb))

variable (lower source) in
structure Advances (s s' : Store) : Prop where
  covers : ∀ b entityType, s.IsRebuild b → ∀ r ∈ source.records lower entityType, s.Covers b r → s'.Covers b r
  clean : ∀ entityType, s.IsClean lower source entityType → s'.IsClean lower source entityType
  builds : ∀ (b : ℕ) (build : SearchIndexBuild), s.builds[b]? = some build → ∃ build' : SearchIndexBuild,
    s'.builds[b]? = some build' ∧ build'.mode = build.mode ∧ build'.entityTypes = build.entityTypes

theorem Advances.isRebuild (h : Advances lower source s s') (hb : s.IsRebuild b) : s'.IsRebuild b := by
  obtain ⟨build, hbuild, hmode⟩ := hb
  obtain ⟨build', hbuild', hmode', -⟩ := h.builds b build hbuild
  exact ⟨build', hbuild', hmode'.trans hmode⟩

theorem isSuperseded_map (s : Store) (b : ℕ) :
    s.isSuperseded b = ((s.builds.map (·.mode)).drop (b + 1)).any (· = .rebuild) := by
  rw [Store.isSuperseded, ← map_drop, any_map]
  rfl

theorem isSuperseded_of_map (h : s'.builds.map (·.mode) = s.builds.map (·.mode)) (b : ℕ) :
    s'.isSuperseded b = s.isSuperseded b := by
  rw [isSuperseded_map, isSuperseded_map, h]

theorem advances_of_entries (hentries : s'.entries = s.entries)
    (hsuperseded : ∀ b, s'.isSuperseded b = false → s.isSuperseded b = false)
    (hbuilds : ∀ (b : ℕ) (build : SearchIndexBuild), s.builds[b]? = some build → ∃ build' : SearchIndexBuild,
      s'.builds[b]? = some build' ∧ build'.mode = build.mode ∧ build'.entityTypes = build.entityTypes) :
    Advances lower source s s' where
  covers b _ _ r _ hcovers := by
    obtain ⟨entry, hentry, hrecord, htag⟩ := hcovers
    refine ⟨entry, ?_, hrecord, fun hlatest => htag (hsuperseded b hlatest)⟩
    rw [hentries]
    exact hentry
  clean entityType hclean := by
    rw [Store.IsClean, hentries]
    exact hclean
  builds := hbuilds

theorem advances_of_eq (hentries : s'.entries = s.entries) (hbuilds : s'.builds = s.builds) : Advances lower source s s' := by
  refine advances_of_entries hentries (fun b hb => ?_) fun b build hbuild => ⟨build, ?_, rfl, rfl⟩
  · rw [Store.isSuperseded, hbuilds] at hb
    exact hb
  · rw [hbuilds]
    exact hbuild

theorem Advances.refl (s : Store) : Advances lower source s s := advances_of_eq rfl rfl

theorem Advances.trans {s'' : Store} (h : Advances lower source s s') (h' : Advances lower source s' s'') :
    Advances lower source s s'' where
  covers b entityType hb r hr hcovers := h'.covers b entityType (h.isRebuild hb) r hr (h.covers b entityType hb r hr hcovers)
  clean entityType hclean := h'.clean entityType (h.clean entityType hclean)
  builds b build hbuild := by
    obtain ⟨build', hbuild', hmode, htypes⟩ := h.builds b build hbuild
    obtain ⟨build'', hbuild'', hmode', htypes'⟩ := h'.builds b build' hbuild'
    exact ⟨build'', hbuild'', hmode'.trans hmode, htypes'.trans htypes⟩

structure Keeps (f : SearchIndexBuild → SearchIndexBuild) : Prop where
  mode : ∀ build, (f build).mode = build.mode
  entityTypes : ∀ build, (f build).entityTypes = build.entityTypes

theorem update_get {build' : SearchIndexBuild}
    (h : (s.update id f).builds[b]? = some build') : ∃ build, s.builds[b]? = some build ∧
      (b = id ∧ build' = { f build with updatedAt := s.now } ∨ b ≠ id ∧ build' = build) := by
  rw [Store.update, getElem?_modify, Option.map_eq_map] at h
  obtain ⟨build, hbuild, hf⟩ := Option.map_eq_some_iff.mp h
  refine ⟨build, hbuild, ?_⟩
  by_cases hid : id = b
  · rw [if_pos hid] at hf
    exact .inl ⟨hid.symm, hf.symm⟩
  · rw [if_neg hid] at hf
    exact .inr ⟨fun h => hid h.symm, hf.symm⟩

theorem get_update {build : SearchIndexBuild} (h : s.builds[b]? = some build) : (s.update id f).builds[b]? =
      some (if id = b then { f build with updatedAt := s.now } else build) := by
  rw [Store.update, getElem?_modify, h, Option.map_eq_map, Option.map_some]

theorem update_modes (hf : Keeps f) (id : ℕ) : (s.update id f).builds.map (·.mode) = s.builds.map (·.mode) := by
  apply ext_getElem?
  intro n
  rw [getElem?_map, getElem?_map]
  cases hn : s.builds[n]? with
  | none =>
    rw [Store.update, getElem?_modify, hn]
    rfl
  | some build =>
    rw [get_update hn]
    by_cases hid : id = n
    · rw [if_pos hid]
      exact congrArg some (hf.mode build)
    · rw [if_neg hid]

theorem update_advances (hf : Keeps f) (id : ℕ) : Advances lower source s (s.update id f) := by
  refine advances_of_entries rfl (fun b hb => ?_) fun b build hbuild => ?_
  · rw [isSuperseded_of_map (update_modes hf id)] at hb
    exact hb
  · refine ⟨_, get_update hbuild, ?_⟩
    by_cases hid : id = b
    · rw [if_pos hid]
      exact ⟨hf.mode build, hf.entityTypes build⟩
    · rw [if_neg hid]
      exact ⟨rfl, rfl⟩

theorem setActive_advances (s : Store) (inst : ℕ) (id : Option ℕ) : Advances lower source s (s.setActive inst id) :=
  advances_of_eq rfl rfl

theorem createBuild_advances (s : Store) (options : RebuildOptions) : Advances lower source s (s.createBuild options).2 := by
  refine advances_of_entries rfl (fun b hb => ?_) fun b build hbuild => ⟨build, ?_, rfl, rfl⟩
  · -- a build that nothing has superseded now was not superseded before
    rw [Store.isSuperseded, any_eq_false] at hb ⊢
    intro build hbuild
    refine hb build ?_
    change build ∈ (s.builds ++ _).drop (b + 1)
    rw [drop_append]
    exact mem_append_left _ hbuild
  · exact (List.getElem?_append_left (List.getElem?_eq_some_iff.mp hbuild).1).trans hbuild

end Covers
section Writes
variable {lower source} {s : Store} {base b : ℕ} {r : IndexRecord} {entityType : SearchIndexEntityType}

variable {entry : SearchIndexEntry}

theorem mem_upsertEntry {record : IndexRecord} : entry ∈ (s.upsertEntry record b).entries ↔
      entry = ⟨record, b⟩ ∨ entry ∈ s.entries ∧ entry.record.key ≠ record.key :=
  mem_upsert

theorem upsertEntry_covers (s : Store) (record : IndexRecord) (b : ℕ) : (s.upsertEntry record b).Covers b record :=
  ⟨⟨record, b⟩, mem_upsertEntry.mpr (.inl rfl), rfl, fun _ => rfl⟩

theorem upsertEntry_advances (hr : r ∈ source.records lower entityType) (hb : s.IsRebuild b)
    (hlatest : s.isSuperseded b = false) : Advances lower source s (s.upsertEntry r b) where
  covers b' entityType' hb' r' hr' hcovers := by
    obtain ⟨entry, hentry, hrecord, htag⟩ := hcovers
    by_cases hkey : entry.record.key = r.key
    · -- the entry is written anew with the same record
      have htype : entityType' = entityType := by
        rw [← records_entityType hr, ← records_entityType hr', ← hrecord]
        exact congrArg (·.1) hkey
      have hsame : r' = r := by
        subst htype
        rw [← hrecord]
        exact records_key_inj (hrecord ▸ hr') hr hkey
      refine ⟨⟨r, b⟩, mem_upsertEntry.mpr (.inl rfl), hsame.symm, fun hlatest' => ?_⟩
      exact IsRebuild.eq hb hb' hlatest hlatest'
    · exact ⟨entry, mem_upsertEntry.mpr (.inr ⟨hentry, hkey⟩), hrecord, htag⟩
  clean entityType' hclean := by
    intro entry hentry htype
    rcases mem_upsertEntry.mp hentry with rfl | ⟨hold, -⟩
    · have hrtype : entityType = entityType' := (records_entityType hr).symm.trans htype
      rw [← hrtype]
      exact hr
    · exact hclean entry hold htype
  builds _ build hbuild := ⟨build, hbuild, rfl, rfl⟩

theorem upsertEntry_sane (h : s.IsSane lower source base) (hr : r ∈ source.records lower entityType) :
    (s.upsertEntry r b).IsSane lower source base where
  keys := nodup_upsert h.keys
  genuine entry hentry htag := by
    rcases mem_upsertEntry.mp hentry with rfl | ⟨hold, -⟩
    · change r ∈ source.records lower r.entityType
      rw [records_entityType hr]
      exact hr
    · exact h.genuine entry hold htag

theorem mem_deleteStale : entry ∈ (s.deleteStale entityType b).entries ↔
    entry ∈ s.entries ∧ ¬ (entry.record.entityType = entityType ∧ entry.buildId ≠ b) := by
  rw [Store.deleteStale, mem_filter]
  exact and_congr_right fun _ => decide_eq_true_iff

theorem deleteStale_advances (hall : ∀ r ∈ source.records lower entityType, s.Covers b r) (hb : s.IsRebuild b)
    (hlatest : s.isSuperseded b = false) : Advances lower source s (s.deleteStale entityType b) where
  covers b' entityType' hb' r' hr' hcovers := by
    obtain ⟨entry, hentry, hrecord, htag⟩ := hcovers
    by_cases hdeleted : entry.record.entityType = entityType ∧ entry.buildId ≠ b
    · -- the build that purges has an entry of its own for the record
      have htype : entityType' = entityType := by
        rw [← records_entityType hr', ← hrecord]
        exact hdeleted.1
      subst htype
      obtain ⟨own, hown, hrecord', htag'⟩ := hall r' hr'
      refine ⟨own, mem_deleteStale.mpr ⟨hown, fun hstale => hstale.2 (htag' hlatest)⟩, hrecord', fun hlatest' => ?_⟩
      exact (htag' hlatest).trans (IsRebuild.eq hb hb' hlatest hlatest')
    · exact ⟨entry, mem_deleteStale.mpr ⟨hentry, hdeleted⟩, hrecord, htag⟩
  clean entityType' hclean entry hentry htype := hclean entry (mem_deleteStale.mp hentry).1 htype
  builds _ build hbuild := ⟨build, hbuild, rfl, rfl⟩

theorem deleteStale_sane (h : s.IsSane lower source base) : (s.deleteStale entityType b).IsSane lower source base where
  keys := h.keys.sublist (filter_sublist.map _)
  genuine entry hentry := h.genuine entry (mem_deleteStale.mp hentry).1

theorem deleteStale_clean (h : s.IsSane lower source base) (hbase : base ≤ b) :
    (s.deleteStale entityType b).IsClean lower source entityType := by
  intro entry hentry htype
  obtain ⟨hold, hkept⟩ := mem_deleteStale.mp hentry
  have htag : entry.buildId = b := by
    by_contra hne
    exact hkept ⟨htype, hne⟩
  rw [← htype]
  exact h.genuine entry hold (htag ▸ hbase)

theorem isExact_of_covers (h : s.IsSane lower source base) (hclean : s.IsClean lower source entityType)
    (hall : ∀ r ∈ source.records lower entityType, s.Covers b r) : s.IsExact lower source entityType := by
  intro record htype
  have hle : s.entries.countP (·.record = record) ≤ 1 := by
    calc
      s.entries.countP (·.record = record) ≤ s.entries.countP (fun entry => decide (entry.record.key = record.key)) := by
        apply countP_mono_left
        intro entry _ hsame
        have hsame : entry.record = record := of_decide_eq_true hsame
        exact decide_eq_true (congrArg IndexRecord.key hsame)
      _ ≤ 1 := countP_key_le_one h.keys record.key
  by_cases hrecord : record ∈ source.records lower entityType
  · rw [if_pos hrecord]
    obtain ⟨entry, hentry, hsame, -⟩ := hall record hrecord
    exact le_antisymm hle (countP_pos_iff.mpr ⟨entry, hentry, decide_eq_true hsame⟩)
  · rw [if_neg hrecord, countP_eq_zero]
    intro entry hentry hsame
    have hsame : entry.record = record := of_decide_eq_true hsame
    exact hrecord (hsame ▸ hclean entry hentry (hsame ▸ htype))

end Writes
section Invariant
variable {lower source} {s s' : Store} {base b : ℕ}

variable (lower source) in
/-- What a build is past: every record is after the cursor of its type, or covered, or among those in hand. -/
def Store.Reached (s : Store) (b : ℕ) (checkpoint : RebuildCheckpoint) (hand : List IndexRecord) : Prop :=
  ∀ entityType, ∀ r ∈ source.records lower entityType,
    (checkpoint entityType).done = false ∧ r ∈ source.left lower (checkpoint entityType).cursor entityType ∨
      s.Covers b r ∨ r ∈ hand

/-- The job is that of a rebuild that was started since `base`. -/
structure Store.IsJob (base : ℕ) (s : Store) (job : Job) : Prop where
  base : base ≤ job.id
  types : ∃ build, s.builds[job.id]? = some build ∧ build.mode = .rebuild ∧
    ∀ entityType ∈ build.entityTypes, entityType ∈ job.entityTypes
  batch : 0 < job.batchSize

variable (lower source) in
/-- All types of the job are done, and those that are not to be purged any more are clean. -/
structure Store.Indexed (s : Store) (job : Job) (progress : Progress) (rest : List SearchIndexEntityType) : Prop where
  reached : s.Reached lower source job.id progress.checkpoint []
  done : ∀ entityType ∈ job.entityTypes, (progress.checkpoint entityType).done = true
  clean : ∀ entityType ∈ job.entityTypes, entityType ∈ rest ∨ s.IsClean lower source entityType
  left : ∀ entityType ∈ rest, entityType ∈ job.entityTypes

variable (lower source) in
structure Store.Indexing (s : Store) (job : Job) (progress : Progress) (entityType : SearchIndexEntityType)
    (rest : List SearchIndexEntityType) (seen : List String) (hand : List IndexRecord) : Prop where
  reached : s.Reached lower source job.id progress.checkpoint hand
  done : ∀ t ∈ job.entityTypes, t ∈ entityType :: rest ∨ (progress.checkpoint t).done = true
  seen : ∀ r ∈ source.records lower entityType, recipientKey r ∈ seen → s.Covers job.id r ∨ r ∈ hand
  genuine : ∀ r ∈ hand, r ∈ source.records lower entityType

variable (lower source) in
def Phase.Knows (base : ℕ) (s : Store) : Phase → Prop
  | .claiming _ | .booting | .auditingDryRun | .ended => True
  | .counting id .. | .totalling id .. | .resuming id _ | .retriggering id _ | .loading id | .failing id _ => base ≤ id
  | .scanning job progress entityType rest seen => s.IsJob base job ∧
    s.Indexing lower source job progress entityType rest seen [] ∧ (progress.checkpoint entityType).done = false
  | .upserting job progress entityType rest seen record records =>
    s.IsJob base job ∧ s.Indexing lower source job progress entityType rest seen (record :: records)
  | .persisting job progress entityType rest seen =>
    s.IsJob base job ∧ s.Indexing lower source job progress entityType rest seen []
  | .purging job progress entityType rest => s.IsJob base job ∧ s.Indexed lower source job progress (entityType :: rest)
  | .completing job progress => s.IsJob base job ∧ s.Indexed lower source job progress []
  | .auditing job => base ≤ job.id

variable (lower source) in
/-- What holds of the store: the index is sane, no build before `base` is running, and each build since then is past what
its checkpoint says. -/
structure Store.IsSound (base : ℕ) (s : Store) : Prop where
  sane : s.IsSane lower source base
  length : base ≤ s.builds.length
  old : ∀ (id : ℕ) (build : SearchIndexBuild), s.builds[id]? = some build → id < base → build.status ≠ .running
  builds : ∀ (id : ℕ) (build : SearchIndexBuild), s.builds[id]? = some build → base ≤ id → build.mode = .rebuild →
    s.Reached lower source id (build.checkpoint.getD emptyCheckpoint) []

variable {job : Job} {progress : Progress} {entityType : SearchIndexEntityType} {rest : List SearchIndexEntityType}
  {seen : List String} {hand : List IndexRecord} {checkpoint : RebuildCheckpoint}

theorem Advances.reached (h : Advances lower source s s') (hb : s.IsRebuild b)
    (hreached : s.Reached lower source b checkpoint hand) : s'.Reached lower source b checkpoint hand := by
  intro entityType r hr
  rcases hreached entityType r hr with hleft | hcovers | hhand
  · exact .inl hleft
  · exact .inr (.inl (h.covers b entityType hb r hr hcovers))
  · exact .inr (.inr hhand)

theorem Store.IsJob.isRebuild (h : s.IsJob base job) : s.IsRebuild job.id := by
  obtain ⟨build, hbuild, hmode, -⟩ := h.types
  exact ⟨build, hbuild, hmode⟩

theorem Advances.isJob (h : Advances lower source s s') (hjob : s.IsJob base job) : s'.IsJob base job where
  base := hjob.base
  types := by
    obtain ⟨build, hbuild, hmode, htypes⟩ := hjob.types
    obtain ⟨build', hbuild', hmode', htypes'⟩ := h.builds job.id build hbuild
    exact ⟨build', hbuild', hmode'.trans hmode, htypes'.symm ▸ htypes⟩
  batch := hjob.batch

theorem Advances.indexed (h : Advances lower source s s') (hb : s.IsRebuild job.id)
    (hindexed : s.Indexed lower source job progress rest) : s'.Indexed lower source job progress rest where
  reached := h.reached hb hindexed.reached
  done := hindexed.done
  clean t ht := (hindexed.clean t ht).imp_right (h.clean t)
  left := hindexed.left

theorem Advances.indexing (h : Advances lower source s s') (hb : s.IsRebuild job.id)
    (hindexing : s.Indexing lower source job progress entityType rest seen hand) :
    s'.Indexing lower source job progress entityType rest seen hand where
  reached := h.reached hb hindexing.reached
  done := hindexing.done
  seen r hr hseen := (hindexing.seen r hr hseen).imp_left (h.covers job.id entityType hb r hr)
  genuine := hindexing.genuine

theorem Advances.knows (h : Advances lower source s s') {phase : Phase} (hphase : phase.Knows lower source base s) :
    phase.Knows lower source base s' := by
  cases phase with
  | scanning job progress entityType rest seen =>
    exact ⟨h.isJob hphase.1, h.indexing hphase.1.isRebuild hphase.2.1, hphase.2.2⟩
  | upserting job progress entityType rest seen record records =>
    exact ⟨h.isJob hphase.1, h.indexing hphase.1.isRebuild hphase.2⟩
  | persisting job progress entityType rest seen =>
    exact ⟨h.isJob hphase.1, h.indexing hphase.1.isRebuild hphase.2⟩
  | purging job progress entityType rest => exact ⟨h.isJob hphase.1, h.indexed hphase.1.isRebuild hphase.2⟩
  | completing job progress => exact ⟨h.isJob hphase.1, h.indexed hphase.1.isRebuild hphase.2⟩
  | _ => exact hphase

theorem Store.Reached.covers (h : s.Reached lower source b checkpoint []) (hdone : (checkpoint entityType).done = true) :
    ∀ r ∈ source.records lower entityType, s.Covers b r := by
  intro r hr
  rcases h entityType r hr with ⟨hleft, -⟩ | hcovers | hhand
  · rw [hdone] at hleft
    cases hleft
  · exact hcovers
  · cases hhand

theorem purge_knows (hjob : s.IsJob base job) (h : s.Indexed lower source job progress rest) :
    (purge job progress rest).Knows lower source base s := by
  cases rest with
  | nil | cons entityType rest => exact ⟨hjob, h⟩

theorem index_knows (hjob : s.IsJob base job) (hreached : s.Reached lower source job.id progress.checkpoint []) :
    ∀ (rest : List SearchIndexEntityType), (∀ t ∈ job.entityTypes, t ∈ rest ∨ (progress.checkpoint t).done = true) →
        (index job progress rest).Knows lower source base s
  | [], hdone => by
    refine purge_knows hjob ⟨hreached, fun t ht => ?_, fun t ht => .inl ht, fun t ht => ht⟩
    exact (hdone t ht).resolve_left not_mem_nil
  | entityType :: rest, hdone => by
    rw [index]
    by_cases hskip : (progress.checkpoint entityType).done = true
    · rw [if_pos hskip]
      refine index_knows hjob hreached rest fun t ht => ?_
      rcases hdone t ht with hmem | hthen
      · rcases mem_cons.mp hmem with rfl | hmem
        · exact .inr hskip
        · exact .inl hmem
      · exact .inr hthen
    · rw [if_neg hskip]
      exact ⟨hjob, ⟨hreached, hdone, fun _ _ h => absurd h not_mem_nil, fun _ h => absurd h not_mem_nil⟩,
        Bool.eq_false_iff.mpr hskip⟩

theorem upsert_knows (hjob : s.IsJob base job) (h : s.Indexing lower source job progress entityType rest seen hand) :
    (upsert job progress entityType rest seen hand).Knows lower source base s := by
  cases hand with
  | nil | cons record records => exact ⟨hjob, h⟩

end Invariant
section Acts
variable {lower source} {s s' : Store} {base b inst : ℕ}

variable {f : SearchIndexBuild → SearchIndexBuild} {id : ℕ} {phase : Phase}

theorem sound_of_eq (h : s.IsSound lower source base) (hentries : s'.entries = s.entries) (hbuilds : s'.builds = s.builds) :
    s'.IsSound lower source base := by
  have hadvances : Advances lower source s s' := advances_of_eq hentries hbuilds
  refine ⟨⟨?_, ?_⟩, ?_, ?_, fun id build hbuild hid hmode => ?_⟩
  · rw [hentries]
    exact h.sane.keys
  · rw [hentries]
    exact h.sane.genuine
  · rw [hbuilds]
    exact h.length
  · rw [hbuilds]
    exact h.old
  · rw [hbuilds] at hbuild
    exact hadvances.reached ⟨build, hbuild, hmode⟩ (h.builds id build hbuild hid hmode)

/-- The update of a build since `base`, whose checkpoint stays or is one that the build has reached. -/
theorem sound_update (h : s.IsSound lower source base) (hf : Keeps f)
    (hid : base ≤ id) (hcheckpoint : ∀ build : SearchIndexBuild, (f build).checkpoint = build.checkpoint ∨
      ∃ checkpoint, (f build).checkpoint = some checkpoint ∧ s.Reached lower source id checkpoint []) :
    (s.update id f).IsSound lower source base := by
  have hadvances : Advances lower source s (s.update id f) := update_advances hf id
  refine ⟨⟨h.sane.keys, h.sane.genuine⟩, ?_, fun b build hbuild hold => ?_, fun b build hbuild hb hmode => ?_⟩
  · rw [Store.update, length_modify]
    exact h.length
  · obtain ⟨before, hbefore, ⟨heq, -⟩ | ⟨-, rfl⟩⟩ := update_get hbuild
    · omega
    · exact h.old b build hbefore hold
  · obtain ⟨before, hbefore, ⟨rfl, rfl⟩ | ⟨-, rfl⟩⟩ := update_get hbuild
    · have hmode' : before.mode = .rebuild := (hf.mode before).symm.trans hmode
      change Store.Reached lower source _ b ((f before).checkpoint.getD emptyCheckpoint) []
      rcases hcheckpoint before with hsame | ⟨checkpoint, hnew, hreached⟩
      · rw [hsame]
        exact hadvances.reached ⟨before, hbefore, hmode'⟩ (h.builds b before hbefore hb hmode')
      · rw [hnew]
        exact hadvances.reached ⟨before, hbefore, hmode'⟩ hreached
    · exact hadvances.reached ⟨build, hbefore, hmode⟩ (h.builds b build hbefore hb hmode)

theorem reached_empty (b : ℕ) : s.Reached lower source b emptyCheckpoint [] := by
  intro entityType r hr
  refine .inl ⟨rfl, ?_⟩
  change r ∈ source.left lower none entityType
  rw [left_start]
  exact hr

theorem sound_createBuild (h : s.IsSound lower source base) (options : RebuildOptions) :
    (s.createBuild options).2.IsSound lower source base := by
  have hadvances : Advances lower source s (s.createBuild options).2 := createBuild_advances s options
  refine ⟨⟨h.sane.keys, h.sane.genuine⟩, ?_, fun b build hbuild hold => ?_, fun b build hbuild hb hmode => ?_⟩
  · change base ≤ (s.builds ++ _).length
    rw [length_append]
    exact le_trans h.length (Nat.le_add_right _ _)
  · rcases getElem?_snoc hbuild with hbefore | ⟨hlast, -⟩
    · exact h.old b build hbefore hold
    · have hlength := h.length
      omega
  · rcases getElem?_snoc hbuild with hbefore | ⟨-, hnew⟩
    · exact hadvances.reached ⟨build, hbefore, hmode⟩ (h.builds b build hbefore hb hmode)
    · have hcheckpoint : build.checkpoint.getD emptyCheckpoint = emptyCheckpoint := by
        rw [hnew]
        dsimp only
        split <;> rfl
      rw [hcheckpoint]
      exact reached_empty b

theorem running_eq_some (h : s.running = some id) : ∃ build, s.builds[id]? = some build ∧ build.status = .running :=
  Option.map_eq_some_iff.mp (of_decide_eq_true (find?_some h :))

theorem base_le_running (h : s.IsSound lower source base) (hrunning : s.running = some id) : base ≤ id := by
  obtain ⟨build, hbuild, hstatus⟩ := running_eq_some hrunning
  by_contra hlt
  exact h.old id build hbuild (not_le.mp hlt) hstatus

theorem keeps_supersede (now : ℤ) : Keeps (supersede now) := ⟨fun _ => rfl, fun _ => rfl⟩

theorem claim_ok {options : RebuildOptions} {claimed : RebuildClaim × Store} (h : s.claim inst options = .ok claimed) :
    (∃ id, s.running = some id ∧ claimed = (.resumed id, s)) ∨ claimed = s.createBuild options ∨
      ∃ id, s.running = some id ∧ claimed = (s.update id (supersede s.now)).createBuild options := by
  rw [Store.claim] at h
  split at h
  · cases h
  · split at h
    · cases h
    · split at h
      · cases h
      · split at h
        · split at h
          · cases h
          · exact .inr (.inl (Except.ok.inj h).symm)
        · rename_i id hrunning
          dsimp only at h
          split at h
          · split at h
            · cases h
            · exact .inl ⟨id, hrunning, (Except.ok.inj h).symm⟩
          · split at h
            · cases h
            · exact .inr (.inr ⟨id, hrunning, (Except.ok.inj h).symm⟩)

variable (lower source) in
/-- A turn: what is covered and clean stays so, the call knows what it has to, and the store is sound. -/
structure Acted (base : ℕ) (s : Store) (result : Phase × Store) : Prop where
  advances : Advances lower source s result.2
  knows : result.1.Knows lower source base result.2
  sound : result.2.IsSound lower source base

theorem acted_same (h : s.IsSound lower source base) (hphase : phase.Knows lower source base s) :
    Acted lower source base s (phase, s) :=
  ⟨Advances.refl s, hphase, h⟩

theorem acted_created {s₀ : Store} (h₀ : s₀.IsSound lower source base) (hadvances : Advances lower source s s₀)
    (options : RebuildOptions) :
    Acted lower source base s (afterClaim inst options (s₀.createBuild options)) := by
  have hthen : Advances lower source s (s₀.createBuild options).2 := hadvances.trans (createBuild_advances s₀ options)
  have hsound := sound_createBuild h₀ options
  have hlength := h₀.length
  change Acted lower source base s
    (afterClaim inst options (.created s₀.builds.length options.dryRun, (s₀.createBuild options).2))
  generalize (s₀.createBuild options).2 = s₁ at hthen hsound
  cases options.dryRun with
  | true => exact ⟨hthen, hlength, hsound⟩
  | false => exact ⟨hthen.trans (setActive_advances s₁ inst _), hlength, sound_of_eq hsound rfl rfl⟩

theorem acted_claiming (h : s.IsSound lower source base) (options : RebuildOptions) :
    Acted lower source base s ((claiming options).act lower source inst s) := by
  rw [act]
  cases hclaim : s.claim inst options with
  | error e => exact acted_same h trivial
  | ok claimed =>
    rcases claim_ok hclaim with ⟨id, hrunning, rfl⟩ | rfl | ⟨id, hrunning, rfl⟩
    · exact acted_same h (base_le_running h hrunning)
    · exact acted_created h (Advances.refl s) options
    · have hid := base_le_running h hrunning
      exact acted_created (sound_update h (keeps_supersede s.now) hid fun _ => .inl rfl)
        (update_advances (keeps_supersede s.now) id) options

theorem clampBatchSize_pos (batchSize : Option ℤ) : 0 < clampBatchSize batchSize := by
  cases batchSize with
  | none => decide
  | some n =>
    change 0 < (min maxBatchSize (max minBatchSize n)).toNat
    rw [maxBatchSize, minBatchSize]
    omega

theorem mem_resolveEntityTypes {entityTypes : List SearchIndexEntityType} {t : SearchIndexEntityType}
    (h : t ∈ entityTypes) : t ∈ resolveEntityTypes entityTypes := by
  rw [resolveEntityTypes, if_neg (ne_nil_of_mem h)]
  exact mem_eraseDups.mpr h

theorem acted_loading (h : s.IsSound lower source base) (hid : base ≤ id) :
    Acted lower source base s ((loading id).act lower source inst s) := by
  rw [act]
  split
  · exact acted_same h trivial
  · exact acted_same h trivial
  · rename_i build hdb hbuild
    split
    · exact acted_same h trivial
    · rename_i hgoes
      have hmode : build.mode = .rebuild := by
        cases hbuildMode : build.mode with
        | rebuild => rfl
        | dryRun => exact absurd (.inl hbuildMode) hgoes
      have hjob : s.IsJob base ⟨id, resolveEntityTypes build.entityTypes, clampBatchSize (some build.batchSize)⟩ :=
        ⟨hid, ⟨build, hbuild, hmode, fun _ => mem_resolveEntityTypes⟩, clampBatchSize_pos (some build.batchSize)⟩
      have hknows : (index ⟨id, resolveEntityTypes build.entityTypes, clampBatchSize (some build.batchSize)⟩
          ⟨build.checkpoint.getD emptyCheckpoint, build.processedDocuments⟩
          (resolveEntityTypes build.entityTypes)).Knows lower source base s :=
        index_knows hjob (h.builds id build hbuild hid hmode) _ fun t ht => .inl ht
      exact ⟨setActive_advances s inst _, (setActive_advances s inst _).knows hknows, sound_of_eq h rfl rfl⟩

variable {job : Job} {progress : Progress} {entityType : SearchIndexEntityType} {rest : List SearchIndexEntityType}
  {seen : List String}

theorem acted_scanning (h : s.IsSound lower source base)
    (hphase : (scanning job progress entityType rest seen).Knows lower source base s) :
    Acted lower source base s ((scanning job progress entityType rest seen).act lower source inst s) := by
  obtain ⟨hjob, hindexing, -⟩ := hphase
  rw [act]
  split
  · exact acted_same h hjob.base
  · have hscanned : Scanned lower source entityType (progress.checkpoint entityType).cursor seen
        (scanEntityBatch lower source entityType (progress.checkpoint entityType).cursor job.batchSize seen) :=
      scanEntityBatch_scanned entityType hjob.batch seen
    generalize scanEntityBatch lower source entityType (progress.checkpoint entityType).cursor job.batchSize seen = batch
      at hscanned
    refine acted_same h (upsert_knows hjob ⟨fun t r hr => ?_, fun t ht => ?_, fun r hr hseen => ?_, hscanned.genuine⟩)
    · by_cases htype : t = entityType
      · subst htype
        have hcheckpoint : (progress.add t batch).checkpoint t =
            { cursor := batch.nextCursor, done := batch.nextCursor = none } := if_pos rfl
        rw [hcheckpoint]
        rcases hindexing.reached t r hr with ⟨-, hleft⟩ | hcovers | hhand
        · rcases hscanned.covers r hleft with hbatch | hseen | ⟨next, hnext, hafter⟩
          · exact .inr (.inr hbatch)
          · exact .inr (.inl ((hindexing.seen r hr hseen).resolve_right not_mem_nil))
          · rw [hnext]
            exact .inl ⟨rfl, hafter⟩
        · exact .inr (.inl hcovers)
        · cases hhand
      · have hcheckpoint : (progress.add entityType batch).checkpoint t = progress.checkpoint t := if_neg htype
        rw [hcheckpoint]
        rcases hindexing.reached t r hr with hleft | hcovers | hhand
        · exact .inl hleft
        · exact .inr (.inl hcovers)
        · cases hhand
    · by_cases htype : t = entityType
      · rw [htype]
        exact .inl mem_cons_self
      · have hcheckpoint : (progress.add entityType batch).checkpoint t = progress.checkpoint t := if_neg htype
        rw [hcheckpoint]
        exact hindexing.done t ht
    · rcases hscanned.seen r hr hseen with hold | hbatch
      · exact .inl ((hindexing.seen r hr hold).resolve_right not_mem_nil)
      · exact .inr hbatch

theorem acted_upserting (h : s.IsSound lower source base) {record : IndexRecord} {records : List IndexRecord}
    (hphase : (upserting job progress entityType rest seen record records).Knows lower source base s)
    (hlatest : s.db.isOk = true → s.isSuperseded job.id = false) :
    Acted lower source base s ((upserting job progress entityType rest seen record records).act lower source inst s) := by
  obtain ⟨hjob, hindexing⟩ := hphase
  rw [act]
  split
  · exact acted_same h hjob.base
  · rename_i hdb
    have hrecord := hindexing.genuine record mem_cons_self
    have hadvances : Advances lower source s (s.upsertEntry record job.id) :=
      upsertEntry_advances hrecord hjob.isRebuild (hlatest (by rw [hdb]; rfl))
    have hthen := hadvances.indexing hjob.isRebuild hindexing
    have hcovered := upsertEntry_covers s record job.id
    refine ⟨hadvances, upsert_knows (hadvances.isJob hjob) ⟨fun t r hr => ?_, hthen.done, fun r hr hseen => ?_,
      fun r hr => hthen.genuine r (mem_cons_of_mem record hr)⟩, ⟨upsertEntry_sane h.sane hrecord, h.length, h.old, ?_⟩⟩
    · rcases hthen.reached t r hr with hleft | hcovers | hhand
      · exact .inl hleft
      · exact .inr (.inl hcovers)
      · rcases mem_cons.mp hhand with rfl | hhand
        · exact .inr (.inl hcovered)
        · exact .inr (.inr hhand)
    · rcases hthen.seen r hr hseen with hcovers | hhand
      · exact .inl hcovers
      · rcases mem_cons.mp hhand with rfl | hhand
        · exact .inl hcovered
        · exact .inr hhand
    · exact fun id build hbuild hid hmode =>
        hadvances.reached ⟨build, hbuild, hmode⟩ (h.builds id build hbuild hid hmode)

theorem acted_persisting (h : s.IsSound lower source base)
    (hphase : (persisting job progress entityType rest seen).Knows lower source base s) :
    Acted lower source base s ((persisting job progress entityType rest seen).act lower source inst s) := by
  obtain ⟨hjob, hindexing⟩ := hphase
  rw [act]
  split
  · exact acted_same h hjob.base
  · have hkeeps : Keeps (.persist progress.checkpoint progress.processed s.now) := ⟨fun _ => rfl, fun _ => rfl⟩
    have hadvances : Advances lower source s (s.update job.id _) := update_advances hkeeps job.id
    have hsound := sound_update h hkeeps hjob.base fun _ => .inr ⟨progress.checkpoint, rfl, hindexing.reached⟩
    have hthen := hadvances.indexing hjob.isRebuild hindexing
    refine ⟨hadvances, ?_, hsound⟩
    dsimp only
    split
    · rename_i hdone
      refine index_knows (hadvances.isJob hjob) hthen.reached rest fun t ht => ?_
      rcases hthen.done t ht with hmem | hthere
      · rcases mem_cons.mp hmem with rfl | hmem
        · exact .inr hdone
        · exact .inl hmem
      · exact .inr hthere
    · rename_i hgoes
      exact ⟨hadvances.isJob hjob, hthen, Bool.eq_false_iff.mpr hgoes⟩

theorem acted_purging (h : s.IsSound lower source base)
    (hphase : (purging job progress entityType rest).Knows lower source base s)
    (hlatest : s.db.isOk = true → s.isSuperseded job.id = false) :
    Acted lower source base s ((purging job progress entityType rest).act lower source inst s) := by
  obtain ⟨hjob, hindexed⟩ := hphase
  rw [act]
  split
  · exact acted_same h hjob.base
  · rename_i hdb
    have hall := hindexed.reached.covers (hindexed.done entityType (hindexed.left entityType mem_cons_self))
    have hadvances : Advances lower source s (s.deleteStale entityType job.id) :=
      deleteStale_advances hall hjob.isRebuild (hlatest (by rw [hdb]; rfl))
    have hthen := hadvances.indexed hjob.isRebuild hindexed
    refine ⟨hadvances, purge_knows (hadvances.isJob hjob) ⟨hthen.reached, hthen.done, fun t ht => ?_,
      fun t ht => hthen.left t (mem_cons_of_mem entityType ht)⟩, ⟨deleteStale_sane h.sane, h.length, h.old, ?_⟩⟩
    · rcases hthen.clean t ht with hmem | hclean
      · rcases mem_cons.mp hmem with rfl | hmem
        · exact .inr (deleteStale_clean h.sane hjob.base)
        · exact .inl hmem
      · exact .inr hclean
    · exact fun id build hbuild hid hmode =>
        hadvances.reached ⟨build, hbuild, hmode⟩ (h.builds id build hbuild hid hmode)

theorem acted_completing (h : s.IsSound lower source base) (hphase : (completing job progress).Knows lower source base s) :
    Acted lower source base s ((completing job progress).act lower source inst s) := by
  obtain ⟨hjob, hindexed⟩ := hphase
  rw [act]
  split
  · exact acted_same h hjob.base
  · have hkeeps : Keeps (.complete progress.checkpoint progress.processed s.now) := ⟨fun _ => rfl, fun _ => rfl⟩
    exact ⟨update_advances hkeeps job.id, hjob.base,
      sound_update h hkeeps hjob.base fun _ => .inr ⟨progress.checkpoint, rfl, hindexed.reached⟩⟩

theorem acted_update (h : s.IsSound lower source base) (hf : Keeps f)
    (hcheckpoint : ∀ build, (f build).checkpoint = build.checkpoint) (hid : base ≤ id) (phase : Phase)
    (hphase : ∀ s' : Store, phase.Knows lower source base s') : Acted lower source base s (phase, s.update id f) :=
  ⟨update_advances hf id, hphase _, sound_update h hf hid fun build => .inl (hcheckpoint build)⟩

theorem acted_active (h : Acted lower source base s (phase, s')) (inst : ℕ) (id : Option ℕ) :
    Acted lower source base s (phase, s'.setActive inst id) :=
  ⟨h.advances.trans (setActive_advances s' inst id), (setActive_advances s' inst id).knows h.knows,
    sound_of_eq h.sound rfl rfl⟩

theorem acted_release (h : Acted lower source base s (phase, s')) (inst id : ℕ) :
    Acted lower source base s (phase, s'.release inst id) := by
  rw [Store.release]
  split
  · exact acted_active h inst none
  · exact h

/-- Whatever a call does next, it keeps to what it knows, as long as a superseded worker does not write. -/
theorem act_acted (h : s.IsSound lower source base) (hphase : phase.Knows lower source base s)
    (horderly : s.db.isOk = true → ∀ id ∈ phase.writes, s.isSuperseded id = false) :
    Acted lower source base s (phase.act lower source inst s) := by
  cases phase with
  | claiming options => exact acted_claiming h options
  | counting id dryRun triggeredBy =>
    rw [act]
    split
    · exact acted_same h trivial
    · exact acted_same h hphase
  | totalling id dryRun triggeredBy counts =>
    rw [act]
    split
    · exact acted_same h trivial
    · cases dryRun with
      | true =>
        have hkeeps : Keeps (.finishDryRun counts triggeredBy s.now) := ⟨fun _ => rfl, fun _ => rfl⟩
        exact acted_update h hkeeps (fun _ => rfl) hphase .auditingDryRun fun _ => trivial
      | false =>
        have hkeeps : Keeps (.total counts) := ⟨fun _ => rfl, fun _ => rfl⟩
        exact acted_active (acted_update h hkeeps (fun _ => rfl) hphase (.loading id) fun _ => hphase) inst _
  | auditingDryRun => exact acted_same h trivial
  | resuming id triggeredBy =>
    rw [act]
    split
    · exact acted_same h trivial
    · exact acted_same h trivial
    · split
      · exact acted_same h trivial
      · split
        · have hgoes : Acted lower source base s (.loading id, s) := acted_same h hphase
          exact acted_active hgoes inst (some id)
        · exact acted_same h hphase
  | retriggering id triggeredBy =>
    rw [act]
    split
    · exact acted_same h trivial
    · have hkeeps : Keeps (.retrigger triggeredBy) := ⟨fun _ => rfl, fun _ => rfl⟩
      exact acted_active (acted_update h hkeeps (fun _ => rfl) hphase (.loading id) fun _ => hphase) inst _
  | booting =>
    rw [act]
    split
    · exact acted_same h trivial
    · exact acted_same h trivial
    · rename_i id hdb hrunning
      split
      · have hgoes : Acted lower source base s (.loading id, s) := acted_same h (base_le_running h hrunning)
        exact acted_active hgoes inst (some id)
      · exact acted_same h trivial
  | loading id => exact acted_loading h hphase
  | scanning job progress entityType rest seen => exact acted_scanning h hphase
  | upserting job progress entityType rest seen record records =>
    exact acted_upserting h hphase fun hdb => horderly hdb job.id rfl
  | persisting job progress entityType rest seen => exact acted_persisting h hphase
  | purging job progress entityType rest => exact acted_purging h hphase fun hdb => horderly hdb job.id rfl
  | completing job progress => exact acted_completing h hphase
  | auditing job =>
    rw [act]
    split
    · exact acted_same h hphase
    · have hends : Acted lower source base s (.ended, s) := acted_same h trivial
      exact acted_release hends inst job.id
  | failing id message =>
    rw [act]
    split
    · have hends : Acted lower source base s (.ended, s) := acted_same h trivial
      exact acted_release hends inst id
    · have hkeeps : Keeps (.fail message s.now) := ⟨fun _ => rfl, fun _ => rfl⟩
      exact acted_release (acted_update h hkeeps (fun _ => rfl) hphase .ended fun _ => trivial) inst id
  | ended => exact acted_same h trivial

end Acts
section Runs
variable {lower source} {s : Store} {w w' : World} {tr : List RebuildTransition} {base : ℕ}

/-- Nothing runs yet: no build does, and what is in the index was written by earlier ones, from whatever the source said
then. -/
structure Store.IsIdle (s : Store) : Prop where
  keys : (s.entries.map (·.record.key)).Nodup
  earlier : ∀ entry ∈ s.entries, entry.buildId < s.builds.length
  ended : ∀ build ∈ s.builds, build.status ≠ .running

variable (lower source) in
def InOrder (base : ℕ) (w : World) : Prop :=
  w.store.IsSound lower source base ∧ ∀ worker ∈ w.workers, worker.phase.Knows lower source base w.store

theorem inOrder_idle (h : s.IsIdle) : InOrder lower source s.builds.length { store := s } := by
  refine ⟨⟨⟨h.keys, fun entry hentry htag => ?_⟩, le_refl _, fun id build hbuild _ => ?_, fun id build hbuild hid => ?_⟩,
    fun _ hworker => absurd hworker not_mem_nil⟩
  · exact absurd (h.earlier entry hentry) (not_lt.mpr htag)
  · exact h.ended build (mem_of_getElem? hbuild)
  · exact absurd (List.getElem?_eq_some_iff.mp hbuild).1 (not_lt.mpr hid)

theorem step_inOrder {event : Event} (hstep : w.Step lower source event w') (horderly : Orderly ⟨w, event, w'⟩)
    (h : InOrder lower source base w) : InOrder lower source base w' ∧ Advances lower source w.store w'.store := by
  obtain ⟨hsound, hknows⟩ := h
  cases event with
  | startRebuild inst options =>
    cases hstep
    refine ⟨⟨hsound, fun worker hworker => ?_⟩, Advances.refl _⟩
    rcases mem_append.mp hworker with hworker | hworker
    · exact hknows worker hworker
    · rw [mem_singleton.mp hworker]
      trivial
  | onModuleInit inst =>
    cases hstep
    refine ⟨⟨hsound, fun worker hworker => ?_⟩, Advances.refl _⟩
    rcases mem_append.mp hworker with hworker | hworker
    · exact hknows worker hworker
    · rw [mem_singleton.mp hworker]
      trivial
  | advance i =>
    simp only [World.Step, World.take] at hstep
    cases hi : w.workers[i]? with
    | none =>
      rw [hi] at hstep
      cases hstep
    | some worker =>
      rw [hi] at hstep
      cases hstep
      have hacted : Acted lower source base w.store (worker.phase.act lower source worker.inst w.store) :=
        act_acted hsound (hknows worker (mem_of_getElem? hi)) fun hdb => horderly hdb worker hi
      refine ⟨⟨hacted.sound, fun other hother => ?_⟩, hacted.advances⟩
      rcases mem_or_eq_of_mem_set hother with hother | rfl
      · exact hacted.advances.knows (hknows other hother)
      · exact hacted.knows
  | crash inst =>
    cases hstep
    have hadvances : Advances lower source w.store (w.store.setActive inst none) := setActive_advances w.store inst none
    refine ⟨⟨sound_of_eq hsound rfl rfl, fun worker hworker => ?_⟩, hadvances⟩
    obtain ⟨before, hbefore, rfl⟩ := mem_map.mp hworker
    rw [Worker.crash]
    split
    · trivial
    · exact hadvances.knows (hknows before hbefore)
  | elapse d =>
    cases hstep
    have hadvances : Advances lower source w.store { w.store with now := w.store.now + d } := advances_of_eq rfl rfl
    exact ⟨⟨sound_of_eq hsound rfl rfl, fun worker hworker => hadvances.knows (hknows worker hworker)⟩, hadvances⟩
  | foresee db locked =>
    cases hstep
    have hadvances : Advances lower source w.store { w.store with db := db, locked := locked } := advances_of_eq rfl rfl
    exact ⟨⟨sound_of_eq hsound rfl rfl, fun worker hworker => hadvances.knows (hknows worker hworker)⟩, hadvances⟩

theorem inOrder_of_run (hrun : Run (World.Step lower source) { store := s } tr w) (hidle : s.IsIdle)
    (horderly : ∀ t ∈ tr, Orderly t) {t : RebuildTransition} (ht : t ∈ tr) :
    InOrder lower source s.builds.length t.pre ∧ InOrder lower source s.builds.length t.post :=
  hrun.invariant_at (inOrder_idle hidle) horderly (fun _ hstep hC hpre => (step_inOrder hstep hC hpre).1) ht

theorem marks_eq_some {event : Event} {id : ℕ} (h : w.marks event = some id) :
    ∃ worker ∈ w.workers, ∃ job progress, worker.phase = .completing job progress ∧ job.id = id := by
  cases event with
  | advance i =>
    simp only [World.marks] at h
    split at h
    · rename_i inst job progress hi
      split at h
      · exact ⟨_, mem_of_getElem? hi, job, progress, rfl, Option.some.inj h⟩
      · cases h
    · cases h
  | _ => cases h

/-- Rebuilds: in every run in which the workers of builds that were superseded do not write to the index, what is marked
as completed is exact, and stays so. -/
theorem rebuilt_of_orderly (hrun : Run (World.Step lower source) { store := s } tr w) (hidle : s.IsIdle)
    (horderly : ∀ t ∈ tr, Orderly t) : Rebuilt lower source tr := by
  intro before t between after htr id hmarks _ build hbuild u hu entityType htype
  have hadvances : ∀ t ∈ tr, Advances lower source t.pre.store t.post.store := fun t ht =>
    (step_inOrder (hrun.step_of_mem ht) (horderly t ht) (inOrder_of_run hrun hidle horderly ht).1).2
  have ht : t ∈ tr := by
    rw [htr]
    exact mem_append_right _ mem_cons_self
  have hutr : u ∈ tr := by
    rw [htr]
    refine mem_append_right _ ?_
    rcases mem_cons.mp hu with rfl | hu
    · exact mem_cons_self
    · exact mem_cons_of_mem _ (mem_append_left _ hu)
  -- what holds when the build is marked holds from then on
  have hsince : Advances lower source t.pre.store u.post.store := by
    rcases mem_cons.mp hu with rfl | hu
    · exact hadvances u ht
    · let R (a b : World) : Prop := Advances lower source a.store b.store
      have hpairs : tr.Pairwise fun t t' => R t.post t'.post :=
        hrun.pairwise_post (R := R) (fun a => Advances.refl a.store) (fun _ _ _ hab hbc => hab.trans hbc) hadvances
      rw [htr] at hpairs
      have hafter := (pairwise_cons.mp (pairwise_append.mp hpairs).2.1).1 u (mem_append_left _ hu)
      exact (hadvances t ht).trans hafter
  obtain ⟨worker, hworker, job, progress, hphase, rfl⟩ := marks_eq_some hmarks
  obtain ⟨hjob, hindexed⟩ : t.pre.store.IsJob s.builds.length job ∧ t.pre.store.Indexed lower source job progress [] := by
    have hknows := (inOrder_of_run hrun hidle horderly ht).1.2 worker hworker
    rw [hphase] at hknows
    exact hknows
  obtain ⟨started, hstarted, -, htypes⟩ := hjob.types
  obtain ⟨build', hbuild', -, hsame⟩ := (hadvances t ht).builds job.id started hstarted
  rw [hbuild] at hbuild'
  rw [Option.some.inj hbuild', hsame] at htype
  have hmem := htypes entityType htype
  have hcovers : ∀ r ∈ source.records lower entityType, u.post.store.Covers job.id r := fun r hr =>
    hsince.covers job.id entityType hjob.isRebuild r hr (hindexed.reached.covers (hindexed.done entityType hmem) r hr)
  have hclean := (hindexed.clean entityType hmem).resolve_left not_mem_nil
  exact isExact_of_covers (inOrder_of_run hrun hidle horderly hutr).2.1.sane (hsince.clean entityType hclean) hcovers

def harvest : Campaign := { id := "c1", name := "harvest", status := "active", orgId := some "org" }

def oneCampaign : Source where
  campaigns := [harvest]
  claims := []
  verificationSessions := []
  campaign_ids := nodup_singleton _
  claim_ids := nodup_nil
  session_ids := nodup_nil
  org_ids := by decide +kernel

/-- A rebuild of the campaigns at each of two instances, the second one after the first was silent for too long. -/
def rebuilding (first second : List ℕ) : List RebuildTransition × World :=
  play (World.take id oneCampaign) { store := {} }
    ([.startRebuild 0 { entityTypes := [.campaign] }] ++ first.map .advance ++
      [.elapse 300001, .startRebuild 1 { entityTypes := [.campaign] }] ++ second.map .advance)

theorem rebuilding_run (first second : List ℕ) :
    Run (World.Step id oneCampaign) { store := {} } (rebuilding first second).1 (rebuilding first second).2 :=
  play_run (fun _ _ _ h => h) _ _

theorem isIdle_empty : ({} : Store).IsIdle :=
  ⟨nodup_nil, fun _ h => absurd h not_mem_nil, fun _ h => absurd h not_mem_nil⟩

theorem rebuilt_rebuilding : Rebuilt id oneCampaign (rebuilding [0, 0, 0, 0, 0, 0, 0, 0, 0, 0, 0, 0] [1, 1]).1 :=
  rebuilt_of_orderly (rebuilding_run _ _) isIdle_empty (by decide +kernel)

/-- What becomes of the second rebuild: it is marked as completed, and the campaign is not in the index. -/
def LosesCampaign (t : RebuildTransition) : Prop :=
  t.pre.marks t.label = some 1 ∧ (t.post.store.builds[1]?.map (·.entityTypes)) = some [.campaign] ∧
    ∃ record ∈ oneCampaign.records id .campaign, t.post.store.entries.countP (·.record = record) ≠ 1

instance (t : RebuildTransition) : Decidable (LosesCampaign t) :=
  inferInstanceAs (Decidable (_ ∧ _ ∧ ∃ record ∈ oneCampaign.records id .campaign, _))

/-- The first rebuild has read the campaign and writes it when the second one is about to purge. -/
theorem oldWorker_hides : ¬ Rebuilt id oneCampaign (rebuilding [0, 0, 0, 0, 0] [1, 1, 1, 1, 1, 1, 1, 1, 1, 0, 1, 1]).1 := by
  intro h
  have hloses : ∃ t ∈ (rebuilding [0, 0, 0, 0, 0] [1, 1, 1, 1, 1, 1, 1, 1, 1, 0, 1, 1]).1, LosesCampaign t := by
    decide +kernel
  obtain ⟨t, ht, hmarks, htypes, record, hrecord, hcount⟩ := hloses
  obtain ⟨before, after, hcut⟩ := append_of_mem ht
  obtain ⟨build, hbuild, hentityTypes⟩ := Option.map_eq_some_iff.mp htypes
  have hmem : SearchIndexEntityType.campaign ∈ build.entityTypes := by
    rw [hentityTypes]
    exact mem_cons_self
  have hexact := h before t [] after hcut 1 hmarks (fun _ hu => absurd hu not_mem_nil) build hbuild t
    mem_cons_self _ hmem
  refine hcount ((hexact record (records_entityType hrecord)).trans ?_)
  exact if_pos hrecord

end Runs
end Soter.Search
