import Soter.Search.Exact

/-! What a rebuild of the search index leaves behind: whether the process is free for the next one, and whether any
build is left running that nobody works on. -/
namespace Soter.Search
open Soter.Runs List Phase

def Phase.about : Phase → Option ℕ
  | .claiming _ | .auditingDryRun | .booting | .ended => none
  | .counting id _ _ | .totalling id _ _ _ | .resuming id _ | .retriggering id _ | .loading id | .failing id _ => some id
  | .scanning job _ _ _ _ | .upserting job _ _ _ _ _ _ | .persisting job _ _ _ _ | .purging job _ _ _
  | .completing job _ | .auditing job => some job.id

/-- The build that a call works on. A build that is about to be resumed is not worked on yet. -/
def Phase.processes : Phase → Option ℕ
  | .resuming _ _ | .retriggering _ _ => none
  | phase => phase.about

def Phase.holds : Phase → Option ℕ
  | .counting _ true _ | .totalling _ true _ _ => none
  | phase => phase.processes

def Store.IsRunning (s : Store) (b : ℕ) : Prop := (s.builds[b]?.map (·.status)) = some .running

instance (s : Store) (b : ℕ) : Decidable (s.IsRunning b) := inferInstanceAs (Decidable (_ = _))

def World.Idle (w : World) (inst : ℕ) : Prop :=
  ∀ worker ∈ w.workers, worker.inst = inst → worker.phase.processes = none

def World.Abandons (w : World) (b : ℕ) : Prop :=
  w.store.IsRunning b ∧ ∀ worker ∈ w.workers, worker.phase.processes ≠ some b

/-- A process that works on no build has no active build; only a crash leaves a build running that somebody worked
on; and if none is left so, an idle service takes the next rebuild. -/
structure NeverBlocks (tr : List RebuildTransition) : Prop where
  free : ∀ t ∈ tr, ∀ inst, t.post.Idle inst → t.post.store.activeBuildId inst = none
  kept : ∀ t ∈ tr, (∀ inst, t.label ≠ .crash inst) → ∀ b, t.post.Abandons b → t.pre.Abandons b
  accepted : ∀ t ∈ tr, (∀ inst, t.post.Idle inst) → (∀ b, ¬ t.post.Abandons b) → t.post.store.db = .ok () →
    t.post.store.locked = true → ∀ inst options, options.resume = false →
      ∃ claimed, t.post.store.claim inst options = .ok claimed

def Store.IsOver (s : Store) (inst b : ℕ) : Prop := ¬ s.IsRunning b ∧ s.activeBuildId inst ≠ some b

/-- The guards of `processBuild`: the build is a rebuild that is running, and no other one is active. -/
def Store.Loads (s : Store) (inst id : ℕ) : Prop :=
  s.db.isOk = true ∧ s.IsRunning id ∧ (s.builds[id]?.map (·.mode)) = some .rebuild ∧
    (s.activeBuildId inst).all (· = id) = true

/-- Nothing fails where nobody would clean up: neither the calls of `startRebuild` after its transaction, nor the start
of `processBuild`, nor the update of `failBuild`, unless the build is over. -/
def Phase.Tidy (inst : ℕ) (s : Store) : Phase → Prop
  | .counting id dryRun _ | .totalling id dryRun _ _ =>
    s.db.isOk = true ∨ ¬ s.IsRunning id ∧ (dryRun = false → s.activeBuildId inst ≠ some id)
  | .loading id => s.Loads inst id ∨ s.IsOver inst id
  | .failing id _ => s.db.isOk = true ∨ ¬ s.IsRunning id
  | _ => True

def Tidy (t : RebuildTransition) : Prop :=
  match t.label with
  | .advance i => ∀ worker ∈ t.pre.workers[i]?, worker.phase.Tidy worker.inst t.pre.store
  | _ => True

instance (s : Store) (inst b : ℕ) : Decidable (s.IsOver inst b) := inferInstanceAs (Decidable (_ ∧ _))

instance (s : Store) (inst id : ℕ) : Decidable (s.Loads inst id) := inferInstanceAs (Decidable (_ ∧ _ ∧ _ ∧ _))

instance (inst : ℕ) (s : Store) (phase : Phase) : Decidable (phase.Tidy inst s) :=
  match phase with
  | .counting id dryRun _ | .totalling id dryRun _ _ => inferInstanceAs
    (Decidable (s.db.isOk = true ∨ ¬ s.IsRunning id ∧ (dryRun = false → s.activeBuildId inst ≠ some id)))
  | .loading id => inferInstanceAs (Decidable (s.Loads inst id ∨ s.IsOver inst id))
  | .failing id _ => inferInstanceAs (Decidable (s.db.isOk = true ∨ ¬ s.IsRunning id))
  | .claiming _ | .auditingDryRun | .resuming _ _ | .retriggering _ _ | .booting | .scanning _ _ _ _ _
  | .upserting _ _ _ _ _ _ _ | .persisting _ _ _ _ _ | .purging _ _ _ _ | .completing _ _ | .auditing _ | .ended =>
    .isTrue trivial

instance (t : RebuildTransition) : Decidable (Tidy t) :=
  match h : t.label with
  | .advance i => decidable_of_iff
      (∀ worker ∈ t.pre.workers[i]?, worker.phase.Tidy worker.inst t.pre.store) (by rw [Tidy, h])
  | .startRebuild _ _ | .onModuleInit _ | .crash _ | .elapse _ | .foresee _ _ => .isTrue (by rw [Tidy, h]; trivial)

section Builds
variable {s s' : Store} {id b inst : ℕ} {f : SearchIndexBuild → SearchIndexBuild}

theorem update_length (s : Store) (id : ℕ) (f : SearchIndexBuild → SearchIndexBuild) :
    (s.update id f).builds.length = s.builds.length :=
  length_modify ..

theorem update_get_eq (s : Store) (id b : ℕ) (f : SearchIndexBuild → SearchIndexBuild) :
    ((s.update id f).builds[b]?.map (·.status)) =
      (s.builds[b]?.map fun build => if id = b then (f build).status else build.status) := by
  change ((s.builds.modify id _)[b]?).map _ = _
  rw [getElem?_modify]
  cases s.builds[b]? with
  | none => rfl
  | some build => by_cases hid : id = b <;> simp [hid]

theorem update_isRunning (h : (s.update id f).IsRunning b)
    (hf : ∀ build, (f build).status = .running → build.status = .running) : s.IsRunning b := by
  rw [Store.IsRunning, update_get_eq] at h
  obtain ⟨build, hbuild, hstatus⟩ := Option.map_eq_some_iff.mp h
  rw [Store.IsRunning, hbuild, Option.map_some]
  split at hstatus
  · rw [hf build hstatus]
  · rw [hstatus]

theorem update_ends (hf : ∀ build, (f build).status ≠ .running) : ¬ (s.update id f).IsRunning id := by
  intro h
  rw [Store.IsRunning, update_get_eq] at h
  obtain ⟨build, -, hstatus⟩ := Option.map_eq_some_iff.mp h
  rw [if_pos rfl] at hstatus
  exact hf build hstatus

theorem release_builds (s : Store) (inst id : ℕ) : (s.release inst id).builds = s.builds := by
  rw [Store.release]
  split <;> rfl

theorem release_isRunning : (s.release inst id).IsRunning b ↔ s.IsRunning b := by
  rw [Store.IsRunning, release_builds, Store.IsRunning]

theorem setActive_self (s : Store) (inst : ℕ) (id : Option ℕ) : (s.setActive inst id).activeBuildId inst = id :=
  if_pos rfl

theorem setActive_other (s : Store) {i inst : ℕ} (hi : i ≠ inst) (id : Option ℕ) :
    (s.setActive inst id).activeBuildId i = s.activeBuildId i :=
  if_neg hi

theorem release_self (s : Store) (inst id : ℕ) : (s.release inst id).activeBuildId inst ≠ some id := by
  rw [Store.release]
  split
  · rw [setActive_self]
    exact fun h => by cases h
  · assumption

theorem release_other (s : Store) {i inst : ℕ} (hi : i ≠ inst) (id : ℕ) :
    (s.release inst id).activeBuildId i = s.activeBuildId i := by
  rw [Store.release]
  split
  · exact setActive_other s hi none
  · rfl

theorem release_slot (h : (s.release inst id).activeBuildId inst = some b) : s.activeBuildId inst = some b := by
  rw [Store.release] at h
  split at h
  · rw [setActive_self] at h
    cases h
  · exact h

end Builds
section Act
variable {lower : String → String} {source : Source} {s s' : Store} {id b inst : ℕ} {phase phase' : Phase} {job : Job}

def Phase.settles : Phase → Option ℕ
  | .auditing job => some job.id
  | _ => none

theorem holds_processes (h : phase.holds = some b) : phase.processes = some b := by
  cases phase with
  | counting id dryRun triggeredBy | totalling id dryRun triggeredBy counts =>
    cases dryRun with
    | true => cases h
    | false => exact h
  | _ => exact h

theorem processes_about (h : phase.processes = some b) : phase.about = some b := by
  cases phase with
  | resuming id triggeredBy | retriggering id triggeredBy => cases h
  | _ => exact h

structure Acts (inst : ℕ) (phase : Phase) (s : Store) (result : Phase × Store) : Prop where
  length : s.builds.length ≤ result.2.builds.length
  running : ∀ b, result.2.IsRunning b → s.IsRunning b ∨ s.builds.length ≤ b ∧ result.1.processes = some b
  others : ∀ i, i ≠ inst → result.2.activeBuildId i = s.activeBuildId i
  slot : ∀ b, result.2.activeBuildId inst = some b → s.activeBuildId inst = some b ∨ result.1.holds = some b
  leaves : ∀ b, phase.processes = some b → result.1.processes ≠ some b → ¬ result.2.IsRunning b
  releases : ∀ b, phase.holds = some b → result.1.holds ≠ some b → result.2.activeBuildId inst ≠ some b
  about : ∀ b, result.1.about = some b → b < result.2.builds.length
  settled : ∀ b, result.1.settles = some b → ¬ result.2.IsRunning b

theorem acts_stays (hphase : phase.about = some id) (hid : id < s.builds.length) (habout : phase'.about = some id)
    (hprocesses : phase'.processes = some id) (hholds : phase.holds = some id → phase'.holds = some id)
    (hsettles : phase'.settles = none) (hlength : s'.builds.length = s.builds.length)
    (hrunning : ∀ b, s'.IsRunning b → s.IsRunning b)
    (hothers : ∀ i, i ≠ inst → s'.activeBuildId i = s.activeBuildId i)
    (hslot : ∀ b, s'.activeBuildId inst = some b → s.activeBuildId inst = some b ∨ phase'.holds = some b) :
    Acts inst phase s (phase', s') where
  length := le_of_eq hlength.symm
  running b h := .inl (hrunning b h)
  others := hothers
  slot := hslot
  leaves b h hne := by
    have hb : some id = some b := hphase.symm.trans (processes_about h)
    exact absurd (hprocesses.trans hb) hne
  releases b h hne := by
    have hb : some id = some b := hphase.symm.trans (processes_about (holds_processes h))
    cases hb
    exact absurd (hholds h) hne
  about b h := by
    rw [habout] at h
    cases h
    rw [hlength]
    exact hid
  settled b h := by
    rw [hsettles] at h
    cases h

theorem acts_ended (hlength : s'.builds.length = s.builds.length) (hrunning : ∀ b, s'.IsRunning b → s.IsRunning b)
    (hothers : ∀ i, i ≠ inst → s'.activeBuildId i = s.activeBuildId i)
    (hslot : ∀ b, s'.activeBuildId inst = some b → s.activeBuildId inst = some b)
    (hover : ∀ b, phase.processes = some b → ¬ s'.IsRunning b)
    (hfree : ∀ b, phase.holds = some b → s'.activeBuildId inst ≠ some b) (hphase' : phase'.about = none) :
    Acts inst phase s (phase', s') where
  length := le_of_eq hlength.symm
  running b h := .inl (hrunning b h)
  others := hothers
  slot b h := .inl (hslot b h)
  leaves b h _ := hover b h
  releases b h _ := hfree b h
  about b h := by
    rw [hphase'] at h
    cases h
  settled b h := by
    cases phase' with
    | auditing job => cases hphase'
    | _ => cases h

structure Phase.WorksOn (phase : Phase) (b : ℕ) : Prop where
  about : phase.about = some b
  processes : phase.processes = some b
  holds : phase.holds = some b
  settles : phase.settles = none

theorem index_worksOn (job : Job) (progress : Progress) (rest : List SearchIndexEntityType) :
    (index job progress rest).WorksOn job.id := by
  induction rest with
  | nil =>
    rw [index]
    cases job.entityTypes with
    | nil | cons => exact ⟨rfl, rfl, rfl, rfl⟩
  | cons entityType rest ih =>
    rw [index]
    split
    · exact ih
    · exact ⟨rfl, rfl, rfl, rfl⟩

theorem purge_worksOn (job : Job) (progress : Progress) (rest : List SearchIndexEntityType) :
    (purge job progress rest).WorksOn job.id := by
  cases rest with
  | nil | cons => exact ⟨rfl, rfl, rfl, rfl⟩

theorem upsert_worksOn (job : Job) (progress : Progress) (entityType : SearchIndexEntityType)
    (rest : List SearchIndexEntityType) (seen : List String) (records : List IndexRecord) :
    (upsert job progress entityType rest seen records).WorksOn job.id := by
  cases records with
  | nil | cons => exact ⟨rfl, rfl, rfl, rfl⟩

theorem acts_same (hphase : phase.about = some id) (hid : id < s.builds.length) (hphase' : phase'.WorksOn id)
    (hbuilds : s'.builds = s.builds) (hslots : s'.activeBuildId = s.activeBuildId) :
    Acts inst phase s (phase', s') :=
  acts_stays hphase hid hphase'.about hphase'.processes (fun _ => hphase'.holds) hphase'.settles (by rw [hbuilds])
    (fun b h => by rw [Store.IsRunning, ← hbuilds]; exact h) (fun i _ => by rw [hslots])
    fun b h => .inl (by rw [← hslots]; exact h)

theorem acts_update {f : SearchIndexBuild → SearchIndexBuild} (hphase : phase.about = some id)
    (hid : id < s.builds.length) (hphase' : phase'.WorksOn id)
    (hf : ∀ build, (f build).status = .running → build.status = .running) :
    Acts inst phase s (phase', s.update id f) :=
  acts_stays hphase hid hphase'.about hphase'.processes (fun _ => hphase'.holds) hphase'.settles
    (update_length s id f) (fun _ h => update_isRunning h hf) (fun _ _ => rfl) fun _ h => .inl h

theorem acts_active (hphase : phase.about = some id) (hid : id < s.builds.length) (hphase' : phase'.WorksOn id)
    (hlength : s'.builds.length = s.builds.length) (hrunning : ∀ b, s'.IsRunning b → s.IsRunning b)
    (hslots : s'.activeBuildId = s.activeBuildId) : Acts inst phase s (phase', s'.setActive inst (some id)) :=
  acts_stays hphase hid hphase'.about hphase'.processes (fun _ => hphase'.holds) hphase'.settles hlength hrunning
    (fun i hi => by rw [setActive_other s' hi, hslots])
    fun b h => .inr (by rw [setActive_self] at h; rw [← h]; exact hphase'.holds)

theorem acts_fails (hover : ∀ b, phase.processes = some b → ¬ s.IsRunning b)
    (hfree : ∀ b, phase.holds = some b → s.activeBuildId inst ≠ some b) : Acts inst phase s (.ended, s) :=
  acts_ended rfl (fun _ h => h) (fun _ _ => rfl) (fun _ h => h) hover hfree rfl

theorem acts_nothing (hphase : phase.processes = none) : Acts inst phase s (.ended, s) := by
  refine acts_fails (fun b h => ?_) fun b h => ?_
  · rw [hphase] at h
    cases h
  · rw [holds_processes h] at hphase
    cases hphase

theorem acts_found (hphase : phase.processes = none) (hid : id < s.builds.length) (habout : phase'.about = some id)
    (hsettles : phase'.settles = none) : Acts inst phase s (phase', s) := by
  refine ⟨le_refl _, fun b h => .inl h, fun _ _ => rfl, fun b h => .inl h, fun b h => ?_, fun b h => ?_, fun b h => ?_,
    fun b h => ?_⟩
  · rw [hphase] at h
    cases h
  · rw [holds_processes h] at hphase
    cases hphase
  · rw [habout] at h
    cases h
    exact hid
  · rw [hsettles] at h
    cases h

theorem acts_release (hphase : phase.processes = some id) (hlength : s'.builds.length = s.builds.length)
    (hrunning : ∀ b, s'.IsRunning b → s.IsRunning b) (hslots : s'.activeBuildId = s.activeBuildId)
    (hover : ¬ s'.IsRunning id) : Acts inst phase s (.ended, s'.release inst id) := by
  have hsame : ∀ b, phase.processes = some b → b = id := by
    intro b h
    rw [hphase] at h
    exact (Option.some.inj h).symm
  refine acts_ended (by rw [release_builds, hlength]) (fun b h => hrunning b (release_isRunning.mp h))
    (fun i hi => by rw [release_other s' hi, hslots]) (fun b h => by rw [← hslots]; exact release_slot h)
    (fun b h => ?_) (fun b h => ?_) rfl
  · rw [hsame b h]
    exact fun h => hover (release_isRunning.mp h)
  · rw [hsame b (holds_processes h)]
    exact release_self s' inst id

theorem acts_created {s₀ : Store} (hlength : s₀.builds.length = s.builds.length)
    (hrunning : ∀ b, s₀.IsRunning b → s.IsRunning b) (hslots : s₀.activeBuildId = s.activeBuildId)
    (options : RebuildOptions) :
    Acts inst (.claiming options) s (afterClaim inst options (s₀.createBuild options)) := by
  change Acts inst (.claiming options) s
    (afterClaim inst options (.created s₀.builds.length options.dryRun, (s₀.createBuild options).2))
  have hlonger : (s₀.createBuild options).2.builds.length = s₀.builds.length + 1 := length_append
  have hnew : ∀ b, (s₀.createBuild options).2.IsRunning b → s.IsRunning b ∨ b = s₀.builds.length := by
    intro b h
    obtain ⟨build, hbuild, hstatus⟩ := Option.map_eq_some_iff.mp h
    rcases getElem?_snoc hbuild with hold | ⟨hb, -⟩
    · exact .inl (hrunning b (by rw [Store.IsRunning, hold, Option.map_some, hstatus]))
    · exact .inr hb
  have hkept : (s₀.createBuild options).2.activeBuildId = s.activeBuildId := hslots
  generalize (s₀.createBuild options).2 = s₁ at hlonger hnew hkept
  have hacts : ∀ (dryRun : Bool) (s₂ : Store), s₂.builds = s₁.builds →
      (∀ i, i ≠ inst → s₂.activeBuildId i = s.activeBuildId i) →
      (∀ b, s₂.activeBuildId inst = some b → s.activeBuildId inst = some b ∨
        (counting s₀.builds.length dryRun options.triggeredBy).holds = some b) →
        Acts inst (.claiming options) s (.counting s₀.builds.length dryRun options.triggeredBy, s₂) := by
    intro dryRun s₂ hbuilds hothers hslot
    refine ⟨by rw [hbuilds]; omega, fun b h => ?_, hothers, hslot, fun b h => (by cases h), fun b h => (by cases h),
      fun b h => ?_, fun b h => (by cases h)⟩
    · rw [Store.IsRunning, hbuilds] at h
      refine (hnew b h).imp_right fun hb => ?_
      subst hb
      exact ⟨le_of_eq hlength.symm, rfl⟩
    · cases h
      rw [hbuilds, hlonger]
      exact Nat.lt_succ_self _
  cases options.dryRun with
  | true => exact hacts true s₁ rfl (fun i _ => by rw [hkept]) fun b h => .inl (by rw [← hkept]; exact h)
  | false =>
    refine hacts false _ rfl (fun i hi => by rw [setActive_other s₁ hi, hkept]) fun b h => ?_
    rw [setActive_self] at h
    exact .inr h

theorem acts_claiming (options : RebuildOptions) :
    Acts inst (.claiming options) s ((claiming options).act lower source inst s) := by
  rw [act]
  cases hclaim : s.claim inst options with
  | error e => exact acts_nothing rfl
  | ok claimed =>
    rcases claim_ok hclaim with ⟨id, hrunning, rfl⟩ | rfl | ⟨id, hrunning, rfl⟩
    · obtain ⟨build, hbuild, -⟩ := running_eq_some hrunning
      exact acts_found rfl (List.getElem?_eq_some_iff.mp hbuild).1 rfl rfl
    · exact acts_created rfl (fun _ h => h) rfl options
    · exact acts_created (update_length s id _)
        (fun b h => update_isRunning h fun build hstatus => by cases hstatus) rfl options

theorem acts_booting : Acts inst .booting s (booting.act lower source inst s) := by
  rw [act]
  split
  · exact acts_nothing rfl
  · exact acts_nothing rfl
  · rename_i id _ hrunning
    obtain ⟨build, hbuild, -⟩ := running_eq_some hrunning
    split
    · refine ⟨le_refl _, fun b h => .inl h, fun i hi => setActive_other s hi _, fun b h => ?_, fun b h => (by cases h),
        fun b h => (by cases h), fun b h => ?_, fun b h => (by cases h)⟩
      · rw [setActive_self] at h
        exact .inr h
      · cases h
        exact (List.getElem?_eq_some_iff.mp hbuild).1
    · exact acts_nothing rfl

theorem acts_completing {progress : Progress} (hid : job.id < s.builds.length) : Acts inst (.completing job progress) s
      (.auditing job, s.update job.id (.complete progress.checkpoint progress.processed s.now)) := by
  have hover : ∀ build : SearchIndexBuild, (build.complete progress.checkpoint progress.processed s.now).status ≠ .running :=
    fun _ hstatus => by cases hstatus
  refine ⟨le_of_eq (update_length s job.id _).symm, fun b h => .inl (update_isRunning h fun build hstatus => ?_),
    fun _ _ => rfl, fun b h => .inl h, fun b h hne => absurd h hne, fun b h hne => absurd h hne, fun b h => ?_,
    fun b h => ?_⟩
  · exact absurd hstatus (hover build)
  · cases h
    rw [update_length]
    exact hid
  · cases h
    exact update_ends hover

/-- The calls of `startRebuild` after its transaction: they fail only where the build is over. -/
theorem acts_counting {dryRun : Bool} (hprocesses : phase.processes = some id)
    (hholds : ∀ b, phase.holds = some b → b = id ∧ dryRun = false)
    (h : ¬ s.IsRunning id ∧ (dryRun = false → s.activeBuildId inst ≠ some id)) : Acts inst phase s (.ended, s) := by
  refine acts_fails (fun b hb => ?_) fun b hb => ?_
  · rw [hprocesses] at hb
    cases hb
    exact h.1
  · obtain ⟨rfl, hdry⟩ := hholds b hb
    exact h.2 hdry

theorem acts_loading (hid : id < s.builds.length) (htidy : s.Loads inst id ∨ s.IsOver inst id) :
    Acts inst (.loading id) s ((loading id).act lower source inst s) := by
  have hfails : s.IsOver inst id → Acts inst (.loading id) s (.ended, s) := by
    intro hover
    refine acts_fails (fun b h => ?_) fun b h => ?_
    · cases h
      exact hover.1
    · cases h
      exact hover.2
  obtain ⟨build, hbuild⟩ : ∃ build, s.builds[id]? = some build := ⟨_, getElem?_eq_getElem hid⟩
  rw [act, hbuild]
  cases hdb : s.db with
  | error e =>
    refine hfails (htidy.resolve_left fun hloads => ?_)
    have hok := hloads.1
    rw [hdb] at hok
    cases hok
  | ok _ =>
    dsimp only
    split
    · rename_i hguard
      refine hfails (htidy.resolve_left ?_)
      rintro ⟨-, hrunning, hmode, hactive⟩
      rw [Store.IsRunning, hbuild] at hrunning
      rw [hbuild] at hmode
      rcases hguard with hdry | hstatus | hother
      · rw [Option.map_some, hdry] at hmode
        cases hmode
      · exact hstatus (Option.some.inj hrunning)
      · cases hslot : s.activeBuildId inst with
        | none =>
          rw [hslot] at hother
          cases hother
        | some other =>
          rw [hslot] at hother hactive
          exact absurd (of_decide_eq_true hactive) (of_decide_eq_true hother)
    · exact acts_active rfl hid (index_worksOn _ _ _) rfl (fun _ h => h) rfl

theorem act_acts {phase : Phase} (habout : ∀ b, phase.about = some b → b < s.builds.length)
    (hsettled : ∀ b, phase.settles = some b → ¬ s.IsRunning b) (htidy : phase.Tidy inst s) :
    Acts inst phase s (phase.act lower source inst s) := by
  have hfails : ∀ (job : Job) (e : String), phase.about = some job.id → Acts inst phase s (.failing job.id e, s) :=
    fun job e h => acts_same h (habout job.id h) ⟨rfl, rfl, rfl, rfl⟩ rfl rfl
  have hanswers : ∀ {e : String}, s.db = .error e → ¬ s.db.isOk = true := by
    intro e hdb
    rw [hdb]
    exact Bool.false_ne_true
  cases phase with
  | claiming options => exact acts_claiming options
  | counting id dryRun triggeredBy =>
    rw [act]
    cases hdb : s.db with
    | error e =>
      refine acts_counting rfl (fun b h => ?_) (htidy.resolve_left (hanswers hdb))
      cases dryRun with
      | true => cases h
      | false => exact ⟨(Option.some.inj h).symm, rfl⟩
    | ok _ =>
      refine acts_stays rfl (habout id rfl) rfl rfl (fun h => ?_) rfl rfl (fun _ h => h) (fun _ _ => rfl) fun _ h => .inl h
      cases dryRun with
      | true => cases h
      | false => rfl
  | totalling id dryRun triggeredBy counts =>
    rw [act]
    cases hdb : s.db with
    | error e =>
      refine acts_counting rfl (fun b h => ?_) (htidy.resolve_left (hanswers hdb))
      cases dryRun with
      | true => cases h
      | false => exact ⟨(Option.some.inj h).symm, rfl⟩
    | ok _ =>
      cases dryRun with
      | true =>
        refine acts_ended (update_length s id _) (fun _ h => update_isRunning h fun _ hstatus => by cases hstatus)
          (fun _ _ => rfl) (fun _ h => h) (fun b h => ?_) (fun b h => by cases h) rfl
        cases h
        exact update_ends fun _ hstatus => by cases hstatus
      | false =>
        exact acts_active rfl (habout id rfl) ⟨rfl, rfl, rfl, rfl⟩ (update_length s id _)
          (fun _ h => update_isRunning h fun _ hstatus => hstatus) rfl
  | auditingDryRun => exact acts_nothing rfl
  | booting => exact acts_booting
  | resuming id triggeredBy =>
    rw [act]
    split
    · exact acts_nothing rfl
    · exact acts_nothing rfl
    · split
      · exact acts_nothing rfl
      · split
        · exact acts_active rfl (habout id rfl) ⟨rfl, rfl, rfl, rfl⟩ rfl (fun _ h => h) rfl
        · exact acts_found rfl (habout id rfl) rfl rfl
  | retriggering id triggeredBy =>
    rw [act]
    cases hdb : s.db with
    | error e => exact acts_nothing rfl
    | ok _ =>
      exact acts_active rfl (habout id rfl) ⟨rfl, rfl, rfl, rfl⟩ (update_length s id _)
        (fun _ h => update_isRunning h fun _ hstatus => hstatus) rfl
  | loading id => exact acts_loading (habout id rfl) htidy
  | scanning job progress entityType rest seen =>
    rw [act]
    cases hdb : s.db with
    | error e => exact hfails job e rfl
    | ok _ => exact acts_same rfl (habout job.id rfl) (upsert_worksOn _ _ _ _ _ _) rfl rfl
  | upserting job progress entityType rest seen record records =>
    rw [act]
    cases hdb : s.db with
    | error e => exact hfails job e rfl
    | ok _ => exact acts_same rfl (habout job.id rfl) (upsert_worksOn _ _ _ _ _ _) rfl rfl
  | persisting job progress entityType rest seen =>
    rw [act]
    cases hdb : s.db with
    | error e => exact hfails job e rfl
    | ok _ =>
      refine acts_update rfl (habout job.id rfl) ?_ fun _ hstatus => hstatus
      split
      · exact index_worksOn job progress rest
      · exact ⟨rfl, rfl, rfl, rfl⟩
  | purging job progress entityType rest =>
    rw [act]
    cases hdb : s.db with
    | error e => exact hfails job e rfl
    | ok _ => exact acts_same rfl (habout job.id rfl) (purge_worksOn job progress rest) rfl rfl
  | completing job progress =>
    rw [act]
    cases hdb : s.db with
    | error e => exact hfails job e rfl
    | ok _ => exact acts_completing (habout job.id rfl)
  | auditing job =>
    rw [act]
    cases hdb : s.db with
    | error e => exact hfails job e rfl
    | ok _ => exact acts_release rfl rfl (fun _ h => h) rfl (hsettled job.id rfl)
  | failing id message =>
    rw [act]
    cases hdb : s.db with
    | error e => exact acts_release rfl rfl (fun _ h => h) rfl (htidy.resolve_left (hanswers hdb))
    | ok _ =>
      exact acts_release rfl (update_length s id _) (fun _ h => update_isRunning h fun _ hstatus => by cases hstatus)
        rfl (update_ends fun _ hstatus => by cases hstatus)
  | ended => exact acts_nothing rfl

end Act
section Runs
variable {lower : String → String} {source : Source} {s : Store} {w w' : World} {tr : List RebuildTransition}

structure World.InHand (w : World) : Prop where
  about : ∀ worker ∈ w.workers, ∀ b, worker.phase.about = some b → b < w.store.builds.length
  settled : ∀ worker ∈ w.workers, ∀ b, worker.phase.settles = some b → ¬ w.store.IsRunning b
  slots : ∀ inst b, w.store.activeBuildId inst = some b →
    ∃ worker ∈ w.workers, worker.inst = inst ∧ worker.phase.holds = some b

theorem World.InHand.start (h : w.InHand) {worker : Worker} (hphase : worker.phase.about = none) :
    World.InHand { w with workers := w.workers ++ [worker] } where
  about other hother b hb := by
    rcases mem_append.mp hother with hother | hother
    · exact h.about other hother b hb
    · rw [mem_singleton.mp hother, hphase] at hb
      cases hb
  settled other hother b hb := by
    rcases mem_append.mp hother with hother | hother
    · exact h.settled other hother b hb
    · rw [mem_singleton.mp hother] at hb
      obtain ⟨inst, phase⟩ := worker
      cases phase with
      | auditing job => cases hphase
      | _ => cases hb
  slots inst b hb := by
    obtain ⟨other, hother, hworks⟩ := h.slots inst b hb
    exact ⟨other, mem_append_left _ hother, hworks⟩

theorem World.InHand.crash (h : w.InHand) (inst : ℕ) :
    World.InHand { store := w.store.setActive inst none, workers := w.workers.map (Worker.crash inst) } where
  about worker hworker b hb := by
    obtain ⟨before, hbefore, rfl⟩ := mem_map.mp hworker
    rw [Worker.crash] at hb
    split at hb
    · cases hb
    · exact h.about before hbefore b hb
  settled worker hworker b hb := by
    obtain ⟨before, hbefore, rfl⟩ := mem_map.mp hworker
    rw [Worker.crash] at hb
    split at hb
    · cases hb
    · exact h.settled before hbefore b hb
  slots i b hb := by
    by_cases hi : i = inst
    · subst hi
      have hnone := setActive_self w.store i none
      rw [hb] at hnone
      cases hnone
    · have hold := (setActive_other w.store hi none).symm.trans hb
      obtain ⟨worker, hworker, hinst, hholds⟩ := h.slots i b hold
      have hother : worker.inst ≠ inst := fun heq => hi (hinst.symm.trans heq)
      exact ⟨worker, mem_map.mpr ⟨worker, hworker, if_neg hother⟩, hinst, hholds⟩

theorem mem_set_of_mem {α : Type} {l : List α} {i : ℕ} {a b c : α} (hi : l[i]? = some a) (hc : c ∈ l) (hne : c ≠ a) :
    c ∈ l.set i b := by
  obtain ⟨j, hj⟩ := mem_iff_getElem?.mp hc
  have hij : i ≠ j := by
    rintro rfl
    rw [hi] at hj
    exact hne (Option.some.inj hj).symm
  exact mem_of_getElem? (by rw [getElem?_set_ne hij, hj])

section Turn
variable {i : ℕ} {worker : Worker} {phase' : Phase} {s' : Store}

theorem World.InHand.advance (h : w.InHand) (hi : w.workers[i]? = some worker)
    (hacts : Acts worker.inst worker.phase w.store (phase', s')) :
    World.InHand { store := s', workers := w.workers.set i { worker with phase := phase' } } where
  about other hother b hb := by
    rcases mem_or_eq_of_mem_set hother with hother | rfl
    · exact lt_of_lt_of_le (h.about other hother b hb) hacts.length
    · exact hacts.about b hb
  settled other hother b hb := by
    rcases mem_or_eq_of_mem_set hother with hother | rfl
    · intro hrunning
      have hold : b < w.store.builds.length := by
        refine h.about other hother b ?_
        obtain ⟨inst, phase⟩ := other
        cases phase with
        | auditing job => exact hb
        | _ => cases hb
      rcases hacts.running b hrunning with hrunning | ⟨hlength, -⟩
      · exact h.settled other hother b hb hrunning
      · omega
    · exact hacts.settled b hb
  slots inst b hb := by
    have hself : ∀ other : Worker, other ∈ w.workers → other.inst = inst → other.phase.holds = some b →
        (inst = worker.inst → other = worker → phase'.holds = some b) →
          ∃ now ∈ w.workers.set i { worker with phase := phase' }, now.inst = inst ∧ now.phase.holds = some b := by
      intro other hother hinst hholds hsame
      by_cases heq : other = worker
      · subst heq
        exact ⟨_, List.mem_set (List.getElem?_eq_some_iff.mp hi).1 _, hinst, hsame hinst.symm rfl⟩
      · exact ⟨other, mem_set_of_mem hi hother heq, hinst, hholds⟩
    by_cases hinst : inst = worker.inst
    · subst hinst
      rcases hacts.slot b hb with hold | hholds
      · obtain ⟨other, hother, hwhere, hholds⟩ := h.slots _ b hold
        refine hself other hother hwhere hholds fun _ heq => ?_
        by_contra hne
        exact hacts.releases b (heq ▸ hholds) hne hb
      · exact ⟨_, List.mem_set (List.getElem?_eq_some_iff.mp hi).1 _, rfl, hholds⟩
    · obtain ⟨other, hother, hwhere, hholds⟩ := h.slots inst b ((hacts.others inst hinst).symm.trans hb)
      exact hself other hother hwhere hholds fun heq => absurd heq hinst

theorem abandons_advance (hi : w.workers[i]? = some worker)
    (hacts : Acts worker.inst worker.phase w.store (phase', s')) {b : ℕ}
    (h : World.Abandons { store := s', workers := w.workers.set i { worker with phase := phase' } } b) :
    w.Abandons b := by
  have hself : phase'.processes ≠ some b :=
    h.2 { worker with phase := phase' } (List.mem_set (List.getElem?_eq_some_iff.mp hi).1 _)
  refine ⟨(hacts.running b h.1).resolve_right fun hnew => hself hnew.2, fun other hother hprocesses => ?_⟩
  by_cases heq : other = worker
  · subst heq
    exact hacts.leaves b hprocesses hself h.1
  · exact h.2 other (mem_set_of_mem hi hother heq) hprocesses

end Turn

theorem step_inHand {event : Event} (hstep : w.Step lower source event w') (htidy : Tidy ⟨w, event, w'⟩)
    (h : w.InHand) : w'.InHand ∧ ((∀ inst, event ≠ .crash inst) → ∀ b, w'.Abandons b → w.Abandons b) := by
  cases event with
  | startRebuild inst options =>
    cases hstep
    exact ⟨h.start rfl, fun _ b hb => ⟨hb.1, fun worker hworker => hb.2 worker (mem_append_left _ hworker)⟩⟩
  | onModuleInit inst =>
    cases hstep
    exact ⟨h.start rfl, fun _ b hb => ⟨hb.1, fun worker hworker => hb.2 worker (mem_append_left _ hworker)⟩⟩
  | advance i =>
    simp only [World.Step, World.take] at hstep
    cases hi : w.workers[i]? with
    | none =>
      rw [hi] at hstep
      cases hstep
    | some worker =>
      rw [hi] at hstep
      cases hstep
      have hworker : worker ∈ w.workers := mem_of_getElem? hi
      have hacts : Acts worker.inst worker.phase w.store (worker.phase.act lower source worker.inst w.store) :=
        act_acts (h.about worker hworker) (h.settled worker hworker) (htidy worker hi)
      exact ⟨h.advance hi hacts, fun _ b hb => abandons_advance hi hacts hb⟩
  | crash inst =>
    cases hstep
    exact ⟨h.crash inst, fun hno => absurd rfl (hno inst)⟩
  | elapse d =>
    cases hstep
    exact ⟨⟨h.about, h.settled, h.slots⟩, fun _ _ hb => hb⟩
  | foresee db locked =>
    cases hstep
    exact ⟨⟨h.about, h.settled, h.slots⟩, fun _ _ hb => hb⟩

theorem inHand_of_run (hs : ∀ inst, s.activeBuildId inst = none)
    (hrun : Run (World.Step lower source) { store := s } tr w) (htidy : ∀ t ∈ tr, Tidy t) {t : RebuildTransition}
    (ht : t ∈ tr) : t.pre.InHand ∧ t.post.InHand := by
  have hidle : World.InHand { store := s } := by
    refine ⟨fun _ hworker => absurd hworker not_mem_nil, fun _ hworker => absurd hworker not_mem_nil, fun inst b hb => ?_⟩
    rw [hs inst] at hb
    cases hb
  exact hrun.invariant_at hidle htidy (fun t hstep hC hpre => (step_inHand hstep hC hpre).1) ht

theorem World.InHand.free (h : w.InHand) {inst : ℕ} (hidle : w.Idle inst) : w.store.activeBuildId inst = none := by
  cases hslot : w.store.activeBuildId inst with
  | none => rfl
  | some b =>
    obtain ⟨worker, hworker, hinst, hholds⟩ := h.slots inst b hslot
    have hnone := hidle worker hworker hinst
    rw [holds_processes hholds] at hnone
    cases hnone

theorem claim_accepted {inst : ℕ} {options : RebuildOptions} (hdb : s.db = .ok ()) (hlocked : s.locked = true)
    (hslot : s.activeBuildId inst = none) (hrunning : ∀ b, ¬ s.IsRunning b) (hresume : options.resume = false) :
    s.claim inst options = .ok (s.createBuild options) := by
  have hnone : s.running = none := by
    exact find?_eq_none.mpr fun b _ h => hrunning b (of_decide_eq_true h)
  rw [Store.claim, hdb]
  dsimp only
  rw [hlocked, if_neg (by decide), hslot, hnone]
  dsimp only
  rw [hresume, if_neg (by decide)]

/-- A rebuild that fails blocks none of the next, while nothing fails where nobody would clean up. -/
theorem neverBlocks_of_tidy (hs : ∀ inst, s.activeBuildId inst = none)
    (hrun : Run (World.Step lower source) { store := s } tr w) (htidy : ∀ t ∈ tr, Tidy t) : NeverBlocks tr where
  free t ht inst hidle := (inHand_of_run hs hrun htidy ht).2.free hidle
  kept t ht hcrash b hb :=
    (step_inHand (hrun.step_of_mem ht) (htidy t ht) (inHand_of_run hs hrun htidy ht).1).2 hcrash b hb
  accepted t ht hidle hkept hdb hlocked inst options hresume := by
    refine ⟨_, claim_accepted hdb hlocked ((inHand_of_run hs hrun htidy ht).2.free (hidle inst)) (fun b hb => ?_) hresume⟩
    refine hkept b ⟨hb, fun worker hworker hprocesses => ?_⟩
    rw [hidle worker.inst worker hworker rfl] at hprocesses
    cases hprocesses

def interrupted (before after : List ℕ) : List RebuildTransition × World :=
  play (World.take id oneCampaign) { store := {} }
    ([.startRebuild 0 { entityTypes := [.campaign] }] ++ before.map .advance ++ [.foresee (.error "timeout") true,
      .advance 0, .foresee (.ok ()) true] ++ after.map .advance ++ [.startRebuild 0 { entityTypes := [.campaign] }] ++
      [1, 1].map .advance)

theorem interrupted_run (before after : List ℕ) :
    Run (World.Step id oneCampaign) { store := {} } (interrupted before after).1 (interrupted before after).2 :=
  play_run (fun _ _ _ h => h) _ _

/-- The scan of the campaigns fails, the build is marked as failed, and the next one starts. -/
theorem neverBlocks_interrupted : NeverBlocks (interrupted [0, 0, 0, 0] [0]).1 :=
  neverBlocks_of_tidy (fun _ => rfl) (interrupted_run _ _) (by decide +kernel)

/-- The documents cannot be counted: nobody works on the build any more, and it is the active one for good. -/
theorem uncounted_blocks : ¬ NeverBlocks (interrupted [0] []).1 := by
  intro h
  have hblocked : ∃ t ∈ (interrupted [0] []).1, (∀ worker ∈ t.post.workers, worker.phase.processes = none) ∧
      t.post.store.activeBuildId 0 = some 0 := by decide +kernel
  obtain ⟨t, ht, hidle, hactive⟩ := hblocked
  rw [h.free t ht 0 fun worker hworker _ => hidle worker hworker] at hactive
  cases hactive

end Runs
end Soter.Search
