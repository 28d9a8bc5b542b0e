import Soter.Evidence.ChunkIntegrity
import Soter.SyncQueue.EvidenceUpload

/-! What becomes of an upload from the phone when requests and answers are lost: its evidence is queued once at most, byte for byte;
and the action does not end without it, as long as the answer that it has been queued arrives and nobody else queues the same bytes. -/
namespace Soter.SyncQueue
open Soter.Evidence Soter.Runs Soter.Expiring UploadPhase UploadCall EvidenceWorld

section Statement
variable (p : Platform) (file : EvidenceFile)

structure Keeps (files : ℕ → Option Buffer) (item : EvidenceQueueItem) : Prop where
  hash : item.fileHash = p.sha256 file.bytes
  size : item.size = file.bytes.length
  bytes : ∃ iv, files item.filePath = some (p.encryptBuffer iv file.bytes)

def EvidencePhone.HasEnded (phone : EvidencePhone) : Prop :=
  phone.completed = false ∧ (phone.action.state = .failed ∨ phone.action.state = .conflict)

structure EvidenceWorld.UploadsOnce (w : EvidenceWorld) : Prop where
  once : w.queued.length ≤ 1
  intact : ∀ id ∈ w.queued, ∃ item, w.server.items[id]? = some item ∧ Keeps p file w.server.files item
  ended : w.phone.HasEnded → ∀ item ∈ w.server.items, item.fileHash ≠ p.sha256 file.bytes

def Delivers (t : EvidenceTransition) : Prop :=
  match t.label with
  | .unanswered _ _ _ => t.post.queued = t.pre.queued
  | .queueItem item => item.fileHash ≠ p.sha256 file.bytes
  | _ => True

instance (t : EvidenceTransition) : Decidable (Delivers p file t) :=
  match t with
  | ⟨pre, .unanswered _ _ _, post⟩ => inferInstanceAs (Decidable (post.queued = pre.queued))
  | ⟨_, .queueItem item, _⟩ => inferInstanceAs (Decidable (item.fileHash ≠ p.sha256 file.bytes))
  | ⟨_, .attempt, _⟩ | ⟨_, .lost _, _⟩ | ⟨_, .answered _ _, _⟩ | ⟨_, .refused _ _ _, _⟩ | ⟨_, .elapse _, _⟩ =>
    inferInstanceAs (Decidable True)

end Statement
variable {session : UploadSession}
section Chunks
variable (file : EvidenceFile)

theorem flatten_chunks (n : ℕ) : ((List.range n).map file.chunk).flatten = file.bytes.take (n * chunkSize) := by
  induction n with
  | zero => simp
  | succ n ih =>
    rw [List.range_succ, List.map_append, List.flatten_append, ih, List.map_singleton, List.flatten_singleton, EvidenceFile.chunk,
      Nat.succ_mul, List.take_add]

def Covers (session : UploadSession) : Prop := file.bytes.length ≤ session.totalChunks * chunkSize

theorem flatten_of_covers (h : Covers file session) :
    ((List.range session.totalChunks).map file.chunk).flatten = file.bytes := by
  rw [flatten_chunks]
  exact List.take_of_length_le h

theorem covers_create {p : Platform} {now : ℕ} {id ownerId : String}
    (h : UploadSession.create p.lower now id (EvidenceServer.uploadDto file) ownerId none = .ok session) : Covers file session := by
  rw [UploadSession.create] at h
  split at h
  · cases h
  split at h
  · cases h
  cases hext : validateExtensionForMime p.lower (EvidenceServer.uploadDto file).fileName (EvidenceServer.uploadDto file).mimeType with
  | error e =>
    rw [hext] at h
    cases h
  | ok ext =>
    rw [hext] at h
    change (if maxFileSize < (EvidenceServer.uploadDto file).totalSize then _ else _) = _ at h
    split at h
    · cases h
    · cases h
      show file.bytes.length ≤ (file.bytes.length + chunkSize - 1) / chunkSize * chunkSize
      have hpos : 0 < chunkSize := by decide
      have hdiv := Nat.div_add_mod (file.bytes.length + chunkSize - 1) chunkSize
      have hmod := Nat.mod_lt (file.bytes.length + chunkSize - 1) hpos
      have hcomm := Nat.mul_comm chunkSize ((file.bytes.length + chunkSize - 1) / chunkSize)
      omega

end Chunks
section Serving
variable (p : Platform) (file : EvidenceFile) (items : List EvidenceQueueItem) (own : ℕ)

structure StoreIsOf (s : UploadStore) : Prop where
  session : Covers file s.session
  cached : ∀ entry ∈ s.cached, Covers file entry.value
  buffers : ∀ index, ∀ entry ∈ s.buffers index, entry.value = file.chunk index

def Queues (s : UploadStore) : Prop :=
  ∃ item, s.items = items ++ [item] ∧ item.filePath = own ∧ Keeps p file s.files item ∧
    ∀ other ∈ items, other.fileHash ≠ p.sha256 file.bytes

def OutcomeServes (s : UploadStore) : FinalizeOutcome → Prop
  | .item _ => Queues p file items own s
  | _ => s.items = items

def PhaseServes (s : UploadStore) : UploadPhase → Prop
  | .cacheSession session _ | .lookup session | .getReceived session | .findChunks session | .unlinking session =>
    Covers file session ∧ s.items = items
  | .getChunk session parts =>
    Covers file session ∧ parts.length < session.totalChunks ∧ parts = (List.range parts.length).map file.chunk ∧ s.items = items
  | .writeFile session assembled => Covers file session ∧ assembled = file.bytes ∧ s.items = items
  | .findDuplicate session assembled | .creating session assembled =>
    Covers file session ∧ assembled = file.bytes ∧ s.items = items ∧ ∃ iv, s.files own = some (p.encryptBuffer iv file.bytes)
  | .closing session outcome | .uncaching session outcome => Covers file session ∧ OutcomeServes p file items own s outcome
  | .cleaning _ outcome => OutcomeServes p file items own s outcome
  | .returned (.item _) => Queues p file items own s
  | _ => s.items = items

def IsLate : UploadPhase → Prop
  | .getChunk _ _ | .writeFile _ _ | .findDuplicate _ _ | .unlinking _ | .creating _ _ | .closing _ _ | .uncaching _ _ | .cleaning _ _
  | .returned (.item _) => True
  | _ => False

structure Serving (files : ℕ → Option Buffer) (call : UploadCall) (s : UploadStore) : Prop where
  store : StoreIsOf file s
  goal : ∀ index checksum buffer, call.goal = .uploadChunk index checksum buffer → buffer = file.chunk index.toNat
  writing : ∀ k buffered registry, call.phase = .writing k buffered registry →
    ∀ index checksum buffer, call.goal = .uploadChunk index checksum buffer → k = index.toNat
  phase : PhaseServes p file items own s call.phase
  late : IsLate call.phase → ∃ iv, call.goal = .finalize iv
  files : ∀ k, k ≠ own → s.files k = files k

end Serving
variable {ownerId : String}
section Steps
variable {p : Platform} {file : EvidenceFile} {items : List EvidenceQueueItem} {own : ℕ} {files : ℕ → Option Buffer}
variable {call : UploadCall} {s s' : UploadStore} {phase : UploadPhase}

variable {parts : List Buffer} {outcome : FinalizeOutcome} {goal : Goal}

theorem Serving.goes (h : Serving p file items own files call s) (hstore : StoreIsOf file s') (hfiles : ∀ k, k ≠ own → s'.files k = s.files k)
    (hwriting : ∀ k buffered registry, phase ≠ .writing k buffered registry)
    (hlate : IsLate phase → IsLate call.phase ∨ ∃ iv, call.goal = .finalize iv) (hphase : PhaseServes p file items own s' phase) :
    Serving p file items own files { call with phase } s' where
  store := hstore
  goal := h.goal
  writing k buffered registry hk := absurd hk (hwriting k buffered registry)
  phase := hphase
  late h' := (hlate h').elim h.late id
  files k hk := (hfiles k hk).trans (h.files k hk)

theorem Serving.stays (h : Serving p file items own files call s) (hwriting : ∀ k buffered registry, phase ≠ .writing k buffered registry)
    (hlate : IsLate phase → IsLate call.phase ∨ ∃ iv, call.goal = .finalize iv) (hphase : PhaseServes p file items own s phase) :
    Serving p file items own files { call with phase } s :=
  h.goes h.store (fun _ _ => rfl) hwriting hlate hphase

theorem enter_early (call : UploadCall) (s : UploadStore) (session : UploadSession) (fromCache : Bool) :
    ¬ IsLate (.enter call s session fromCache) ∧
      ∀ k buffered registry, enter call s session fromCache ≠ .writing k buffered registry := by
  unfold enter
  split
  · exact ⟨id, nofun⟩
  split
  · exact ⟨id, nofun⟩
  split
  · exact ⟨id, nofun⟩
  split
  · split
    · exact ⟨id, nofun⟩
    · exact ⟨id, nofun⟩
  · exact ⟨id, nofun⟩
  · exact ⟨id, nofun⟩

theorem enter_serves (call : UploadCall) (fromCache : Bool) (hsession : Covers file session) (hitems : s.items = items) :
    PhaseServes p file items own s (.enter call s session fromCache) := by
  unfold enter
  split
  · exact hitems
  split
  · exact hitems
  split
  · exact hitems
  split
  · split
    · exact hitems
    · exact ⟨hsession, hitems⟩
  · exact ⟨hsession, hitems⟩
  · exact ⟨hsession, hitems⟩

theorem gather_writing (p : Platform) (session : UploadSession) (parts : List Buffer) (k : ℕ) (buffered : Bool) (registry : Registry) :
    gather p session parts ≠ .writing k buffered registry := by
  unfold gather
  split
  · rintro ⟨⟩
  · rw [assemble]
    split
    · rintro ⟨⟩
    · rintro ⟨⟩

theorem gather_serves (hsession : Covers file session) (hitems : s.items = items)
    (hlength : parts.length ≤ session.totalChunks) (hparts : parts = (List.range parts.length).map file.chunk) :
    PhaseServes p file items own s (.gather p session parts) := by
  unfold gather
  split
  · rename_i hmore
    exact ⟨hsession, hmore, hparts, hitems⟩
  · have hall : parts.length = session.totalChunks := by omega
    rw [assemble]
    split
    · exact ⟨hsession, hitems⟩
    · have hwhole : parts.flatten = file.bytes := by
        rw [hparts, hall]
        exact flatten_of_covers file hsession
      exact ⟨hsession, hwhole, hitems⟩

theorem list_late (p : Platform) (goal : Goal) (session : UploadSession) (indices : List ℕ) :
    (IsLate (.list p goal session indices) → ∃ iv, goal = .finalize iv) ∧
      ∀ k buffered registry, list p goal session indices ≠ .writing k buffered registry := by
  cases goal with
  | finalize iv =>
    refine ⟨fun _ => ⟨iv, rfl⟩, ?_⟩
    unfold list
    simp only
    split
    · nofun
    · exact gather_writing p session []
  | uploadChunk index checksum buffer | getStatus => exact ⟨nofun, nofun⟩

theorem list_serves (goal : Goal) (indices : List ℕ) (hsession : Covers file session) (hitems : s.items = items) :
    PhaseServes p file items own s (.list p goal session indices) := by
  cases goal with
  | finalize iv =>
    unfold list
    simp only
    split
    · exact hitems
    · exact gather_serves hsession hitems (Nat.zero_le _) rfl
  | uploadChunk index checksum buffer | getStatus => exact hitems

theorem clean_writing (outcome : FinalizeOutcome) (keys : List RedisKey) (k : ℕ) (buffered : Bool) (registry : Registry) :
    clean outcome keys ≠ .writing k buffered registry := by
  cases keys with
  | nil => nofun
  | cons key rest => nofun

theorem clean_serves (keys : List RedisKey) (houtcome : OutcomeServes p file items own s outcome) :
    PhaseServes p file items own s (.clean outcome keys) := by
  cases keys with
  | nil =>
    cases outcome with
    | item id | duplicate | rejected rejection => exact houtcome
  | cons key rest => exact houtcome

theorem outcome_congr (h : OutcomeServes p file items own s outcome) (hitems : s'.items = s.items)
    (hfiles : s'.files = s.files) : OutcomeServes p file items own s' outcome := by
  cases outcome with
  | item id =>
    obtain ⟨item, hitem, hpath, hkeeps, hnew⟩ := h
    refine ⟨item, hitems.trans hitem, hpath, ?_, hnew⟩
    rw [hfiles]
    exact hkeeps
  | duplicate | rejected rejection => exact hitems.trans h

theorem storeIsOf_cached {cached : Option (Entry UploadSession)} (h : StoreIsOf file s) (hcached : ∀ entry ∈ cached, Covers file entry.value) :
    StoreIsOf file { s with cached } :=
  ⟨h.session, hcached, h.buffers⟩

theorem storeIsOf_del (h : StoreIsOf file s) (key : RedisKey) : StoreIsOf file (s.del key) := by
  cases key with
  | received => exact ⟨h.session, h.cached, h.buffers⟩
  | chunk index =>
    refine ⟨h.session, h.cached, fun i entry hentry => ?_⟩
    change entry ∈ (if i = index then none else s.buffers i) at hentry
    split at hentry
    · cases hentry
    · exact h.buffers i entry hentry

theorem del_items (s : UploadStore) (key : RedisKey) : (s.del key).items = s.items ∧ (s.del key).files = s.files := by
  cases key with
  | received | chunk index => exact ⟨rfl, rfl⟩

theorem register_items (file : EvidenceFile) (s : UploadStore) (call : UploadCall) (index : ℕ) (registry : Registry) :
    (call.register false index s registry).2.items = s.items ∧ (call.register false index s registry).2.files = s.files ∧
      (StoreIsOf file s → StoreIsOf file (call.register false index s registry).2) := by
  cases registry with
  | sadd | expire => exact ⟨rfl, rfl, fun h => ⟨h.session, h.cached, h.buffers⟩⟩
  | upsert =>
    obtain ⟨ownerId, goal, phase⟩ := call
    cases goal with
    | uploadChunk k checksum buffer => exact ⟨rfl, rfl, fun h => ⟨h.session, h.cached, h.buffers⟩⟩
    | finalize iv | getStatus => exact ⟨rfl, rfl, id⟩
  | done | threw => exact ⟨rfl, rfl, id⟩

theorem serveStep_writing {k : ℕ} {buffered : Bool} {registry : Registry}
    (h : Serving p file items own files ⟨ownerId, goal, .writing k buffered registry⟩ s) :
    Serving p file items own files ⟨ownerId, goal, (serveStep p own ⟨ownerId, goal, .writing k buffered registry⟩ s).1⟩
      (serveStep p own ⟨ownerId, goal, .writing k buffered registry⟩ s).2 := by
  have hitems : s.items = items := h.phase
  have hindex := h.writing k buffered registry rfl
  cases buffered with
  | true =>
    obtain ⟨hsame, hfiles, hstore⟩ := register_items file s ⟨ownerId, goal, .writing k true registry⟩ k registry
    refine ⟨hstore h.store, h.goal, ?_, hsame.trans hitems, nofun, fun i hi => ?_⟩
    · rintro _ _ _ ⟨⟩
      exact hindex
    · exact (congrFun hfiles i).trans (h.files i hi)
  | false =>
    cases goal with
    | uploadChunk index checksum buffer =>
      refine ⟨⟨h.store.session, h.store.cached, fun i entry hentry => ?_⟩, h.goal, ?_, hitems, nofun, h.files⟩
      · change entry ∈ (if i = k then set buffer (s.now + sessionTtlMs) else s.buffers i) at hentry
        split at hentry
        · rename_i hik
          cases hentry
          rw [hik, hindex index checksum buffer rfl]
          exact h.goal index checksum buffer rfl
        · exact h.store.buffers i entry hentry
      · rintro _ _ _ ⟨⟩
        exact hindex
    | finalize iv | getStatus => exact h

theorem act_session (h : Serving p file items own files ⟨ownerId, goal, phase⟩ s)
    (hphase : phase = .getCached ∨ phase = .findSession) :
    Serving p file items own files ⟨ownerId, goal, (act p own ⟨ownerId, goal, phase⟩ false s).1⟩
      (act p own ⟨ownerId, goal, phase⟩ false s).2 := by
  rcases hphase with rfl | rfl
  · have hitems : s.items = items := h.phase
    simp only [act, Bool.false_eq_true, if_false]
    split
    · rename_i session hcached
      obtain ⟨entry, hentry, rfl⟩ := mem_of_get hcached
      obtain ⟨hearly, hwriting⟩ := enter_early ⟨ownerId, goal, .getCached⟩ s entry.value true
      exact h.stays hwriting (fun hlate => absurd hlate hearly) (enter_serves _ true (h.store.cached entry hentry) hitems)
    · exact h.stays (by rintro _ _ _ ⟨⟩) (by rintro ⟨⟩) hitems
  · have hitems : s.items = items := h.phase
    simp only [act, Bool.false_eq_true, if_false]
    split
    · exact h.stays (by rintro _ _ _ ⟨⟩) (by rintro ⟨⟩) ⟨h.store.session, hitems⟩
    · obtain ⟨hearly, hwriting⟩ := enter_early ⟨ownerId, goal, .findSession⟩ s s.session false
      exact h.stays hwriting (fun hlate => absurd hlate hearly) (enter_serves _ false h.store.session hitems)

theorem act_lookup (h : Serving p file items own files ⟨ownerId, goal, .lookup session⟩ s) :
    Serving p file items own files ⟨ownerId, goal, (act p own ⟨ownerId, goal, .lookup session⟩ false s).1⟩
      (act p own ⟨ownerId, goal, .lookup session⟩ false s).2 := by
  have hitems : s.items = items := h.phase.2
  cases goal with
  | uploadChunk index checksum buffer =>
    simp only [act, Bool.false_eq_true, if_false, check]
    split
    · split
      · exact h.stays (by rintro _ _ _ ⟨⟩) (by rintro ⟨⟩) hitems
      · exact h.stays (by rintro _ _ _ ⟨⟩) (by rintro ⟨⟩) hitems
    · split
      · exact h.stays (by rintro _ _ _ ⟨⟩) (by rintro ⟨⟩) hitems
      · split
        · exact h.stays (by rintro _ _ _ ⟨⟩) (by rintro ⟨⟩) hitems
        · refine ⟨h.store, h.goal, ?_, hitems, False.elim, h.files⟩
          rintro _ _ _ ⟨⟩ _ _ _ ⟨⟩
          rfl
  | finalize iv | getStatus => exact h.stays (by rintro _ _ _ ⟨⟩) (by rintro ⟨⟩) hitems

theorem act_getChunk (h : Serving p file items own files ⟨ownerId, goal, .getChunk session parts⟩ s) :
    Serving p file items own files ⟨ownerId, goal, (act p own ⟨ownerId, goal, .getChunk session parts⟩ false s).1⟩
      (act p own ⟨ownerId, goal, .getChunk session parts⟩ false s).2 := by
  obtain ⟨hsession, hmore, hparts, hitems⟩ := h.phase
  simp only [act, Bool.false_eq_true, if_false]
  split
  · exact h.stays (by rintro _ _ _ ⟨⟩) (by rintro ⟨⟩) hitems
  · rename_i buffer hbuffer
    obtain ⟨entry, hentry, rfl⟩ := mem_of_get hbuffer
    have hnext : parts ++ [entry.value] = (List.range (parts ++ [entry.value]).length).map file.chunk := by
      rw [List.length_append, List.length_singleton, List.range_succ, List.map_append, List.map_singleton, ← hparts,
        h.store.buffers _ entry hentry]
    have hlength : (parts ++ [entry.value]).length ≤ session.totalChunks := by
      rw [List.length_append]
      exact hmore
    exact h.stays (gather_writing p session _) (fun _ => .inl trivial) (gather_serves hsession hitems hlength hnext)

theorem act_creating {assembled : Buffer}
    (h : Serving p file items own files ⟨ownerId, goal, .creating session assembled⟩ s) :
    Serving p file items own files ⟨ownerId, goal, (act p own ⟨ownerId, goal, .creating session assembled⟩ false s).1⟩
      (act p own ⟨ownerId, goal, .creating session assembled⟩ false s).2 := by
  obtain ⟨hsession, hwhole, hitems, hfile⟩ := h.phase
  simp only [act, Bool.false_eq_true, false_or]
  split
  · exact h.stays (by rintro _ _ _ ⟨⟩) (by rintro ⟨⟩) hitems
  · rename_i hnew
    refine h.goes ⟨h.store.session, h.store.cached, h.store.buffers⟩ (fun _ _ => rfl) (by rintro _ _ _ ⟨⟩) (fun _ => .inl trivial)
      ⟨hsession, ⟨session.fileName, own, p.sha256 assembled, session.mimeType, assembled.length, ownerId, session.orgId⟩, ?_, rfl, ?_, ?_⟩
    · show s.items ++ [_] = items ++ [_]
      rw [hitems]
    · exact ⟨by rw [hwhole], by rw [hwhole], hfile⟩
    · intro other hother hsame
      apply hnew
      rw [hitems, hwhole]
      exact List.any_eq_true.mpr ⟨other, hother, decide_eq_true hsame⟩

theorem serveStep_serving (h : Serving p file items own files ⟨ownerId, goal, phase⟩ s) :
    Serving p file items own files ⟨ownerId, goal, (serveStep p own ⟨ownerId, goal, phase⟩ s).1⟩
      (serveStep p own ⟨ownerId, goal, phase⟩ s).2 := by
  have hserves := h.phase
  cases phase with
  | writing k buffered registry => exact serveStep_writing h
  | getCached => exact act_session h (.inl rfl)
  | findSession => exact act_session h (.inr rfl)
  | cacheSession session ttl =>
    obtain ⟨hsession, hitems⟩ := hserves
    obtain ⟨hearly, hwriting⟩ := enter_early ⟨ownerId, goal, .cacheSession session ttl⟩ s session false
    refine h.goes ?_ (fun _ _ => rfl) hwriting (fun hlate => absurd hlate hearly) (enter_serves _ false hsession hitems)
    refine storeIsOf_cached h.store fun entry hentry => ?_
    cases hentry
    exact hsession
  | expiring => exact h.goes ⟨h.store.session, h.store.cached, h.store.buffers⟩ (fun _ _ => rfl) (by rintro _ _ _ ⟨⟩) (by rintro ⟨⟩) hserves
  | uncachingExpired => exact h.goes (storeIsOf_cached h.store (by rintro _ ⟨⟩)) (fun _ _ => rfl) (by rintro _ _ _ ⟨⟩) (by rintro ⟨⟩) hserves
  | lookup session => exact act_lookup h
  | getReceived session =>
    simp only [serveStep, act, Bool.false_eq_true, if_false]
    split
    · exact h.stays (by rintro _ _ _ ⟨⟩) (by rintro ⟨⟩) hserves
    · obtain ⟨hlate, hwriting⟩ := list_late p goal session _
      exact h.stays hwriting (fun hl => .inr (hlate hl)) (list_serves goal _ hserves.1 hserves.2)
  | findChunks session =>
    obtain ⟨hlate, hwriting⟩ := list_late p goal session s.chunkIndices
    exact h.stays hwriting (fun hl => .inr (hlate hl)) (list_serves goal _ hserves.1 hserves.2)
  | getChunk session parts => exact act_getChunk h
  | writeFile session assembled =>
    obtain ⟨hsession, hwhole, hitems⟩ := hserves
    cases goal with
    | finalize iv =>
      refine h.goes ⟨h.store.session, h.store.cached, h.store.buffers⟩ (fun k hk => if_neg hk) (by rintro _ _ _ ⟨⟩) (fun _ => .inl trivial)
        ⟨hsession, hwhole, hitems, iv, ?_⟩
      show (if own = own then some (p.encryptBuffer iv assembled) else s.files own) = _
      rw [if_pos rfl, hwhole]
    | uploadChunk index checksum buffer | getStatus => exact h.stays (by rintro _ _ _ ⟨⟩) (by rintro ⟨⟩) hitems
  | findDuplicate session assembled =>
    simp only [serveStep, act, Bool.false_eq_true, if_false]
    split
    · exact h.stays (by rintro _ _ _ ⟨⟩) (fun _ => .inl trivial) ⟨hserves.1, hserves.2.2.1⟩
    · exact h.stays (by rintro _ _ _ ⟨⟩) (fun _ => .inl trivial) hserves
  | unlinking session =>
    exact h.goes ⟨h.store.session, h.store.cached, h.store.buffers⟩ (fun k hk => if_neg hk) (by rintro _ _ _ ⟨⟩) (fun _ => .inl trivial)
      hserves
  | creating session assembled => exact act_creating h
  | closing session outcome =>
    exact h.goes ⟨h.store.session, h.store.cached, h.store.buffers⟩ (fun _ _ => rfl) (by rintro _ _ _ ⟨⟩) (fun _ => .inl trivial)
      ⟨hserves.1, outcome_congr hserves.2 rfl rfl⟩
  | uncaching session outcome =>
    have houtcome : OutcomeServes p file items own { s with cached := none } outcome := outcome_congr hserves.2 rfl rfl
    exact h.goes (storeIsOf_cached h.store (by rintro _ ⟨⟩)) (fun _ _ => rfl) (clean_writing outcome (sessionKeys session.totalChunks))
      (fun _ => .inl trivial)
      (clean_serves (sessionKeys session.totalChunks) houtcome)
  | cleaning keys outcome =>
    cases keys with
    | nil => exact h.stays (clean_writing outcome []) (fun _ => .inl trivial) (clean_serves [] hserves)
    | cons key rest =>
      obtain ⟨hitems, hfiles⟩ := del_items s key
      exact h.goes (storeIsOf_del h.store key) (fun k _ => congrFun hfiles k) (clean_writing outcome rest) (fun _ => .inl trivial)
        (clean_serves rest (outcome_congr hserves hitems hfiles))
  | returned reply => exact h

theorem serve_goal {turns : ℕ} : (serve p own turns call s).1.goal = call.goal := by
  induction turns generalizing call s with
  | zero => rfl
  | succ turns ih => exact ih

theorem serve_serving (turns : ℕ) (h : Serving p file items own files call s) :
    Serving p file items own files (serve p own turns call s).1 (serve p own turns call s).2 := by
  induction turns generalizing call s with
  | zero => exact h
  | succ turns ih => exact ih (serveStep_serving h)

end Steps
variable {server : EvidenceServer} {answer : UploadAnswer} {phone : EvidencePhone}
section Requests
variable {p : Platform} {file : EvidenceFile} {server' : EvidenceServer}

def EvidenceServer.IsOf (file : EvidenceFile) (server : EvidenceServer) : Prop := ∀ store ∈ server.sessions, StoreIsOf file store

/-- What a request may do to the items: nothing, or it has queued the file, and says so if it was one to finalize. -/
structure Handles (p : Platform) (file : EvidenceFile) (phone : EvidencePhone) (server : EvidenceServer) (answer : UploadAnswer)
    (server' : EvidenceServer) : Prop where
  sessions : server'.IsOf file
  served : server.served ≤ server'.served
  files : ∀ k, k < server.served → server'.files k = server.files k
  items : server'.items = server.items ∨ phone.stage = .finalizing ∧ answer = .item ∧ server.served < server'.served ∧
    ∃ item, server'.items = server.items ++ [item] ∧ item.filePath = server.served ∧ Keeps p file server'.files item ∧
      ∀ other ∈ server.items, other.fileHash ≠ p.sha256 file.bytes

variable {turns : ℕ}

theorem phaseAnswer_item {items : List EvidenceQueueItem} {own : ℕ} {s : UploadStore} {phase : UploadPhase}
    (hserves : PhaseServes p file items own s phase) (hanswer : phaseAnswer phase = some answer) :
    s.items = items ∨ answer = .item ∧ IsLate phase ∧ Queues p file items own s := by
  cases phase with
  | returned reply =>
    cases reply with
    | item id =>
      cases hanswer
      exact .inr ⟨rfl, trivial, hserves⟩
    | duplicate index | status totalChunks receivedChunks | failed failure => exact .inl hserves
  | writing k buffered registry => exact .inl hserves
  | _ => cases hanswer

theorem callSession_handles {session : ℕ} {goal : Goal} (hserver : server.IsOf file)
    (hgoal : ∀ index checksum buffer, goal = .uploadChunk index checksum buffer → buffer = file.chunk index.toNat)
    (hfinal : ∀ iv, goal = .finalize iv → phone.stage = .finalizing)
    (h : server.callSession p ownerId turns session goal = some (answer, server')) : Handles p file phone server answer server' := by
  obtain ⟨store, hstore, h⟩ := Option.bind_eq_some_iff.mp h
  obtain ⟨answer', hanswer, h⟩ := Option.map_eq_some_iff.mp h
  obtain ⟨rfl, rfl⟩ := Prod.mk.injEq .. ▸ h
  have hmem := hserver store (List.mem_of_getElem? hstore)
  have hstart : Serving p file server.items server.served server.files { ownerId, goal } (server.view store) :=
    ⟨⟨hmem.session, hmem.cached, hmem.buffers⟩, hgoal, nofun, rfl, nofun, fun _ _ => rfl⟩
  have hend := serve_serving turns hstart
  have hgoals : (serve p server.served turns { ownerId, goal } (server.view store)).1.goal = goal := serve_goal
  refine ⟨?_, Nat.le_succ _, fun k hk => hend.files k hk.ne, ?_⟩
  · intro other hother
    rcases List.mem_or_eq_of_mem_set hother with hother | rfl
    · exact hserver other hother
    · exact hend.store
  · rcases phaseAnswer_item hend.phase hanswer with hsame | ⟨rfl, hlate, hqueues⟩
    · exact .inl hsame
    · obtain ⟨iv, hiv⟩ := hend.late hlate
      exact .inr ⟨hfinal iv (hgoals.symm.trans hiv), rfl, Nat.lt_succ_self _, hqueues⟩

theorem createSession_handles (hserver : server.IsOf file)
    (h : server.createSession p file ownerId = some (answer, server')) : Handles p file phone server answer server' := by
  unfold EvidenceServer.createSession at h
  split at h
  · split at h
    · cases h
      exact ⟨hserver, le_rfl, fun _ _ => rfl, .inl rfl⟩
    · rename_i session hsession
      cases h
      refine ⟨?_, Nat.le_succ _, fun _ _ => rfl, .inl rfl⟩
      intro store hstore
      have hcovers := covers_create file hsession
      rcases List.mem_append.mp hstore with hstore | hstore
      · exact hserver store hstore
      · rw [List.mem_singleton.mp hstore]
        refine ⟨hcovers, fun entry hentry => ?_, nofun⟩
        cases hentry
        exact hcovers
  · cases h

theorem handle_handles {iv : Buffer} (hserver : server.IsOf file)
    (h : server.handle p file ownerId turns iv phone = some (answer, server')) : Handles p file phone server answer server' := by
  unfold EvidenceServer.handle at h
  split at h
  · exact createSession_handles hserver h
  · exact callSession_handles hserver (fun _ _ _ hgoal => by cases hgoal) (fun _ hgoal => by cases hgoal) h
  · split at h
    · cases h
      exact ⟨hserver, le_rfl, fun _ _ => rfl, .inl rfl⟩
    · refine callSession_handles hserver ?_ (fun _ hgoal => by cases hgoal) h
      rintro _ _ _ ⟨⟩
      rfl
  · rename_i hstage _
    exact callSession_handles hserver (fun _ _ _ hgoal => by cases hgoal) (fun _ _ => hstage) h
  · cases h

end Requests
section Histories
variable {p : Platform} {file : EvidenceFile} {w w' : EvidenceWorld} {event : EvidenceEvent}
variable {tr : List EvidenceTransition}

structure EvidenceWorld.IsSound (p : Platform) (file : EvidenceFile) (w : EvidenceWorld) : Prop where
  sessions : w.server.IsOf file
  once : w.queued.length ≤ 1
  intact : ∀ id ∈ w.queued, ∃ item, w.server.items[id]? = some item ∧ Keeps p file w.server.files item ∧ item.filePath < w.server.served

def EvidenceWorld.IsOpen (p : Platform) (file : EvidenceFile) (w : EvidenceWorld) : Prop :=
  w.phone.completed = false → ∀ item ∈ w.server.items, item.fileHash ≠ p.sha256 file.bytes

theorem receive_completed (h : (phone.receive answer).completed = false) :
    phone.completed = false ∧ ¬ (phone.stage = .finalizing ∧ answer = .item) := by
  have hitem (hfinal : phone.stage = .finalizing) : answer ≠ .item := by
    intro hitem
    rw [EvidencePhone.receive.eq_def, hfinal, hitem] at h
    cases h
  refine ⟨?_, fun hboth => hitem hboth.1 hboth.2⟩
  unfold EvidencePhone.receive at h
  split at h
  · exact h
  · exact h
  · exact h
  · split at h
    · exact h
    · exact h
  · exact h
  · exact h
  · cases h
  · exact h
  · exact h

theorem queued_serve (w : EvidenceWorld) (phone : EvidencePhone) {items : List EvidenceQueueItem}
    (hitems : server.items = w.server.items ++ items) :
    (w.serve phone server).queued = w.queued ++ List.range' w.server.items.length items.length := by
  show w.queued ++ List.range' w.server.items.length (server.items.length - w.server.items.length) = _
  rw [hitems, List.length_append, Nat.add_sub_cancel_left]

theorem serve_sound (hw : w.IsSound p file) (h : Handles p file w.phone w.server answer server) (phone : EvidencePhone) :
    (w.serve phone server).IsSound p file := by
  have hkept : ∀ item, Keeps p file w.server.files item → item.filePath < w.server.served →
      Keeps p file server.files item ∧ item.filePath < server.served := by
    intro item hkeeps hpath
    refine ⟨⟨hkeeps.hash, hkeeps.size, ?_⟩, hpath.trans_le h.served⟩
    rw [h.files _ hpath]
    exact hkeeps.bytes
  rcases h.items with hsame | ⟨-, -, hserved, item, hitems, hpath, hkeeps, hnew⟩
  · have hqueued : (w.serve phone server).queued = w.queued := by
      rw [queued_serve w phone (hsame.trans (List.append_nil _).symm)]
      exact List.append_nil _
    refine ⟨h.sessions, ?_, ?_⟩
    · rw [hqueued]
      exact hw.once
    · rw [hqueued]
      intro id hid
      obtain ⟨item, hitem, hkeeps, hpath⟩ := hw.intact id hid
      exact ⟨item, (congrArg (·[id]?) hsame).trans hitem, hkept item hkeeps hpath⟩
  · -- the file had not been queued before
    have hnone : w.queued = [] := by
      rw [List.eq_nil_iff_forall_not_mem]
      intro id hid
      obtain ⟨other, hother, hkeeps, -⟩ := hw.intact id hid
      exact hnew other (List.mem_of_getElem? hother) hkeeps.hash
    have hqueued : (w.serve phone server).queued = [w.server.items.length] := by
      rw [queued_serve w phone hitems, hnone]
      rfl
    refine ⟨h.sessions, ?_, ?_⟩
    · rw [hqueued]
      exact le_rfl
    · rw [hqueued]
      intro id hid
      rw [List.mem_singleton.mp hid]
      refine ⟨item, ?_, hkeeps, ?_⟩
      · show server.items[w.server.items.length]? = some item
        rw [hitems, List.getElem?_concat_length]
      · rw [hpath]
        exact hserved

theorem upload_sound (hw : w.IsSound p file) (h : w.take p file ownerId event = some w') : w'.IsSound p file := by
  cases event with
  | attempt =>
    simp only [EvidenceWorld.take] at h
    split at h
    · cases h
      exact ⟨hw.sessions, hw.once, hw.intact⟩
    · cases h
  | lost message =>
    simp only [EvidenceWorld.take] at h
    split at h
    · cases h
    · cases h
      exact ⟨hw.sessions, hw.once, hw.intact⟩
  | unanswered turns iv message =>
    obtain ⟨served, hserved, rfl⟩ := Option.map_eq_some_iff.mp h
    exact serve_sound hw (handle_handles hw.sessions hserved) _
  | answered turns iv =>
    obtain ⟨served, hserved, rfl⟩ := Option.map_eq_some_iff.mp h
    exact serve_sound hw (handle_handles hw.sessions hserved) _
  | refused status message retryAfterMs =>
    simp only [EvidenceWorld.take] at h
    split at h
    · cases h
    · cases h
      exact ⟨hw.sessions, hw.once, hw.intact⟩
  | elapse d =>
    cases h
    exact ⟨hw.sessions, hw.once, hw.intact⟩
  | queueItem item =>
    simp only [EvidenceWorld.take] at h
    split at h
    · cases h
    · cases h
      refine ⟨hw.sessions, hw.once, fun id hid => ?_⟩
      obtain ⟨other, hother, hkeeps⟩ := hw.intact id hid
      exact ⟨other, (List.getElem?_append_left (List.getElem?_eq_some_iff.mp hother).1).trans hother, hkeeps⟩

theorem upload_open (hw : w.IsSound p file) (hopen : w.IsOpen p file) (hdelivers : Delivers p file ⟨w, event, w'⟩)
    (h : w.take p file ownerId event = some w') : w'.IsOpen p file := by
  cases event with
  | attempt =>
    simp only [EvidenceWorld.take] at h
    split at h
    · cases h
      exact hopen
    · cases h
  | lost message =>
    simp only [EvidenceWorld.take] at h
    split at h
    · cases h
    · cases h
      exact hopen
  | unanswered turns iv message =>
    obtain ⟨served, hserved, rfl⟩ := Option.map_eq_some_iff.mp h
    rcases (handle_handles hw.sessions hserved).items with hsame | ⟨-, -, -, item, hitems, -⟩
    · intro hcompleted
      show ∀ item ∈ served.2.items, _
      rw [hsame]
      exact hopen hcompleted
    · have hqueued := queued_serve w (w.phone.fail { message }) hitems
      rw [show (w.serve (w.phone.fail { message }) served.2).queued = w.queued from hdelivers] at hqueued
      have hlength := congrArg List.length hqueued
      simp at hlength
  | answered turns iv =>
    obtain ⟨served, hserved, rfl⟩ := Option.map_eq_some_iff.mp h
    intro hcompleted
    obtain ⟨hbefore, hnot⟩ := receive_completed hcompleted
    rcases (handle_handles hw.sessions hserved).items with hsame | ⟨hstage, hanswer, -⟩
    · show ∀ item ∈ served.2.items, _
      rw [hsame]
      exact hopen hbefore
    · exact absurd ⟨hstage, hanswer⟩ hnot
  | refused status message retryAfterMs =>
    simp only [EvidenceWorld.take] at h
    split at h
    · cases h
    · cases h
      intro hcompleted
      exact hopen (receive_completed hcompleted).1
  | elapse d =>
    cases h
    exact hopen
  | queueItem item =>
    simp only [EvidenceWorld.take] at h
    split at h
    · cases h
    · cases h
      intro hcompleted other hother
      rcases List.mem_append.mp hother with hother | hother
      · exact hopen hcompleted other hother
      · rw [List.mem_singleton.mp hother]
        exact hdelivers

theorem initial_upload_sound (request : SyncActionRequest Unit) :
    (initial request).IsSound p file ∧ (initial request).IsOpen p file := by
  refine ⟨⟨?_, Nat.zero_le _, ?_⟩, ?_⟩
  · intro store hstore
    exact absurd hstore List.not_mem_nil
  · intro id hid
    exact absurd hid List.not_mem_nil
  · intro _ item hitem
    exact absurd hitem List.not_mem_nil

theorem uploads_once {request : SyncActionRequest Unit}
    (hrun : Run (Step p file ownerId) (initial request) tr w) (hdelivers : ∀ t ∈ tr, Delivers p file t) :
    ∀ t ∈ tr, t.post.UploadsOnce p file := by
  intro t ht
  have hboth := (hrun.invariant_at (I := fun w => w.IsSound p file ∧ w.IsOpen p file) (initial_upload_sound request) hdelivers
    (fun _ hstep hdelivers hpre => ⟨upload_sound hpre.1 hstep, upload_open hpre.1 hpre.2 hdelivers hstep⟩) ht).2
  refine ⟨hboth.1.once, fun id hid => ?_, fun hended => hboth.2 hended.1⟩
  obtain ⟨item, hitem, hkeeps, -⟩ := hboth.1.intact id hid
  exact ⟨item, hitem, hkeeps⟩

end Histories

def noteFile : EvidenceFile where
  filename := "a.txt"
  contentType := "text/plain"
  bytes := [104, 105]

def noteRequest : SyncActionRequest Unit where
  payload := .evidenceUpload 2

abbrev noteRun (events : List EvidenceEvent) : List EvidenceTransition × EvidenceWorld :=
  play (EvidenceWorld.take uploadPlatform noteFile "system") (initial noteRequest) events

def lostMessage : String := "Network request failed"

def resumedUpload : List EvidenceEvent :=
  [.attempt, .unanswered 0 [] lostMessage, .attempt, .answered 0 [], .unanswered 9 [] lostMessage, .elapse 30000, .attempt, .answered 9 [],
    .lost lostMessage, .attempt, .answered 9 [], .answered 20 [1]]

theorem uploads_once_resumed :
    (noteRun resumedUpload).1.Forall fun t => t.post.UploadsOnce uploadPlatform noteFile :=
  List.forall_iff_forall_mem.mpr (uploads_once (play_run (fun _ _ _ h => h) resumedUpload _) (by decide +kernel))

/-- The answer to finalize is lost, and the status of the session that is completed is asked for. -/
def unheardUpload : List EvidenceEvent :=
  [.attempt, .answered 0 [], .answered 9 [], .unanswered 20 [1] lostMessage, .attempt, .answered 9 []]

def duplicateUpload : List EvidenceEvent :=
  [.queueItem ⟨"b.txt", 7, uploadDigest [104, 105], "text/plain", 2, "owner", none⟩, .attempt, .answered 0 [], .answered 9 [], .answered 20 [1]]

theorem upload_ends_failed :
    ¬ (noteRun unheardUpload).2.UploadsOnce uploadPlatform noteFile ∧ ¬ (noteRun duplicateUpload).2.UploadsOnce uploadPlatform noteFile := by
  refine ⟨fun h => ?_, fun h => ?_⟩
  · exact absurd (h.ended ⟨by decide +kernel, .inl (by decide +kernel)⟩) (by decide +kernel)
  · exact absurd (h.ended ⟨by decide +kernel, .inl (by decide +kernel)⟩) (by decide +kernel)

end Soter.SyncQueue
