import Soter.Evidence.UploadSession

/-! What finalizing an upload stores is what was let in chunk by chunk, and what a caller was told is there is found, as
long as the writes to Redis do not fail and no two calls get in each other's way. -/
namespace Soter.Evidence
open Soter.Expiring Soter.Runs

section Statement

def UploadCall.accepted? (call : UploadCall) : Option (ℕ × String × Buffer) :=
  match call.goal, call.phase with
  | .uploadChunk _ checksum buffer, .writing index _ _ => some (index, checksum, buffer)
  | _, _ => none

/-- The index for which the call has answered `received: true`. -/
def UploadCall.received? (call : UploadCall) : Option ℕ :=
  match call.phase with
  | .writing index true .done | .returned (.duplicate index) => some index
  | _ => none

def UploadCall.Stores (index : ℕ) (call : UploadCall) : Prop :=
  match call.phase with
  | .writing i buffered _ => i = index ∧ buffered = true
  | _ => False

instance (index : ℕ) (call : UploadCall) : Decidable (call.Stores index) :=
  match h : call.phase with
  | .writing i buffered _ => decidable_of_iff (i = index ∧ buffered = true) (by rw [UploadCall.Stores, h])
  | .getCached | .findSession | .cacheSession _ _ | .expiring | .uncachingExpired | .lookup _ | .getReceived _
  | .findChunks _ | .getChunk _ _ | .writeFile _ _ | .findDuplicate _ _ | .unlinking _ | .creating _ _ | .closing _ _
  | .uncaching _ _ | .cleaning _ _ | .returned _ => isFalse (by rw [UploadCall.Stores, h]; exact id)

def UploadWorld.Stores (index : ℕ) (w : UploadWorld) : Prop := ∃ call ∈ w.calls, call.Stores index

variable (p : Platform)

/-- The buffer is one that a call has let in for the index, and has the checksum on record. -/
structure UploadWorld.IsGenuine (w : UploadWorld) (index : ℕ) (buffer : Buffer) : Prop where
  accepted : ∃ call ∈ w.calls, call.accepted? = some (index, p.sha256 buffer, buffer)
  recorded : ∃ chunk, w.store.chunks index = some chunk ∧ chunk.checksum = p.sha256 buffer

/-- The bytes are those of genuine buffers, one for each index, in order, and as many as were declared. -/
def UploadWorld.IsAssembled (w : UploadWorld) (assembled : Buffer) : Prop :=
  ∃ parts : List Buffer, assembled = parts.flatten ∧ parts.length = w.store.session.totalChunks ∧
    assembled.length = w.store.session.totalSize ∧
    ∀ (index : ℕ) (buffer : Buffer), parts[index]? = some buffer → w.IsGenuine p index buffer

def UploadWorld.IsIntact (w : UploadWorld) (id : ℕ) : Prop :=
  ∃ (item : EvidenceQueueItem) (iv assembled : Buffer), w.store.items[id]? = some item ∧
    w.store.files item.filePath = some (p.encryptBuffer iv assembled) ∧ item.fileHash = p.sha256 assembled ∧
    item.size = assembled.length ∧ w.IsAssembled p assembled

/-- Chunked uploads: what finalize answers with is intact, and a chunk that was received before finalize was called is
not missed before the session has expired. -/
structure ChunksIntact (tr : List UploadTransition) : Prop where
  intact : ∀ t ∈ tr, ∀ call ∈ t.post.calls, ∀ id, call.phase = .returned (.item id) → t.post.IsIntact p id
  present : tr.Pairwise fun t u => ∀ ownerId iv, t.label = .start ownerId (.finalize iv) →
    ∀ index, (∃ call ∈ t.pre.calls, call.received? = some index) →
    ∀ f failure, u.post.calls[t.pre.calls.length]? = some f → f.phase = .returned (.failed failure) →
      u.post.store.now ≤ u.post.store.session.expiresAt → ¬ failure.Misses index

end Statement
section Conditions

def Goal.isFinalize : Goal → Bool
  | .finalize _ => true
  | _ => false

def UploadSession.IsClosed (session : UploadSession) : Prop := session.status = .completed ∨ session.status = .aborted

instance (session : UploadSession) : Decidable session.IsClosed :=
  inferInstanceAs (Decidable (session.status = .completed ∨ session.status = .aborted))

variable (p : Platform) (w : UploadWorld)

/-- A call that lets a buffer in finds no call that has let in another buffer for the index and has yet to record it; one
that answers that the chunk is a duplicate finds its bytes written. -/
def UploadWorld.LooksUp (session : UploadSession) (index : ℕ) (checksum : String) (buffer : Buffer) : Prop :=
  match w.store.chunks index with
  | some chunk => chunk.checksum = checksum → w.Stores index
  | none =>
    buffer.length = session.expectedSize index ∧ p.sha256 buffer = checksum →
      ∀ other ∈ w.calls, ∀ x ∈ other.accepted?, x.1 = index → x.2.1 = checksum

instance (session : UploadSession) (index : ℕ) (checksum : String) (buffer : Buffer) :
    Decidable (w.LooksUp p session index checksum buffer) :=
  match h : w.store.chunks index with
  | some chunk =>
    decidable_of_iff (chunk.checksum = checksum → ∃ call ∈ w.calls, call.Stores index) (by
      rw [UploadWorld.LooksUp, h]
      rfl)
  | none =>
    decidable_of_iff (buffer.length = session.expectedSize index ∧ p.sha256 buffer = checksum →
      ∀ other ∈ w.calls, ∀ x ∈ other.accepted?, x.1 = index → x.2.1 = checksum) (by rw [UploadWorld.LooksUp, h])

def UploadWorld.Admits (fails : Bool) : UploadPhase → Goal → Prop
  | .lookup session, .uploadChunk index checksum buffer => w.LooksUp p session index.toNat checksum buffer
  | .writing _ _ registry, _ => registry = .sadd → fails = false
  | .getReceived _, goal | .findChunks _, goal => goal.isFinalize = true → ¬ w.store.session.IsClosed
  | .getChunk _ parts, _ =>
    fails = false ∧ ¬ w.store.session.IsClosed ∧ (w.store.chunks parts.length).isSome = true
  | _, _ => True

instance (fails : Bool) : ∀ phase goal, Decidable (w.Admits p fails phase goal)
  | .lookup session, .uploadChunk index checksum buffer =>
    inferInstanceAs (Decidable (w.LooksUp p session index.toNat checksum buffer))
  | .lookup _, .finalize _ | .lookup _, .getStatus => inferInstanceAs (Decidable True)
  | .writing _ _ registry, _ => inferInstanceAs (Decidable (registry = .sadd → fails = false))
  | .getReceived _, goal | .findChunks _, goal =>
    inferInstanceAs (Decidable (goal.isFinalize = true → ¬ w.store.session.IsClosed))
  | .getChunk _ parts, _ =>
    inferInstanceAs (Decidable (fails = false ∧ ¬ w.store.session.IsClosed ∧ (w.store.chunks parts.length).isSome = true))
  | .getCached, _ | .findSession, _ | .cacheSession _ _, _ | .expiring, _ | .uncachingExpired, _ | .writeFile _ _, _
  | .findDuplicate _ _, _ | .unlinking _, _ | .creating _ _, _ | .closing _ _, _ | .uncaching _ _, _
  | .cleaning _ _, _ | .returned _, _ => inferInstanceAs (Decidable True)

def MayStore (fails : Bool) : UploadPhase → Prop
  | .writing _ buffered _ => buffered = false → fails = false
  | _ => True

instance (fails : Bool) : ∀ phase, Decidable (MayStore fails phase)
  | .writing _ buffered _ => inferInstanceAs (Decidable (buffered = false → fails = false))
  | .getCached | .findSession | .cacheSession _ _ | .expiring | .uncachingExpired | .lookup _ | .getReceived _
  | .findChunks _ | .getChunk _ _ | .writeFile _ _ | .findDuplicate _ _ | .unlinking _ | .creating _ _ | .closing _ _
  | .uncaching _ _ | .cleaning _ _ | .returned _ => inferInstanceAs (Decidable True)

def Orderly (t : UploadTransition) : Prop :=
  match t.label with
  | .advance i fails => ∀ call, t.pre.calls[i]? = some call → t.pre.Admits p fails call.phase call.goal
  | .storeChunk i fails => ∀ call, t.pre.calls[i]? = some call → MayStore fails call.phase
  | _ => True

instance (t : UploadTransition) : Decidable (Orderly p t) :=
  match t with
  | ⟨pre, .advance i fails, _⟩ =>
    inferInstanceAs (Decidable (∀ call ∈ pre.calls[i]?, pre.Admits p fails call.phase call.goal))
  | ⟨pre, .storeChunk i fails, _⟩ => inferInstanceAs (Decidable (∀ call ∈ pre.calls[i]?, MayStore fails call.phase))
  | ⟨_, .start _ _, _⟩ | ⟨_, .elapse _, _⟩ | ⟨_, .queueItem _, _⟩ => inferInstanceAs (Decidable True)

end Conditions
variable {buffer : Buffer} {index : ℕ} {session : UploadSession} {w' : UploadWorld}
section Leads
variable {p : Platform} {w w'' : UploadWorld} {row : UploadSession}

def UploadSession.SameAs (session row : UploadSession) : Prop := session = { row with status := session.status }

theorem UploadSession.SameAs.refl (session : UploadSession) : session.SameAs session := rfl

theorem UploadSession.SameAs.totalChunks (h : session.SameAs row) : session.totalChunks = row.totalChunks :=
  (congrArg UploadSession.totalChunks h).trans rfl

theorem UploadSession.SameAs.totalSize (h : session.SameAs row) : session.totalSize = row.totalSize :=
  (congrArg UploadSession.totalSize h).trans rfl

theorem UploadSession.SameAs.expiresAt (h : session.SameAs row) : session.expiresAt = row.expiresAt :=
  (congrArg UploadSession.expiresAt h).trans rfl

theorem UploadSession.SameAs.expectedSize (h : session.SameAs row) (index : ℕ) :
    session.expectedSize index = row.expectedSize index :=
  (congrArg (UploadSession.expectedSize · index) h).trans rfl

def UploadStore.IsOpen (s : UploadStore) : Prop := s.now ≤ s.session.expiresAt ∧ ¬ s.session.IsClosed

structure UploadWorld.Leads (w w' : UploadWorld) : Prop where
  session : w'.store.session.SameAs w.store.session
  now : w.store.now ≤ w'.store.now
  opened : w'.store.IsOpen → w.store.IsOpen
  accepted : ∀ call ∈ w.calls, ∀ x, call.accepted? = some x → ∃ call' ∈ w'.calls, call'.accepted? = some x
  stores : ∀ index, w.Stores index → w'.Stores index
  chunks : ∀ index chunk, w.store.chunks index = some chunk →
    ∃ chunk', w'.store.chunks index = some chunk' ∧ chunk'.checksum = chunk.checksum
  items : w.store.items <+: w'.store.items

theorem UploadWorld.Leads.refl (w : UploadWorld) : w.Leads w where
  session := .refl _
  now := le_refl _
  opened h := h
  accepted call hcall _ hx := ⟨call, hcall, hx⟩
  stores _ h := h
  chunks _ chunk h := ⟨chunk, h, rfl⟩
  items := List.prefix_refl _

theorem UploadWorld.Leads.isGenuine (h : w.Leads w') (hgenuine : w.IsGenuine p index buffer) :
    w'.IsGenuine p index buffer where
  accepted := by
    obtain ⟨call, hcall, hx⟩ := hgenuine.accepted
    exact h.accepted call hcall _ hx
  recorded := by
    obtain ⟨chunk, hchunk, hsum⟩ := hgenuine.recorded
    obtain ⟨chunk', hchunk', hsame⟩ := h.chunks index chunk hchunk
    exact ⟨chunk', hchunk', hsame.trans hsum⟩

theorem UploadWorld.Leads.isAssembled (h : w.Leads w') {assembled : Buffer} (hassembled : w.IsAssembled p assembled) :
    w'.IsAssembled p assembled := by
  obtain ⟨parts, hparts, hlength, hsize, hall⟩ := hassembled
  refine ⟨parts, hparts, ?_, ?_, fun index buffer hbuffer => h.isGenuine (hall index buffer hbuffer)⟩
  · rw [hlength, h.session.totalChunks]
  · rw [hsize, h.session.totalSize]

def UploadWorld.Keeps (p : Platform) (w : UploadWorld) (self : ℕ) : FinalizeOutcome → Prop
  | .item id => ∃ (item : EvidenceQueueItem) (iv assembled : Buffer), w.store.items[id]? = some item ∧
    item.filePath = self ∧ w.store.files self = some (p.encryptBuffer iv assembled) ∧
    item.fileHash = p.sha256 assembled ∧ item.size = assembled.length ∧ w.IsAssembled p assembled
  | .duplicate | .rejected _ => True

theorem UploadWorld.Leads.keeps (h : w.Leads w') {self : ℕ} (hfile : w'.store.files self = w.store.files self)
    {outcome : FinalizeOutcome} (hkeeps : w.Keeps p self outcome) : w'.Keeps p self outcome := by
  cases outcome with
  | item id =>
    obtain ⟨item, iv, assembled, hitem, hpath, hbytes, hhash, hsize, hassembled⟩ := hkeeps
    obtain ⟨more, hmore⟩ := h.items
    refine ⟨item, iv, assembled, ?_, hpath, hfile.trans hbytes, hhash, hsize, h.isAssembled hassembled⟩
    rw [← hmore]
    exact (List.getElem?_append_left (List.getElem?_eq_some_iff.mp hitem).1).trans hitem
  | duplicate | rejected _ => trivial

/-- What a call at the place `self` knows. -/
def UploadWorld.Knows (p : Platform) (w : UploadWorld) (self : ℕ) (goal : Goal) : UploadPhase → Prop
  | .getCached | .findSession | .uncachingExpired => True
  | .writing _ _ _ => ∃ k checksum buffer, goal = .uploadChunk k checksum buffer
  | .cacheSession session _ | .getReceived session | .findChunks session | .unlinking session =>
    session.SameAs w.store.session
  | .expiring => w.store.session.expiresAt < w.store.now
  | .lookup session => session.SameAs w.store.session ∧
    ∀ index checksum buffer, goal = .uploadChunk index checksum buffer → index.toNat < session.totalChunks
  | .getChunk session parts => session.SameAs w.store.session ∧ parts.length < session.totalChunks ∧
    ∀ (index : ℕ) (buffer : Buffer), parts[index]? = some buffer → w.IsGenuine p index buffer
  | .writeFile session assembled => session.SameAs w.store.session ∧ w.IsAssembled p assembled
  | .findDuplicate session assembled | .creating session assembled =>
    session.SameAs w.store.session ∧ w.IsAssembled p assembled ∧
      ∃ iv, w.store.files self = some (p.encryptBuffer iv assembled)
  | .closing session outcome => session.SameAs w.store.session ∧ w.Keeps p self outcome
  | .uncaching _ outcome | .cleaning _ outcome => ¬ w.store.IsOpen ∧ w.Keeps p self outcome
  | .returned (.item id) => w.Keeps p self (.item id)
  | .returned (.duplicate index) => (w.store.chunks index).isSome = true ∧ w.Stores index
  | .returned (.status _ _) | .returned (.failed _) => True

theorem UploadWorld.Leads.knows (h : w.Leads w') {self : ℕ} (hfile : w'.store.files self = w.store.files self)
    {goal : Goal} {phase : UploadPhase} (hknows : w.Knows p self goal phase) : w'.Knows p self goal phase := by
  have hsame : ∀ {session : UploadSession}, session.SameAs w.store.session → session.SameAs w'.store.session := by
    intro session hsession
    rw [UploadSession.SameAs] at hsession ⊢
    rw [hsession, h.session]
  cases phase with
  | cacheSession session ttl | getReceived session | findChunks session | unlinking session => exact hsame hknows
  | expiring =>
    change w'.store.session.expiresAt < w'.store.now
    rw [h.session.expiresAt]
    exact lt_of_lt_of_le hknows h.now
  | lookup session => exact ⟨hsame hknows.1, hknows.2⟩
  | getChunk session parts =>
    exact ⟨hsame hknows.1, hknows.2.1, fun index buffer hbuffer => h.isGenuine (hknows.2.2 index buffer hbuffer)⟩
  | writeFile session assembled => exact ⟨hsame hknows.1, h.isAssembled hknows.2⟩
  | findDuplicate session assembled =>
    obtain ⟨hsession, hassembled, iv, hbytes⟩ := hknows
    exact ⟨hsame hsession, h.isAssembled hassembled, iv, hfile.trans hbytes⟩
  | creating session assembled =>
    obtain ⟨hsession, hassembled, iv, hbytes⟩ := hknows
    exact ⟨hsame hsession, h.isAssembled hassembled, iv, hfile.trans hbytes⟩
  | closing session outcome => exact ⟨hsame hknows.1, h.keeps hfile hknows.2⟩
  | uncaching session outcome => exact ⟨fun hopen => hknows.1 (h.opened hopen), h.keeps hfile hknows.2⟩
  | cleaning keys outcome => exact ⟨fun hopen => hknows.1 (h.opened hopen), h.keeps hfile hknows.2⟩
  | returned reply =>
    cases reply with
    | item id =>
      have hkept : w.Keeps p self (.item id) := hknows
      exact h.keeps hfile hkept
    | duplicate index =>
      obtain ⟨hchunk, hstores⟩ := hknows
      obtain ⟨chunk, hchunk⟩ := Option.isSome_iff_exists.mp hchunk
      obtain ⟨chunk', hchunk', -⟩ := h.chunks index chunk hchunk
      exact ⟨Option.isSome_iff_exists.mpr ⟨chunk', hchunk'⟩, h.stores index hstores⟩
    | status _ _ | failed _ => trivial
  | getCached | findSession | uncachingExpired => trivial
  | writing _ _ _ => exact hknows

end Leads
variable {i : ℕ} {call c : UploadCall} {checksum : String} {registry registry' : Registry} {buffered : Bool} {k : ℤ}
section Invariant
variable {p : Platform} {w : UploadWorld} {call' : UploadCall} {phase : UploadPhase} {s' : UploadStore}

structure UploadSession.IsMade (session : UploadSession) : Prop where
  minSize : 0 < session.totalSize
  minChunk : 0 < session.chunkSize
  totalChunks : session.totalChunks = (session.totalSize + session.chunkSize - 1) / session.chunkSize

variable (p) in
structure UploadWorld.IsSound (w : UploadWorld) : Prop where
  made : w.store.session.IsMade
  since : w.store.session.expiresAt ≤ w.store.now + sessionTtlMs
  cached : ∀ entry ∈ w.store.cached, entry.value.SameAs w.store.session
  accepted : ∀ call ∈ w.calls, ∀ index checksum buffer, call.accepted? = some (index, checksum, buffer) →
    checksum = p.sha256 buffer ∧ buffer.length = w.store.session.expectedSize index ∧
      index < w.store.session.totalChunks
  agree : ∀ call ∈ w.calls, ∀ call' ∈ w.calls, ∀ index checksum buffer checksum' buffer',
    call.accepted? = some (index, checksum, buffer) → call'.accepted? = some (index, checksum', buffer') →
      checksum = checksum'
  recorded : ∀ index chunk, w.store.chunks index = some chunk → ∃ call ∈ w.calls, ∃ buffered buffer,
    call.phase = .writing index buffered .done ∧ call.accepted? = some (index, chunk.checksum, buffer)
  done : ∀ call ∈ w.calls, ∀ index buffered, call.phase = .writing index buffered .done →
    (w.store.chunks index).isSome = true
  buffers : ∀ index, ∀ entry ∈ w.store.buffers index, ∃ call ∈ w.calls, ∃ checksum,
    call.accepted? = some (index, checksum, entry.value)
  lasting : ∀ entry ∈ w.store.received, entry.Lasts w.store.session.expiresAt
  stored : w.store.IsOpen → ∀ index, w.Stores index →
    Holds w.store.session.expiresAt (fun _ => True) (w.store.buffers index)
  listed : w.store.IsOpen → ∀ call ∈ w.calls, ∀ index buffered registry, call.phase = .writing index buffered registry →
    registry ≠ .sadd → Holds w.store.session.expiresAt (index ∈ ·) w.store.received
  knows : ∀ (k : ℕ) (call : UploadCall), w.calls[k]? = some call → w.Knows p k call.goal call.phase

variable {now : ℕ}

theorem isMade_create {lower : String → String} {id ownerId : String} {dto : CreateUploadSessionDto}
    {orgId : Option String} (hdto : dto.IsValid)
    (h : UploadSession.create lower now id dto ownerId orgId = .ok session) :
    session.IsMade ∧ session.expiresAt = now + sessionTtlMs := by
  rw [UploadSession.create] at h
  split at h
  · cases h
  · split at h
    · cases h
    · cases hext : validateExtensionForMime lower dto.fileName dto.mimeType with
      | error e =>
        rw [hext] at h
        cases h
      | ok ext =>
        rw [hext] at h
        change (if maxFileSize < dto.totalSize then _ else _) = _ at h
        split at h
        · cases h
        · cases h
          have hchunk : minChunkSize ≤ dto.chunkSize := hdto.minChunk
          have hpos : 0 < dto.chunkSize := lt_of_lt_of_le (by decide) hchunk
          exact ⟨⟨hdto.minSize, hpos, rfl⟩, rfl⟩

theorem isSound_created (hmade : session.IsMade)
    (hexpires : session.expiresAt = now + sessionTtlMs) (items : List EvidenceQueueItem) (files : ℕ → Option Buffer)
    (fails : Bool) : UploadWorld.IsSound p { store := .created now session items files fails } where
  made := hmade
  since := le_of_eq hexpires
  cached entry hentry := by
    cases fails with
    | true => cases hentry
    | false =>
      cases hentry
      exact .refl _
  accepted _ h := absurd h List.not_mem_nil
  agree _ h := absurd h List.not_mem_nil
  recorded _ _ h := by cases h
  done _ h := absurd h List.not_mem_nil
  buffers _ _ h := by cases h
  lasting _ h := by cases h
  stored _ _ h := by
    obtain ⟨_, h, -⟩ := h
    cases h
  listed _ _ h := absurd h List.not_mem_nil
  knows _ _ h := by cases h

def UploadPhase.IsWriting (phase : UploadPhase) : Prop :=
  ∃ index buffered registry, phase = .writing index buffered registry

theorem accepted?_eq_some {checksum : String} {buffer : Buffer} (h : call.accepted? = some (index, checksum, buffer)) :
    (∃ k, call.goal = .uploadChunk k checksum buffer) ∧ ∃ buffered registry, call.phase = .writing index buffered registry := by
  rw [UploadCall.accepted?] at h
  split at h
  · rename_i k _ _ _ buffered registry hgoal hphase
    cases h
    exact ⟨⟨k, hgoal⟩, buffered, registry, hphase⟩
  · cases h

theorem isWriting_of_accepted {x : ℕ × String × Buffer} (h : call.accepted? = some x) : call.phase.IsWriting := by
  obtain ⟨buffered, registry, hphase⟩ := (accepted?_eq_some h).2
  exact ⟨x.1, buffered, registry, hphase⟩

theorem stores_iff : call.Stores index ↔ ∃ registry, call.phase = .writing index true registry := by
  constructor
  · intro h
    rw [UploadCall.Stores] at h
    split at h
    · rename_i k buffered registry hphase
      obtain ⟨rfl, rfl⟩ := h
      exact ⟨registry, hphase⟩
    · exact h.elim
  · rintro ⟨registry, hphase⟩
    rw [UploadCall.Stores, hphase]
    exact ⟨rfl, rfl⟩

theorem isWriting_of_stores (h : call.Stores index) : call.phase.IsWriting := by
  obtain ⟨registry, hphase⟩ := stores_iff.mp h
  exact ⟨index, true, registry, hphase⟩

theorem mem_put (hi : w.calls[i]? = some call) (hc : c ∈ w.calls) :
    c ∈ (w.put i call (phase, s')).calls ∨ c = call := by
  obtain ⟨j, hj⟩ := List.mem_iff_getElem?.mp hc
  by_cases hji : i = j
  · subst hji
    exact .inr (Option.some.inj (hj.symm.trans hi))
  · refine .inl (List.mem_of_getElem? (i := j) ?_)
    exact (List.getElem?_set_ne hji).trans hj

theorem put_mem (w : UploadWorld) (hi : w.calls[i]? = some call) :
    { call with phase := phase } ∈ (w.put i call (phase, s')).calls :=
  List.mem_set (List.getElem?_eq_some_iff.mp hi).1 _

theorem mem_of_mem_put (h : c ∈ (w.put i call (phase, s')).calls) :
    c ∈ w.calls ∨ c = { call with phase := phase } :=
  List.mem_or_eq_of_mem_set h

theorem getElem?_put {k : ℕ} (hi : w.calls[i]? = some call) (h : (w.put i call (phase, s')).calls[k]? = some c) :
    k = i ∧ c = { call with phase := phase } ∨ k ≠ i ∧ w.calls[k]? = some c := by
  by_cases hki : k = i
  · subst hki
    refine .inl ⟨rfl, ?_⟩
    have hset := List.getElem?_set_self (a := { call with phase := phase }) (List.getElem?_eq_some_iff.mp hi).1
    exact (Option.some.inj (hset.symm.trans h)).symm
  · exact .inr ⟨hki, (List.getElem?_set_ne (Ne.symm hki)).symm.trans h⟩

theorem mem_put_iff (hi : w.calls[i]? = some call) (hold : ¬ call.phase.IsWriting)
    (hnew : ¬ phase.IsWriting) (hc : c.phase.IsWriting) : c ∈ (w.put i call (phase, s')).calls ↔ c ∈ w.calls := by
  constructor
  · intro h
    rcases mem_of_mem_put h with h | rfl
    · exact h
    · exact absurd hc hnew
  · intro h
    have hput : c ∈ (w.put i call (phase, s')).calls ∨ c = call := mem_put hi h
    exact hput.resolve_right fun hsame => hold (hsame ▸ hc)

structure UploadStore.Calm (mine : ℕ) (s s' : UploadStore) : Prop where
  session : s'.session.SameAs s.session
  now : s.now ≤ s'.now
  cached : ∀ entry ∈ s'.cached, entry.value.SameAs s.session
  opened : s'.IsOpen → s.IsOpen ∧ s'.buffers = s.buffers ∧ s'.received = s.received
  buffers : ∀ index, ∀ entry ∈ s'.buffers index, entry ∈ s.buffers index
  received : ∀ entry ∈ s'.received, entry ∈ s.received
  chunks : s'.chunks = s.chunks
  items : s.items <+: s'.items
  files : ∀ k ≠ mine, s'.files k = s.files k

theorem UploadStore.Calm.refl (h : w.IsSound p) (mine : ℕ) : UploadStore.Calm mine w.store w.store where
  session := .refl _
  now := le_refl _
  cached := h.cached
  opened hopen := ⟨hopen, rfl, rfl⟩
  buffers _ _ hentry := hentry
  received _ hentry := hentry
  chunks := rfl
  items := List.prefix_refl _
  files _ _ := rfl

theorem calm_leads (hcalm : UploadStore.Calm i w.store w'.store)
    (hwriting : ∀ c : UploadCall, c.phase.IsWriting → (c ∈ w'.calls ↔ c ∈ w.calls)) : w.Leads w' where
  session := hcalm.session
  now := hcalm.now
  opened hopen := (hcalm.opened hopen).1
  accepted c hc x hx := ⟨c, (hwriting c (isWriting_of_accepted hx)).mpr hc, hx⟩
  stores index hstores := by
    obtain ⟨c, hc, hcstores⟩ := hstores
    exact ⟨c, (hwriting c (isWriting_of_stores hcstores)).mpr hc, hcstores⟩
  chunks index chunk hchunk := ⟨chunk, (congrFun hcalm.chunks index).trans hchunk, rfl⟩
  items := hcalm.items

theorem UploadSession.SameAs.isMade {row : UploadSession} (h : session.SameAs row) (hmade : row.IsMade) :
    session.IsMade := by
  rw [UploadSession.SameAs] at h
  rw [h]
  exact ⟨hmade.minSize, hmade.minChunk, hmade.totalChunks⟩

theorem calm_sound (h : w.IsSound p) (hcalm : UploadStore.Calm i w.store w'.store)
    (hwriting : ∀ c : UploadCall, c.phase.IsWriting → (c ∈ w'.calls ↔ c ∈ w.calls))
    (hknows : ∀ (k : ℕ) (c : UploadCall), w'.calls[k]? = some c → w'.Knows p k c.goal c.phase) : w'.IsSound p := by
  have hexpires : w'.store.session.expiresAt = w.store.session.expiresAt := hcalm.session.expiresAt
  refine ⟨hcalm.session.isMade h.made, ?_, ?_, ?_, ?_, ?_, ?_, ?_, ?_, ?_, ?_, hknows⟩
  · rw [hexpires]
    exact h.since.trans (Nat.add_le_add_right hcalm.now _)
  · intro entry hentry
    have hsame := hcalm.cached entry hentry
    have hsession := hcalm.session
    rw [UploadSession.SameAs] at hsame hsession ⊢
    rw [hsame, hsession]
  · intro c hc index checksum buffer hx
    rw [hcalm.session.expectedSize, hcalm.session.totalChunks]
    exact h.accepted c ((hwriting c (isWriting_of_accepted hx)).mp hc) index checksum buffer hx
  · intro c hc c' hc' index checksum buffer checksum' buffer' hx hx'
    exact h.agree c ((hwriting c (isWriting_of_accepted hx)).mp hc) c' ((hwriting c' (isWriting_of_accepted hx')).mp hc')
      index checksum buffer checksum' buffer' hx hx'
  · intro index chunk hchunk
    obtain ⟨c, hc, buffered, buffer, hphase, hx⟩ :=
      h.recorded index chunk ((congrFun hcalm.chunks index).symm.trans hchunk)
    exact ⟨c, (hwriting c (isWriting_of_accepted hx)).mpr hc, buffered, buffer, hphase, hx⟩
  · intro c hc index buffered hphase
    rw [hcalm.chunks]
    exact h.done c ((hwriting c ⟨_, _, _, hphase⟩).mp hc) index buffered hphase
  · intro index entry hentry
    obtain ⟨c, hc, checksum, hx⟩ := h.buffers index entry (hcalm.buffers index entry hentry)
    exact ⟨c, (hwriting c (isWriting_of_accepted hx)).mpr hc, checksum, hx⟩
  · intro entry hentry
    rw [hexpires]
    exact h.lasting entry (hcalm.received entry hentry)
  · intro hopen index hstores
    obtain ⟨hopen, hbuffers, -⟩ := hcalm.opened hopen
    obtain ⟨c, hc, hcstores⟩ := hstores
    rw [hexpires, hbuffers]
    exact h.stored hopen index ⟨c, (hwriting c (isWriting_of_stores hcstores)).mp hc, hcstores⟩
  · intro hopen c hc index buffered registry hphase hregistry
    obtain ⟨hopen, -, hreceived⟩ := hcalm.opened hopen
    rw [hexpires, hreceived]
    exact h.listed hopen c ((hwriting c ⟨_, _, _, hphase⟩).mp hc) index buffered registry hphase hregistry

structure UploadStore.Writes (index : ℕ) (checksum : String) (buffer : Buffer) (before after : Bool × Registry)
    (s s' : UploadStore) : Prop where
  session : s'.session = s.session
  now : s'.now = s.now
  cached : s'.cached = s.cached
  items : s'.items = s.items
  files : s'.files = s.files
  kept : ∀ k chunk, s.chunks k = some chunk → ∃ chunk', s'.chunks k = some chunk' ∧ chunk'.checksum = chunk.checksum
  chunks : ∀ k chunk, s'.chunks k = some chunk →
    s.chunks k = some chunk ∨ k = index ∧ after.2 = .done ∧ chunk.checksum = checksum
  done : after.2 = .done → before.2 = .done ∨ (s'.chunks index).isSome = true
  buffers : ∀ k, ∀ entry ∈ s'.buffers k, entry ∈ s.buffers k ∨ k = index ∧ entry.value = buffer
  lasting : ∀ entry ∈ s'.received, entry.Lasts s.session.expiresAt
  stored : s.IsOpen → ∀ k, Holds s.session.expiresAt (fun _ => True) (s.buffers k) →
    Holds s.session.expiresAt (fun _ => True) (s'.buffers k)
  stores : s.IsOpen → after.1 = true →
    before.1 = true ∨ Holds s.session.expiresAt (fun _ => True) (s'.buffers index)
  listed : s.IsOpen → ∀ k, Holds s.session.expiresAt (k ∈ ·) s.received → Holds s.session.expiresAt (k ∈ ·) s'.received
  lists : s.IsOpen → after.2 ≠ .sadd → before.2 ≠ .sadd ∨ Holds s.session.expiresAt (index ∈ ·) s'.received
  further : before.1 = true → after.1 = true
  ended : before.2 = .done → after.2 = .done

section Writes
variable {buffered' : Bool}

variable {x : ℕ × String × Buffer}

theorem accepted?_writing (hgoal : call.goal = .uploadChunk k checksum buffer)
    (hphase : call.phase = .writing index buffered registry) : call.accepted? = some (index, checksum, buffer) := by
  rw [UploadCall.accepted?, hgoal, hphase]

theorem accepted?_goes (hgoal : call.goal = .uploadChunk k checksum buffer) :
    ({ call with phase := .writing index buffered registry } : UploadCall).accepted? = some (index, checksum, buffer) := by
  rw [UploadCall.accepted?, hgoal]

variable (hi : w.calls[i]? = some call) (hgoal : call.goal = .uploadChunk k checksum buffer)
  (hphase : call.phase = .writing index buffered registry)
  (hwrites : UploadStore.Writes index checksum buffer (buffered, registry) (buffered', registry') w.store s')
include hi hgoal hphase

theorem writes_accepted (hc : c ∈ w.calls) (hx : c.accepted? = some x) :
    ∃ c' ∈ (w.put i call (.writing index buffered' registry', s')).calls, c'.accepted? = some x := by
  rcases mem_put hi hc with hc | rfl
  · exact ⟨c, hc, hx⟩
  · refine ⟨_, put_mem w hi, ?_⟩
    rw [← hx, accepted?_writing hgoal hphase]
    exact accepted?_goes hgoal

theorem writes_accepted_back (hc : c ∈ (w.put i call (.writing index buffered' registry', s')).calls) (hx : c.accepted? = some x) : ∃ c' ∈ w.calls, c'.accepted? = some x := by
  rcases mem_of_mem_put hc with hc | rfl
  · exact ⟨c, hc, hx⟩
  · refine ⟨call, List.mem_of_getElem? hi, ?_⟩
    rw [← hx, accepted?_writing hgoal hphase]
    exact (accepted?_goes hgoal).symm

include hwrites

theorem writes_leads : w.Leads (w.put i call (.writing index buffered' registry', s')) where
  session := by
    change s'.session.SameAs w.store.session
    rw [hwrites.session]
    exact .refl _
  now := le_of_eq hwrites.now.symm
  opened hopen := by
    change s'.now ≤ s'.session.expiresAt ∧ ¬ s'.session.IsClosed at hopen
    rw [hwrites.now, hwrites.session] at hopen
    exact hopen
  accepted c hc _ hx := writes_accepted hi hgoal hphase hc hx
  stores index' hstores := by
    obtain ⟨c, hc, hcstores⟩ := hstores
    rcases mem_put hi hc with hc | rfl
    · exact ⟨c, hc, hcstores⟩
    · obtain ⟨r, hr⟩ := stores_iff.mp hcstores
      rw [hphase] at hr
      cases hr
      refine ⟨_, put_mem w hi, stores_iff.mpr ⟨registry', ?_⟩⟩
      have htrue : buffered' = true := hwrites.further rfl
      exact congrArg (UploadPhase.writing _ · _) htrue
  chunks := hwrites.kept
  items := ⟨[], (List.append_nil _).trans hwrites.items.symm⟩

theorem writes_sound (h : w.IsSound p) : (w.put i call (.writing index buffered' registry', s')).IsSound p := by
  have hleads := writes_leads hi hgoal hphase hwrites
  have hmem : call ∈ w.calls := List.mem_of_getElem? hi
  have hback : ∀ c ∈ (w.put i call (.writing index buffered' registry', s')).calls, ∀ x, c.accepted? = some x →
      ∃ c' ∈ w.calls, c'.accepted? = some x := fun c hc x hx => writes_accepted_back hi hgoal hphase hc hx
  refine ⟨?_, ?_, ?_, ?_, ?_, ?_, ?_, ?_, ?_, ?_, ?_, ?_⟩
  · change s'.session.IsMade
    rw [hwrites.session]
    exact h.made
  · change s'.session.expiresAt ≤ s'.now + sessionTtlMs
    rw [hwrites.session, hwrites.now]
    exact h.since
  · change ∀ entry ∈ s'.cached, entry.value.SameAs s'.session
    rw [hwrites.cached, hwrites.session]
    exact h.cached
  · intro c hc index' checksum' buffer' hx
    obtain ⟨c', hc', hx'⟩ := hback c hc _ hx
    change _ ∧ _ = s'.session.expectedSize index' ∧ index' < s'.session.totalChunks
    rw [hwrites.session]
    exact h.accepted c' hc' index' checksum' buffer' hx'
  · intro c hc d hd index' checksum' buffer' checksum'' buffer'' hx hy
    obtain ⟨c', hc', hx'⟩ := hback c hc _ hx
    obtain ⟨d', hd', hy'⟩ := hback d hd _ hy
    exact h.agree c' hc' d' hd' index' checksum' buffer' checksum'' buffer'' hx' hy'
  · intro index' chunk hchunk
    rcases hwrites.chunks index' chunk hchunk with hold | ⟨rfl, hdone, hsum⟩
    · obtain ⟨c, hc, bu, b, hcphase, hx⟩ := h.recorded index' chunk hold
      rcases mem_put hi hc with hc | rfl
      · exact ⟨c, hc, bu, b, hcphase, hx⟩
      · -- the call itself has recorded it, and stays so
        rw [hphase] at hcphase
        cases hcphase
        rw [accepted?_writing hgoal hphase] at hx
        have hdone : registry' = .done := hwrites.ended rfl
        refine ⟨_, put_mem w hi, buffered', b, congrArg (UploadPhase.writing _ _) hdone, ?_⟩
        rw [← hx]
        exact accepted?_goes hgoal
    · refine ⟨_, put_mem w hi, buffered', buffer, congrArg (UploadPhase.writing _ _) hdone, ?_⟩
      rw [hsum]
      exact accepted?_goes hgoal
  · intro c hc index' bu hcphase
    have hold : (w.store.chunks index').isSome = true → (s'.chunks index').isSome = true := by
      intro hsome
      obtain ⟨chunk, hchunk⟩ := Option.isSome_iff_exists.mp hsome
      obtain ⟨chunk', hchunk', -⟩ := hwrites.kept index' chunk hchunk
      exact Option.isSome_iff_exists.mpr ⟨chunk', hchunk'⟩
    rcases mem_of_mem_put hc with hc | rfl
    · exact hold (h.done c hc index' bu hcphase)
    · cases hcphase
      rcases hwrites.done rfl with hdone | hsome
      · have hdone : registry = .done := hdone
        subst hdone
        exact hold (h.done call hmem index _ hphase)
      · exact hsome
  · intro index' entry hentry
    rcases hwrites.buffers index' entry hentry with hold | ⟨rfl, hvalue⟩
    · obtain ⟨c, hc, sum, hx⟩ := h.buffers index' entry hold
      obtain ⟨c', hc', hx'⟩ := writes_accepted hi hgoal hphase hc hx
      exact ⟨c', hc', sum, hx'⟩
    · refine ⟨_, put_mem w hi, checksum, ?_⟩
      rw [hvalue]
      exact accepted?_goes hgoal
  · change ∀ entry ∈ s'.received, entry.Lasts s'.session.expiresAt
    rw [hwrites.session]
    exact hwrites.lasting
  · intro hopen index' hstores
    have hbefore := hleads.opened hopen
    change Holds s'.session.expiresAt _ (s'.buffers index')
    rw [hwrites.session]
    obtain ⟨c, hc, hcstores⟩ := hstores
    rcases mem_of_mem_put hc with hc | rfl
    · exact hwrites.stored hbefore index' (h.stored hbefore index' ⟨c, hc, hcstores⟩)
    · obtain ⟨r, hr⟩ := stores_iff.mp hcstores
      cases hr
      rcases hwrites.stores hbefore rfl with hthen | hholds
      · have hthen : buffered = true := hthen
        subst hthen
        exact hwrites.stored hbefore index (h.stored hbefore index ⟨call, hmem, stores_iff.mpr ⟨registry, hphase⟩⟩)
      · exact hholds
  · intro hopen c hc index' bu r hcphase hr
    have hbefore := hleads.opened hopen
    change Holds s'.session.expiresAt _ s'.received
    rw [hwrites.session]
    rcases mem_of_mem_put hc with hc | rfl
    · exact hwrites.listed hbefore index' (h.listed hbefore c hc index' bu r hcphase hr)
    · cases hcphase
      rcases hwrites.lists hbefore hr with hthen | hholds
      · exact hwrites.listed hbefore index (h.listed hbefore call hmem index buffered registry hphase hthen)
      · exact hholds
  · intro m c hc
    rcases getElem?_put hi hc with ⟨rfl, rfl⟩ | ⟨-, hc⟩
    · exact ⟨k, checksum, buffer, hgoal⟩
    · exact hleads.knows (congrFun hwrites.files m) (h.knows m c hc)

end Writes
section Registry

variable {chunk : UploadChunk}

theorem writes_same (h : w.IsSound p) (hdone : registry' = .done ↔ registry = .done)
    (hsadd : registry' ≠ .sadd → registry ≠ .sadd) :
    UploadStore.Writes index checksum buffer (buffered, registry) (buffered, registry') w.store w.store where
  session := rfl
  now := rfl
  cached := rfl
  items := rfl
  files := rfl
  kept _ chunk hchunk := ⟨chunk, hchunk, rfl⟩
  chunks _ _ hchunk := .inl hchunk
  done hafter := .inl (hdone.mp hafter)
  buffers _ _ hentry := .inl hentry
  lasting := h.lasting
  stored _ _ hholds := hholds
  stores _ hafter := .inl hafter
  listed _ _ hholds := hholds
  lists _ hafter := .inl (hsadd hafter)
  further hbefore := hbefore
  ended hbefore := hdone.mpr hbefore

theorem writes_sadd (h : w.IsSound p) : UploadStore.Writes index checksum buffer (buffered, .sadd) (buffered, .expire)
    w.store (w.store.addReceived index) where
  session := rfl
  now := rfl
  cached := rfl
  items := rfl
  files := rfl
  kept _ chunk hchunk := ⟨chunk, hchunk, rfl⟩
  chunks _ _ hchunk := .inl hchunk
  done hafter := by cases hafter
  buffers _ _ hentry := .inl hentry
  lasting := lasts_sadd h.lasting
  stored _ _ hholds := hholds
  stores _ hafter := .inl hafter
  listed hopen _ hholds := hholds.sadd hopen.1
  lists _ _ := .inr (holds_sadd h.lasting)
  further hbefore := hbefore
  ended hbefore := by cases hbefore

theorem writes_expire (h : w.IsSound p) : UploadStore.Writes index checksum buffer (buffered, .expire) (buffered, .upsert)
    w.store w.store.expireReceived where
  session := rfl
  now := rfl
  cached := rfl
  items := rfl
  files := rfl
  kept _ chunk hchunk := ⟨chunk, hchunk, rfl⟩
  chunks _ _ hchunk := .inl hchunk
  done hafter := by cases hafter
  buffers _ _ hentry := .inl hentry
  lasting := lasts_expire h.since
  stored _ _ hholds := hholds
  stores _ hafter := .inl hafter
  listed hopen _ hholds := hholds.expire hopen.1 h.since
  lists _ _ := .inl nofun
  further hbefore := hbefore
  ended hbefore := by cases hbefore

theorem checksum_of_accepted (h : w.IsSound p) (hmem : call ∈ w.calls) (hx : call.accepted? = some (index, checksum, buffer))
    (hchunk : w.store.chunks index = some chunk) : chunk.checksum = checksum := by
  obtain ⟨c, hc, _, b, -, hcx⟩ := h.recorded index chunk hchunk
  exact h.agree c hc call hmem index chunk.checksum b checksum buffer hcx hx

theorem writes_upsert (h : w.IsSound p) (hmem : call ∈ w.calls)
    (hx : call.accepted? = some (index, checksum, buffer)) (hsum : chunk.checksum = checksum) :
    UploadStore.Writes index checksum buffer (buffered, .upsert) (buffered, .done) w.store
      (w.store.upsertChunk index chunk) where
  session := rfl
  now := rfl
  cached := rfl
  items := rfl
  files := rfl
  kept k old hold := by
    by_cases hk : k = index
    · subst hk
      refine ⟨chunk, if_pos rfl, ?_⟩
      rw [hsum, checksum_of_accepted h hmem hx hold]
    · exact ⟨old, (if_neg hk).trans hold, rfl⟩
  chunks k new hnew := by
    by_cases hk : k = index
    · subst hk
      have hsame : chunk = new := Option.some.inj ((if_pos rfl).symm.trans hnew)
      exact .inr ⟨rfl, rfl, hsame ▸ hsum⟩
    · exact .inl ((if_neg hk).symm.trans hnew)
  done _ := by
    refine .inr (Option.isSome_iff_exists.mpr ⟨chunk, if_pos rfl⟩)
  buffers _ _ hentry := .inl hentry
  lasting := h.lasting
  stored _ _ hholds := hholds
  stores _ hafter := .inl hafter
  listed _ _ hholds := hholds
  lists _ _ := .inl nofun
  further hbefore := hbefore
  ended _ := rfl

theorem writes_setBuffer (h : w.IsSound p) :
    UploadStore.Writes index checksum buffer (false, registry) (true, registry) w.store
      (w.store.setBuffer index buffer) where
  session := rfl
  now := rfl
  cached := rfl
  items := rfl
  files := rfl
  kept _ chunk hchunk := ⟨chunk, hchunk, rfl⟩
  chunks _ _ hchunk := .inl hchunk
  done hafter := .inl hafter
  buffers k entry hentry := by
    by_cases hk : k = index
    · subst hk
      have hset : set buffer (w.store.now + sessionTtlMs) = some entry := (if_pos rfl).symm.trans hentry
      cases hset
      exact .inr ⟨rfl, rfl⟩
    · exact .inl ((if_neg hk).symm.trans hentry)
  lasting := h.lasting
  stored _ k hholds := by
    by_cases hk : k = index
    · have hset : (w.store.setBuffer index buffer).buffers k = set buffer (w.store.now + sessionTtlMs) := if_pos hk
      rw [hset]
      exact holds_set trivial h.since
    · have hkeep : (w.store.setBuffer index buffer).buffers k = w.store.buffers k := if_neg hk
      rw [hkeep]
      exact hholds
  stores _ _ := by
    have hset : (w.store.setBuffer index buffer).buffers index = set buffer (w.store.now + sessionTtlMs) := if_pos rfl
    rw [hset]
    exact .inr (holds_set trivial h.since)
  listed _ _ hholds := hholds
  lists _ hafter := .inl hafter
  further _ := rfl
  ended hbefore := hbefore

end Registry
section Steps
variable {fails : Bool} {indices : List ℕ} {parts : List Buffer}

structure UploadWorld.IsReceived (w : UploadWorld) (index : ℕ) : Prop where
  recorded : (w.store.chunks index).isSome = true
  stored : w.Stores index
  range : index < w.store.session.totalChunks

theorem UploadWorld.Leads.isReceived (h : w.Leads w') (hreceived : w.IsReceived index) : w'.IsReceived index where
  recorded := by
    obtain ⟨chunk, hchunk⟩ := Option.isSome_iff_exists.mp hreceived.recorded
    obtain ⟨chunk', hchunk', -⟩ := h.chunks index chunk hchunk
    exact Option.isSome_iff_exists.mpr ⟨chunk', hchunk'⟩
  stored := h.stores index hreceived.stored
  range := by
    rw [h.session.totalChunks]
    exact hreceived.range

theorem UploadWorld.IsSound.holds_received (h : w.IsSound p) (hopen : w.store.IsOpen)
    (hrecorded : (w.store.chunks index).isSome = true) :
    Holds w.store.session.expiresAt (index ∈ ·) w.store.received := by
  obtain ⟨chunk, hchunk⟩ := Option.isSome_iff_exists.mp hrecorded
  obtain ⟨c, hc, buffered, _, hphase, -⟩ := h.recorded index chunk hchunk
  exact h.listed hopen c hc index buffered .done hphase nofun

theorem range_of_recorded (h : w.IsSound p) (hrecorded : (w.store.chunks index).isSome = true) :
    index < w.store.session.totalChunks := by
  obtain ⟨chunk, hchunk⟩ := Option.isSome_iff_exists.mp hrecorded
  obtain ⟨c, hc, _, b, -, hx⟩ := h.recorded index chunk hchunk
  exact (h.accepted c hc index chunk.checksum b hx).2.2

theorem isWriting_iff : phase.IsWriting ↔ (match phase with | .writing _ _ _ => True | _ => False) := by
  constructor
  · rintro ⟨_, _, _, rfl⟩
    trivial
  · intro h
    split at h
    · exact ⟨_, _, _, rfl⟩
    · exact h.elim

def UploadWorld.Quiet (w : UploadWorld) : UploadPhase → Prop
  | .writing _ _ _ => False
  | .returned (.failed failure) =>
    ∀ index, w.IsReceived index → w.store.now ≤ w.store.session.expiresAt → ¬ failure.Misses index
  | _ => True

theorem UploadWorld.Quiet.not_isWriting (h : w.Quiet phase) : ¬ phase.IsWriting := by
  rintro ⟨_, _, _, rfl⟩
  exact h

variable (p) in
structure UploadWorld.Goes (w : UploadWorld) (i : ℕ) (call : UploadCall) (result : UploadPhase × UploadStore) : Prop where
  sound : (w.put i call result).IsSound p
  leads : w.Leads (w.put i call result)
  spares : ∀ index failure, result.1 = .returned (.failed failure) → call.phase = result.1 ∨
    (w.IsReceived index → w.store.now ≤ w.store.session.expiresAt → ¬ failure.Misses index)

theorem goes_calm (h : w.IsSound p) (hi : w.calls[i]? = some call) (hold : ¬ call.phase.IsWriting)
    (hnew : w.Quiet phase ∨ call.phase = phase) (hcalm : UploadStore.Calm i w.store s')
    (hknows : w.Leads (w.put i call (phase, s')) → (w.put i call (phase, s')).Knows p i call.goal phase) :
    w.Goes p i call (phase, s') := by
  have hphase : ¬ phase.IsWriting := hnew.elim (·.not_isWriting) fun hsame => hsame ▸ hold
  have hwriting : ∀ c : UploadCall, c.phase.IsWriting → (c ∈ (w.put i call (phase, s')).calls ↔ c ∈ w.calls) :=
    fun c hc => mem_put_iff hi hold hphase hc
  have hcalm : UploadStore.Calm i w.store (w.put i call (phase, s')).store := hcalm
  have hleads := calm_leads hcalm hwriting
  refine ⟨calm_sound h hcalm hwriting fun k c hc => ?_, hleads, fun index failure hfail => ?_⟩
  · rcases getElem?_put hi hc with ⟨rfl, rfl⟩ | ⟨hki, hc⟩
    · exact hknows hleads
    · exact hleads.knows (hcalm.files k hki) (h.knows k c hc)
  · have hfail : phase = .returned (.failed failure) := hfail
    subst hfail
    exact hnew.symm.imp_right fun hquiet => hquiet index

theorem goes_stays (h : w.IsSound p) (hi : w.calls[i]? = some call) (hold : ¬ call.phase.IsWriting)
    (hnew : w.Quiet phase) (hknows : w.Knows p i call.goal phase) : w.Goes p i call (phase, w.store) :=
  goes_calm h hi hold (.inl hnew) (.refl h i) fun hleads => hleads.knows rfl hknows

theorem enter_knows (p : Platform) (i : ℕ) (call : UploadCall) (hsession : session.SameAs w.store.session)
    (fromCache : Bool) : w.Knows p i call.goal (.enter call w.store session fromCache) ∧
    w.Quiet (.enter call w.store session fromCache) := by
  rw [UploadPhase.enter]
  split
  · exact ⟨trivial, fun _ _ _ => id⟩
  · split
    · exact ⟨trivial, fun _ _ _ => id⟩
    · split
      · rename_i hexpired
        rw [UploadStore.hasExpired, Bool.and_eq_true, decide_eq_true_iff] at hexpired
        refine ⟨?_, trivial⟩
        change w.store.session.expiresAt < w.store.now
        rw [← hsession.expiresAt]
        exact hexpired.2
      · split
        · rename_i k checksum buffer hgoal
          split
          · exact ⟨trivial, fun _ _ _ => id⟩
          · rename_i hrange
            refine ⟨⟨hsession, fun k' checksum' buffer' hgoal' => ?_⟩, trivial⟩
            rw [hgoal] at hgoal'
            cases hgoal'
            omega
        · exact ⟨hsession, trivial⟩
        · exact ⟨hsession, trivial⟩

theorem goes_enter (h : w.IsSound p) (hi : w.calls[i]? = some call) (hold : ¬ call.phase.IsWriting)
    (hsession : session.SameAs w.store.session) (fromCache : Bool) :
    w.Goes p i call (.enter call w.store session fromCache, w.store) := by
  obtain ⟨hknows, hnew⟩ := enter_knows p i call hsession fromCache
  exact goes_stays h hi hold hnew hknows

theorem length_flatten_of_expected (hmade : session.IsMade) (hlength : parts.length = session.totalChunks)
    (hparts : ∀ (index : ℕ) (buffer : Buffer), parts[index]? = some buffer → buffer.length = session.expectedSize index) :
    parts.flatten.length = session.totalSize := by
  have hsizes : parts.map List.length = (List.range session.totalChunks).map session.expectedSize := by
    apply List.ext_getElem?
    intro index
    rw [List.getElem?_map, List.getElem?_map]
    by_cases hindex : index < session.totalChunks
    · have hthere := List.getElem?_eq_getElem (hlength ▸ hindex : index < parts.length)
      rw [List.getElem?_range hindex, hthere, Option.map_some, Option.map_some, hparts index _ hthere]
    · rw [List.getElem?_eq_none (by omega), List.getElem?_eq_none (by rw [List.length_range]; omega)]
      rfl
  obtain ⟨hsize, hchunk, htotal⟩ := hmade
  -- there is at least one chunk, and all but the last one are full
  have hpos : 0 < session.totalChunks := by
    rw [htotal]
    exact Nat.div_pos (by omega) hchunk
  obtain ⟨m, hm⟩ : ∃ m, session.totalChunks = m + 1 := ⟨session.totalChunks - 1, by omega⟩
  have hfull : (List.range m).map session.expectedSize = List.replicate m session.chunkSize := by
    rw [List.map_eq_replicate_iff.mpr, List.length_range]
    intro index hindex
    have := List.mem_range.mp hindex
    rw [UploadSession.expectedSize, if_neg (by omega)]
  have hlast : session.expectedSize m = session.totalSize - session.chunkSize * m := by
    rw [UploadSession.expectedSize, hm, Nat.add_sub_cancel, if_pos rfl]
  have hbelow : session.chunkSize * m ≤ session.totalSize := by
    have hle : (m + 1) * session.chunkSize ≤ session.totalSize + session.chunkSize - 1 := by
      rw [← hm, htotal]
      exact Nat.div_mul_le_self _ _
    have hmul : (m + 1) * session.chunkSize = session.chunkSize * m + session.chunkSize := by ring
    omega
  calc
    parts.flatten.length = ((List.range session.totalChunks).map session.expectedSize).sum := by
      rw [List.length_flatten, hsizes]
    _ = m * session.chunkSize + (session.totalSize - session.chunkSize * m) := by
      rw [hm, List.range_succ, List.map_append, hfull, List.sum_append, List.sum_replicate_nat, List.map_singleton,
        List.sum_singleton, hlast]
    _ = session.totalSize := by
      have hcomm : m * session.chunkSize = session.chunkSize * m := Nat.mul_comm _ _
      omega

theorem gather_knows (i : ℕ) (goal : Goal) (h : w.IsSound p) (hsession : session.SameAs w.store.session)
    (hlength : parts.length ≤ session.totalChunks)
    (hparts : ∀ (index : ℕ) (buffer : Buffer), parts[index]? = some buffer → w.IsGenuine p index buffer) :
    w.Knows p i goal (.gather p session parts) ∧ w.Quiet (.gather p session parts) := by
  rw [UploadPhase.gather]
  split
  · rename_i hlt
    exact ⟨⟨hsession, hlt, hparts⟩, trivial⟩
  · have hall : parts.length = session.totalChunks := by omega
    rw [UploadPhase.assemble]
    split
    · exact ⟨⟨hsession, trivial⟩, trivial⟩
    · refine ⟨⟨hsession, parts, rfl, hall.trans hsession.totalChunks, ?_, hparts⟩, trivial⟩
      refine (length_flatten_of_expected (hsession.isMade h.made) hall fun index buffer hbuffer => ?_).trans
        hsession.totalSize
      obtain ⟨c, hc, hx⟩ := (hparts index buffer hbuffer).accepted
      rw [hsession.expectedSize]
      exact (h.accepted c hc index _ buffer hx).2.1

theorem list_knows (i : ℕ) (goal : Goal) (h : w.IsSound p) (hsession : session.SameAs w.store.session)
    (hindices : goal.isFinalize = true → ∀ index, w.IsReceived index → w.store.now ≤ w.store.session.expiresAt →
      index ∈ indices) :
    w.Knows p i goal (.list p goal session indices) ∧ w.Quiet (.list p goal session indices) := by
  cases goal with
  | finalize iv =>
    rw [UploadPhase.list]
    split
    · refine ⟨trivial, fun index hreceived hnow hmisses => ?_⟩
      have hmissing := (List.mem_filter.mp hmisses).2
      exact of_decide_eq_true hmissing (hindices rfl index hreceived hnow)
    · exact gather_knows i _ h hsession (Nat.zero_le _) fun _ _ hbuffer => by cases hbuffer
  | uploadChunk k checksum buffer | getStatus => exact ⟨trivial, trivial⟩

theorem clean_knows {outcome : FinalizeOutcome} (goal : Goal) (hclosed : ¬ w.store.IsOpen) (hkeeps : w.Keeps p i outcome)
    (keys : List RedisKey) : w.Knows p i goal (.clean outcome keys) ∧ w.Quiet (.clean outcome keys) := by
  cases keys with
  | nil =>
    cases outcome with
    | item id => exact ⟨hkeeps, trivial⟩
    | duplicate | rejected rejection => exact ⟨trivial, fun _ _ _ => id⟩
  | cons key rest => exact ⟨⟨hclosed, hkeeps⟩, trivial⟩

theorem goes_accepts (h : w.IsSound p) (hi : w.calls[i]? = some call) (hold : ¬ call.phase.IsWriting)
    (hgoal : call.goal = .uploadChunk k checksum buffer) (hindex : index < w.store.session.totalChunks)
    (hsize : buffer.length = w.store.session.expectedSize index) (hsum : p.sha256 buffer = checksum)
    (hothers : ∀ other ∈ w.calls, ∀ x ∈ other.accepted?, x.1 = index → x.2.1 = checksum) :
    w.Goes p i call (.writing index false .sadd, w.store) := by
  have hnew : ({ call with phase := .writing index false .sadd } : UploadCall).accepted? =
      some (index, checksum, buffer) := accepted?_goes hgoal
  have hkeeps : ∀ c ∈ w.calls, c.phase.IsWriting → c ∈ (w.put i call (.writing index false .sadd, w.store)).calls :=
    fun c hc hwriting => (mem_put hi hc).resolve_right fun hsame => hold (hsame ▸ hwriting)
  have hleads : w.Leads (w.put i call (.writing index false .sadd, w.store)) :=
    { UploadWorld.Leads.refl w with
      accepted := fun c hc x hx => ⟨c, hkeeps c hc (isWriting_of_accepted hx), hx⟩
      stores := fun index' ⟨c, hc, hcstores⟩ => ⟨c, hkeeps c hc (isWriting_of_stores hcstores), hcstores⟩ }
  refine ⟨⟨h.made, h.since, h.cached, ?_, ?_, ?_, ?_, ?_, h.lasting, ?_, ?_, ?_⟩, hleads, nofun⟩
  · intro c hc index' checksum' buffer' hx
    rcases mem_of_mem_put hc with hc | rfl
    · exact h.accepted c hc index' checksum' buffer' hx
    · cases hnew.symm.trans hx
      exact ⟨hsum.symm, hsize, hindex⟩
  · intro c hc d hd index' checksum' buffer' checksum'' buffer'' hx hy
    rcases mem_of_mem_put hc with hc | rfl
    · rcases mem_of_mem_put hd with hd | rfl
      · exact h.agree c hc d hd index' checksum' buffer' checksum'' buffer'' hx hy
      · cases hnew.symm.trans hy
        exact hothers c hc _ hx rfl
    · cases hnew.symm.trans hx
      rcases mem_of_mem_put hd with hd | rfl
      · exact (hothers d hd _ hy rfl).symm
      · cases hnew.symm.trans hy
        rfl
  · intro index' chunk hchunk
    obtain ⟨c, hc, buffered, b, hphase, hx⟩ := h.recorded index' chunk hchunk
    exact ⟨c, hkeeps c hc ⟨_, _, _, hphase⟩, buffered, b, hphase, hx⟩
  · intro c hc index' buffered hphase
    rcases mem_of_mem_put hc with hc | rfl
    · exact h.done c hc index' buffered hphase
    · cases hphase
  · intro index' entry hentry
    obtain ⟨c, hc, sum, hx⟩ := h.buffers index' entry hentry
    exact ⟨c, hkeeps c hc (isWriting_of_accepted hx), sum, hx⟩
  · intro hopen index' hstores
    obtain ⟨c, hc, hcstores⟩ := hstores
    rcases mem_of_mem_put hc with hc | rfl
    · exact h.stored hopen index' ⟨c, hc, hcstores⟩
    · obtain ⟨r, hr⟩ := stores_iff.mp hcstores
      cases hr
  · intro hopen c hc index' buffered r hphase hr
    rcases mem_of_mem_put hc with hc | rfl
    · exact h.listed hopen c hc index' buffered r hphase hr
    · cases hphase
      exact absurd rfl hr
  · intro m c hc
    rcases getElem?_put hi hc with ⟨rfl, rfl⟩ | ⟨-, hc⟩
    · exact ⟨k, checksum, buffer, hgoal⟩
    · exact hleads.knows rfl (h.knows m c hc)

theorem goes_lookup (h : w.IsSound p) (hi : w.calls[i]? = some call) (hold : ¬ call.phase.IsWriting)
    (hgoal : call.goal = .uploadChunk k checksum buffer) (hsession : session.SameAs w.store.session)
    (hindex : index < session.totalChunks) (hlooks : w.LooksUp p session index checksum buffer) :
    w.Goes p i call (.check p session index checksum buffer (w.store.chunks index), w.store) := by
  rw [UploadWorld.LooksUp] at hlooks
  cases hchunk : w.store.chunks index with
  | some chunk =>
    rw [hchunk] at hlooks
    rw [UploadPhase.check]
    split
    · exact goes_stays h hi hold (fun _ _ _ => id) trivial
    · rename_i hsame
      refine goes_stays h hi hold trivial ⟨?_, hlooks (not_not.mp hsame)⟩
      rw [hchunk]
      rfl
  | none =>
    rw [hchunk] at hlooks
    rw [UploadPhase.check]
    split
    · exact goes_stays h hi hold (fun _ _ _ => id) trivial
    · rename_i hsize
      split
      · exact goes_stays h hi hold (fun _ _ _ => id) trivial
      · rename_i hsum
        have hsize := not_not.mp hsize
        have hsum := not_not.mp hsum
        refine goes_accepts h hi hold hgoal ?_ ?_ hsum (hlooks ⟨hsize, hsum⟩)
        · exact hsession.totalChunks ▸ hindex
        · exact hsize.trans (hsession.expectedSize index)

theorem goes_register (h : w.IsSound p) (hi : w.calls[i]? = some call) {buffered : Bool} {registry : Registry}
    (hphase : call.phase = .writing index buffered registry) (hgoal : call.goal = .uploadChunk k checksum buffer)
    (hadmits : registry = .sadd → fails = false) :
    w.Goes p i call (.writing index buffered (call.register fails index w.store registry).1,
      (call.register fails index w.store registry).2) := by
  have hmem : call ∈ w.calls := List.mem_of_getElem? hi
  have hwrites : UploadStore.Writes index checksum buffer (buffered, registry)
      (buffered, (call.register fails index w.store registry).1) w.store
      (call.register fails index w.store registry).2 := by
    cases registry with
    | sadd =>
      rw [hadmits rfl]
      exact writes_sadd h
    | expire =>
      cases fails with
      | true => exact writes_same h ⟨nofun, nofun⟩ nofun
      | false => exact writes_expire h
    | upsert =>
      rw [UploadCall.register, hgoal]
      cases fails with
      | true => exact writes_same h ⟨nofun, nofun⟩ nofun
      | false => exact writes_upsert h hmem (accepted?_writing hgoal hphase) rfl
    | done => exact writes_same h ⟨fun _ => rfl, fun _ => rfl⟩ fun hr => hr
    | threw => exact writes_same h ⟨nofun, nofun⟩ fun hr => hr
  exact ⟨writes_sound hi hgoal hphase hwrites h, writes_leads hi hgoal hphase hwrites, nofun⟩

theorem put_self (hi : w.calls[i]? = some call) : w.put i call (call.phase, w.store) = w := by
  have hset : w.calls.set i call = w.calls := by
    apply List.ext_getElem?
    intro j
    by_cases hj : i = j
    · subst hj
      rw [List.getElem?_set_self (List.getElem?_eq_some_iff.mp hi).1, hi]
    · rw [List.getElem?_set_ne hj]
  exact congrArg (UploadWorld.mk w.store) hset

theorem goes_storeChunk (h : w.IsSound p) (hi : w.calls[i]? = some call) (hmay : MayStore fails call.phase) :
    w.Goes p i call (call.storeChunk fails w.store) := by
  rw [UploadCall.storeChunk]
  split
  · rename_i _ _ index registry k checksum buffer hphase hgoal
    rw [hphase] at hmay
    rw [hmay rfl]
    have hwrites : UploadStore.Writes index checksum buffer (false, registry) (true, registry) w.store _ :=
      writes_setBuffer h
    exact ⟨writes_sound hi hgoal hphase hwrites h, writes_leads hi hgoal hphase hwrites, nofun⟩
  · refine ⟨?_, ?_, fun _ _ _ => .inl rfl⟩
    · rw [put_self hi]
      exact h
    · rw [put_self hi]
      exact .refl w

theorem calm_cached (h : w.IsSound p) (mine : ℕ) {cached : Option (Entry UploadSession)}
    (hcached : ∀ entry ∈ cached, entry.value.SameAs w.store.session) :
    UploadStore.Calm mine w.store { w.store with cached := cached } :=
  { UploadStore.Calm.refl h mine with cached := hcached }

theorem calm_setStatus (h : w.IsSound p) (mine : ℕ) {status : UploadSessionStatus}
    (hopen : ¬ (w.store.setStatus status).IsOpen) : UploadStore.Calm mine w.store (w.store.setStatus status) where
  session := rfl
  now := le_refl _
  cached := h.cached
  opened hopen' := absurd hopen' hopen
  buffers _ _ hentry := hentry
  received _ hentry := hentry
  chunks := rfl
  items := List.prefix_refl _
  files _ _ := rfl

theorem calm_del (h : w.IsSound p) (mine : ℕ) (hclosed : ¬ w.store.IsOpen) (key : RedisKey) :
    UploadStore.Calm mine w.store (w.store.del key) := by
  cases key with
  | received => exact
      { UploadStore.Calm.refl h mine with
        opened := fun hopen => absurd hopen hclosed
        received := fun _ hentry => by cases hentry }
  | chunk index => exact
      { UploadStore.Calm.refl h mine with
        opened := fun hopen => absurd hopen hclosed
        buffers := fun k entry hentry => by
          by_cases hk : k = index
          · have hgone : (none : Option (Entry Buffer)) = some entry := (if_pos hk).symm.trans hentry
            cases hgone
          · exact (if_neg hk).symm.trans hentry }

theorem calm_setFile (h : w.IsSound p) (mine : ℕ) (bytes : Option Buffer) :
    UploadStore.Calm mine w.store (w.store.setFile mine bytes) :=
  { UploadStore.Calm.refl h mine with files := fun _ hk => if_neg hk }

theorem not_isOpen_setStatus (s : UploadStore) (outcome : FinalizeOutcome) : ¬ (s.setStatus outcome.status).IsOpen := by
  intro hopen
  refine hopen.2 ?_
  cases outcome with
  | item id | duplicate => exact .inl rfl
  | rejected rejection => exact .inr rfl

theorem isGenuine_of_get (h : w.IsSound p) (hget : get w.store.now (w.store.buffers index) = some buffer)
    (hchunk : (w.store.chunks index).isSome = true) : w.IsGenuine p index buffer := by
  obtain ⟨entry, hentry, rfl⟩ := mem_of_get hget
  obtain ⟨c, hc, checksum, hx⟩ := h.buffers index entry hentry
  have hsum := (h.accepted c hc index checksum entry.value hx).1
  obtain ⟨chunk, hchunk⟩ := Option.isSome_iff_exists.mp hchunk
  refine ⟨⟨c, hc, hsum ▸ hx⟩, chunk, hchunk, ?_⟩
  rw [checksum_of_accepted h hc hx hchunk, hsum]

theorem goes_act (h : w.IsSound p) (hi : w.calls[i]? = some call) (hadmits : w.Admits p fails call.phase call.goal) :
    w.Goes p i call (call.act p i fails w.store) := by
  have hknows := h.knows i call hi
  rw [UploadCall.act]
  by_cases hold : call.phase.IsWriting
  · obtain ⟨index, buffered, registry, hphase⟩ := hold
    rw [hphase] at hknows hadmits ⊢
    obtain ⟨k, checksum, buffer, hgoal⟩ := hknows
    exact goes_register h hi hphase hgoal hadmits
  have hfails : w.Goes p i call (.fail .unavailable, w.store) := goes_stays h hi hold (fun _ _ _ => id) trivial
  generalize hphase : call.phase = phase at hknows hadmits
  cases phase with
  | getCached =>
    dsimp only
    split
    · rename_i session hget
      have hget : get w.store.now w.store.cached = some session := by
        cases fails with
        | true => cases hget
        | false => exact hget
      obtain ⟨entry, hentry, rfl⟩ := mem_of_get hget
      exact goes_enter h hi hold (h.cached entry hentry) true
    · exact goes_stays h hi hold trivial trivial
  | findSession =>
    dsimp only
    split
    · exact hfails
    · split
      · exact goes_stays h hi hold trivial (.refl _)
      · exact goes_enter h hi hold (.refl _) false
  | cacheSession session ttl =>
    obtain ⟨henter, hnew⟩ := enter_knows p i call hknows false
    cases fails with
    | true => exact goes_stays h hi hold hnew henter
    | false =>
      refine goes_calm h hi hold (.inl hnew) (calm_cached h i ?_) fun hleads => hleads.knows rfl henter
      intro entry hentry
      cases hentry
      exact hknows
  | expiring =>
    have hpast : w.store.session.expiresAt < w.store.now := hknows
    dsimp only
    split
    · exact hfails
    · refine goes_calm h hi hold (.inl trivial) (calm_setStatus h i fun hopen => ?_) fun _ => trivial
      exact absurd hopen.1 (not_le.mpr hpast)
  | uncachingExpired =>
    cases fails with
    | true => exact goes_stays h hi hold (fun _ _ _ => id) trivial
    | false =>
      exact goes_calm h hi hold (.inl fun _ _ _ => id) (calm_cached h i fun _ hentry => by cases hentry) fun _ => trivial
  | lookup session =>
    obtain ⟨hsession, hindex⟩ := hknows
    cases hgoal : call.goal with
    | uploadChunk k checksum buffer =>
      rw [hgoal] at hadmits
      dsimp only
      split
      · exact hfails
      · exact goes_lookup h hi hold hgoal hsession (hindex k checksum buffer hgoal) hadmits
    | finalize iv | getStatus => exact hfails
  | writing index buffered registry => exact absurd ⟨_, _, _, hphase⟩ hold
  | getReceived session =>
    dsimp only
    split
    · exact goes_stays h hi hold trivial hknows
    · rename_i hsome
      have hlisted : call.goal.isFinalize = true → ∀ index, w.IsReceived index → w.store.now ≤ w.store.session.expiresAt →
          index ∈ (if fails then [] else (get w.store.now w.store.received).getD []).insertionSort (· ≤ ·) := by
        intro hgoal index hreceived hnow
        -- what was read is the list of the chunks that were received
        obtain ⟨listed, hget, hlisted⟩ := (h.holds_received ⟨hnow, hadmits hgoal⟩ hreceived.recorded).get hnow
        rw [List.mem_insertionSort, hget]
        cases fails with
        | true => exact absurd rfl hsome
        | false => exact hlisted
      obtain ⟨hlist, hnew⟩ := list_knows i call.goal h hknows hlisted
      exact goes_stays h hi hold hnew hlist
  | findChunks session =>
    dsimp only
    split
    · exact hfails
    · have hlisted : ∀ index, w.IsReceived index → index ∈ w.store.chunkIndices := fun index hreceived =>
        List.mem_filter.mpr ⟨List.mem_range.mpr hreceived.range, hreceived.recorded⟩
      obtain ⟨hlist, hnew⟩ := list_knows i call.goal h hknows fun _ index hreceived _ => hlisted index hreceived
      exact goes_stays h hi hold hnew hlist
  | getChunk session parts =>
    obtain ⟨hsession, hlength, hparts⟩ := hknows
    obtain ⟨hworks, hclosed, hchunk⟩ := hadmits
    dsimp only
    rw [hworks]
    split
    · rename_i hnone
      refine goes_stays h hi hold (fun index hreceived hnow hmisses => ?_) trivial
      have hindex : parts.length = index := hmisses
      obtain ⟨buffer, hget, -⟩ := (h.stored ⟨hnow, hclosed⟩ index hreceived.stored).get hnow
      rw [hindex] at hnone
      cases hnone.symm.trans hget
    · rename_i buffer hget
      have hgenuine := isGenuine_of_get h hget hchunk
      have hall : ∀ (index : ℕ) (b : Buffer), (parts ++ [buffer])[index]? = some b → w.IsGenuine p index b := by
        intro index b hb
        rcases getElem?_snoc hb with hb | ⟨rfl, rfl⟩
        · exact hparts index b hb
        · exact hgenuine
      have hmore : (parts ++ [buffer]).length ≤ session.totalChunks := by
        rw [List.length_append, List.length_singleton]
        exact hlength
      obtain ⟨hgather, hnew⟩ := gather_knows i call.goal h hsession hmore hall
      exact goes_stays h hi hold hnew hgather
  | writeFile session assembled =>
    obtain ⟨hsession, hassembled⟩ := hknows
    cases hgoal : call.goal with
    | uploadChunk k checksum buffer | getStatus => exact hfails
    | finalize iv =>
      dsimp only
      split
      · exact hfails
      · refine goes_calm h hi hold (.inl trivial) (calm_setFile h i _) fun hleads => ?_
        exact ⟨hsession, hleads.isAssembled hassembled, iv, if_pos rfl⟩
  | findDuplicate session assembled =>
    dsimp only
    split
    · exact hfails
    · split
      · exact goes_stays h hi hold trivial hknows.1
      · exact goes_stays h hi hold trivial hknows
  | unlinking session =>
    dsimp only
    split
    · exact hfails
    · exact goes_calm h hi hold (.inl trivial) (calm_setFile h i none) fun _ => ⟨hknows, trivial⟩
  | creating session assembled =>
    obtain ⟨hsession, hassembled, iv, hbytes⟩ := hknows
    dsimp only
    split
    · exact hfails
    · refine goes_calm h hi hold (.inl trivial)
        { UploadStore.Calm.refl h i with items := List.prefix_append _ _ } fun hleads => ?_
      refine ⟨hsession, _, iv, assembled, List.getElem?_concat_length, rfl, hbytes, rfl, rfl, ?_⟩
      exact hleads.isAssembled hassembled
  | closing session outcome =>
    have hclosed := not_isOpen_setStatus w.store outcome
    dsimp only
    split
    · exact hfails
    · refine goes_calm h hi hold (.inl trivial) (calm_setStatus h i hclosed) fun hleads => ?_
      exact ⟨hclosed, hleads.keeps rfl hknows.2⟩
  | uncaching session outcome =>
    obtain ⟨hclean, hnew⟩ := clean_knows call.goal hknows.1 hknows.2 (sessionKeys session.totalChunks)
    cases fails with
    | true => exact goes_stays h hi hold hnew hclean
    | false =>
      exact goes_calm h hi hold (.inl hnew) (calm_cached h i fun _ hentry => by cases hentry) fun hleads =>
        hleads.knows rfl hclean
  | cleaning keys outcome =>
    cases keys with
    | nil =>
      obtain ⟨hclean, hnew⟩ := clean_knows call.goal hknows.1 hknows.2 []
      exact goes_stays h hi hold hnew hclean
    | cons key rest =>
      obtain ⟨hclean, hnew⟩ := clean_knows call.goal hknows.1 hknows.2 rest
      cases fails with
      | true => exact goes_stays h hi hold hnew hclean
      | false =>
        refine goes_calm h hi hold (.inl hnew) (calm_del h i hknows.1 key) fun hleads => hleads.knows ?_ hclean
        cases key <;> rfl
  | returned reply => exact goes_calm h hi hold (.inr hphase) (.refl h i) fun hleads => hleads.knows rfl hknows

end Steps
end Invariant
section Runs
variable {p : Platform} {w : UploadWorld} {event : UploadEvent} {tr : List UploadTransition}

theorem sound_calm (h : w.IsSound p) (hcalm : UploadStore.Calm 0 w.store w'.store) (hfiles : w'.store.files = w.store.files)
    (hcalls : w'.calls = w.calls ∨ ∃ ownerId goal, w'.calls = w.calls ++ [⟨ownerId, goal, .getCached⟩]) :
    w'.IsSound p ∧ w.Leads w' := by
  have hcall {k : ℕ} {c : UploadCall} (hc : w'.calls[k]? = some c) : w.calls[k]? = some c ∨ c.phase = .getCached := by
    rcases hcalls with hcalls | ⟨ownerId, goal, hcalls⟩
    · exact .inl (hcalls ▸ hc)
    · rw [hcalls] at hc
      exact (getElem?_snoc hc).imp_right fun hnew => by rw [hnew.2]
  have hwriting (c : UploadCall) (hphase : c.phase.IsWriting) : c ∈ w'.calls ↔ c ∈ w.calls := by
    constructor
    · intro hc
      obtain ⟨k, hk⟩ := List.mem_iff_getElem?.mp hc
      rcases hcall hk with hk | hnew
      · exact List.mem_of_getElem? hk
      · rw [hnew, isWriting_iff] at hphase
        exact hphase.elim
    · intro hc
      rcases hcalls with hcalls | ⟨_, _, hcalls⟩ <;> simp [hcalls, hc]
  have hleads := calm_leads hcalm hwriting
  refine ⟨calm_sound h hcalm hwriting fun k c hc => ?_, hleads⟩
  rcases hcall hc with hc | hnew
  · exact hleads.knows (congrFun hfiles k) (h.knows k c hc)
  · rw [hnew]
    trivial

theorem calm_elapse (h : w.IsSound p) (d : ℕ) : UploadStore.Calm 0 w.store { w.store with now := w.store.now + d } :=
  { UploadStore.Calm.refl h 0 with
    now := Nat.le_add_right _ d
    opened := fun hopen => ⟨⟨(Nat.le_add_right _ d).trans hopen.1, hopen.2⟩, rfl, rfl⟩ }

theorem step_sound (hstep : w.Step p event w') (horderly : Orderly p ⟨w, event, w'⟩) (h : w.IsSound p) :
    w'.IsSound p ∧ w.Leads w' := by
  cases event with
  | start ownerId goal =>
    cases hstep
    exact sound_calm h (.refl h 0) rfl (.inr ⟨ownerId, goal, rfl⟩)
  | advance i fails =>
    obtain ⟨call, hi, rfl⟩ := Option.map_eq_some_iff.mp hstep
    have hgoes := goes_act h hi (horderly call hi)
    exact ⟨hgoes.sound, hgoes.leads⟩
  | storeChunk i fails =>
    obtain ⟨call, hi, rfl⟩ := Option.map_eq_some_iff.mp hstep
    have hgoes := goes_storeChunk h hi (horderly call hi)
    exact ⟨hgoes.sound, hgoes.leads⟩
  | elapse d =>
    cases hstep
    exact sound_calm h (calm_elapse h d) rfl (.inl rfl)
  | queueItem item =>
    cases hstep
    exact sound_calm h { UploadStore.Calm.refl h 0 with items := List.prefix_append _ _ } rfl (.inl rfl)

theorem isIntact_of_sound (h : w.IsSound p) {call : UploadCall} (hcall : call ∈ w.calls) {id : ℕ}
    (hphase : call.phase = .returned (.item id)) : w.IsIntact p id := by
  obtain ⟨k, hk⟩ := List.mem_iff_getElem?.mp hcall
  have hknows := h.knows k call hk
  rw [hphase] at hknows
  obtain ⟨item, iv, assembled, hitem, hpath, hbytes, hhash, hsize, hassembled⟩ := hknows
  refine ⟨item, iv, assembled, hitem, ?_, hhash, hsize, hassembled⟩
  rw [hpath]
  exact hbytes

theorem isReceived_of_received (h : w.IsSound p) (hcall : call ∈ w.calls) (hreceived : call.received? = some index) :
    w.IsReceived index := by
  obtain ⟨k, hk⟩ := List.mem_iff_getElem?.mp hcall
  have hknows := h.knows k call hk
  rw [UploadCall.received?] at hreceived
  split at hreceived
  · rename_i hphase
    cases hreceived
    have hrecorded := h.done call hcall index true hphase
    exact ⟨hrecorded, ⟨call, hcall, stores_iff.mpr ⟨.done, hphase⟩⟩, range_of_recorded h hrecorded⟩
  · rename_i hphase
    cases hreceived
    rw [hphase] at hknows
    exact ⟨hknows.1, hknows.2, range_of_recorded h hknows.1⟩
  · cases hreceived

/-- The call has not failed for want of the chunk, but perhaps after the session had expired. -/
def UploadWorld.Spares (index : ℕ) (k : ℕ) (w : UploadWorld) : Prop :=
  ∀ f failure, w.calls[k]? = some f → f.phase = .returned (.failed failure) →
    w.store.now ≤ w.store.session.expiresAt → ¬ failure.Misses index

theorem step_spares {k : ℕ} (hstep : w.Step p event w') (horderly : Orderly p ⟨w, event, w'⟩) (h : w.IsSound p)
    (hreceived : w.IsReceived index) (hspares : w.Spares index k) : w'.Spares index k := by
  intro f failure hf hfail hnow
  have hleads := (step_sound hstep horderly h).2
  have hbefore : w.store.now ≤ w.store.session.expiresAt := by
    rw [← hleads.session.expiresAt]
    exact hleads.now.trans hnow
  have hgoes : ∀ {i : ℕ} {call : UploadCall} {result : UploadPhase × UploadStore}, w.calls[i]? = some call →
      w.Goes p i call result → (w.put i call result).calls[k]? = some f → ¬ failure.Misses index := by
    intro i call result hi hgoes hf
    rcases getElem?_put hi hf with ⟨rfl, rfl⟩ | ⟨-, hf⟩
    · rcases hgoes.spares index failure hfail with hsame | hspared
      · exact hspares call failure hi (hsame.trans hfail) hbefore
      · exact hspared hreceived hbefore
    · exact hspares f failure hf hfail hbefore
  cases event with
  | start ownerId goal =>
    cases hstep
    rcases getElem?_snoc hf with hf | ⟨-, rfl⟩
    · exact hspares f failure hf hfail hbefore
    · cases hfail
  | advance i fails =>
    obtain ⟨call, hi, rfl⟩ := Option.map_eq_some_iff.mp hstep
    exact hgoes hi (goes_act h hi (horderly call hi)) hf
  | storeChunk i fails =>
    obtain ⟨call, hi, rfl⟩ := Option.map_eq_some_iff.mp hstep
    exact hgoes hi (goes_storeChunk h hi (horderly call hi)) hf
  | elapse d =>
    cases hstep
    exact hspares f failure hf hfail hbefore
  | queueItem item =>
    cases hstep
    exact hspares f failure hf hfail hbefore

/-- Chunked uploads: in every run in which the writes to Redis do not fail, no call lets in a chunk beside another one's,
a duplicate is acknowledged when the bytes are written, and finalize reads chunks that are on record of a session that
nobody has closed. -/
theorem chunksIntact_of_orderly {now : ℕ} {id ownerId : String} {dto : CreateUploadSessionDto} {orgId : Option String}
    {session : UploadSession} {items : List EvidenceQueueItem} {files : ℕ → Option Buffer} {fails : Bool}
    (hdto : dto.IsValid) (hcreate : UploadSession.create p.lower now id dto ownerId orgId = .ok session)
    (hrun : Run (UploadWorld.Step p) { store := .created now session items files fails } tr w)
    (horderly : ∀ t ∈ tr, Orderly p t) : ChunksIntact p tr := by
  obtain ⟨hmade, hexpires⟩ := isMade_create hdto hcreate
  have hstart : UploadWorld.IsSound p { store := .created now session items files fails } :=
    isSound_created hmade hexpires items files fails
  have hsound : ∀ t ∈ tr, t.pre.IsSound p ∧ t.post.IsSound p := fun t ht =>
    hrun.invariant_at hstart horderly (fun _ hstep hC hpre => (step_sound hstep hC hpre).1) ht
  refine ⟨fun t ht call hcall id hphase => isIntact_of_sound (hsound t ht).2 hcall hphase, ?_⟩
  -- what is there when finalize is called stays there
  let R (a b : UploadWorld) : Prop := a.IsSound p → b.IsSound p ∧
    ∀ index k, a.IsReceived index ∧ a.Spares index k → b.IsReceived index ∧ b.Spares index k
  have htrans : ∀ a b c : UploadWorld, R a b → R b c → R a c := fun a b c hab hbc ha =>
    ⟨(hbc (hab ha).1).1, fun index k h => (hbc (hab ha).1).2 index k ((hab ha).2 index k h)⟩
  have hpairs : tr.Pairwise fun t u => R t.post u.post := by
    refine hrun.pairwise_post (R := R) (fun a ha => ⟨ha, fun _ _ h => h⟩) htrans fun t ht ha => ?_
    have hstep := hrun.step_of_mem ht
    obtain ⟨hpost, hleads⟩ := step_sound hstep (horderly t ht) ha
    exact ⟨hpost, fun index k h => ⟨hleads.isReceived h.1, step_spares hstep (horderly t ht) ha h.1 h.2⟩⟩
  refine hpairs.imp_of_mem fun {t u} ht _ hR ownerId iv hlabel index hreceived f failure hf hfail hnow => ?_
  obtain ⟨call, hcall, hanswer⟩ := hreceived
  have hstep := hrun.step_of_mem ht
  have hthere := isReceived_of_received (hsound t ht).1 hcall hanswer
  have hleads := (step_sound hstep (horderly t ht) (hsound t ht).1).2
  have hfresh : t.post.Spares index t.pre.calls.length := by
    intro g failure' hg hgfail
    rw [hlabel] at hstep
    have hpost : t.post.calls = t.pre.calls ++ [⟨ownerId, .finalize iv, .getCached⟩] :=
      (congrArg UploadWorld.calls (Option.some.inj hstep)).symm
    rw [hpost, List.getElem?_concat_length, Option.some.injEq] at hg
    rw [← hg] at hgfail
    cases hgfail
  exact ((hR (hsound t ht).2).2 index _ ⟨hleads.isReceived hthere, hfresh⟩).2 f failure hf hfail hnow

def uploadDigest (buffer : Buffer) : String :=
  if buffer = [104, 105] then "8f434346648f6b96df89dda901c5176b10a6d83961dd3c1ac88b59b2dc327aa4"
  else if buffer = [121, 111] then "e9058ab198f6908f702111b0c0fb5b36f99d00554521886c40e2891b349dc7a1"
  else "e3b0c44298fc1c149afbf4c8996fb92427ae41e4649b934ca495991b7852b855"

def uploadPlatform : Platform where
  sha256 := uploadDigest
  encryptBuffer iv buffer := iv ++ buffer
  lower := id

def noteDto : CreateUploadSessionDto := ⟨"a.txt", "text/plain", 2, 65536⟩

def noteSession : UploadSession where
  id := "session"
  ownerId := "owner"
  orgId := none
  fileName := "a.txt"
  mimeType := "text/plain"
  totalSize := 2
  chunkSize := 65536
  totalChunks := 1
  status := .active
  expiresAt := 86400000

def noteStore : UploadStore := .created 0 noteSession [] (fun _ => none) false

theorem noteDto_isValid : noteDto.IsValid := ⟨by decide, by decide, by decide, by decide, by decide⟩

theorem noteSession_create : UploadSession.create uploadPlatform.lower 0 "session" noteDto "owner" none = .ok noteSession := by
  rfl

def uploadGoal (buffer : Buffer) : Goal := .uploadChunk 0 (uploadDigest buffer) buffer

/-- Calls upload the buffers, then they do something in this order, and then the upload is finalized. -/
def uploading (buffers : List Buffer) (acts : List UploadEvent) (finalizing : ℕ) : List UploadTransition × UploadWorld :=
  play (UploadWorld.take uploadPlatform) { store := noteStore }
    (buffers.map (fun buffer => .start "owner" (uploadGoal buffer)) ++ acts ++ [.start "owner" (.finalize [])] ++
      List.replicate finalizing (.advance buffers.length false))

theorem uploading_run (buffers : List Buffer) (acts : List UploadEvent) (finalizing : ℕ) :
    Run (UploadWorld.Step uploadPlatform) { store := noteStore } (uploading buffers acts finalizing).1
      (uploading buffers acts finalizing).2 :=
  play_run (fun _ _ _ h => h) _ _

def oneUpload : List UploadTransition × UploadWorld :=
  uploading [[104, 105]] ([.advance 0 false, .advance 0 false, .storeChunk 0 false] ++ List.replicate 3 (.advance 0 false)) 11

theorem chunksIntact_oneUpload : ChunksIntact uploadPlatform oneUpload.1 :=
  chunksIntact_of_orderly noteDto_isValid noteSession_create (uploading_run _ _ _) (by decide +kernel)

/-- Two calls upload different texts as the same chunk: the bytes of the one are kept, and the checksum of the other. -/
def twoUploads : List UploadTransition × UploadWorld :=
  uploading [[104, 105], [121, 111]]
    ([.advance 0 false, .advance 0 false, .advance 1 false, .advance 1 false, .storeChunk 0 false, .storeChunk 1 false] ++
      List.replicate 3 (.advance 1 false) ++ List.replicate 3 (.advance 0 false)) 11

def UploadCall.item? (call : UploadCall) : Option ℕ :=
  match call.phase with
  | .returned (.item id) => some id
  | _ => none

def Mismatched (w : UploadWorld) : Prop :=
  w.store.session.totalChunks = 1 ∧ (∃ call ∈ w.calls, call.item? = some 0) ∧
    ∃ item ∈ w.store.items[0]?, ∃ chunk ∈ w.store.chunks 0, item.fileHash ≠ chunk.checksum

instance (w : UploadWorld) : Decidable (Mismatched w) := inferInstanceAs (Decidable (_ ∧ _ ∧ _))

theorem not_isIntact_of_mismatched (h : Mismatched w) : ¬ w.IsIntact p 0 := by
  rintro ⟨item, iv, assembled, hitem, -, hhash, -, parts, hparts, hlength, -, hall⟩
  obtain ⟨htotal, -, item', hitem', chunk, hchunk, hne⟩ := h
  cases hitem.symm.trans hitem'
  obtain ⟨buffer, rfl⟩ := List.length_eq_one_iff.mp (hlength.trans htotal)
  obtain ⟨chunk', hchunk', hsum⟩ := (hall 0 buffer rfl).recorded
  cases hchunk'.symm.trans hchunk
  refine hne ?_
  rw [hhash, hsum, hparts, List.flatten_singleton]

theorem twoUploads_mismatch : ¬ ChunksIntact uploadPlatform twoUploads.1 := by
  intro h
  have hmismatched : ∃ t ∈ twoUploads.1, Mismatched t.post := by decide +kernel
  obtain ⟨t, ht, hmismatched⟩ := hmismatched
  obtain ⟨call, hcall, hitem⟩ := hmismatched.2.1
  have hphase : call.phase = .returned (.item 0) := by
    rw [UploadCall.item?] at hitem
    split at hitem
    · rename_i hphase
      cases hitem
      exact hphase
    · cases hitem
  exact not_isIntact_of_mismatched hmismatched (h.intact t ht call hcall 0 hphase)

end Runs
end Soter.Evidence
