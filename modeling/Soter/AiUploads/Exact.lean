import Mathlib.Algebra.Order.BigOperators.Group.Finset
import Mathlib.Data.List.ReduceOption
import Mathlib.Data.List.TakeWhile
import Soter.AiUploads.Sessions

/-! Resumable uploads over runs: when the calls are exact and leave everything as it was where they raise. -/
namespace Soter.AiUploads
open Soter.Runs List Function

section Invariant
variable {settings : Settings} {s s' : Store} {now : ℚ} {sessionId : ℕ} {ownerId : String} {session : UploadSession}
  {dir : Directory} {index : ℤ} {data : Bytes}

structure OpenSound (s : Store) (sessionId : ℕ) (session : UploadSession) : Prop where
  files : ∀ index, index ∈ s.sessionDir sessionId ↔ index ∈ session.receivedChunks
  counted : session.receivedBytes = recalculateReceivedBytes (s.sessionDir sessionId) session
  inRange : ∀ index ∈ session.receivedChunks, 0 ≤ index ∧ index < session.totalChunks
  latest : ∀ index ∈ session.receivedChunks,
    (s.sessionDir sessionId).lookup index = lastAccepted s.accepted sessionId index
  unassembled : ∀ artifact ∈ s.artifacts, artifact.sessionId ≠ sessionId

structure Sound (settings : Settings) (s : Store) (sessionId : ℕ) (session : UploadSession) : Prop where
  named : session.sessionId = sessionId
  small : (session.receivedBytes : ℤ) ≤ settings.maxUploadBytes
  opened : session.completed = false → OpenSound s sessionId session
  closed : session.completed = true → ∃ artifact ∈ s.artifacts,
    session.artifactId = some artifact.artifactId ∧ artifact.sessionId = sessionId ∧
      artifact.data.length = session.receivedBytes

structure Good (settings : Settings) (s : Store) : Prop where
  unborn : ∀ sessionId, s.created ≤ sessionId →
    s.sessions sessionId = none ∧ ∀ artifact ∈ s.artifacts, artifact.sessionId ≠ sessionId
  sound : ∀ sessionId, ∀ session ∈ s.sessions sessionId, Sound settings s sessionId session
  once : (s.artifacts.map Artifact.sessionId).Nodup

variable {other : ℕ}

theorem sizeOf_insert_self : sizeOf (dir.insert index data) index = data.length := by
  rw [sizeOf, AList.lookup_insert]
  rfl

theorem sizeOf_insert_ne {other : ℤ} (h : other ≠ index) : sizeOf (dir.insert index data) other = sizeOf dir other := by
  rw [sizeOf, AList.lookup_insert_ne h]
  rfl

theorem sizeOf_erase_ne {other : ℤ} (h : other ≠ index) : sizeOf (dir.erase index) other = sizeOf dir other := by
  rw [sizeOf, AList.lookup_erase_ne h]
  rfl

theorem sum_sizeOf_insert (received : Finset ℤ) : ∑ i ∈ insert index received, sizeOf (dir.insert index data) i =
      data.length + ∑ i ∈ received.erase index, sizeOf dir i := by
  have hinsert : insert index received = insert index (received.erase index) := by
    ext i
    by_cases hi : i = index
    · simp [hi]
    · simp [hi]
  rw [hinsert, Finset.sum_insert (Finset.notMem_erase index received), sizeOf_insert_self]
  congr 1
  apply Finset.sum_congr rfl
  intro i hi
  exact sizeOf_insert_ne (Finset.ne_of_mem_erase hi)

theorem sum_sizeOf_erase (received : Finset ℤ) : ∑ i ∈ received.erase index, sizeOf ((dir.insert index data).erase index) i =
      ∑ i ∈ received.erase index, sizeOf dir i := by
  apply Finset.sum_congr rfl
  intro i hi
  have hne := Finset.ne_of_mem_erase hi
  rw [sizeOf_erase_ne hne, sizeOf_insert_ne hne]

theorem OpenSound.isStored (h : OpenSound s sessionId session) :
    ∑ i ∈ (s.sessionDir sessionId).keys.toFinset, sizeOf (s.sessionDir sessionId) i = session.receivedBytes := by
  have hkeys : (s.sessionDir sessionId).keys.toFinset = session.receivedChunks := by
    ext i
    rw [mem_toFinset, ← AList.mem_keys]
    exact h.files i
  rw [hkeys, h.counted]
  rfl

theorem Sound.isStored (h : Sound settings s sessionId session) :
    s.IsStored sessionId session session.receivedBytes := by
  unfold Store.IsStored
  split
  · rename_i hcompleted
    exact h.closed hcompleted
  · rename_i hopened
    exact (h.opened (Bool.eq_false_iff.mpr hopened)).isStored

theorem Sound.of_same (h : Sound settings s sessionId session) (hdir : s'.sessionDir sessionId = s.sessionDir sessionId)
    (haccepted : ∀ index, lastAccepted s'.accepted sessionId index = lastAccepted s.accepted sessionId index)
    (hartifacts : ∀ artifact : Artifact, artifact.sessionId = sessionId →
      (artifact ∈ s'.artifacts ↔ artifact ∈ s.artifacts)) : Sound settings s' sessionId session where
  named := h.named
  small := h.small
  opened hopened := by
    have hs := h.opened hopened
    refine ⟨?_, ?_, hs.inRange, ?_, fun artifact hmem hsame => ?_⟩
    · rw [hdir]
      exact hs.files
    · rw [hdir]
      exact hs.counted
    · intro index hindex
      rw [hdir, haccepted]
      exact hs.latest index hindex
    · exact hs.unassembled artifact ((hartifacts artifact hsame).mp hmem) hsame
  closed hcompleted := by
    obtain ⟨artifact, hmem, hid, hsame, hlength⟩ := h.closed hcompleted
    exact ⟨artifact, (hartifacts artifact hsame).mpr hmem, hid, hsame, hlength⟩

theorem Good.fresh : Good settings (Store.fresh now) where
  unborn _ _ := ⟨rfl, by simp [Store.fresh]⟩
  sound _ _ h := by cases h
  once := nodup_nil

theorem Good.tick (h : Good settings s) : Good settings { s with now } where
  unborn := h.unborn
  sound sessionId session hsession := (h.sound sessionId session hsession).of_same rfl (fun _ => rfl) fun _ _ => Iff.rfl
  once := h.once

theorem Good.born (h : Good settings s) (hsession : session ∈ s.sessions sessionId) : sessionId < s.created := by
  by_contra hle
  rw [(h.unborn sessionId (by omega)).1] at hsession
  cases hsession

@[simp] theorem purge_sessions_self : (s.purge sessionId).sessions sessionId = none := update_self ..

theorem purge_sessions_ne (h : other ≠ sessionId) :
    (s.purge sessionId).sessions other = s.sessions other := update_of_ne h ..

theorem purge_sessionDir_ne (h : other ≠ sessionId) :
    (s.purge sessionId).sessionDir other = s.sessionDir other := update_of_ne h ..

@[simp] theorem put_sessions_self : (s.put sessionId session dir).sessions sessionId = some session :=
  update_self ..

@[simp] theorem put_sessionDir_self : (s.put sessionId session dir).sessionDir sessionId = dir := update_self ..

theorem put_sessions_ne (h : other ≠ sessionId) :
    (s.put sessionId session dir).sessions other = s.sessions other := update_of_ne h ..

theorem put_sessionDir_ne (h : other ≠ sessionId) :
    (s.put sessionId session dir).sessionDir other = s.sessionDir other := update_of_ne h ..

theorem Good.purge (h : Good settings s) (sessionId : ℕ) : Good settings (s.purge sessionId) where
  unborn other hother := by
    refine ⟨?_, (h.unborn other hother).2⟩
    by_cases hsame : other = sessionId
    · rw [hsame, purge_sessions_self]
    · rw [purge_sessions_ne hsame]
      exact (h.unborn other hother).1
  sound other session hsession := by
    by_cases hsame : other = sessionId
    · rw [hsame, purge_sessions_self] at hsession
      cases hsession
    · rw [purge_sessions_ne hsame] at hsession
      exact (h.sound other session hsession).of_same (purge_sessionDir_ne hsame) (fun _ => rfl) fun _ _ => Iff.rfl
  once := h.once

theorem Good.purge_all (ids : List ℕ) : ∀ {s : Store}, Good settings s → Good settings (ids.foldl Store.purge s) := by
  induction ids with
  | nil => exact fun h => h
  | cons sessionId ids ih => exact fun h => ih (h.purge sessionId)

theorem Good.put (h : Good settings s) {session' : UploadSession} {dir : Directory}
    (hsession : session ∈ s.sessions sessionId) (hcreated : s'.created = s.created)
    (hsessions : s'.sessions = update s.sessions sessionId (some session'))
    (hdir : s'.sessionDir = update s.sessionDir sessionId dir)
    (haccepted : ∀ other ≠ sessionId, ∀ index, lastAccepted s'.accepted other index = lastAccepted s.accepted other index)
    (hartifacts : ∀ artifact : Artifact, artifact.sessionId ≠ sessionId →
      (artifact ∈ s'.artifacts ↔ artifact ∈ s.artifacts)) (honce : (s'.artifacts.map Artifact.sessionId).Nodup)
    (hsound : Sound settings s' sessionId session') : Good settings s' where
  unborn other hother := by
    have hborn := h.born hsession
    have hne : other ≠ sessionId := by omega
    obtain ⟨hnone, hno⟩ := h.unborn other (by omega)
    rw [hsessions, update_of_ne hne]
    refine ⟨hnone, fun artifact hmem hsame => ?_⟩
    exact hno artifact ((hartifacts artifact (by rw [hsame]; exact hne)).mp hmem) hsame
  sound other session'' hother := by
    by_cases hsame : other = sessionId
    · subst hsame
      rw [hsessions, update_self] at hother
      cases hother
      exact hsound
    · rw [hsessions, update_of_ne hsame] at hother
      refine (h.sound other session'' hother).of_same ?_ (haccepted other hsame) fun artifact hid => ?_
      · rw [hdir, update_of_ne hsame]
      · exact hartifacts artifact (by rw [hid]; exact hsame)
  once := honce

end Invariant
section Acts
variable {settings : Settings} {s : Store} {now : ℚ}

/-- The session that `_require_active_session` returns. -/
structure IsActive (s : Store) (now : ℚ) (sessionId : ℕ) (ownerId : String) (session : UploadSession) : Prop where
  kept : session ∈ s.sessions sessionId
  inTime : ¬ session.IsExpired now
  someone : ownerId ≠ ""
  owned : session.ownerId = ownerId

inductive Acts (settings : Settings) (s : Store) (now : ℚ) : Call → Except UploadSessionError Answer → Store → Prop
  | refused {call : Call} {e : UploadSessionError} : Acts settings s now call (.error e) s
  | expired {call : Call} {e : UploadSessionError} {sessionId : ℕ} {session : UploadSession}
      (hsession : session ∈ s.sessions sessionId) (hexpired : session.IsExpired now) :
      Acts settings s now call (.error e) (s.purge sessionId)
  | created {ownerId filename contentType : String} {session : UploadSession} {totalChunks : ℤ}
      (hnamed : session.sessionId = s.created) (hsize : session.totalSize ≤ settings.maxUploadBytes)
      (hpositive : 0 < session.totalSize) (hfresh : session.completed = false) (hbytes : session.receivedBytes = 0)
      (hchunks : session.receivedChunks = ∅) :
      Acts settings s now (.createSession ownerId filename contentType session.totalSize totalChunks)
        (.ok (.session session)) { s.put s.created session ∅ with created := s.created + 1 }
  | looked {sessionId : ℕ} {ownerId : String} {session : UploadSession} :
      Acts settings s now (.getSession sessionId ownerId) (.ok (.session session)) s
  | saved {sessionId : ℕ} {ownerId : String} {session : UploadSession} {index : ℤ} {data : Bytes}
      (hactive : IsActive s now sessionId ownerId session) (hopened : session.completed = false)
      (hrange : 0 ≤ index ∧ index < session.totalChunks)
      (hfits : (((session.add index).recount ((s.sessionDir sessionId).insert index data)).receivedBytes : ℤ) ≤
        settings.maxUploadBytes) :
      Acts settings s now (.saveChunk sessionId ownerId index data)
        (.ok (.session ((session.add index).recount ((s.sessionDir sessionId).insert index data))))
        { s.put sessionId ((session.add index).recount ((s.sessionDir sessionId).insert index data))
            ((s.sessionDir sessionId).insert index data) with
          accepted := ⟨sessionId, index, data⟩ :: s.accepted }
  | rolledBack {sessionId : ℕ} {ownerId : String} {session : UploadSession} {index : ℤ} {data : Bytes}
      {removed : Directory}
      (hactive : IsActive s now sessionId ownerId session) (hopened : session.completed = false)
      (hlarge : settings.maxUploadBytes <
        ((session.add index).recount ((s.sessionDir sessionId).insert index data)).receivedBytes)
      (hremoved : removed = ((s.sessionDir sessionId).insert index data).erase index) :
      Acts settings s now (.saveChunk sessionId ownerId index data) (.error .file_too_large)
        (s.put sessionId (((session.add index).discard index).recount removed) removed)
  | finalizedBefore {sessionId : ℕ} {ownerId : String} {session : UploadSession}
      (hactive : IsActive s now sessionId ownerId session) (hclosed : session.completed = true) :
      Acts settings s now (.finalize sessionId ownerId) (.ok (.session session)) s
  | truncated {sessionId : ℕ} {ownerId : String} {session : UploadSession} {artifact : Artifact}
      (hactive : IsActive s now sessionId ownerId session) (hopened : session.completed = false)
      (hcomplete : ∀ index ∈ session.indices, index ∈ session.receivedChunks)
      (hmissing : (session.parts (s.sessionDir sessionId)).length < session.indices.length) :
      Acts settings s now (.finalize sessionId ownerId) (.error .FileNotFoundError)
        { s with artifacts := s.artifacts ++ [artifact] }
  | finalized {sessionId : ℕ} {ownerId : String} {session done : UploadSession} {artifact : Artifact}
      (hactive : IsActive s now sessionId ownerId session) (hopened : session.completed = false)
      (hcomplete : ∀ index ∈ session.indices, index ∈ session.receivedChunks)
      (hsize : (session.receivedBytes : ℤ) = session.totalSize)
      (hsession : artifact.sessionId = sessionId)
      (hdata : artifact.data = (session.parts (s.sessionDir sessionId)).flatten)
      (hdone : done = { session with completed := true, artifactId := some artifact.artifactId }) :
      Acts settings s now (.finalize sessionId ownerId) (.ok (.session done))
        { s.put sessionId done ∅ with artifacts := s.artifacts ++ [artifact] }
  | purged {dryRun : Bool} {result : PurgeResult} {ids : List ℕ}
      (habandoned : ∀ sessionId ∈ ids, s.IsAbandoned now sessionId) :
      Acts settings s now (.purgeAbandonedSessions dryRun) (.ok (.purged result)) (ids.foldl Store.purge s)

theorem requireActiveSession_cases (s : Store) (now : ℚ) (sessionId : ℕ) (ownerId : String) :
    (∃ e, requireActiveSession s now sessionId ownerId = (.error e, s)) ∨
    (∃ e, ∃ session ∈ s.sessions sessionId, session.IsExpired now ∧
      requireActiveSession s now sessionId ownerId = (.error e, s.purge sessionId)) ∨
    ∃ session, IsActive s now sessionId ownerId session ∧
      requireActiveSession s now sessionId ownerId = (.ok session, s) := by
  unfold requireActiveSession
  cases hsession : s.sessions sessionId with
  | none => exact .inl ⟨_, rfl⟩
  | some session =>
    dsimp only
    by_cases hexpired : session.IsExpired now
    · rw [if_pos hexpired]
      exact .inr (.inl ⟨_, session, rfl, hexpired, rfl⟩)
    · rw [if_neg hexpired]
      by_cases howner : ownerId = "" ∨ session.ownerId ≠ ownerId
      · rw [if_pos howner]
        exact .inl ⟨_, rfl⟩
      · rw [if_neg howner]
        have howned : ownerId ≠ "" ∧ session.ownerId = ownerId := by
          simpa only [not_or, not_not] using howner
        exact .inr (.inr ⟨session, ⟨hsession, hexpired, howned.1, howned.2⟩, rfl⟩)

theorem saveChunk_acts (sessionId : ℕ) (ownerId : String) (index : ℤ) (data : Bytes) :
    Acts settings s now (.saveChunk sessionId ownerId index data)
      ((saveChunk settings s now sessionId ownerId index data).1.map .session)
      (saveChunk settings s now sessionId ownerId index data).2 := by
  unfold saveChunk
  rcases requireActiveSession_cases s now sessionId ownerId with ⟨e, h⟩ | ⟨e, session, hsession, hexpired, h⟩ |
    ⟨session, hactive, h⟩
  · rw [h]
    exact .refused
  · rw [h]
    exact .expired hsession hexpired
  · rw [h]
    dsimp only
    split
    · exact .refused
    · rename_i hopened
      split
      · exact .refused
      · rename_i hrange
        split
        · exact .refused
        · have hopened : session.completed = false := Bool.eq_false_iff.mpr hopened
          split
          · rename_i hlarge
            exact .rolledBack hactive hopened hlarge rfl
          · rename_i hfits
            exact .saved hactive hopened (by omega) (by omega)

theorem finalize_acts (sessionId : ℕ) (ownerId : String) :
    Acts settings s now (.finalize sessionId ownerId) ((finalize s now sessionId ownerId).1.map .session)
      (finalize s now sessionId ownerId).2 := by
  unfold finalize
  rcases requireActiveSession_cases s now sessionId ownerId with ⟨e, h⟩ | ⟨e, session, hsession, hexpired, h⟩ |
    ⟨session, hactive, h⟩
  · rw [h]
    exact .refused
  · rw [h]
    exact .expired hsession hexpired
  · rw [h]
    dsimp only
    split
    · rename_i hclosed
      exact .finalizedBefore hactive hclosed
    · rename_i hopened
      have hopened : session.completed = false := Bool.eq_false_iff.mpr hopened
      split
      · exact .refused
      · rename_i hmissing
        have hcomplete : ∀ index ∈ session.indices, index ∈ session.receivedChunks := by
          simpa only [ne_eq, not_not, filter_eq_nil_iff, decide_eq_true_eq] using hmissing
        split
        · exact .refused
        · rename_i hsize
          split
          · rename_i hlost
            exact .truncated hactive hopened hcomplete hlost
          · exact .finalized hactive hopened hcomplete (not_not.mp hsize) rfl rfl rfl

theorem createSession_acts (ownerId filename contentType : String) (totalSize totalChunks : ℤ) :
    Acts settings s now (.createSession ownerId filename contentType totalSize totalChunks)
      ((createSession settings s now ownerId filename contentType totalSize totalChunks).1.map .session)
      (createSession settings s now ownerId filename contentType totalSize totalChunks).2 := by
  unfold createSession
  split
  · exact .refused
  · split
    · exact .refused
    · split
      · exact .refused
      · rename_i hpositive
        split
        · exact .refused
        · rename_i hsize
          let session : UploadSession :=
            { sessionId := s.created
              ownerId, filename, contentType, totalSize, totalChunks
              createdAt := now
              expiresAt := now + settings.sessionTtlSeconds }
          have hnamed : session.sessionId = s.created := rfl
          have hpositive : 0 < session.totalSize := by
            change 0 < totalSize
            omega
          exact Acts.created hnamed (not_lt.mp hsize) hpositive rfl rfl rfl

theorem getSession_acts (sessionId : ℕ) (ownerId : String) :
    Acts settings s now (.getSession sessionId ownerId) ((requireActiveSession s now sessionId ownerId).1.map .session)
      (requireActiveSession s now sessionId ownerId).2 := by
  rcases requireActiveSession_cases s now sessionId ownerId with ⟨e, h⟩ | ⟨e, session, hsession, hexpired, h⟩ |
    ⟨session, -, h⟩
  · rw [h]
    exact .refused
  · rw [h]
    exact .expired hsession hexpired
  · rw [h]
    exact .looked

theorem purgeAbandonedSessions_acts (dryRun : Bool) :
    Acts settings s now (.purgeAbandonedSessions dryRun) (.ok (.purged (purgeAbandonedSessions s now dryRun).1))
      (purgeAbandonedSessions s now dryRun).2 := by
  unfold purgeAbandonedSessions
  cases dryRun with
  | true =>
    have hnone : ∀ sessionId ∈ ([] : List ℕ), s.IsAbandoned now sessionId := by simp
    exact .purged hnone
  | false =>
    have habandoned : ∀ sessionId ∈ (range s.created).filter (s.IsAbandoned now ·), s.IsAbandoned now sessionId :=
      fun sessionId hid => of_decide_eq_true (mem_filter.mp hid).2
    exact .purged habandoned

theorem perform_acts (call : Call) :
    Acts settings s now call (perform settings s now call).1 (perform settings s now call).2 := by
  cases call with
  | createSession ownerId filename contentType totalSize totalChunks =>
    exact createSession_acts ownerId filename contentType totalSize totalChunks
  | getSession sessionId ownerId => exact getSession_acts sessionId ownerId
  | saveChunk sessionId ownerId index data => exact saveChunk_acts sessionId ownerId index data
  | finalize sessionId ownerId => exact finalize_acts sessionId ownerId
  | purgeAbandonedSessions dryRun => exact purgeAbandonedSessions_acts dryRun

end Acts
section Steps
variable {settings : Settings} {s s' : Store} {now : ℚ} {sessionId : ℕ} {ownerId : String} {session : UploadSession}
  {dir : Directory} {index : ℤ} {data : Bytes}

theorem received_add (session : UploadSession) (index : ℤ) (data : Bytes) (dir : Directory) :
    ((session.add index).recount (dir.insert index data)).receivedBytes =
      data.length + ∑ i ∈ session.receivedChunks.erase index, sizeOf dir i := sum_sizeOf_insert session.receivedChunks

theorem received_discard (session : UploadSession) (index : ℤ) (data : Bytes) (dir : Directory) :
    (((session.add index).discard index).recount ((dir.insert index data).erase index)).receivedBytes =
      ∑ i ∈ session.receivedChunks.erase index, sizeOf dir i := by
  have herase : (insert index session.receivedChunks).erase index = session.receivedChunks.erase index :=
    Finset.erase_insert_eq_erase ..
  change ∑ i ∈ (insert index session.receivedChunks).erase index, sizeOf ((dir.insert index data).erase index) i = _
  rw [herase]
  exact sum_sizeOf_erase session.receivedChunks

theorem OpenSound.sum_erase (h : OpenSound s sessionId session) (hmem : index ∈ session.receivedChunks) :
    ∑ i ∈ session.receivedChunks.erase index, sizeOf (s.sessionDir sessionId) i +
      sizeOf (s.sessionDir sessionId) index = session.receivedBytes := by
  rw [h.counted]
  exact Finset.sum_erase_add _ _ hmem

theorem lastAccepted_cons_self (accepted : List Chunk) :
    lastAccepted (⟨sessionId, index, data⟩ :: accepted) sessionId index = some data := by
  simp [lastAccepted]

theorem lastAccepted_cons_ne (accepted : List Chunk) {other : ℕ} {i : ℤ} (h : ¬ (sessionId = other ∧ index = i)) :
    lastAccepted (⟨sessionId, index, data⟩ :: accepted) other i = lastAccepted accepted other i := by
  unfold lastAccepted
  rw [find?_cons_of_neg]
  simpa using h

theorem OpenSound.saved (h : OpenSound s sessionId session) (hrange : 0 ≤ index ∧ index < session.totalChunks)
    (hdir : s'.sessionDir sessionId = (s.sessionDir sessionId).insert index data)
    (haccepted : s'.accepted = ⟨sessionId, index, data⟩ :: s.accepted) (hartifacts : s'.artifacts = s.artifacts) :
    OpenSound s' sessionId ((session.add index).recount ((s.sessionDir sessionId).insert index data)) where
  files i := by
    rw [hdir, AList.mem_insert, h.files i]
    exact Finset.mem_insert.symm
  counted := by
    rw [hdir]
    rfl
  inRange i hi := by
    rcases Finset.mem_insert.mp hi with rfl | hi
    · exact hrange
    · exact h.inRange i hi
  latest i hi := by
    rw [hdir, haccepted]
    by_cases hsame : i = index
    · rw [hsame, AList.lookup_insert, lastAccepted_cons_self]
    · rw [AList.lookup_insert_ne hsame, lastAccepted_cons_ne _ fun heq => hsame heq.2.symm]
      exact h.latest i ((Finset.mem_insert.mp hi).resolve_left hsame)
  unassembled := by
    rw [hartifacts]
    exact h.unassembled

theorem OpenSound.rolledBack (h : OpenSound s sessionId session)
    (hdir : s'.sessionDir sessionId = ((s.sessionDir sessionId).insert index data).erase index)
    (haccepted : s'.accepted = s.accepted) (hartifacts : s'.artifacts = s.artifacts) : OpenSound s' sessionId
      (((session.add index).discard index).recount (((s.sessionDir sessionId).insert index data).erase index)) where
  files i := by
    rw [hdir, AList.mem_erase, AList.mem_insert, h.files i]
    exact (Finset.mem_erase.trans (and_congr_right' Finset.mem_insert)).symm
  counted := by
    rw [hdir]
    rfl
  inRange i hi := by
    obtain ⟨hne, hi⟩ := Finset.mem_erase.mp hi
    exact h.inRange i ((Finset.mem_insert.mp hi).resolve_left hne)
  latest i hi := by
    obtain ⟨hne, hi⟩ := Finset.mem_erase.mp hi
    rw [hdir, haccepted, AList.lookup_erase_ne hne, AList.lookup_insert_ne hne]
    exact h.latest i ((Finset.mem_insert.mp hi).resolve_left hne)
  unassembled := by
    rw [hartifacts]
    exact h.unassembled

theorem mem_indices {i : ℤ} : i ∈ session.indices ↔ 0 ≤ i ∧ i < session.totalChunks := by
  rw [UploadSession.indices, mem_map]
  constructor
  · rintro ⟨n, hn, rfl⟩
    have hlt := mem_range.mp hn
    change 0 ≤ (n : ℤ) ∧ (n : ℤ) < session.totalChunks
    omega
  · intro hi
    refine ⟨i.toNat, ?_, ?_⟩
    · apply mem_range.mpr
      omega
    · change ((i.toNat : ℕ) : ℤ) = i
      omega

theorem nodup_indices (session : UploadSession) : session.indices.Nodup :=
  nodup_range.map fun _ _ h => Int.ofNat.inj h

theorem parts_eq (h : ∀ i ∈ session.indices, (dir.lookup i).isSome = true) :
    session.parts dir = session.indices.map fun i => (dir.lookup i).getD [] := by
  have hall : (session.indices.map dir.lookup).takeWhile Option.isSome = session.indices.map dir.lookup := by
    apply takeWhile_eq_self_iff.mpr
    intro part hpart
    obtain ⟨i, hi, rfl⟩ := mem_map.mp hpart
    exact h i hi
  have hsome : session.indices.map dir.lookup = (session.indices.map fun i => (dir.lookup i).getD []).map some := by
    rw [map_map]
    apply map_congr_left
    intro i hi
    obtain ⟨part, hpart⟩ := Option.isSome_iff_exists.mp (h i hi)
    simp [hpart]
  rw [UploadSession.parts, hall, hsome, reduceOption, filterMap_map]
  simp

section Assembly
variable (h : OpenSound s sessionId session) (hcomplete : ∀ i ∈ session.indices, i ∈ session.receivedChunks)
include h hcomplete

theorem OpenSound.lookup_isSome : ∀ i ∈ session.indices, ((s.sessionDir sessionId).lookup i).isSome = true := by
  intro i hi
  rw [AList.lookup_isSome]
  exact (h.files i).mpr (hcomplete i hi)

theorem OpenSound.length_parts : (session.parts (s.sessionDir sessionId)).length = session.indices.length := by
  rw [parts_eq (h.lookup_isSome hcomplete), length_map]

theorem OpenSound.parts_latest :
    session.indices.map (lastAccepted s.accepted sessionId) = (session.parts (s.sessionDir sessionId)).map some := by
  rw [parts_eq (h.lookup_isSome hcomplete), map_map]
  apply map_congr_left
  intro i hi
  obtain ⟨part, hpart⟩ := Option.isSome_iff_exists.mp (h.lookup_isSome hcomplete i hi)
  rw [← h.latest i (hcomplete i hi), comp_apply, hpart]
  rfl

theorem OpenSound.length_flatten : (session.parts (s.sessionDir sessionId)).flatten.length = session.receivedBytes := by
  have hset : session.receivedChunks = session.indices.toFinset := by
    ext i
    rw [mem_toFinset]
    exact ⟨fun hi => mem_indices.mpr (h.inRange i hi), hcomplete i⟩
  have hsize : (fun i => ((s.sessionDir sessionId).lookup i).getD [] |>.length) = sizeOf (s.sessionDir sessionId) := by
    funext i
    rw [sizeOf]
    cases (s.sessionDir sessionId).lookup i with
    | none | some part => rfl
  rw [parts_eq (h.lookup_isSome hcomplete), List.length_flatten, List.map_map, h.counted, recalculateReceivedBytes, hset,
    List.sum_toFinset _ (nodup_indices session), ← hsize]
  rfl

end Assembly
end Steps
section Runs
variable {settings : Settings} {s s' : Store} {now : ℚ} {call : Call} {outcome : Except UploadSessionError Answer}

variable {sessionId : ℕ} {ownerId : String} {session : UploadSession} {l : TimedCall}

theorem IsActive.sound (hs : Good settings s)
    (h : IsActive s now sessionId ownerId session) : Sound settings s sessionId session := hs.sound _ _ h.kept

theorem Acts.good (hs : Good settings s) (h : Acts settings s now call outcome s') : Good settings s' := by
  cases h with
  | refused | looked | finalizedBefore => exact hs
  | expired hsession hexpired => exact hs.purge _
  | purged habandoned => exact hs.purge_all _
  | @created ownerId filename contentType session totalChunks hnamed hsize hpositive hfresh hbytes hchunks =>
    have hborn := hs.unborn s.created le_rfl
    refine ⟨fun other hother => ?_, fun other session' hother => ?_, hs.once⟩
    · have hne : other ≠ s.created := by
        change s.created + 1 ≤ other at hother
        omega
      have hold := hs.unborn other (le_of_lt hother)
      exact ⟨(update_of_ne hne ..).trans hold.1, hold.2⟩
    · change session' ∈ update s.sessions s.created (some session) other at hother
      by_cases hsame : other = s.created
      · subst hsame
        rw [update_self] at hother
        cases hother
        refine ⟨hnamed, (by omega), fun _ => ?_, fun hcompleted => ?_⟩
        · refine ⟨fun i => ?_, ?_, ?_, ?_, hborn.2⟩
          · simp [hchunks, Store.put]
          · simp [hchunks, hbytes, recalculateReceivedBytes]
          · simp [hchunks]
          · simp [hchunks]
        · rw [hfresh] at hcompleted
          cases hcompleted
      · rw [update_of_ne hsame] at hother
        exact (hs.sound other session' hother).of_same (update_of_ne hsame ..) (fun _ => rfl) fun _ _ => Iff.rfl
  | @saved sessionId ownerId session index data hactive hopened hrange hfits =>
    have hsound := hactive.sound hs
    refine hs.put hactive.kept rfl rfl rfl (fun other hother i => ?_) (fun _ _ => Iff.rfl) hs.once ?_
    · exact lastAccepted_cons_ne _ fun heq => hother heq.1.symm
    · refine ⟨hsound.named, hfits, fun _ => ?_, fun hcompleted => ?_⟩
      · exact (hsound.opened hopened).saved hrange (update_self ..) rfl rfl
      · exact absurd (hopened.symm.trans hcompleted) (by decide)
  | @rolledBack sessionId ownerId session index data removed hactive hopened hlarge hremoved =>
    have hsound := hactive.sound hs
    have hopen := hsound.opened hopened
    subst hremoved
    refine hs.put hactive.kept rfl rfl rfl (fun _ _ _ => rfl) (fun _ _ => Iff.rfl) hs.once ?_
    refine ⟨hsound.named, ?_, fun _ => ?_, fun hcompleted => ?_⟩
    · rw [received_discard]
      have hle : ∑ i ∈ session.receivedChunks.erase index, sizeOf (s.sessionDir sessionId) i ≤ session.receivedBytes := by
        rw [hopen.counted]
        exact Finset.sum_le_sum_of_subset (Finset.erase_subset _ _)
      have hsmall := hsound.small
      omega
    · exact hopen.rolledBack (update_self ..) rfl rfl
    · exact absurd (hopened.symm.trans hcompleted) (by decide)
  | @truncated sessionId ownerId session artifact hactive hopened hcomplete hmissing =>
    have hall := ((hactive.sound hs).opened hopened).length_parts hcomplete
    omega
  | @finalized sessionId ownerId session done artifact hactive hopened hcomplete hsize hsession hdata hdone =>
    have hsound := hactive.sound hs
    have hopen := hsound.opened hopened
    refine hs.put hactive.kept rfl rfl rfl (fun _ _ _ => rfl) (fun other hother => ?_) ?_ ?_
    · have hne : other ≠ artifact := fun heq => hother (heq ▸ hsession)
      simp [hne]
    · change ((s.artifacts ++ [artifact]).map Artifact.sessionId).Nodup
      rw [map_append, map_singleton]
      apply hs.once.append (nodup_singleton _)
      rw [disjoint_singleton, mem_map]
      rintro ⟨other, hmem, hsame⟩
      exact hopen.unassembled other hmem (hsame.trans hsession)
    · subst hdone
      refine ⟨hsound.named, hsound.small, fun hopened' => (by cases hopened'), fun _ => ?_⟩
      refine ⟨artifact, mem_append_right _ (mem_singleton_self _), rfl, hsession, ?_⟩
      rw [hdata, hopen.length_flatten hcomplete]

theorem Step.good (h : Step settings s l s') (hs : Good settings s) : Good settings s' := by
  unfold Step step at h
  split at h
  · cases h
    exact ((perform_acts l.call).good hs).tick
  · cases h

theorem LeavesAsWas.refl (s : Store) (now : ℚ) : LeavesAsWas s s now := ⟨rfl, fun _ => .inl ⟨rfl, fun _ => rfl⟩⟩

theorem Acts.leavesAsWas {e : UploadSessionError} (hs : Good settings s) (h : Acts settings s now call (.error e) s')
    (hfits : ∀ post, Fits settings ⟨s, ⟨now, call⟩, post⟩) : LeavesAsWas s s' now := by
  cases h with
  | refused => exact LeavesAsWas.refl s now
  | @expired _ _ sessionId session hsession hexpired =>
    refine ⟨rfl, fun other => ?_⟩
    by_cases hsame : other = sessionId
    · subst hsame
      exact .inr ⟨⟨session, hsession, hexpired⟩, purge_sessions_self⟩
    · refine .inl ⟨purge_sessions_ne hsame, fun i => ?_⟩
      rw [purge_sessionDir_ne hsame]
  | @truncated sessionId ownerId session artifact hactive hopened hcomplete hmissing =>
    have hall := ((hactive.sound hs).opened hopened).length_parts hcomplete
    omega
  | @rolledBack sessionId ownerId session index data removed hactive hopened hlarge hremoved =>
    have hopen := (hactive.sound hs).opened hopened
    subst hremoved
    have hnew : index ∉ session.receivedChunks := by
      intro hmem
      have hroom : FitsAgain settings s now sessionId ownerId index data := hfits s
      have hroom := hroom session hactive.kept hactive.inTime hactive.someone hactive.owned hopened hmem
      have hsum := hopen.sum_erase hmem
      rw [received_add] at hlarge
      rw [Nat.cast_add] at hlarge
      omega
    have hfile : index ∉ s.sessionDir sessionId := fun hmem => hnew ((hopen.files index).mp hmem)
    -- The rollback undoes what the call has done itself.
    have hsession : ((session.add index).discard index).recount
        (((s.sessionDir sessionId).insert index data).erase index) = session := by
      have hbytes := received_discard session index data (s.sessionDir sessionId)
      rw [Finset.erase_eq_of_notMem hnew] at hbytes
      have hchunks : (insert index session.receivedChunks).erase index = session.receivedChunks :=
        Finset.erase_insert hnew
      have hsame : ∀ chunks bytes, chunks = session.receivedChunks → bytes = session.receivedBytes →
          { session with receivedChunks := chunks, receivedBytes := bytes } = session := by
        intro chunks bytes hc hb
        rw [hc, hb]
      exact hsame _ _ hchunks (hbytes.trans hopen.counted.symm)
    refine ⟨rfl, fun other => .inl ?_⟩
    by_cases hsame : other = sessionId
    · subst hsame
      refine ⟨?_, fun i => ?_⟩
      · rw [put_sessions_self, hsession]
        exact hactive.kept.symm
      · rw [put_sessionDir_self]
        by_cases hi : i = index
        · rw [hi, AList.lookup_erase, AList.lookup_eq_none.mpr hfile]
        · rw [AList.lookup_erase_ne hi, AList.lookup_insert_ne hi]
    · refine ⟨put_sessions_ne hsame, fun i => ?_⟩
      rw [put_sessionDir_ne hsame]

theorem not_leavesAsWas {index : ℤ} {data : Bytes}
    (hs : Good settings s) (hactive : IsActive s now sessionId ownerId session) (hopened : session.completed = false)
    (hmem : index ∈ session.receivedChunks) (hlarge : settings.maxUploadBytes <
      (session.receivedBytes : ℤ) - sizeOf (s.sessionDir sessionId) index + data.length) :
    (∃ e, (saveChunk settings s now sessionId ownerId index data).1 = .error e) ∧
      ¬ LeavesAsWas s (saveChunk settings s now sessionId ownerId index data).2 now := by
  have hsound := hactive.sound hs
  have hopen := hsound.opened hopened
  have hsum := hopen.sum_erase hmem
  have hrange := hopen.inRange index hmem
  have hdata : data ≠ [] := by
    rintro rfl
    have hsmall := hsound.small
    simp only [length_nil] at hlarge
    omega
  have hcount : settings.maxUploadBytes <
      ((session.add index).recount ((s.sessionDir sessionId).insert index data)).receivedBytes := by
    rw [received_add]
    rw [Nat.cast_add]
    omega
  have hguard : ¬ (ownerId = "" ∨ session.ownerId ≠ ownerId) := by
    simp [hactive.someone, hactive.owned]
  have hactive' : requireActiveSession s now sessionId ownerId = (.ok session, s) := by
    have hsession : s.sessions sessionId = some session := hactive.kept
    simp only [requireActiveSession, hsession, if_neg hactive.inTime, if_neg hguard]
  have hrun : saveChunk settings s now sessionId ownerId index data =
      (.error .file_too_large, s.put sessionId
        ((((session.add index).recount ((s.sessionDir sessionId).insert index data)).discard index).recount
          (((s.sessionDir sessionId).insert index data).erase index))
        (((s.sessionDir sessionId).insert index data).erase index)) := by
    have hindex : ¬ (index < 0 ∨ session.totalChunks ≤ index) := by omega
    simp only [saveChunk, hactive', hopened, Bool.false_eq_true, if_false, if_neg hindex, if_neg hdata, if_pos hcount]
  rw [hrun]
  refine ⟨⟨_, rfl⟩, fun hleaves => ?_⟩
  rcases hleaves.2 sessionId with ⟨-, hfiles⟩ | ⟨⟨session', hsession', hexpired⟩, -⟩
  · have hgone := hfiles index
    rw [put_sessionDir_self, AList.lookup_erase] at hgone
    exact AList.lookup_eq_none.mp hgone.symm ((hopen.files index).mpr hmem)
  · rw [hactive.kept] at hsession'
    cases hsession'
    exact hactive.inTime hexpired

theorem Acts.artifacts (h : Acts settings s now call outcome s')
    (hcall : ∀ sessionId ownerId, call ≠ .finalize sessionId ownerId) : s'.artifacts = s.artifacts := by
  cases h with
  | truncated | finalized => exact absurd rfl (hcall _ _)
  | @purged _ _ ids habandoned =>
    have hpurge : ∀ (ids : List ℕ) (s : Store), (ids.foldl Store.purge s).artifacts = s.artifacts := by
      intro ids
      induction ids with
      | nil => exact fun _ => rfl
      | cons sessionId ids ih => exact fun s => ih (s.purge sessionId)
    exact hpurge ids s
  | _ => rfl

theorem Acts.finalizes {session' : UploadSession} (hs : Good settings s)
    (h : Acts settings s now (.finalize sessionId ownerId) (.ok (.session session')) s') :
    ∃ session ∈ s.sessions sessionId, (session.completed = true ∧ s'.artifacts = s.artifacts) ∨
      (session.completed = false ∧ ∃ artifact, IsAssembled s.accepted session artifact ∧
        s'.artifacts = s.artifacts ++ [artifact] ∧ session'.artifactId = some artifact.artifactId) := by
  cases h with
  | finalizedBefore hactive hclosed => exact ⟨session', hactive.kept, .inl ⟨hclosed, rfl⟩⟩
  | @finalized _ _ session _ artifact hactive hopened hcomplete hsize hsession hdata hdone =>
    have hsound := hactive.sound hs
    have hopen := hsound.opened hopened
    refine ⟨session, hactive.kept, .inr ⟨hopened, artifact, ⟨hsession.trans hsound.named.symm, ?_⟩, rfl, ?_⟩⟩
    · refine ⟨session.parts (s.sessionDir sessionId), ?_, hdata, ?_⟩
      · rw [hsound.named]
        exact hopen.parts_latest hcomplete
      · rw [hdata, hopen.length_flatten hcomplete]
        exact hsize
    · rw [hdone]

theorem Step.isExact_iff (h : Step settings s l s') (hs : Good settings s) :
    IsExact settings ⟨s, l, s'⟩ ↔ Fits settings ⟨s, l, s'⟩ := by
  have hgood := h.good hs
  unfold Step step at h
  split at h
  case isFalse => cases h
  cases h
  have hacts := @perform_acts settings s l.time l.call
  constructor
  · intro hexact
    unfold Fits
    split
    case h_2 => trivial
    rename_i sessionId ownerId index data hcall
    intro session hsession hinTime hsomeone howned hopened hmem
    by_contra hlarge
    have hactive : IsActive s l.time sessionId ownerId session := ⟨hsession, hinTime, hsomeone, howned⟩
    obtain ⟨⟨e, he⟩, hlost⟩ := not_leavesAsWas hs hactive hopened hmem (not_le.mp hlarge)
    have hperform : perform settings s l.time l.call =
        (saveChunk settings s l.time sessionId ownerId index data).map (·.map .session) id := by
      dsimp only at hcall
      rw [hcall]
      rfl
    have hleaves := hexact.failsCleanly e (by
      dsimp only
      rw [hperform, Prod.map_fst, he]
      rfl)
    apply hlost
    dsimp only at hleaves
    rw [hperform] at hleaves
    exact hleaves
  · intro hfits
    refine ⟨fun e he => ?_, fun sessionId session hsession => ?_, fun sessionId ownerId session' hcall hok => ?_,
      fun hcall => hacts.artifacts hcall, hgood.once⟩
    · have hall : ∀ post, Fits settings ⟨s, ⟨l.time, l.call⟩, post⟩ := fun _ => hfits
      dsimp only at he
      rw [he] at hacts
      have hleaves := hacts.leavesAsWas hs hall
      exact hleaves
    · have hsound := hgood.sound sessionId session hsession
      exact ⟨hsound.isStored, hsound.small⟩
    · dsimp only at hcall hok
      rw [hok, hcall] at hacts
      rw [hcall]
      have hfinalizes := hacts.finalizes hs
      exact hfinalizes

/-- A run of calls is exact and fails cleanly exactly when no received chunk is sent again with data that does not fit
in its place. -/
theorem uploads_exact_iff {now : ℚ} {tr : List (Transition Store TimedCall)} {s' : Store}
    (h : Run (Step settings) (Store.fresh now) tr s') :
    (∀ t ∈ tr, IsExact settings t) ↔ ∀ t ∈ tr, Fits settings t := by
  have hgood : ∀ t ∈ tr, Good settings t.pre := fun t ht =>
    (h.invariant_at (C := fun _ => True) Good.fresh (fun _ _ => trivial) (fun _ hstep _ hpre => hstep.good hpre) ht).1
  have hiff : ∀ t ∈ tr, (IsExact settings t ↔ Fits settings t) := fun t ht =>
    Step.isExact_iff (h.step_of_mem ht) (hgood t ht)
  exact ⟨fun hexact t ht => (hiff t ht).mp (hexact t ht), fun hfits t ht => (hiff t ht).mpr (hfits t ht)⟩

def demoSettings : Settings where
  allowedContentTypes := ["image/png"]
  maxUploadBytes := 10
  sessionTtlSeconds := 60

def demoCalls : List TimedCall :=
  [⟨0, .createSession "owner" "photos/front.png" "image/png" 4 2⟩, ⟨1, .saveChunk 0 "owner" 1 [3, 4]⟩,
    ⟨2, .saveChunk 0 "owner" 0 [1]⟩, ⟨3, .finalize 0 "owner"⟩, ⟨4, .saveChunk 0 "owner" 0 [1, 2]⟩,
    ⟨5, .finalize 0 "owner"⟩, ⟨6, .finalize 0 "owner"⟩]

theorem uploads_exact_demo :
    (play (step demoSettings) (Store.fresh 0) demoCalls).2.artifacts = [⟨0, "front.png", 0, [1, 2, 3, 4]⟩] ∧
      ∀ t ∈ (play (step demoSettings) (Store.fresh 0) demoCalls).1, IsExact demoSettings t := by
  refine ⟨by decide +kernel, (uploads_exact_iff (play_run (fun _ _ _ h => h) _ _)).mpr ?_⟩
  decide +kernel

def lostCalls : List TimedCall :=
  [⟨0, .createSession "owner" "photos/front.png" "image/png" 4 2⟩, ⟨1, .saveChunk 0 "owner" 0 [1, 2]⟩,
    ⟨2, .saveChunk 0 "owner" 0 (replicate 11 0)⟩]

theorem received_chunk_lost : ∃ tr s, Run (Step demoSettings) (Store.fresh 0) tr s ∧ ¬ ∀ t ∈ tr, IsExact demoSettings t := by
  refine ⟨_, _, play_run (fun _ _ _ h => h) lostCalls _, fun hexact => ?_⟩
  have hlast : ((play (step demoSettings) (Store.fresh 0) lostCalls).1[2]?.map fun t =>
      ((perform demoSettings t.pre t.label.time t.label.call).1, (t.pre.sessionDir 0).lookup 0,
        (t.post.sessionDir 0).lookup 0, (t.post.sessions 0).isSome)) =
      some (.error .file_too_large, some [1, 2], none, true) := by
    decide +kernel
  obtain ⟨t, ht, hlast⟩ := Option.map_eq_some_iff.mp hlast
  simp only [Prod.mk.injEq] at hlast
  obtain ⟨hraised, hbefore, hafter, hthere⟩ := hlast
  rcases ((hexact t (mem_of_getElem? ht)).failsCleanly _ hraised).2 0 with ⟨-, hfiles⟩ | ⟨-, hpurged⟩
  · have hsame := hfiles 0
    rw [hafter, hbefore] at hsame
    cases hsame
  · rw [hpurged] at hthere
    cases hthere

end Runs
end Soter.AiUploads
