import Soter.Review.Locks

/-! Mutual exclusion of reviewers: when the locks of an entity belong to one of them. -/
namespace Soter.Review
open Soter.Tasks Soter.Runs List Task.Asks

variable {s s' : Store} {l l' : ReviewLock} {e : Entity} {u u' : ReviewerId} {q : LockQuery}

/-- The row holds the entity at time `t`. -/
structure ReviewLock.Holds (l : ReviewLock) (e : Entity) (t : Time) : Prop where
  active : l.status = .active
  entity : l.entity = e
  unexpired : t < l.expiresAt

theorem ReviewLock.Holds.earlier {t t' : Time} (h : l.Holds e t') (ht : t ≤ t') : l.Holds e t :=
  ⟨h.active, h.entity, Int.lt_of_le_of_lt ht h.unexpired⟩

theorem heldWhere_selects {t : Time} : (heldWhere e t).selects l = true ↔ l.Holds e t := by
  simp only [LockWhere.selects, heldWhere, Option.mem_def, Option.some.injEq, reduceCtorEq,
    false_imp_iff, forall_const, true_and, and_true, decide_eq_true_eq, forall_eq']
  exact ⟨fun h => ⟨h.1, h.2.1, h.2.2⟩, fun h => ⟨h.active, h.entity, h.unexpired⟩⟩

def Store.HeldBy (s : Store) (e : Entity) (u : ReviewerId) : Prop :=
  ∃ l ∈ s.locks, l.Holds e s.now ∧ l.lockedBy = u

def Exclusive (s : Store) : Prop := ∀ e u u', s.HeldBy e u → s.HeldBy e u' → u = u'

/-- A call of `verifyLockOwnership` on the store as it is can succeed. -/
def Verifies (s : Store) (e : Entity) (u : ReviewerId) : Prop :=
  ∃ ctx result, ((verifyLockOwnership e u ctx).alone perform s).1 = .ok result ∧
    result.success = true

theorem verifyFound_alone (found : Option ReviewLock) :
    (∃ result, ((verifyFound u found).alone perform s).1 = .ok result ∧ result.success = true) ↔
      ∃ l, found = some l ∧ l.lockedBy = u := by
  cases found with
  | none =>
    constructor
    · rintro ⟨result, hresult, hsuccess⟩
      cases hresult
      cases hsuccess
    · rintro ⟨l, hl, -⟩
      cases hl
  | some l =>
    by_cases hby : l.lockedBy = u
    · rw [verifyFound, if_neg (not_ne_iff.mpr hby)]
      exact ⟨fun _ => ⟨l, rfl, hby⟩, fun _ => ⟨_, rfl, rfl⟩⟩
    · rw [verifyFound, if_pos hby]
      constructor
      · rintro ⟨result, hresult, hsuccess⟩
        cases hresult
        cases hsuccess
      · rintro ⟨l', hl', hby'⟩
        cases hl'
        exact absurd hby' hby

theorem verifies_iff : Verifies s e u ↔ s.HeldBy e u := by
  have hrun (ctx : LockContext) : (verifyLockOwnership e u ctx).alone perform s =
      (verifyFound u (perform (.findFirst (heldWhere e s.now) ctx.pick) s).1).alone perform s := rfl
  constructor
  · rintro ⟨ctx, hctx⟩
    rw [hrun] at hctx
    obtain ⟨l, hl, hby⟩ := (verifyFound_alone _).mp hctx
    have hmem := mem_filter.mp (mem_of_getElem? hl)
    exact ⟨l, hmem.1, heldWhere_selects.mp hmem.2, hby⟩
  · rintro ⟨l, hmem, hholds, hby⟩
    have hfound : l ∈ s.locks.filter (heldWhere e s.now).selects :=
      mem_filter.mpr ⟨hmem, heldWhere_selects.mpr hholds⟩
    obtain ⟨pick, hpick, hl⟩ := getElem_of_mem hfound
    refine ⟨{ pick := pick }, ?_⟩
    rw [hrun]
    apply (verifyFound_alone _).mpr
    refine ⟨l, ?_, hby⟩
    rw [perform, Nat.mod_eq_of_lt hpick, getElem?_eq_getElem hpick, hl]

def OneReviewer (s : Store) : Prop := ∀ e u u', Verifies s e u → Verifies s e u' → u = u'

theorem oneReviewer_iff : OneReviewer s ↔ Exclusive s := by
  simp only [OneReviewer, Exclusive, verifies_iff]

theorem now_le_perform (q : LockQuery) (s : Store) : s.now ≤ (perform q s).2.now := by
  have hupdate : ∀ id f, (s.update id f).2.now = s.now := by
    intro id f
    unfold Store.update
    split <;> rfl
  cases q with
  | elapse d => exact Int.le_add_of_nonneg_right (Int.natCast_nonneg d)
  | create newId new =>
    rw [perform]
    split <;> exact le_rfl
  | extend id expiresAt | release id releasedAt reason => exact (hupdate id _).ge
  | _ => exact le_rfl

theorem mem_update {id : LockId} {f : ReviewLock → ReviewLock} (h : l' ∈ (s.update id f).2.locks) :
    l' ∈ s.locks ∨ ∃ l ∈ s.locks, l.id = id ∧ l' = f l := by
  unfold Store.update at h
  split at h
  · exact .inl h
  · obtain ⟨l, hl, rfl⟩ := mem_map.mp h
    split
    · rename_i hid
      exact .inr ⟨l, hl, hid, rfl⟩
    · exact .inl hl

theorem mem_perform (hmem : l' ∈ (perform q s).2.locks) (hactive : l'.status = .active) : l' ∈ s.locks ∨
      (∃ newId new, q = .create newId new ∧ (∀ l ∈ s.locks, l.id ≠ newId) ∧ l' = new.row newId) ∨
      ∃ id expiresAt l, q = .extend id expiresAt ∧ l ∈ s.locks ∧ l.id = id ∧
        l' = { l with expiresAt := expiresAt, version := l.version + 1 } := by
  cases q with
  | create newId new =>
    rw [perform] at hmem
    split at hmem
    · exact .inl hmem
    · rename_i hfresh
      rcases mem_append.mp hmem with hmem | hmem
      · exact .inl hmem
      · refine .inr (.inl ⟨newId, new, rfl, ?_, mem_singleton.mp hmem⟩)
        simpa using hfresh
  | extend id expiresAt =>
    rcases mem_update hmem with hmem | ⟨l, hl, hid, rfl⟩
    · exact .inl hmem
    · exact .inr (.inr ⟨id, expiresAt, l, rfl, hl, hid, rfl⟩)
  | release id releasedAt reason =>
    rcases mem_update hmem with hmem | ⟨l, hl, hid, rfl⟩
    · exact .inl hmem
    · cases hactive
  | forceExpire w releasedAt reason =>
    obtain ⟨l, hl, rfl⟩ := mem_map.mp hmem
    split at hactive
    · cases hactive
    · rename_i hnot
      rw [if_neg hnot]
      exact .inl hl
  | clock | elapse d | findFirst w pick | findUnique id | record outcome => exact .inl hmem

/-- The request makes a row of `u` hold `e`. -/
def LockQuery.Revives (q : LockQuery) (s : Store) (e : Entity) (u : ReviewerId) : Prop :=
  match q with
  | .create newId new => (∀ l ∈ s.locks, l.id ≠ newId) ∧ (new.row newId).Holds e s.now ∧ new.lockedBy = u
  | .extend id expiresAt => s.now < expiresAt ∧
      ∃ l ∈ s.locks, l.id = id ∧ l.status = .active ∧ l.entity = e ∧ l.lockedBy = u
  | _ => False

theorem heldBy_perform (h : (perform q s).2.HeldBy e u) : s.HeldBy e u ∨ q.Revives s e u := by
  obtain ⟨l', hmem, hholds, hby⟩ := h
  have hnow := hholds.earlier (now_le_perform q s)
  rcases mem_perform hmem hholds.active with hmem | ⟨newId, new, rfl, hfresh, rfl⟩ |
    ⟨id, expiresAt, l, rfl, hl, hid, rfl⟩
  · exact .inl ⟨l', hmem, hnow, hby⟩
  · exact .inr ⟨hfresh, hnow, hby⟩
  · exact .inr ⟨hnow.unexpired, l, hl, hid, hnow.active, hnow.entity, hby⟩

theorem LockQuery.Revives.heldBy (h : q.Revives s e u) : (perform q s).2.HeldBy e u ∧
    ∀ u', s.HeldBy e u' → (perform q s).2.HeldBy e u' := by
  cases q with
  | create newId new =>
    obtain ⟨hfresh, hholds, hby⟩ := h
    have hnew : s.locks.any (·.id = newId) = false := by simpa using hfresh
    rw [perform, hnew]
    constructor
    · exact ⟨new.row newId, mem_append_right _ (mem_singleton_self _), hholds, hby⟩
    · rintro u' ⟨l, hl, hl', hby'⟩
      exact ⟨l, mem_append_left _ hl, hl', hby'⟩
  | extend id expiresAt =>
    obtain ⟨hlive, l, hl, hid, hactive, hentity, hby⟩ := h
    have hfound : ∃ found, s.locks.find? (·.id = id) = some found := by
      apply Option.isSome_iff_exists.mp
      rw [find?_isSome]
      exact ⟨l, hl, by simpa using hid⟩
    obtain ⟨found, hfound⟩ := hfound
    rw [perform, Store.update, hfound]
    constructor
    · refine ⟨_, mem_map_of_mem hl, ?_, ?_⟩
      · rw [if_pos hid]
        exact ⟨hactive, hentity, hlive⟩
      · rw [if_pos hid]
        exact hby
    · rintro u' ⟨l', hl', hholds', hby'⟩
      refine ⟨_, mem_map_of_mem hl', ?_, ?_⟩
      · split
        · exact ⟨hholds'.active, hholds'.entity, hlive⟩
        · exact hholds'
      · split
        · exact hby'
        · exact hby'
  | _ => cases h

def Store.Keyed (s : Store) : Prop := (s.locks.map (·.id)).Nodup

theorem keyed_perform (h : s.Keyed) : (perform q s).2.Keyed := by
  have hmap : ∀ f : ReviewLock → ReviewLock, (∀ l, (f l).id = l.id) → ((s.locks.map f).map (·.id)).Nodup := by
    intro f hf
    simpa [Store.Keyed, map_map, Function.comp_def, hf] using h
  have hupdate : ∀ id f, (∀ l, (f l).id = l.id) → (s.update id f).2.Keyed := by
    intro id f hf
    unfold Store.update
    split
    · exact h
    · apply hmap
      intro l
      split
      · exact hf l
      · rfl
  cases q with
  | create newId new =>
    rw [perform]
    split
    · exact h
    · rename_i hfresh
      rw [Store.Keyed, map_append, nodup_append]
      refine ⟨h, nodup_singleton _, ?_⟩
      intro a ha b hb hab
      obtain ⟨l, hl, rfl⟩ := mem_map.mp ha
      rw [map_singleton, mem_singleton] at hb
      apply hfresh
      rw [any_eq_true]
      exact ⟨l, hl, decide_eq_true (hab.trans hb)⟩
  | extend id expiresAt | release id releasedAt reason => exact hupdate id _ fun _ => rfl
  | forceExpire w releasedAt reason =>
    apply hmap
    intro l
    split <;> rfl
  | _ => exact h

theorem LockQuery.Revives.same (hkeyed : s.Keyed) (h : q.Revives s e u) (h' : q.Revives s e u') : u = u' := by
  cases q with
  | create newId new => exact h.2.2.symm.trans h'.2.2
  | extend id expiresAt =>
    obtain ⟨-, l, hl, hid, -, -, hby⟩ := h
    obtain ⟨-, l', hl', hid', -, -, hby'⟩ := h'
    cases inj_on_of_nodup_map hkeyed hl hl' (hid.trans hid'.symm)
    exact hby.symm.trans hby'
  | _ => cases h

theorem exclusive_perform_iff (hkeyed : s.Keyed) (h : Exclusive s) : Exclusive (perform q s).2 ↔
    ∀ e u, q.Revives s e u → ∀ u', s.HeldBy e u' → u' = u := by
  constructor
  · intro hpost e u hrevives u' hheld
    obtain ⟨hnew, hothers⟩ := hrevives.heldBy
    exact hpost e u' u (hothers u' hheld) hnew
  · intro hC e u u' hu hu'
    rcases heldBy_perform hu with hu | hu <;> rcases heldBy_perform hu' with hu' | hu'
    · exact h e u u' hu hu'
    · exact hC e u' hu' u hu
    · exact (hC e u hu u' hu').symm
    · exact hu.same hkeyed hu'

section Bodies
variable {α : Type} {new : NewLock}

def NoCreate : LockQuery → Prop
  | .create .. => False
  | _ => True

/-- The handler goes on to create `new` without another look at the locks, and creates no other. -/
inductive BoundTo (new : NewLock) : LockHandler α → Prop
  | create {newId : LockId} {next : Except Failure ReviewLock → LockHandler α}
      (after : ∀ result, (next result).Asks NoCreate) : BoundTo new (.ask (.create newId new) next)
  | clock {next : Time → LockHandler α} (after : ∀ now, BoundTo new (next now)) :
      BoundTo new (.ask .clock next)
  | forceExpire {w : LockWhere} {releasedAt : Time} {reason : String} {next : ℕ → LockHandler α}
      (after : ∀ count, BoundTo new (next count)) :
      BoundTo new (.ask (.forceExpire w releasedAt reason) next)

/-- The handler is about to look for a row that holds an entity, with the time it has read; it is
bound to create one if there is none, and creates none otherwise. -/
def Checks (now : Time) (t : LockHandler α) : Prop :=
  ∃ new pick next, t = .ask (.findFirst (heldWhere new.entity now) pick) next ∧
    BoundTo new (next none) ∧ ∀ l, (next (some l)).Asks NoCreate

theorem asks_clock : clock.Asks NoCreate := ⟨trivial, fun _ => trivial⟩

theorem asks_findFirst (w : LockWhere) (pick : ℕ) : (findFirst w pick).Asks NoCreate :=
  ⟨trivial, fun _ => trivial⟩

theorem asks_findUnique (id : LockId) : (findUnique id).Asks NoCreate :=
  ⟨trivial, fun _ => trivial⟩

theorem asks_record (outcome : Except Failure Unit) : (record outcome).Asks NoCreate :=
  ⟨trivial, fun _ => trivial⟩

theorem asks_releaseRow (id : LockId) (releasedAt : Time) (reason : String) :
    (releaseRow id releasedAt reason).Asks NoCreate :=
  ⟨trivial, fun _ => trivial⟩

theorem asks_forceExpire (w : LockWhere) (releasedAt : Time) (reason : String) :
    (forceExpire w releasedAt reason).Asks NoCreate :=
  ⟨trivial, fun _ => trivial⟩

theorem asks_buildLockInfo (l : ReviewLock) : (buildLockInfo l).Asks NoCreate :=
  bind_done asks_clock

theorem asks_buildConflictResponse (l : ReviewLock) : (buildConflictResponse l).Asks NoCreate :=
  bind_done asks_clock

theorem asks_refreshExistingLock (id : LockId) (durationSeconds : Option ℕ) :
    (refreshExistingLock id durationSeconds).Asks NoCreate := by
  refine bind (fun now => ?_) asks_clock
  exact ⟨trivial, fun _ => trivial⟩

theorem asks_cleanupStaleLocks (entity : Entity) : (cleanupStaleLocks entity).Asks NoCreate :=
  bind (fun _ => asks_forceExpire _ _ _) asks_clock

theorem asks_releaseLock (lockId : LockId) (reviewerId : ReviewerId) (ctx : LockContext) :
    (releaseLock lockId reviewerId ctx).Asks NoCreate := by
  refine bind (fun found => ?_) (asks_findUnique lockId)
  cases found with
  | none => trivial
  | some lock =>
    refine Task.asks_ite (fun _ => trivial) fun _ => ?_
    refine Task.asks_ite (fun _ => ?_) fun _ => ?_
    · exact bind_done (asks_buildConflictResponse lock)
    · refine bind (fun now => ?_) asks_clock
      refine bind (fun _ => ?_) (asks_releaseRow lockId now "manual")
      exact bind_done (asks_record ctx.audit)

theorem asks_refreshLock (lockId : LockId) (durationSeconds : Option ℕ) (reviewerId : ReviewerId)
    (ctx : LockContext) : (refreshLock lockId durationSeconds reviewerId ctx).Asks NoCreate := by
  refine bind (fun found => ?_) (asks_findUnique lockId)
  cases found with
  | none => trivial
  | some lock =>
    refine Task.asks_ite (fun _ => trivial) fun _ => ?_
    refine Task.asks_ite (fun _ => ?_) fun _ => ?_
    · exact bind_done (asks_buildConflictResponse lock)
    · refine bind (fun refreshed => ?_) (asks_refreshExistingLock lock.id durationSeconds)
      refine bind (fun _ => ?_) (asks_record ctx.audit)
      exact bind_done (asks_buildLockInfo refreshed)

theorem asks_verifyFound (reviewerId : ReviewerId) (found : Option ReviewLock) :
    (verifyFound reviewerId found).Asks NoCreate := by
  cases found with
  | none => trivial
  | some lock =>
    rw [verifyFound]
    split
    · exact bind_done (asks_buildConflictResponse lock)
    · exact bind_done (asks_buildLockInfo lock)

theorem asks_releaseLockForReview (entity : Entity) (reviewerId : ReviewerId) (ctx : LockContext) :
    (releaseLockForReview entity reviewerId ctx).Asks NoCreate := by
  refine bind (fun now => ?_) asks_clock
  refine bind (fun found => ?_) (asks_findFirst _ ctx.pick)
  cases found with
  | none => trivial
  | some lock =>
    refine bind (fun releasedAt => ?_) asks_clock
    refine bind (fun _ => ?_) (asks_releaseRow lock.id releasedAt "review_completed")
    exact asks_record ctx.audit

theorem asks_recoverStaleLocks (ctx : LockContext) : (recoverStaleLocks ctx).Asks NoCreate := by
  refine bind (fun now => ?_) asks_clock
  refine bind (fun count => ?_) (asks_forceExpire _ now "stale_lock_recovery")
  split
  · exact bind_done (asks_record ctx.audit)
  · trivial

theorem asks_getLockStatus (entity : Entity) (ctx : LockContext) : (getLockStatus entity ctx).Asks NoCreate := by
  refine bind (fun now => ?_) asks_clock
  refine bind (fun _ => ?_) (asks_cleanupStaleLocks entity)
  refine bind (fun found => ?_) (asks_findFirst _ ctx.pick)
  cases found with
  | none => trivial
  | some lock => exact bind_done (asks_buildLockInfo lock)

end Bodies
section Stages
variable {new : NewLock} {t : LockHandler Unit}

/-- Nobody but the reviewer of `new` holds its entity. -/
def Clear (s : Store) (new : NewLock) : Prop := ∀ u, s.HeldBy new.entity u → u = new.lockedBy

/-- Where a call stands: it creates no lock, or it is about to read the time for its check, to make
the check, or to create the lock of an entity that nobody else holds. -/
inductive Stage (s : Store) : LockHandler Unit → Prop
  | free {t : LockHandler Unit} (asks : t.Asks NoCreate) : Stage s t
  | start {next : Time → LockHandler Unit} (checks : ∀ now, Checks now (next now)) :
      Stage s (.ask .clock next)
  | check {t : LockHandler Unit} {now : Time} (checks : Checks now t) (past : now ≤ s.now) : Stage s t
  | bound {t : LockHandler Unit} {new : NewLock} (bound : BoundTo new t) (clear : Clear s new) :
      Stage s t

theorem boundTo_acquireFresh (new : NewLock) (ctx : LockContext) :
    BoundTo new ((acquireFresh new ctx).bind fun _ => (pure () : LockHandler Unit)) := by
  refine BoundTo.clock fun now => BoundTo.forceExpire fun count => BoundTo.create fun result => ?_
  refine bind_done ?_
  refine bind (fun lock => ?_) (Task.asks_done result)
  refine bind (fun _ => ?_) (asks_record ctx.audit)
  exact bind_done (asks_buildLockInfo lock)

theorem stage_body (op : LockOp) (s : Store) : Stage s op.body := by
  cases op with
  | acquire entity durationSeconds reviewerId ctx =>
    refine Stage.start fun now => ?_
    refine ⟨⟨entity, reviewerId, now, now + durationMs durationSeconds⟩, ctx.pick, _, rfl,
      boundTo_acquireFresh _ ctx, fun l => ?_⟩
    refine bind_done ?_
    refine Task.asks_ite (fun _ => ?_) fun _ => ?_
    · refine bind (fun refreshed => ?_) (asks_refreshExistingLock l.id durationSeconds)
      exact bind_done (asks_buildLockInfo refreshed)
    · exact bind_done (asks_buildConflictResponse l)
  | release lockId reviewerId ctx =>
    exact .free (bind_done (asks_releaseLock lockId reviewerId ctx))
  | refresh lockId durationSeconds reviewerId ctx =>
    exact .free (bind_done (asks_refreshLock lockId durationSeconds reviewerId ctx))
  | getStatus entity ctx => exact .free (bind_done (asks_getLockStatus entity ctx))
  | verifyOwnership entity reviewerId ctx =>
    refine .free (bind_done ?_)
    refine bind (fun now => ?_) asks_clock
    exact bind (fun found => asks_verifyFound reviewerId found) (asks_findFirst _ ctx.pick)
  | releaseForReview entity reviewerId ctx =>
    exact .free (asks_releaseLockForReview entity reviewerId ctx)
  | recover ctx => exact .free (bind_done (asks_recoverStaleLocks ctx))
  | elapse d => exact .free ⟨trivial, fun _ => trivial⟩

theorem Clear.perform (h : Clear s new)
    (hother : ∀ u, q.Revives s new.entity u → u = new.lockedBy) : Clear (perform q s).2 new := by
  intro u hheld
  rcases heldBy_perform hheld with hheld | hrevives
  · exact h u hheld
  · exact hother u hrevives

theorem Stage.stays (h : Stage s t) (hbound : ∀ new, BoundTo new t → ∀ u, q.Revives s new.entity u → u = new.lockedBy) :
    Stage (perform q s).2 t := by
  cases h with
  | free asks => exact .free asks
  | start checks => exact .start checks
  | check checks past => exact .check checks (past.trans (now_le_perform q s))
  | bound bound clear => exact .bound bound (clear.perform (hbound _ bound))

theorem Stage.advances {next : q.Reply → LockHandler Unit} (h : Stage s (.ask q next)) :
    Stage (perform q s).2 (next (perform q s).1) := by
  cases h with
  | free asks => exact .free (asks.2 _)
  | start checks => exact .check (checks s.now) (now_le_perform _ s)
  | @check _ now checks past =>
    obtain ⟨new, pick, next', heq, hnone, hsome⟩ := checks
    cases heq
    cases hreply : (perform (.findFirst (heldWhere new.entity now) pick) s).1 with
    | some l => exact .free (hsome l)
    | none =>
      refine .bound hnone fun u hheld => ?_
      -- a holder would have been found
      obtain ⟨l, hl, hholds, -⟩ := hheld
      have hmem : l ∈ s.locks.filter (heldWhere new.entity now).selects :=
        mem_filter.mpr ⟨hl, heldWhere_selects.mpr (hholds.earlier past)⟩
      have hlen := length_pos_of_mem hmem
      have hpick : (s.locks.filter (heldWhere new.entity now).selects).length ≤
          pick % (s.locks.filter (heldWhere new.entity now).selects).length :=
        getElem?_eq_none_iff.mp hreply
      exact absurd (Nat.mod_lt pick hlen) (Nat.not_lt.mpr hpick)
  | bound bound clear =>
    cases bound with
    | create after => exact .free (after _)
    | clock after | forceExpire after => exact .bound (after _) (clear.perform fun _ => nofun)

theorem Stage.clear {newId : LockId} {next : Except Failure ReviewLock → LockHandler Unit}
    (h : Stage s (.ask (.create newId new) next)) : Clear s new := by
  cases h with
  | free asks => exact absurd asks.1 id
  | check checks past =>
    obtain ⟨new', pick, next', heq, -⟩ := checks
    cases heq
  | bound bound clear =>
    cases bound with
    | create after => exact clear

end Stages
section Runs
variable {p p' : LockSystem} {turn : Turn LockOp} {tr : List LockTransition} {s₀ : Store}

def Admitted (p : LockSystem) (turn : Turn LockOp) : Prop :=
  ∀ q, p.asked turn = some q → ∀ e u, q.Revives p.store e u → ∀ u', p.store.HeldBy e u' → u' = u

/-- A row is revived while no other reviewer's call is bound to create a lock of its entity, and a row
whose time is extended has not run out. -/
structure Undisturbed (p : LockSystem) (turn : Turn LockOp) : Prop where
  unbound : ∀ q, p.asked turn = some q → ∀ e u, q.Revives p.store e u →
    ∀ j thread, turn ≠ .advance j → p.threads[j]? = some thread →
      ∀ new, BoundTo new thread.2 → new.entity = e → u = new.lockedBy
  inTime : ∀ id expiresAt, p.asked turn = some (.extend id expiresAt) → ∀ l ∈ p.store.locks,
    l.id = id → l.status = .active → p.store.now < l.expiresAt

theorem keyed_step (hkeyed : p.store.Keyed) (hstep : LockStep p turn p') : p'.store.Keyed := by
  rcases hstep.store with ⟨-, hstore⟩ | ⟨q, -, hstore⟩
  · rw [hstore]
    exact hkeyed
  · rw [hstore]
    exact keyed_perform hkeyed

theorem keyed_run (hkeyed : s₀.Keyed) (hrun : Run LockStep { store := s₀ } tr p) {t : LockTransition}
    (ht : t ∈ tr) : t.pre.store.Keyed ∧ t.post.store.Keyed :=
  hrun.invariant_at (I := fun p => p.store.Keyed) (C := fun _ => True) hkeyed
    (fun _ _ => trivial) (fun _ hstep _ hpre => keyed_step hpre hstep) ht

theorem exclusive_step_iff (hkeyed : p.store.Keyed) (h : Exclusive p.store) (hstep : LockStep p turn p') :
    Exclusive p'.store ↔ Admitted p turn := by
  rcases hstep.store with ⟨hnone, hstore⟩ | ⟨q, hq, hstore⟩
  · rw [hstore, Admitted, hnone]
    exact ⟨fun _ => nofun, fun _ => h⟩
  · rw [hstore, exclusive_perform_iff hkeyed h, Admitted, hq]
    constructor
    · intro hC q' hq'
      cases hq'
      exact hC
    · exact fun hC => hC q rfl

theorem admitted_of_undisturbed (h : Exclusive p.store) (hstages : ∀ thread ∈ p.threads, Stage p.store thread.2)
    (hC : Undisturbed p turn) : Admitted p turn := by
  intro q hq e u hrevives u' hheld
  cases q with
  | create newId new =>
    obtain ⟨-, hholds, hby⟩ := hrevives
    obtain ⟨op, hrequest⟩ := Pool.request_of_asked hq
    obtain ⟨i, next, -, hi⟩ := Pool.request_eq_some hrequest
    have hclear := (hstages _ (mem_of_getElem? hi)).clear
    rw [← hholds.entity] at hheld
    exact (hclear u' hheld).trans hby
  | extend id expiresAt =>
    obtain ⟨-, l, hl, hid, hactive, hentity, hby⟩ := hrevives
    have hlive := hC.inTime id expiresAt hq l hl hid hactive
    exact h e u' u hheld ⟨l, hl, ⟨hactive, hentity, hlive⟩, hby⟩
  | _ => cases hrevives

theorem undisturbed_step (hkeyed : p.store.Keyed) (h : Exclusive p.store ∧ ∀ thread ∈ p.threads, Stage p.store thread.2)
    (hstep : LockStep p turn p') (hC : Undisturbed p turn) :
    Exclusive p'.store ∧ ∀ thread ∈ p'.threads, Stage p'.store thread.2 := by
  refine ⟨(exclusive_step_iff hkeyed h.1 hstep).mpr (admitted_of_undisturbed h.1 h.2 hC), ?_⟩
  rcases hstep.cases with ⟨op, rfl, rfl⟩ | ⟨i, op, q, next, rfl, hi, hrequest, rfl⟩
  · intro thread hthread
    rcases mem_append.mp hthread with hthread | hthread
    · exact h.2 thread hthread
    · rw [mem_singleton.mp hthread]
      exact stage_body op p.store
  · have hasked := Pool.asked_of_request hrequest
    intro thread hthread
    obtain ⟨j, hj⟩ := mem_iff_getElem?.mp hthread
    by_cases hij : j = i
    · subst hij
      have hself : thread = (op, next (perform q p.store).1) := by
        rw [List.getElem?_set_self (List.getElem?_eq_some_iff.mp hi).1] at hj
        exact (Option.some.inj hj).symm
      rw [hself]
      exact (h.2 _ (mem_of_getElem? hi)).advances
    · rw [getElem?_set_ne (Ne.symm hij)] at hj
      refine (h.2 thread (mem_of_getElem? hj)).stays fun new hbound u hrevives => ?_
      have hother : (Turn.advance i : Turn LockOp) ≠ .advance j := fun heq => hij (by cases heq; rfl)
      exact hC.unbound q hasked new.entity u hrevives j thread hother hj new hbound rfl

/-- Over every run of the service: no entity is ever verified for two reviewers if and only if each
row is revived while no other reviewer holds its entity. So it is in every run in which no revival
falls between the check and the creation of another reviewer's call, and rows are extended in time. -/
theorem one_reviewer_iff (hstart : OneReviewer s₀) (hkeyed : s₀.Keyed)
    (hrun : Run LockStep { store := s₀ } tr p) :
    ((∀ t ∈ tr, OneReviewer t.post.store) ↔ ∀ t ∈ tr, Admitted t.pre t.label) ∧
      ((∀ t ∈ tr, Undisturbed t.pre t.label) → ∀ t ∈ tr, OneReviewer t.post.store) := by
  simp only [oneReviewer_iff] at hstart ⊢
  constructor
  · apply hrun.forall_post_iff (I := fun p => Exclusive p.store) (C := fun t => Admitted t.pre t.label)
      hstart
    intro t ht hpre
    exact exclusive_step_iff (keyed_run hkeyed hrun ht).1 hpre (hrun.step_of_mem ht)
  · intro hC t ht
    have hstages : ∀ thread ∈ ({ store := s₀ } : LockSystem).threads, Stage s₀ thread.2 := by simp
    have hkept := hrun.invariant_at
      (I := fun p : LockSystem => p.store.Keyed ∧ Exclusive p.store ∧
        ∀ thread ∈ p.threads, Stage p.store thread.2)
      (C := fun t => Undisturbed t.pre t.label) ⟨hkeyed, hstart, hstages⟩ hC
      (fun t hstep hc hpre => ⟨keyed_step hpre.1 hstep, undisturbed_step hpre.1 hpre.2 hstep hc⟩) ht
    exact hkept.2.2.1

end Runs

def sampleEntity : Entity := ⟨.verification, "v"⟩

def bothAcquire : List (Turn LockOp) :=
  [.start (.acquire sampleEntity none "alice" { newId := "a" }),
    .start (.acquire sampleEntity none "bob" { newId := "b" }),
    .advance 0, .advance 0, .advance 1, .advance 1, .advance 0, .advance 0, .advance 0, .advance 1,
    .advance 1, .advance 1]

def played (turns : List (Turn LockOp)) : List LockTransition × LockSystem :=
  play (Pool.take perform LockOp.body) { store := { now := 0 } } turns

theorem played_run (turns : List (Turn LockOp)) :
    Run LockStep { store := { now := 0 } } (played turns).1 (played turns).2 :=
  play_run (fun _ _ _ h => h) turns _

theorem oneReviewer_empty : OneReviewer { now := 0 } := by
  rw [oneReviewer_iff]
  rintro e u u' ⟨l, hl, -⟩
  cases hl

theorem one_reviewer_first : (∀ t ∈ (played (bothAcquire.take 9)).1, OneReviewer t.post.store) ↔
      ∀ t ∈ (played (bothAcquire.take 9)).1, Admitted t.pre t.label :=
  (one_reviewer_iff oneReviewer_empty nodup_nil (played_run _)).1

theorem bothAcquire_locks : (played bothAcquire).2.store.locks =
    [⟨"a", sampleEntity, "alice", 0, 300000, .active, none, none, 1⟩,
      ⟨"b", sampleEntity, "bob", 0, 300000, .active, none, none, 1⟩] := by
  decide +kernel

theorem bothAcquire_two : ¬ OneReviewer (played bothAcquire).2.store := by
  rw [oneReviewer_iff]
  intro h
  have hnow : (played bothAcquire).2.store.now = 0 := by decide +kernel
  have halice : (played bothAcquire).2.store.HeldBy sampleEntity "alice" := by
    refine ⟨_, bothAcquire_locks ▸ mem_cons_self, ⟨rfl, rfl, ?_⟩, rfl⟩
    rw [hnow]
    decide
  have hbob : (played bothAcquire).2.store.HeldBy sampleEntity "bob" := by
    refine ⟨_, bothAcquire_locks ▸ mem_cons_of_mem _ mem_cons_self, ⟨rfl, rfl, ?_⟩, rfl⟩
    rw [hnow]
    decide
  exact absurd (h sampleEntity "alice" "bob" halice hbob) (by decide)

end Soter.Review
