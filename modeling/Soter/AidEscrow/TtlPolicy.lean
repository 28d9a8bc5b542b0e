import Soter.AidEscrow.IdSpace

/-! The remaining time of the persistent entries of packages, and which calls keep the time-to-live policy: those that
extend what they touch, and the others if they find enough time left. -/
namespace Soter.AidEscrow
open Std Soter.Fallible Soter.Runs List

variable {τ : Type}

/-- Remaining time, in ledgers, below which an entry is extended, and what it is extended to. -/
def persistentTtlThreshold : ℤ := 535680
def persistentTtlExtendTo : ℤ := 1555200

/-- The persistent entries that belong to packages: the records and the slots of the index. -/
inductive EntryKey
  | package (id : ℕ)
  | packageIndexEntry (position : ℕ)
  deriving DecidableEq

/-- How many ledgers each entry has left. A negative number means that it has been archived. -/
abbrev Ttls := EntryKey → Option ℤ

/-- A write of an entry that is there leaves its time alone; a new one starts with the network's minimum. -/
def Ttls.set (minTtl : ℕ) (ttls : Ttls) (key : EntryKey) : Ttls :=
  fun k => if k = key then some ((ttls key).getD minTtl) else ttls k

/-- `bump_persistent`: `extend_ttl` does nothing to an entry that is not there or has enough left. -/
def Ttls.bumpPersistent (ttls : Ttls) (key : EntryKey) : Ttls :=
  fun k => if k = key then
    (ttls key).map fun ttl => if ttl < persistentTtlThreshold then persistentTtlExtendTo else ttl
  else ttls k

inductive Access
  | get (key : EntryKey)
  | set (key : EntryKey)
  | bump (key : EntryKey)
  deriving DecidableEq

def Access.key : Access → EntryKey
  | .get key | .set key | .bump key => key

def Access.apply (minTtl : ℕ) (ttls : Ttls) : Access → Ttls
  | .get _ => ttls
  | .set key => ttls.set minTtl key
  | .bump key => ttls.bumpPersistent key

def itemAccesses (result : BatchClaimResult) : List Access :=
  if result.status = .success then [.get (.package result.packageId), .set (.package result.packageId)]
  else [.get (.package result.packageId)]

/-- The accesses of a call that goes through, in the order of the code. The entry points that are left out only read
and rewrite entries that are there, which leaves their times as they are. -/
def Call.accesses (H : Host τ) (signers : List Address) (w : World τ) : Call → List Access
  | .createPackage _ id _ _ _ _ _ =>
    [.get (.package id), .set (.package id), .bump (.package id),
      .set (.packageIndexEntry w.store.pkgIdx), .bump (.packageIndexEntry w.store.pkgIdx)]
  | .batchCreatePackages _ recipients _ _ _ _ => (range recipients.length).flatMap fun i =>
    [.set (.package (w.store.pkgCounter + i)), .set (.packageIndexEntry (w.store.pkgIdx + i))]
  | .claim id => [.get (.package id), .set (.package id)]
  | .claimWithProof id _ _ => [.get (.package id), .bump (.package id), .set (.package id)]
  | .claimWithRelayer id _ _ => [.get (.package id), .set (.package id)]
  | .batchClaim claimant ids =>
    match AidEscrow.batchClaim H signers w claimant ids with
    | .error _ => []
    | .ok (_, results) => results.flatMap itemAccesses
  | _ => []

structure Ledger (τ : Type) where
  world : World τ
  ttls : Ttls

/-- What can happen to a ledger: a move of the contract's world, a read of one package, or the closing of ledgers. -/
inductive LedgerMove (τ : Type)
  | move (m : Move τ)
  | getPackage (id : ℕ)
  | close (ledgers : ℕ)

def LedgerMove.accesses (H : Host τ) (w : World τ) : LedgerMove τ → List Access
  | .move (.call signers c) => c.accesses H signers w
  | .getPackage id => [.get (.package id), .bump (.package id)]
  | _ => []

def Ttls.Live (ttls : Ttls) (accesses : List Access) : Prop :=
  ∀ access ∈ accesses, ∀ ttl ∈ ttls access.key, 0 ≤ ttl

instance (ttls : Ttls) (accesses : List Access) : Decidable (ttls.Live accesses) :=
  inferInstanceAs (Decidable (∀ access ∈ accesses, ∀ ttl ∈ ttls access.key, 0 ≤ ttl))

inductive LedgerStep (H : Host τ) (minTtl : ℕ) : Ledger τ → LedgerMove τ → Ledger τ → Prop
  | move {s : Ledger τ} {m : Move τ} {w' : World τ} :
      Step H s.world m w' → s.ttls.Live (LedgerMove.accesses H s.world (.move m)) →
      LedgerStep H minTtl s (.move m)
        ⟨w', (LedgerMove.accesses H s.world (.move m)).foldl (Access.apply minTtl) s.ttls⟩
  | getPackage {s : Ledger τ} {id : ℕ} {p : Package} :
      getPackage s.world id = .ok p → s.ttls.Live (LedgerMove.accesses H s.world (.getPackage id)) →
      LedgerStep H minTtl s (.getPackage id)
        ⟨s.world, (LedgerMove.accesses H s.world (.getPackage id)).foldl (Access.apply minTtl) s.ttls⟩
  | close {s : Ledger τ} {ledgers : ℕ} :
      LedgerStep H minTtl s (.close ledgers) ⟨s.world, fun k => (s.ttls k).map (· - ledgers)⟩

def LedgerReaches (H : Host τ) (minTtl : ℕ) (tr : List (Transition (Ledger τ) (LedgerMove τ))) (s : Ledger τ) : Prop :=
  ∃ now tokens, Run (LedgerStep H minTtl) ⟨World.deployed now tokens, fun _ => none⟩ tr s

def Ttls.Refreshed (ttls : Ttls) (accesses : List Access) : Prop :=
  ∀ access ∈ accesses, ∀ ttl, ttls access.key = some ttl → persistentTtlThreshold ≤ ttl

/-- What the policy needs before the move: the calls that do not extend must find enough time left. -/
def MeetsPolicy (H : Host τ) (minTtl : ℕ) (s : Ledger τ) : LedgerMove τ → Prop
  | .move (.call _ (.batchCreatePackages _ recipients _ _ _ _)) =>
    recipients = [] ∨ persistentTtlThreshold ≤ minTtl
  | .move (.call signers c@(.claim _)) | .move (.call signers c@(.claimWithRelayer _ _ _))
  | .move (.call signers c@(.batchClaim _ _)) => s.ttls.Refreshed (c.accesses H signers s.world)
  | _ => True

section TtlPolicy
variable {H : Host τ} {signers : List Address} {minTtl : ℕ} {w w' : World τ} {s s' : Ledger τ} {ttls : Ttls}
  {accesses : List Access} {k : EntryKey} {m : Move τ}

theorem Ttls.set_apply (key : EntryKey) :
    ttls.set minTtl key k = if k = key then some ((ttls key).getD minTtl) else ttls k := rfl

theorem Ttls.bumpPersistent_apply (key : EntryKey) : ttls.bumpPersistent key k = if k = key then
      (ttls key).map fun ttl => if ttl < persistentTtlThreshold then persistentTtlExtendTo else ttl
    else ttls k := rfl

theorem bumped_le {ttl : ℤ} (h : ttls.bumpPersistent k k = some ttl) : persistentTtlThreshold ≤ ttl := by
  rw [Ttls.bumpPersistent_apply, if_pos rfl] at h
  obtain ⟨before, -, rfl⟩ := Option.map_eq_some_iff.mp h
  split
  · decide
  · omega

theorem isSome_apply (access : Access) :
    (access.apply minTtl ttls k).isSome = true ↔ (ttls k).isSome = true ∨ .set k = access := by
  cases access with
  | get key => simp [Access.apply]
  | set key =>
    rw [Access.apply, Ttls.set_apply]
    by_cases hk : k = key
    · simp [hk]
    · simp [hk]
  | bump key =>
    rw [Access.apply, Ttls.bumpPersistent_apply]
    by_cases hk : k = key
    · simp [hk]
    · simp [hk]

theorem isSome_foldl (accesses : List Access) : ∀ ttls : Ttls, (accesses.foldl (Access.apply minTtl) ttls k).isSome = true ↔
      (ttls k).isSome = true ∨ .set k ∈ accesses := by
  induction accesses with
  | nil => simp
  | cons access accesses ih =>
    intro ttls
    rw [foldl_cons, ih, isSome_apply, mem_cons, or_assoc]

theorem foldl_of_no_bump (accesses : List Access) : ∀ ttls : Ttls, (∀ key, .bump key ∉ accesses) →
    accesses.foldl (Access.apply minTtl) ttls k =
      if .set k ∈ accesses then some ((ttls k).getD minTtl) else ttls k := by
  induction accesses with
  | nil => simp
  | cons access accesses ih =>
    intro ttls hbump
    rw [foldl_cons, ih _ fun key hkey => hbump key (mem_cons_of_mem _ hkey)]
    cases access with
    | get key => simp [Access.apply]
    | bump key => exact absurd (mem_cons_self ..) (hbump key)
    | set key =>
      rw [Access.apply, Ttls.set_apply]
      by_cases hk : k = key
      · subst hk
        simp
      · simp [hk]

section Stored

def Stored (w : World τ) : EntryKey → Prop
  | .package id => ∃ p, w.store.packages[id]? = some p
  | .packageIndexEntry position => position < w.store.pkgIdx

variable {operator token claimant : Address} {recipients : List Address} {amounts : List ℤ} {expiresIn id : ℕ}
  {metadatas : List Metadata} {ids : List ℕ}

theorem Atom.stored_kept {a : Act} (h : Atom H w a w') (ha : ∀ p, a ≠ .create p) : Stored w' k ↔ Stored w k := by
  rcases h.store_cases with hs | ⟨p, hcreate, -⟩ | ⟨id, p, p', hp, -, -, hs⟩
  · cases k with
    | package | packageIndexEntry => rw [Stored, Stored, hs]
  · exact absurd hcreate (ha p)
  · cases k with
    | packageIndexEntry => rw [Stored, Stored, hs, PackageStore.put]
    | package id' =>
      rw [Stored, Stored, hs]
      by_cases hid : id' = id
      · subst hid
        exact iff_of_true ⟨p', by rw [put_packages, if_pos rfl]⟩ ⟨p, hp⟩
      · rw [put_packages, if_neg hid]

theorem Step.stored_kept (h : Step H w m w') (hw : WellFormed w) (hm : ∀ p, ¬ m.permits (.create p)) :
    Stored w' k ↔ Stored w k := by
  apply h.invariant (I := fun u => Stored u k ↔ Stored w k) hw Iff.rfl
  intro u a v hatom hpermits hu
  have hkind : ∀ p, a ≠ .create p := fun p ha => hm p (ha ▸ hpermits)
  exact (hatom.stored_kept hkind).trans hu

/-- The loop of a batch stores the records from the counter on and the slots from the index on. -/
theorem batchLoop_stored {config : Config} {unit balance : ℤ} {createdAt expiresAt : ℕ}
    (items : List (Address × ℤ × Metadata)) : ∀ s s' : BatchLoop τ,
    items.foldlM (batchCreateOne operator token config unit balance createdAt expiresAt) s = .ok s' →
      s'.idx = s.idx + items.length ∧ ∀ id : ℕ, (∃ p, s'.world.store.packages[id]? = some p) ↔
        (∃ p, s.world.store.packages[id]? = some p) ∨ s.counter ≤ id ∧ id < s.counter + items.length := by
  induction items with
  | nil =>
    intro s s' h
    cases h
    refine ⟨rfl, fun id => (or_iff_left ?_).symm⟩
    rw [length_nil]
    omega
  | cons item items ih =>
    intro s s' h
    simp only [foldlM_cons, bind_eq_ok] at h
    obtain ⟨s1, hpass, hloop⟩ := h
    obtain ⟨hidx, hstored⟩ := ih s1 s' hloop
    obtain ⟨_, -, -, -, -, -, -, -, -, -, deltas, -, rfl⟩ := batchCreateOne_eq_ok.mp hpass
    refine ⟨?_, fun id => ?_⟩
    · rw [hidx, length_cons]
      change s.idx + 1 + items.length = _
      omega
    · rw [hstored, length_cons]
      change (∃ p, (s.world.store.packages.insert s.counter _)[id]? = some p) ∨
        s.counter + 1 ≤ id ∧ id < s.counter + 1 + items.length ↔ _
      by_cases hid : id = s.counter
      · apply iff_of_true
        · left
          rw [MapSum.get_insert, if_pos hid]
          exact ⟨_, rfl⟩
        · right
          omega
      · rw [MapSum.get_insert, if_neg hid]
        apply or_congr_right
        omega

theorem mem_batch_accesses :
    .set k ∈ (Call.batchCreatePackages operator recipients amounts token expiresIn metadatas).accesses H signers w ↔
      ∃ i < recipients.length, k = .package (w.store.pkgCounter + i) ∨ k = .packageIndexEntry (w.store.pkgIdx + i) := by
  simp only [Call.accesses, mem_flatMap, mem_range, mem_cons, not_mem_nil, or_false, Access.set.injEq]

theorem batch_stored (hlocked : LockedNonneg w.totals.books)
    (h : batchCreatePackages H signers w operator recipients amounts token expiresIn metadatas = .ok (w', ids)) :
    Stored w' k ↔ Stored w k ∨
      .set k ∈ (Call.batchCreatePackages operator recipients amounts token expiresIn metadatas).accesses H signers w := by
  obtain ⟨_, _, -, s, hloop, -, hstore, -⟩ := batchCreatePackages_spec hlocked h
  obtain ⟨hidx, hstored⟩ := batchLoop_stored _ _ _ hloop
  rw [batch_items_length h] at hidx hstored
  rw [mem_batch_accesses]
  cases k with
  | package id =>
    have hwrites : (∃ i < recipients.length, EntryKey.package id = .package (w.store.pkgCounter + i) ∨
        EntryKey.package id = .packageIndexEntry (w.store.pkgIdx + i)) ↔
          w.store.pkgCounter ≤ id ∧ id < w.store.pkgCounter + recipients.length := by
      simp only [EntryKey.package.injEq, reduceCtorEq, or_false]
      constructor
      · rintro ⟨i, hi, rfl⟩
        omega
      · exact fun hbetween => ⟨id - w.store.pkgCounter, by omega, by omega⟩
    rw [hwrites, Stored, Stored, hstore]
    exact hstored id
  | packageIndexEntry position =>
    have hwrites : (∃ i < recipients.length, EntryKey.packageIndexEntry position = .package (w.store.pkgCounter + i) ∨
        EntryKey.packageIndexEntry position = .packageIndexEntry (w.store.pkgIdx + i)) ↔
          w.store.pkgIdx ≤ position ∧ position < w.store.pkgIdx + recipients.length := by
      simp only [EntryKey.packageIndexEntry.injEq, reduceCtorEq, false_or]
      constructor
      · rintro ⟨i, hi, rfl⟩
        omega
      · exact fun hbetween => ⟨position - w.store.pkgIdx, by omega, by omega⟩
    rw [hwrites, Stored, Stored, hstore]
    change position < s.idx ↔ _
    rw [hidx]
    change position < w.store.pkgIdx + _ ↔ _
    omega

theorem claimOneForBatch_packageId {r : BatchClaimResult}
    (h : claimOneForBatch H w claimant id = .ok (w', r)) : r.packageId = id := by
  unfold claimOneForBatch at h
  repeat' split at h
  all_goals first | cases h; rfl | cases h

theorem batchItems_claimed (ids : List ℕ) : ∀ {u u' : World τ} {results : List BatchClaimResult},
    batchItems (fun w id => claimOneForBatch H w claimant id) u ids = .ok (u', results) →
      ∀ r ∈ results, r.status = .success → Stored u (.package r.packageId) := by
  induction ids with
  | nil =>
    intro u u' results h r hr
    cases h
    cases hr
  | cons id ids ih =>
    intro u u' results h r hr hsuccess
    simp only [batchItems, bind_eq_ok, pure_eq_ok] at h
    obtain ⟨⟨u1, r1⟩, hone, ⟨u2, results'⟩, hrest, hout⟩ := h
    cases hout
    rcases claimOneForBatch_spec hone with ⟨hfailed, -, rfl⟩ | ⟨-, hatom⟩
    · rcases mem_cons.mp hr with rfl | hlater
      · exact absurd hsuccess hfailed
      · exact ih hrest r hlater hsuccess
    · rcases mem_cons.mp hr with rfl | hlater
      · rw [claimOneForBatch_packageId hone]
        cases hatom with
        | claim hp => exact ⟨_, hp⟩
      · have hstored := ih hrest r hlater hsuccess
        exact (hatom.stored_kept fun p hp => by cases hp).mp hstored

theorem mem_batchClaim_accesses (h : .set k ∈ (Call.batchClaim claimant ids).accesses H signers w) : Stored w k := by
  rw [Call.accesses] at h
  split at h
  · cases h
  · rename_i out results hbatch
    obtain ⟨r, hr, hset⟩ := mem_flatMap.mp h
    simp only [batchClaim, bind_eq_ok, require_eq_ok, exists_unit] at hbatch
    unfold itemAccesses at hset
    split at hset
    · rename_i hsuccess
      have hstored := batchItems_claimed ids hbatch.2.2.2 r hr hsuccess
      have hk : k = .package r.packageId := by simpa using hset
      rw [hk]
      exact hstored
    · simp at hset

theorem add_stored {store : PackageStore} {p : Package} {id' : ℕ} (hid : p.id = id) :
    (∃ q, (store.add p).packages[id']? = some q) ↔ (∃ q, store.packages[id']? = some q) ∨ id' = id := by
  rw [add_packages, hid]
  by_cases h : id' = id
  · rw [if_pos h]
    exact iff_of_true ⟨p, rfl⟩ (.inr h)
  · rw [if_neg h]
    exact (or_iff_left h).symm

theorem Step.stored (h : Step H w m w') (hw : WellFormed w) (hlocked : LockedNonneg w.totals.books) :
    Stored w' k ↔ Stored w k ∨ .set k ∈ LedgerMove.accesses H w (.move m) := by
  have hstep := h
  have hrewrites (hm : ∀ p, ¬ m.permits (.create p)) (hset : .set k ∈ LedgerMove.accesses H w (.move m) → Stored w k) :
      Stored w' k ↔ Stored w k ∨ .set k ∈ LedgerMove.accesses H w (.move m) := by
    rw [hstep.stored_kept hw hm]
    exact (or_iff_left_of_imp hset).symm
  cases h with
  | tick | outside => exact (or_iff_left not_mem_nil).symm
  | @call _ signers c hexec =>
    have hget {id : ℕ} {p : Package} (hp : w.store.packages[id]? = some p) (hk : k = .package id) : Stored w k := by
      rw [hk]
      exact ⟨p, hp⟩
    cases c with
    | createPackage operator id =>
      obtain ⟨-, -, -, _, -, -, -, -, -, -, _, -, -, _, -, _, -, -, -, -, rfl⟩ := createPackage_eq_ok.mp hexec
      cases k with
      | package id' =>
        simp only [LedgerMove.accesses, Call.accesses, mem_cons, not_mem_nil, or_false, Access.set.injEq,
          EntryKey.package.injEq, reduceCtorEq, false_or]
        exact add_stored rfl
      | packageIndexEntry position =>
        simp only [LedgerMove.accesses, Call.accesses, mem_cons, not_mem_nil, or_false, Access.set.injEq,
          EntryKey.packageIndexEntry.injEq, reduceCtorEq, false_or]
        change position < w.store.pkgIdx + 1 ↔ position < w.store.pkgIdx ∨ _
        omega
    | batchCreatePackages =>
      obtain ⟨ids, hbatch⟩ := fst_map_eq_ok.mp hexec
      exact batch_stored hlocked hbatch
    | batchClaim =>
      exact hrewrites (by simp [Move.permits, Call.permits]) mem_batchClaim_accesses
    | claim id | claimWithProof id | claimWithRelayer id =>
      -- a claim rewrites the record that it has found
      apply hrewrites (by simp [Move.permits, Call.permits])
      intro hset
      simp only [exec, claim, claimWithProof, claimWithRelayer, bind_eq_ok, getPackage_eq_ok] at hexec
      obtain ⟨-, -, p, hp, -⟩ := hexec
      exact hget hp (by simpa [LedgerMove.accesses, Call.accesses] using hset)
    | _ =>
      exact hrewrites (by simp [Move.permits, Call.permits]) (fun hset => by cases hset)

end Stored
section Runs
variable {tr : List (Transition (Ledger τ) (LedgerMove τ))}

theorem LedgerReaches.reaches (h : LedgerReaches H minTtl tr s) : ∃ moves, Reaches H moves s.world := by
  obtain ⟨now, tokens, hrun⟩ := h
  induction hrun with
  | nil => exact ⟨[], now, tokens, Run.nil⟩
  | snoc _ hstep ih =>
    obtain ⟨moves, now', tokens', hmoves⟩ := ih
    cases hstep with
    | move hmove => exact ⟨_, now', tokens', hmoves.snoc hmove⟩
    | getPackage | close => exact ⟨moves, now', tokens', hmoves⟩

theorem LedgerReaches.tracked (h : LedgerReaches H minTtl tr s) (k : EntryKey) :
    (s.ttls k).isSome = true ↔ Stored s.world k := by
  obtain ⟨now, tokens, hrun⟩ := h
  induction hrun with
  | nil => cases k <;> simp [Stored, World.deployed]
  | @snoc tr u m v hrun hstep ih =>
    obtain ⟨moves, hu⟩ := LedgerReaches.reaches ⟨now, tokens, hrun⟩
    cases hstep with
    | move hmove =>
      change ((LedgerMove.accesses H u.world _).foldl (Access.apply minTtl) u.ttls k).isSome = true ↔ _
      rw [isSome_foldl, ih, hmove.stored hu.wellFormed hu.lockedNonneg]
    | getPackage =>
      change ((LedgerMove.accesses H u.world (.getPackage _)).foldl (Access.apply minTtl) u.ttls k).isSome = true ↔ _
      rw [isSome_foldl, ih]
      exact or_iff_left (by simp [LedgerMove.accesses])
    | close =>
      change ((u.ttls k).map _).isSome = true ↔ _
      rw [Option.isSome_map, ih]

end Runs

theorem apply_of_ne {access : Access} (h : k ≠ access.key) : access.apply minTtl ttls k = ttls k := by
  cases access with
  | get => rfl
  | set key | bump key => exact if_neg h

theorem refreshed_of_rewrites (hbump : ∀ key, .bump key ∉ accesses)
    (hset : ∀ key, .set key ∈ accesses → (ttls key).isSome = true) :
    (accesses.foldl (Access.apply minTtl) ttls).Refreshed accesses ↔ ttls.Refreshed accesses := by
  have hkept (key : EntryKey) : accesses.foldl (Access.apply minTtl) ttls key = ttls key := by
    rw [foldl_of_no_bump accesses ttls hbump]
    split
    · rename_i hwritten
      obtain ⟨ttl, httl⟩ := Option.isSome_iff_exists.mp (hset key hwritten)
      rw [httl, Option.getD_some]
    · rfl
  unfold Ttls.Refreshed
  simp only [hkept]

theorem refreshed_batch (H : Host τ) (signers : List Address) (operator token : Address)
    (recipients : List Address) (amounts : List ℤ) (expiresIn : ℕ) (metadatas : List Metadata)
    (hpackages : ∀ i, ttls (.package (w.store.pkgCounter + i)) = none)
    (hindex : ∀ i, ttls (.packageIndexEntry (w.store.pkgIdx + i)) = none) :
    (((Call.batchCreatePackages operator recipients amounts token expiresIn metadatas).accesses H signers w).foldl
      (Access.apply minTtl) ttls).Refreshed
        ((Call.batchCreatePackages operator recipients amounts token expiresIn metadatas).accesses H signers w) ↔
      recipients = [] ∨ persistentTtlThreshold ≤ minTtl := by
  generalize hc : Call.batchCreatePackages operator recipients amounts token expiresIn metadatas = c
  have hmem (key : EntryKey) : .set key ∈ c.accesses H signers w ↔ ∃ i < recipients.length,
      key = .package (w.store.pkgCounter + i) ∨ key = .packageIndexEntry (w.store.pkgIdx + i) := by
    rw [← hc]
    exact mem_batch_accesses
  have hsets : ∀ access ∈ c.accesses H signers w, access = .set access.key := by
    rw [← hc]
    intro access haccess
    obtain ⟨i, -, hi⟩ := mem_flatMap.mp haccess
    rcases mem_pair.mp hi with rfl | rfl
    · rfl
    · rfl
  have hvalue (key : EntryKey) (hkey : .set key ∈ c.accesses H signers w) :
      (c.accesses H signers w).foldl (Access.apply minTtl) ttls key = some (minTtl : ℤ) := by
    have hbump : ∀ key', .bump key' ∉ c.accesses H signers w := by
      intro key' hmem'
      have hset := hsets _ hmem'
      cases hset
    have hfresh : ttls key = none := by
      obtain ⟨i, -, hkind⟩ := (hmem key).mp hkey
      rcases hkind with hk | hk
      · exact hk ▸ hpackages i
      · exact hk ▸ hindex i
    rw [foldl_of_no_bump _ _ hbump, if_pos hkey, hfresh]
    rfl
  constructor
  · intro h
    cases recipients with
    | nil => exact .inl rfl
    | cons recipient rest =>
      have hfirst := (hmem (.package (w.store.pkgCounter + 0))).mpr ⟨0, Nat.succ_pos _, .inl rfl⟩
      exact .inr (h _ hfirst _ (hvalue _ hfirst))
  · rintro (rfl | hmin) access haccess ttl httl
    · rw [hsets access haccess] at haccess
      obtain ⟨i, hi, -⟩ := (hmem _).mp haccess
      exact absurd hi (Nat.not_lt_zero i)
    · rw [hsets access haccess] at haccess
      rw [hvalue _ haccess] at httl
      exact Option.some.inj httl ▸ hmin

theorem refreshed_create {id position : ℕ} : let accesses := [Access.get (.package id), .set (.package id),
      .bump (.package id), .set (.packageIndexEntry position), .bump (.packageIndexEntry position)]
    (accesses.foldl (Access.apply minTtl) ttls).Refreshed accesses := by
  intro accesses access haccess ttl httl
  have hkey : access.key = .package id ∨ access.key = .packageIndexEntry position := by
    simp only [accesses, mem_cons, not_mem_nil, or_false] at haccess
    rcases haccess with rfl | rfl | rfl | rfl | rfl <;> simp [Access.key]
  simp only [accesses, foldl_cons, foldl_nil] at httl
  rcases hkey with hkey | hkey
  · rw [hkey, apply_of_ne (by simp [Access.key]), apply_of_ne (by simp [Access.key])] at httl
    exact bumped_le httl
  · rw [hkey] at httl
    exact bumped_le httl

theorem refreshed_proof {id : ℕ} (hid : (ttls (.package id)).isSome = true) :
    let accesses := [Access.get (.package id), .bump (.package id), .set (.package id)]
    (accesses.foldl (Access.apply minTtl) ttls).Refreshed accesses := by
  intro accesses access haccess ttl httl
  have hkey : access.key = .package id := by
    simp only [accesses, mem_cons, not_mem_nil, or_false] at haccess
    rcases haccess with rfl | rfl | rfl <;> rfl
  have hthere : (Access.apply minTtl ttls (.bump (.package id)) (.package id)).isSome = true :=
    (isSome_apply _).mpr (.inl hid)
  obtain ⟨before, hbefore⟩ := Option.isSome_iff_exists.mp hthere
  simp only [accesses, foldl_cons, foldl_nil] at httl
  rw [hkey] at httl
  have hset : some ((Access.apply minTtl ttls (.bump (.package id)) (.package id)).getD minTtl) = some ttl :=
    (if_pos rfl).symm.trans httl
  rw [hbefore, Option.getD_some] at hset
  exact Option.some.inj hset ▸ bumped_le hbefore

theorem refreshed_getPackage {id : ℕ} : let accesses := [Access.get (.package id), .bump (.package id)]
    (accesses.foldl (Access.apply minTtl) ttls).Refreshed accesses := by
  intro accesses access haccess ttl httl
  have hkey : access.key = .package id := by
    simp only [accesses, mem_cons, not_mem_nil, or_false] at haccess
    rcases haccess with rfl | rfl <;> rfl
  rw [hkey] at httl
  exact bumped_le httl

theorem bump_not_mem_batchClaim {claimant : Address} {ids : List ℕ} (key : EntryKey) :
    .bump key ∉ (Call.batchClaim claimant ids).accesses H signers w := by
  intro h
  rw [Call.accesses] at h
  split at h
  · cases h
  · obtain ⟨r, -, hr⟩ := mem_flatMap.mp h
    unfold itemAccesses at hr
    split at hr <;> simp at hr

/-- In every reachable ledger, a move that goes through leaves all that it accessed with the threshold at least,
exactly if it extends what it touches or finds enough time left. -/
theorem ttl_policy_iff {tr : List (Transition (Ledger τ) (LedgerMove τ))} {m : LedgerMove τ}
    (h : LedgerReaches H minTtl tr s) (hstep : LedgerStep H minTtl s m s') :
    s'.ttls.Refreshed (m.accesses H s.world) ↔ MeetsPolicy H minTtl s m := by
  obtain ⟨moves, hs⟩ := h.reaches
  cases hstep with
  | close => exact iff_of_true (fun _ hmem => absurd hmem not_mem_nil) trivial
  | getPackage => exact iff_of_true refreshed_getPackage trivial
  | @move m w' hmove =>
    have hrewrites (hm : ∀ p, ¬ m.permits (.create p)) (key : EntryKey)
        (hset : .set key ∈ LedgerMove.accesses H s.world (.move m)) : (s.ttls key).isSome = true := by
      have hafter := (hmove.stored hs.wellFormed hs.lockedNonneg).mpr (.inr hset)
      exact (h.tracked key).mpr ((hmove.stored_kept hs.wellFormed hm).mp hafter)
    cases m with
    | tick | outside => exact iff_of_true (fun _ hmem => absurd hmem not_mem_nil) trivial
    | call signers c =>
      cases c with
      | createPackage => exact iff_of_true refreshed_create trivial
      | claimWithProof id =>
        apply iff_of_true (refreshed_proof ?_) trivial
        exact hrewrites (by simp [Move.permits, Call.permits]) _ (by simp [LedgerMove.accesses, Call.accesses])
      | claim | claimWithRelayer =>
        apply refreshed_of_rewrites
        · intro key hbump
          simp [LedgerMove.accesses, Call.accesses] at hbump
        · exact hrewrites (by simp [Move.permits, Call.permits])
      | batchClaim =>
        apply refreshed_of_rewrites
        · exact bump_not_mem_batchClaim
        · exact hrewrites (by simp [Move.permits, Call.permits])
      | batchCreatePackages operator recipients amounts token expiresIn metadatas =>
        have hnone (key : EntryKey) (hkey : ¬ Stored s.world key) : s.ttls key = none :=
          Option.not_isSome_iff_eq_none.mp (mt (h.tracked key).mp hkey)
        have hpackages (i : ℕ) : s.ttls (.package (s.world.store.pkgCounter + i)) = none := by
          apply hnone
          rintro ⟨p, hp⟩
          have hbelow := hs.wellFormed.below _ p hp
          omega
        have hindex (i : ℕ) : s.ttls (.packageIndexEntry (s.world.store.pkgIdx + i)) = none :=
          hnone _ (Nat.not_lt.mpr (Nat.le_add_right ..))
        exact refreshed_batch H signers operator token recipients amounts expiresIn metadatas hpackages hindex
      | _ => exact iff_of_true (fun _ hmem => absurd hmem not_mem_nil) trivial

/-- A move of a ledger that the contract decides by itself, or `none` if it is refused. -/
def tryLedgerMove (H : Host τ) (minTtl : ℕ) (s : Ledger τ) (m : LedgerMove τ) : Option (Ledger τ) :=
  if s.ttls.Live (m.accesses H s.world) then
    match m with
    | .move m => (tryMove H s.world m).map fun w' =>
      ⟨w', (LedgerMove.accesses H s.world (.move m)).foldl (Access.apply minTtl) s.ttls⟩
    | .getPackage id => (getPackage s.world id).toOption.map fun _ =>
      ⟨s.world, (LedgerMove.accesses H s.world (.getPackage id)).foldl (Access.apply minTtl) s.ttls⟩
    | .close ledgers => some ⟨s.world, fun k => (s.ttls k).map (· - ledgers)⟩
  else none

theorem tryLedgerMove_step (s : Ledger τ) (m : LedgerMove τ) (s' : Ledger τ)
    (h : tryLedgerMove H minTtl s m = some s') : LedgerStep H minTtl s m s' := by
  unfold tryLedgerMove at h
  split at h
  · rename_i hlive
    cases m with
    | move m =>
      obtain ⟨w', hmove, rfl⟩ := Option.map_eq_some_iff.mp h
      exact .move (tryMove_step _ _ _ hmove) hlive
    | getPackage id =>
      obtain ⟨p, hp, rfl⟩ := Option.map_eq_some_iff.mp h
      refine .getPackage (p := p) ?_ hlive
      cases hget : getPackage s.world id with
      | error e =>
        rw [hget] at hp
        cases hp
      | ok q =>
        rw [hget] at hp
        cases hp
        rfl
    | close =>
      cases h
      exact .close
  · cases h

def unused : List (LedgerMove Balances) := [
  .move (.call [] (.init ⟨1⟩)),
  .move (.call [⟨1⟩] (.fund ⟨9⟩ ⟨1⟩ 100)),
  .move (.call [⟨1⟩] (.createPackage ⟨1⟩ 0 ⟨2⟩ 10 ⟨9⟩ 0 ∅)),
  .close 1100000]

def playedLedger (minTtl : ℕ) (moves : List (LedgerMove Balances)) :
    List (Transition (Ledger Balances) (LedgerMove Balances)) × Ledger Balances :=
  play (tryLedgerMove (plainHost ⟨0⟩) minTtl) ⟨World.deployed 100 [((⟨9⟩, ⟨1⟩), 100)], fun _ => none⟩ moves

theorem playedLedger_reaches (minTtl : ℕ) (moves : List (LedgerMove Balances)) :
    LedgerReaches (plainHost ⟨0⟩) minTtl (playedLedger minTtl moves).1 (playedLedger minTtl moves).2 :=
  ⟨100, [((⟨9⟩, ⟨1⟩), 100)], play_run tryLedgerMove_step moves _⟩

theorem ttl_policy_iff_unused : ∃ s',
    LedgerStep (plainHost ⟨0⟩) 4096 (playedLedger 4096 unused).2 (.move (.call [⟨2⟩] (.claimWithProof 0 ⟨2⟩ []))) s' ∧
      s'.ttls.Refreshed [.get (.package 0), .bump (.package 0), .set (.package 0)] := by
  obtain ⟨s', hs'⟩ := Option.isSome_iff_exists.mp (show (tryLedgerMove (plainHost ⟨0⟩) 4096 (playedLedger 4096 unused).2
    (.move (.call [⟨2⟩] (.claimWithProof 0 ⟨2⟩ [])))).isSome = true by decide +kernel)
  have hstep := tryLedgerMove_step _ _ _ hs'
  exact ⟨s', hstep, (ttl_policy_iff (playedLedger_reaches 4096 unused) hstep).mpr trivial⟩

/-- A plain claim leaves the record with less than the threshold, and a batch starts with less. -/
theorem ttl_policy_broken :
    (∃ s', LedgerStep (plainHost ⟨0⟩) 4096 (playedLedger 4096 unused).2 (.move (.call [⟨2⟩] (.claim 0))) s' ∧
      s'.ttls (.package 0) = some 455200 ∧ 455200 < persistentTtlThreshold) ∧
    ∃ s', LedgerStep (plainHost ⟨0⟩) 4096 (playedLedger 4096 unused).2
        (.move (.call [⟨1⟩] (.batchCreatePackages ⟨1⟩ [⟨2⟩] [10] ⟨9⟩ 50 [∅]))) s' ∧
      s'.ttls (.package 1) = some 4096 ∧ s'.ttls (.packageIndexEntry 1) = some 4096 := by
  have hclaim : (tryLedgerMove (plainHost ⟨0⟩) 4096 (playedLedger 4096 unused).2 (.move (.call [⟨2⟩] (.claim 0)))).map
      (fun s' => s'.ttls (.package 0)) = some (some 455200) := by decide +kernel
  have hbatch : (tryLedgerMove (plainHost ⟨0⟩) 4096 (playedLedger 4096 unused).2
      (.move (.call [⟨1⟩] (.batchCreatePackages ⟨1⟩ [⟨2⟩] [10] ⟨9⟩ 50 [∅])))).map
      (fun s' => (s'.ttls (.package 1), s'.ttls (.packageIndexEntry 1))) = some (some 4096, some 4096) := by decide +kernel
  obtain ⟨s₁, hs₁, hpackage⟩ := Option.map_eq_some_iff.mp hclaim
  obtain ⟨s₂, hs₂, hnew⟩ := Option.map_eq_some_iff.mp hbatch
  obtain ⟨hfirst, hsecond⟩ := Prod.mk.inj hnew
  exact ⟨⟨s₁, tryLedgerMove_step _ _ _ hs₁, hpackage, by decide⟩, s₂, tryLedgerMove_step _ _ _ hs₂, hfirst, hsecond⟩

end TtlPolicy
end Soter.AidEscrow
