import Soter.AidEscrow.PackageActs

/-! The loop of `batch_create_packages` against a ledger that books every package at once. -/
namespace Soter.AidEscrow
open Std Soter.Fallible Soter.Runs Soter.MapSum

variable {τ : Type} {H : Host τ} {signers : List Address} {w w' : World τ}

/-- What the metadata alone add to the amount collected for campaign `c`. -/
def campaignShare (metadata : Metadata) (amount : ℤ) (c : Text) : ℤ :=
  if campaignRefFromMetadata metadata = some c then amount else 0

section Deltas

variable {deltas : ExtTreeMap Text ℤ} {token : Address}

theorem addCampaignDelta_amount {deltas' : ExtTreeMap Text ℤ} {metadata : Metadata}
    {amount : ℤ} (h : addCampaignDelta deltas metadata amount = .ok deltas') (c : Text) :
    deltas'[c]?.getD 0 = deltas[c]?.getD 0 + campaignShare metadata amount c := by
  unfold addCampaignDelta at h
  unfold campaignShare
  split at h
  · rename_i href
    cases h
    simp [href]
  · rename_i ref href
    simp only [bind_eq_ok, pure_eq_ok, addI128_eq_ok] at h
    obtain ⟨sum, ⟨-, rfl⟩, rfl⟩ := h
    simp only [get_insert, href, Option.some.injEq]
    by_cases hc : c = ref
    · subst hc
      simp
    · rw [if_neg hc, if_neg (fun he => hc he.symm), add_zero]

theorem applyDeltas_amount {delta : Text → ℤ} (hdelta : ∀ c, 0 ≤ delta c) :
    ∀ (cs : List Text) (m m' : CampaignTotals), cs.Nodup →
      cs.foldlM (fun m c => applyNestedDelta m c token (delta c)) m = .ok m' → ∀ c t, campaignAmountOf m' c t =
        campaignAmountOf m c t + if t = token ∧ c ∈ cs then delta c else 0
  | [], m, m', _, h, c, t => by
    cases h
    simp
  | c₀ :: cs, m, m', hnodup, h, c, t => by
    rw [List.foldlM_cons, bind_eq_ok] at h
    obtain ⟨m1, h1, h2⟩ := h
    obtain ⟨hc₀, hnodup⟩ := List.nodup_cons.mp hnodup
    have hrest := applyDeltas_amount hdelta cs m1 m' hnodup h2 c t
    obtain ⟨-, rfl⟩ := applyNestedDelta_eq_ok.mp h1
    rw [hrest, campaignAmountOf_insert]
    by_cases ht : t = token
    · subst ht
      by_cases hc : c = c₀
      · subst hc
        simp [hc₀, adjusted, hdelta c]
      · simp [hc]
    · simp [ht]

theorem applyCampaignLockedBatchDeltas_spec {totals totals' : Totals} (hdeltas : ∀ c : Text, (0 : ℤ) ≤ deltas[c]?.getD 0)
    (h : applyCampaignLockedBatchDeltas totals token deltas = .ok totals') : totals'.books = { totals.books with
      campaignLocked := fun c t => totals.books.campaignLocked c t +
        if t = token then deltas[c]?.getD 0 else 0 } := by
  unfold applyCampaignLockedBatchDeltas at h
  split at h
  · rename_i hempty
    cases h
    obtain rfl := ExtTreeMap.isEmpty_iff.mp hempty
    simp
  · simp only [bind_eq_ok, pure_eq_ok] at h
    obtain ⟨m, hm, rfl⟩ := h
    have hnodup : deltas.keys.Nodup := by
      refine (ExtTreeMap.distinct_keys (t := deltas)).imp fun hne he => hne ?_
      exact he ▸ ReflCmp.compare_self
    ext1
    · rfl
    · rfl
    · funext c t
      have hmain := applyDeltas_amount hdeltas deltas.keys _ m hnodup hm c t
      simp only [Totals.books] at hmain ⊢
      rw [hmain]
      congr 1
      by_cases hc : c ∈ deltas.keys
      · simp [hc]
      · have hnone : deltas[c]? = none := by
          rw [ExtTreeMap.mem_keys] at hc
          exact getElem?_neg deltas c hc
        simp [hnone]
    · rfl

end Deltas

variable {operator token : Address} {config : Config} {unit : ℤ} {expiresAt : ℕ} {s s' : BatchLoop τ}
  {item : Address × ℤ × Metadata}

theorem batchCreateOne_eq_ok {contractBalance : ℤ} {createdAt : ℕ} :
    batchCreateOne operator token config unit contractBalance createdAt expiresAt s item = .ok s' ↔
      ∃ claimStartsAt, resolveClaimStartsAt item.2.2 createdAt = .ok claimStartsAt ∧
        claimStartsAt ≤ expiresAt ∧ 0 < item.2.1 ∧
        ¬ (item.2.1 < config.minAmount ∨ item.2.1.tmod unit ≠ 0) ∧
        (-2 ^ 127 ≤ s.currentLocked + item.2.1 ∧ s.currentLocked + item.2.1 < 2 ^ 127) ∧
        s.currentLocked + item.2.1 ≤ contractBalance ∧
        s.counter + 1 < 2 ^ 64 ∧ s.idx + 1 < 2 ^ 64 ∧
        (-2 ^ 127 ≤ s.totalAmount + item.2.1 ∧ s.totalAmount + item.2.1 < 2 ^ 127) ∧
        ∃ deltas, addCampaignDelta s.campaignLockedDeltas item.2.2 item.2.1 = .ok deltas ∧
          s' = {
            world := World.emit { s.world with
              store := { s.world.store with
                packages := s.world.store.packages.insert s.counter
                  (newPackage token createdAt expiresAt claimStartsAt s.counter item)
                index := s.world.store.index.insert s.idx s.counter } }
              [.packageCreated s.counter item.1 item.2.1 operator createdAt]
            counter := s.counter + 1
            idx := s.idx + 1
            currentLocked := s.currentLocked + item.2.1
            totalAmount := s.totalAmount + item.2.1
            campaignLockedDeltas := deltas
            createdIds := s.createdIds ++ [s.counter] } := by
  simp only [batchCreateOne, bind_eq_ok, pure_eq_ok, require_eq_ok, exists_unit, addI128_eq_ok, addU64_eq_ok]
  constructor
  · rintro ⟨claimStartsAt, hstart, hwindow, hamount, hunit, _, ⟨hrange, rfl⟩, hfunds, _,
      ⟨hcounter, rfl⟩, _, ⟨hidx, rfl⟩, _, ⟨-, rfl⟩, _, ⟨htotal, rfl⟩, deltas, hdeltas, rfl⟩
    exact ⟨claimStartsAt, hstart, hwindow, hamount, hunit, hrange, hfunds, hcounter, hidx, htotal, deltas, hdeltas, rfl⟩
  · rintro ⟨claimStartsAt, hstart, hwindow, hamount, hunit, hrange, hfunds, hcounter, hidx, htotal, deltas, hdeltas, rfl⟩
    exact ⟨claimStartsAt, hstart, hwindow, hamount, hunit, _, ⟨hrange, rfl⟩, hfunds, _,
      ⟨hcounter, rfl⟩, _, ⟨hidx, rfl⟩, _, ⟨hrange, rfl⟩, _, ⟨htotal, rfl⟩, deltas, hdeltas, rfl⟩

/-- The loop started from `w`, and a ledger `u` that holds the same packages and has every one of
them in its totals. -/
structure BatchLoop.Tracks (w : World τ) (token : Address) (s : BatchLoop τ) (u : World τ) :
    Prop where
  store : u.store = { s.world.store with pkgCounter := s.counter, pkgIdx := s.idx }
  now : u.now = w.now
  settings : u.settings = w.settings
  tokens : u.tokens = w.tokens
  totals : s.world.totals = w.totals
  books : u.totals.books = { w.totals.books with
    locked := fun t => if t = token then s.currentLocked else w.totals.books.locked t
    campaignLocked := fun c t => w.totals.books.campaignLocked c t +
      if t = token then s.campaignLockedDeltas[c]?.getD 0 else 0 }
  deltas_nonneg : ∀ c : Text, (0 : ℤ) ≤ s.campaignLockedDeltas[c]?.getD 0
  fresh : ∀ (id : ℕ) (p : Package), s.world.store.packages[id]? = some p → id < s.counter

namespace BatchLoop

def start (w : World τ) (token : Address) : BatchLoop τ :=
  ⟨w, w.store.pkgCounter, w.store.pkgIdx, amountOf w.totals.locked token, 0, ∅, []⟩

theorem start_tracks (token : Address) (hfresh : ∀ id p, w.store.packages[id]? = some p → id < w.store.pkgCounter) :
    (start w token).Tracks w token w where
  store := rfl
  now := rfl
  settings := rfl
  tokens := rfl
  totals := rfl
  books := by
    ext1
    · funext t
      by_cases h : t = token <;> simp [h, start, Totals.books]
    · rfl
    · funext c t
      simp [start]
    · rfl
  deltas_nonneg := by simp [start]
  fresh := hfresh

theorem Tracks.step {operator token : Address} {config : Config} {unit contractBalance : ℤ}
    {createdAt expiresAt : ℕ} {s s' : BatchLoop τ} {item : Address × ℤ × Metadata} {u u' : World τ}
    {claimStartsAt : ℕ} (h : s.Tracks w token u)
    (hone : batchCreateOne operator token config unit contractBalance createdAt expiresAt s item = .ok s')
    (hstart : resolveClaimStartsAt item.2.2 createdAt = .ok claimStartsAt) (hstore : u'.store = u.store.add
      (newPackage token createdAt expiresAt claimStartsAt s.counter item))
    (hbooks : u'.totals.books = u.totals.books.lock (newPackage token createdAt expiresAt claimStartsAt s.counter item))
    (hnow : u'.now = u.now) (hsettings : u'.settings = u.settings) (htokens : u'.tokens = u.tokens) :
    s'.Tracks w token u' := by
  obtain ⟨_, hstart', -, hamount, -, -, -, -, -, -, deltas, hdeltas, rfl⟩ :=
    batchCreateOne_eq_ok.mp hone
  obtain rfl := Except.ok.inj (hstart.symm.trans hstart')
  -- the map of deltas and the running sum grow by the amount that the ledger locks
  have hsum := addCampaignDelta_amount hdeltas
  refine ⟨?_, hnow.trans h.now, hsettings.trans h.settings, htokens.trans h.tokens, h.totals, ?_, ?_, ?_⟩
  · rw [hstore, h.store]
    simp only [PackageStore.add, newPackage, Nat.le_refl, ↓reduceIte]
    rfl
  · rw [hbooks, h.books]
    ext1
    · funext t
      by_cases ht : t = token
      · subst ht
        simp [Books.lock, Package.OfToken, newPackage]
      · simp [Books.lock, Package.OfToken, newPackage, ht, Ne.symm ht]
    · rfl
    · funext c t
      simp only [Books.lock, Package.OfCampaign, newPackage, hsum, campaignShare]
      by_cases ht : t = token
      · subst ht
        by_cases hc : campaignRefFromMetadata item.2.2 = some c
        · simp [hc, add_assoc]
        · simp [hc]
      · simp [ht, Ne.symm ht]
    · rfl
  · intro c
    have hold := h.deltas_nonneg c
    simp only [hsum, campaignShare]
    split <;> omega
  · intro id p hp
    simp only [World.emit, get_insert] at hp
    split at hp
    · rename_i hid
      exact hid ▸ Nat.lt_succ_self s.counter
    · exact (h.fresh id p hp).trans (Nat.lt_succ_self _)

end BatchLoop

def BatchLoop.view (s : BatchLoop τ) (totals : Totals) : World τ :=
  { s.world with
    totals, store := { s.world.store with pkgCounter := s.counter, pkgIdx := s.idx } }

theorem batchCreateOne_run {balance : ℤ} (hpaused : w.settings.paused = false)
    (hbalance : H.balance w.tokens token H.contract = some balance)
    (hs : ∃ totals, s.Tracks w token (s.view totals) ∧
      ∃ acts, Run (Atom H) w acts (s.view totals) ∧ ∀ a ∈ acts, ∃ p, a.label = .create p)
    (h : batchCreateOne operator token config unit balance w.now expiresAt s item = .ok s') :
    ∃ totals, s'.Tracks w token (s'.view totals) ∧
      ∃ acts, Run (Atom H) w acts (s'.view totals) ∧ ∀ a ∈ acts, ∃ p, a.label = .create p := by
  obtain ⟨totals, htracks, acts, hacts, hcreate⟩ := hs
  obtain ⟨claimStartsAt, hstart, -, hamount, -, -, hfunds, -, -, -, deltas, -, rfl⟩ :=
    batchCreateOne_eq_ok.mp h
  -- the loop has not written its totals yet: any that read as locked will do for the act
  obtain ⟨totals', htotals'⟩ := exists_locked totals (newPackage token w.now expiresAt claimStartsAt s.counter item)
  have hstore : PackageStore.add (s.view totals).store (newPackage token w.now expiresAt claimStartsAt s.counter item) =
      { s.world.store with
        packages := s.world.store.packages.insert s.counter
          (newPackage token w.now expiresAt claimStartsAt s.counter item)
        index := s.world.store.index.insert s.idx s.counter
        pkgCounter := s.counter + 1
        pkgIdx := s.idx + 1 } := by
    simp only [PackageStore.add, BatchLoop.view, newPackage, Nat.le_refl, ↓reduceIte]
  refine ⟨totals', htracks.step h hstart hstore.symm htotals' rfl rfl rfl, ?_⟩
  have hnow : s.world.now = w.now := htracks.now
  have hfresh : (s.view totals).store.packages[s.counter]? = none := by
    cases hget : s.world.store.packages[s.counter]? with
    | none => exact hget
    | some p => exact absurd (htracks.fresh _ p hget) (lt_irrefl _)
  -- the running sum is what the balance check of the act has to see
  have hlocked : totals.books.locked token = s.currentLocked := by
    have hbooks := congrArg (fun b => b.locked token) htracks.books
    exact hbooks.trans (if_pos rfl)
  have hatom := Atom.create (H := H) (w := s.view totals)
    (p := newPackage token w.now expiresAt claimStartsAt s.counter item)
    (E := [.packageCreated s.counter item.1 item.2.1 operator w.now])
    (htracks.settings ▸ hpaused) hfresh rfl hamount hnow.symm rfl
    (show H.balance (s.view totals).tokens token H.contract = some balance from
      htracks.tokens ▸ hbalance)
    (show totals.books.locked token + item.2.1 ≤ balance by rw [hlocked]; exact hfunds) htotals' rfl
  rw [hstore] at hatom
  refine ⟨_, hacts.snoc hatom, fun a ha => ?_⟩
  rcases List.mem_append.mp ha with ha | ha
  · exact hcreate a ha
  · rw [List.mem_singleton.mp ha]
    exact ⟨_, rfl⟩

theorem batchCreatePackages_run {recipients : List Address}
    {amounts : List ℤ} {expiresIn : ℕ} {metadatas : List Metadata} {ids : List ℕ}
    (hfresh : ∀ id p, w.store.packages[id]? = some p → id < w.store.pkgCounter)
    (h : batchCreatePackages H signers w operator recipients amounts token expiresIn metadatas =
      .ok (w', ids)) : ∃ acts, Run (Atom H) w acts w' ∧
      ∀ a ∈ acts, (∃ p, a.label = .create p) ∨ a.label = .note := by
  simp only [batchCreatePackages, bind_eq_ok, pure_eq_ok, require_eq_ok, exists_unit,
    tokenBalance_eq_ok, checkActionPaused_eq_ok w "create" .create rfl] at h
  obtain ⟨⟨hpaused, -⟩, -, -, -, -, _, -, balance, hbalance, expiresAt, -, s, hloop, totals', htotals', hw⟩ := h
  cases hw
  obtain ⟨totals, htracks, acts, hacts, hcreate⟩ := foldlM_preserves
    (P := fun s : BatchLoop τ => ∃ totals, s.Tracks w token (s.view totals) ∧
      ∃ acts, Run (Atom H) w acts (s.view totals) ∧ ∀ a ∈ acts, ∃ p, a.label = .create p)
    (fun _ _ _ hs hone => batchCreateOne_run hpaused hbalance hs hone) _ _ _
    ⟨w.totals, BatchLoop.start_tracks token hfresh, [], Run.nil, by simp⟩ hloop
  have hbooks : totals'.books = totals.books := by
    rw [applyCampaignLockedBatchDeltas_spec htracks.deltas_nonneg htotals', show totals.books = _ from htracks.books]
    ext1
    · funext t
      simp only [Totals.books, amountOf_insert]
    · rfl
    · rfl
    · rfl
  have hnote := Atom.note (H := H) (w := s.view totals)
    (E := [.batchCreatedEvent s.createdIds operator s.totalAmount]) hbooks rfl
  refine ⟨_, hacts.snoc hnote, fun a ha => ?_⟩
  rcases List.mem_append.mp ha with ha | ha
  · exact .inl (hcreate a ha)
  · rw [List.mem_singleton.mp ha]
    exact .inr rfl

end Soter.AidEscrow
