import Soter.Lib.Listing
import Soter.AidEscrow.BatchCreation

/-! The read-only statistics, and the package index, the package ids and the stored packages they go through. -/
namespace Soter.AidEscrow

variable {τ : Type}
section Views
open Std Soter.Fallible

structure Aggregates where
  totalCommitted : ℤ
  totalClaimed : ℤ
  totalExpiredCancelled : ℤ

/-- What one package adds to the aggregates of `token`. -/
def aggregatePackage (token : Address) (acc : Aggregates) (package : Package) :
    Result Aggregates :=
  if package.token = token then
    match package.status with
    | .created => do
      let totalCommitted ← addI128 acc.totalCommitted package.amount
      return { acc with totalCommitted }
    | .claimed => do
      let totalClaimed ← addI128 acc.totalClaimed package.amount
      return { acc with totalClaimed }
    | .expired | .cancelled | .refunded => do
      let totalExpiredCancelled ← addI128 acc.totalExpiredCancelled package.amount
      return { acc with totalExpiredCancelled }
  else .ok acc

/-- One pass of the loop in `get_aggregates`: an empty slot and a missing record are skipped. -/
def aggregateOne (w : World τ) (token : Address) (acc : Aggregates) (i : ℕ) : Result Aggregates :=
  match w.store.index[i]? with
  | some pkgId =>
    match w.store.packages[pkgId]? with
    | some package => aggregatePackage token acc package
    | none => .ok acc
  | none => .ok acc

def getAggregates (w : World τ) (token : Address) : Result Aggregates :=
  (List.range w.store.pkgIdx).foldlM (aggregateOne w token) ⟨0, 0, 0⟩

/-- The loop of the counting views, over all ids below the counter. No count exceeds the counter,
a `u64`. -/
def countPackages (w : World τ) (counts : Package → Bool) : ℕ :=
  (List.range w.store.pkgCounter).foldl (fun total id =>
    match w.store.packages[id]? with
    | some package => if counts package then total + 1 else total
    | none => total) 0

def getCampaignPackageCount (w : World τ) (campaignRef : Text) : ℕ :=
  countPackages w fun package => package.metadata[metaCampaignRef]? = some campaignRef

def getCampaignClaimCount (w : World τ) (campaignRef : Text) : ℕ :=
  countPackages w fun package =>
    package.status = .claimed ∧ package.metadata[metaCampaignRef]? = some campaignRef

def getRecipientPackageCount (w : World τ) (recipient : Address) : ℕ :=
  countPackages w fun package => package.recipient = recipient

def maxPageSize : ℕ := 50

/-- `u64::saturating_add`. -/
def saturatingAddU64 (a b : ℕ) : ℕ := min (a + b) (2 ^ 64 - 1)

def listRecipientPackages (w : World τ) (recipient : Address) (cursor limit : ℕ) : List ℕ :=
  let packageCounter := w.store.pkgCounter
  let effectiveLimit := min limit maxPageSize
  if packageCounter ≤ cursor then []
  else
    let endPos := min (saturatingAddU64 cursor effectiveLimit) packageCounter
    (List.range' cursor (endPos - cursor)).filter fun id =>
      w.store.packages[id]?.any fun package => package.recipient = recipient

end Views
section PackageIndex
open Std Soter.Fallible Soter.Runs Soter.MapSum Soter.Listing

variable {H : Host τ} {signers : List Address} {w w' : World τ} {a : Act}

/-- The index slots below `KEY_PKG_IDX` list the stored package ids. -/
def IndexExact (w : World τ) : Prop :=
  Lists w.store.index w.store.pkgIdx fun id => ∃ p, w.store.packages[id]? = some p

theorem Atom.indexExact (h : Atom H w a w') (hw : IndexExact w) : IndexExact w' := by
  unfold IndexExact at hw ⊢
  rcases h.store_cases with hs | ⟨p, -, hfresh, -, -, hs⟩ | ⟨id, p, p', hp, -, -, hs⟩
  · rw [hs]
    exact hw
  · rw [hs]
    apply hw.push (k := p.id)
    · rintro ⟨q, hq⟩
      rw [hfresh] at hq
      cases hq
    · intro id
      rw [add_packages]
      by_cases hid : id = p.id
      · rw [if_pos hid]
        exact iff_of_true ⟨p, rfl⟩ (.inl hid)
      · rw [if_neg hid]
        exact (or_iff_right hid).symm
  · rw [hs]
    apply hw.congr
    intro k
    rw [put_packages]
    by_cases hk : k = id
    · rw [if_pos hk, hk]
      exact iff_of_true ⟨p', rfl⟩ ⟨p, hp⟩
    · rw [if_neg hk]

theorem Reaches.indexExact {tr : Trace τ} (h : Reaches H tr w) : IndexExact w := by
  apply h.invariant
  · intro now tokens
    apply Lists.empty
    rintro id ⟨p, hp⟩
    simp [World.deployed] at hp
  · intro u a v _ hatom hu
    exact hatom.indexExact hu

theorem Atom.create_keeps (h : Atom H w a w') (hkind : (∃ p, a = .create p) ∨ a = .note)
    {id : ℕ} {p : Package} (hp : w.store.packages[id]? = some p) : w'.store.packages[id]? = some p := by
  rw [h.untouched, hp]
  rcases hkind with ⟨q, rfl⟩ | rfl
  · intro hid
    cases hid
    cases h with
    | create _ hfresh => exact nomatch hfresh.symm.trans hp
  · intro hid
    cases hid

theorem batchCreatePackages_fresh (hw : WellFormed w) {operator token : Address}
    {recipients : List Address} {amounts : List ℤ} {expiresIn : ℕ} {metadatas : List Metadata} {ids : List ℕ}
    (h : batchCreatePackages H signers w operator recipients amounts token expiresIn metadatas =
      .ok (w', ids)) : (∀ (id : ℕ) (p : Package), w.store.packages[id]? = some p →
      w'.store.packages[id]? = some p) ∧ ∀ id ∈ ids, w.store.packages[id]? = none := by
  constructor
  · intro id p hp
    obtain ⟨acts, hacts, hkind⟩ := batchCreatePackages_run (H := H) hw.below h
    exact hacts.invariant (I := fun u => u.store.packages[id]? = some p) hp hkind
      fun t hatom hcreate hpre => hatom.create_keeps hcreate hpre
  · simp only [batchCreatePackages, bind_eq_ok, pure_eq_ok, require_eq_ok, exists_unit] at h
    obtain ⟨-, -, -, -, -, _, -, _, -, _, -, s, hloop, _, -, hout⟩ := h
    cases hout
    have hfrom : w.store.pkgCounter ≤ s.counter ∧ ∀ id ∈ s.createdIds, w.store.pkgCounter ≤ id := by
      apply foldlM_preserves (P := fun s : BatchLoop τ => w.store.pkgCounter ≤ s.counter ∧
        ∀ id ∈ s.createdIds, w.store.pkgCounter ≤ id) _ _ _ _ _ hloop
      · intro s item s' hs hone
        obtain ⟨_, -, -, -, -, -, -, -, -, -, _, -, rfl⟩ := batchCreateOne_eq_ok.mp hone
        refine ⟨hs.1.trans (Nat.le_succ _), fun id hid => ?_⟩
        rcases List.mem_append.mp hid with hid | hid
        · exact hs.2 id hid
        · rw [List.mem_singleton.mp hid]
          exact hs.1
      · exact ⟨Nat.le_refl _, fun id hid => nomatch hid⟩
    intro id hid
    rcases Option.eq_none_or_eq_some w.store.packages[id]? with hnone | ⟨p, hp⟩
    · exact hnone
    · have hlt := hw.below id p hp
      have hge := hfrom.2 id hid
      omega

def indexed (w : World τ) : List Package :=
  (scan w.store.index w.store.pkgIdx).filterMap fun id : ℕ => w.store.packages[id]?

def numbered (w : World τ) : List Package := entries w.store.packages w.store.pkgCounter

theorem Reaches.indexed_perm {tr : Trace τ} (h : Reaches H tr w) : (indexed w).Perm (numbered w) :=
  h.indexExact.scan_perm_entries h.wellFormed.below

theorem foldl_count (P : Package → Bool) : ∀ (ps : List Package) (n : ℕ),
    ps.foldl (fun total p => if P p then total + 1 else total) n = n + ps.countP P
  | [], n => rfl
  | p :: ps, n => by
    rw [List.foldl_cons, foldl_count P ps, List.countP_cons]
    by_cases hp : P p
    · simp only [hp, ↓reduceIte]
      omega
    · simp only [hp, Bool.false_eq_true, ↓reduceIte]
      omega

theorem countPackages_eq (P : Package → Bool) : countPackages w P = (numbered w).countP P := by
  have hfold := foldl_count P (numbered w) 0
  rw [numbered, entries, List.foldl_filterMap, Nat.zero_add] at hfold
  refine Eq.trans ?_ hfold
  unfold countPackages
  congr 1
  funext total id
  cases w.store.packages[id]? <;> rfl

theorem getAggregates_eq_foldlM (t : Address) :
    getAggregates w t = (indexed w).foldlM (aggregatePackage t) ⟨0, 0, 0⟩ := by
  unfold getAggregates indexed scan
  rw [List.foldlM_filterMap, List.foldlM_filterMap]
  congr 1
  funext acc i
  unfold aggregateOne
  cases w.store.index[i]? with
  | none => rfl
  | some id =>
    dsimp only
    cases w.store.packages[id]? <;> rfl

section Tally

def amountIf (P : Package → Prop) [DecidablePred P] (p : Package) : ℤ := if P p then p.amount else 0

def Package.PaidOut (t : Address) (p : Package) : Prop := p.status = .claimed ∧ p.OfToken t

def Package.Closed (t : Address) (p : Package) : Prop :=
  (p.status = .expired ∨ p.status = .cancelled ∨ p.status = .refunded) ∧ p.OfToken t

instance (t : Address) : DecidablePred (Package.PaidOut t) :=
  fun _ => inferInstanceAs (Decidable (_ ∧ _))

instance (t : Address) : DecidablePred (Package.Closed t) :=
  fun _ => inferInstanceAs (Decidable (_ ∧ _))

/-- The aggregates of a list of packages, without the bounds of `i128`. -/
def tally (t : Address) (ps : List Package) : Aggregates where
  totalCommitted := (ps.map (amountIf (Package.Awaits t))).sum
  totalClaimed := (ps.map (amountIf (Package.PaidOut t))).sum
  totalExpiredCancelled := (ps.map (amountIf (Package.Closed t))).sum

def Aggregates.Fits (agg : Aggregates) : Prop :=
  agg.totalCommitted < 2 ^ 127 ∧ agg.totalClaimed < 2 ^ 127 ∧ agg.totalExpiredCancelled < 2 ^ 127

variable {t : Address} {p : Package} {ps : List Package}

variable {P : Package → Prop}

theorem tally_snoc : tally t (ps ++ [p]) = ⟨(tally t ps).totalCommitted + amountIf (Package.Awaits t) p,
      (tally t ps).totalClaimed + amountIf (Package.PaidOut t) p,
      (tally t ps).totalExpiredCancelled + amountIf (Package.Closed t) p⟩ := by
  simp only [tally, List.map_append, List.map_cons, List.map_nil, List.sum_append, List.sum_singleton]

theorem amountIf_nonneg [DecidablePred P] (hp : 0 < p.amount) : 0 ≤ amountIf P p := by
  unfold amountIf
  split
  · exact hp.le
  · exact Int.le_refl 0

theorem sum_amountIf_nonneg [DecidablePred P] (hps : ∀ p ∈ ps, 0 < p.amount) : 0 ≤ (ps.map (amountIf P)).sum := by
  apply List.sum_nonneg
  intro n hn
  obtain ⟨p, hp, rfl⟩ := List.mem_map.mp hn
  exact amountIf_nonneg (hps p hp)

theorem addI128_bind {β : Type} {n amount : ℤ} {others : Prop} [Decidable others] (hn : 0 ≤ n)
    (hamount : 0 < amount) (hothers : others) (f : ℤ → β) : (addI128 n amount >>= fun sum => pure (f sum)) =
      if n + amount < 2 ^ 127 ∧ others then .ok (f (n + amount)) else .error .trap := by
  have hlow : -2 ^ 127 ≤ n + amount := by omega
  unfold addI128
  by_cases hroom : n + amount < 2 ^ 127
  · rw [if_pos ⟨hlow, hroom⟩, if_pos ⟨hroom, hothers⟩]
    rfl
  · rw [if_neg fun h => hroom h.2, if_neg fun h => hroom h.1]
    rfl

instance (agg : Aggregates) : Decidable agg.Fits := inferInstanceAs (Decidable (_ ∧ _))

theorem aggregatePackage_tally (hps : ∀ p ∈ ps, 0 < p.amount) (hp : 0 < p.amount)
    (hfits : (tally t ps).Fits) : aggregatePackage t (tally t ps) p =
      if (tally t (ps ++ [p])).Fits then .ok (tally t (ps ++ [p])) else .error .trap := by
  have hcommitted : 0 ≤ (tally t ps).totalCommitted := sum_amountIf_nonneg hps
  have hclaimed : 0 ≤ (tally t ps).totalClaimed := sum_amountIf_nonneg hps
  have hclosed : 0 ≤ (tally t ps).totalExpiredCancelled := sum_amountIf_nonneg hps
  -- a package of another token adds to no sum, one of this token to the sum of its kind
  rw [tally_snoc]
  unfold aggregatePackage
  by_cases ht : p.token = t
  · rw [if_pos ht]
    cases hs : p.status with
    | created =>
      have h1 : amountIf (Package.Awaits t) p = p.amount := if_pos ⟨hs, ht⟩
      have h2 : amountIf (Package.PaidOut t) p = 0 := if_neg (by simp [Package.PaidOut, hs])
      have h3 : amountIf (Package.Closed t) p = 0 := if_neg (by simp [Package.Closed, hs])
      rw [h1, h2, h3, add_zero, add_zero]
      exact addI128_bind hcommitted hp hfits.2 _
    | claimed =>
      have h1 : amountIf (Package.Awaits t) p = 0 := if_neg (by simp [Package.Awaits, hs])
      have h2 : amountIf (Package.PaidOut t) p = p.amount := if_pos ⟨hs, ht⟩
      have h3 : amountIf (Package.Closed t) p = 0 := if_neg (by simp [Package.Closed, hs])
      rw [h1, h2, h3, add_zero, add_zero]
      have hothers := And.intro hfits.1 hfits.2.2
      refine (addI128_bind hclaimed hp hothers _).trans (if_congr ?_ rfl rfl)
      exact and_left_comm
    | expired | cancelled | refunded =>
      have h1 : amountIf (Package.Awaits t) p = 0 := if_neg (by simp [Package.Awaits, hs])
      have h2 : amountIf (Package.PaidOut t) p = 0 := if_neg (by simp [Package.PaidOut, hs])
      have h3 : amountIf (Package.Closed t) p = p.amount :=
        if_pos ⟨by simp [hs], ht⟩
      rw [h1, h2, h3, add_zero, add_zero]
      have hothers := And.intro hfits.1 hfits.2.1
      refine (addI128_bind hclosed hp hothers _).trans (if_congr ?_ rfl rfl)
      exact and_comm.trans and_assoc
  · have h1 : amountIf (Package.Awaits t) p = 0 := if_neg fun h => ht h.2
    have h2 : amountIf (Package.PaidOut t) p = 0 := if_neg fun h => ht h.2
    have h3 : amountIf (Package.Closed t) p = 0 := if_neg fun h => ht h.2
    rw [if_neg ht, h1, h2, h3, add_zero, add_zero, add_zero]
    exact (if_pos hfits).symm

theorem fits_of_snoc (hp : 0 < p.amount) (h : (tally t (ps ++ [p])).Fits) : (tally t ps).Fits := by
  have hgrows : ∀ (P : Package → Prop) [DecidablePred P], 0 ≤ amountIf P p :=
    fun P _ => amountIf_nonneg hp
  rw [tally_snoc] at h
  obtain ⟨hcommitted, hclaimed, hclosed⟩ := h
  refine ⟨?_, ?_, ?_⟩
  · have hle := hgrows (Package.Awaits t)
    simp only at hcommitted
    omega
  · have hle := hgrows (Package.PaidOut t)
    simp only at hclaimed
    omega
  · have hle := hgrows (Package.Closed t)
    simp only at hclosed
    omega

theorem foldlM_aggregatePackage (hps : ∀ p ∈ ps, 0 < p.amount) : ps.foldlM (aggregatePackage t) ⟨0, 0, 0⟩ =
      if (tally t ps).Fits then .ok (tally t ps) else .error .trap := by
  induction ps using List.reverseRecOn with
  | nil =>
    have hzero : (tally t []).Fits := by simp [tally, Aggregates.Fits]
    rw [if_pos hzero]
    rfl
  | append_singleton ps p ih =>
    have hp : 0 < p.amount := hps p (by simp)
    have hrest : ∀ q ∈ ps, 0 < q.amount := fun q hq => hps q (by simp [hq])
    rw [List.foldlM_append, ih hrest]
    by_cases hfits : (tally t ps).Fits
    · rw [if_pos hfits, ← aggregatePackage_tally hrest hp hfits, ok_bind, List.foldlM_cons]
      exact bind_pure _
    · rw [if_neg hfits, if_neg fun h => hfits (fits_of_snoc hp h)]
      rfl

def aggregatesOf (w : World τ) (t : Address) : Aggregates where
  totalCommitted := sumIf (Package.Awaits t) w.store.packages
  totalClaimed := sumIf (Package.PaidOut t) w.store.packages
  totalExpiredCancelled := sumIf (Package.Closed t) w.store.packages

theorem aggregatesOf_total (w : World τ) (t : Address) :
    (aggregatesOf w t).totalCommitted + (aggregatesOf w t).totalClaimed +
        (aggregatesOf w t).totalExpiredCancelled = sumIf (fun p => p.OfToken t) w.store.packages := by
  unfold aggregatesOf sumIf
  rw [← sumOver_add, ← sumOver_add]
  apply sumOver_congr
  intro id p _
  unfold Package.Awaits Package.PaidOut Package.Closed
  have hstatus : p.status = .created ∨ p.status = .claimed ∨
      p.status = .expired ∨ p.status = .cancelled ∨ p.status = .refunded := by
    cases p.status <;> simp
  by_cases ht : p.OfToken t
  · rcases hstatus with hs | hs | hs | hs | hs <;> simp [hs, ht]
  · simp [ht]

theorem Reaches.getAggregates_eq {tr : Trace τ} (h : Reaches H tr w) (t : Address) : getAggregates w t =
      if (aggregatesOf w t).Fits then .ok (aggregatesOf w t) else .error .trap := by
  have hw := h.wellFormed
  have hperm := h.indexed_perm
  have hsum : ∀ (P : Package → Prop) [DecidablePred P], ((indexed w).map (amountIf P)).sum = sumIf P w.store.packages := by
    intro P _
    rw [(hperm.map (amountIf P)).sum_eq]
    exact sum_entries (amountIf P) w.store.packages _ hw.below
  have htally : tally t (indexed w) = aggregatesOf w t := by
    unfold tally aggregatesOf
    rw [hsum, hsum, hsum]
  have hamounts : ∀ p ∈ indexed w, 0 < p.amount := by
    intro p hp
    obtain ⟨id, -, hid⟩ := List.mem_filterMap.mp hp
    exact hw.amount_pos id p hid
  rw [getAggregates_eq_foldlM, foldlM_aggregatePackage hamounts, htally]

end Tally

/-- The index, the ids and the stored packages agree in every reachable ledger. A slot below
`KEY_PKG_IDX` names a stored package, a stored package is named by one slot, lies under its own id
and below the counter; a batch leaves every stored package as it is. So the aggregates of a token
add up to all its packages, unless one of the three sums leaves `i128`, and the counts by id are
counts over the index. -/
theorem package_index_exact {tr : Trace τ} (h : Reaches H tr w) :
    ((∀ i : ℕ, i < w.store.pkgIdx → ∃ (id : ℕ) (p : Package),
        w.store.index[i]? = some id ∧ w.store.packages[id]? = some p) ∧
      ∀ (id : ℕ) (p : Package), w.store.packages[id]? = some p →
        ∃! i : ℕ, i < w.store.pkgIdx ∧ w.store.index[i]? = some id) ∧
    (∀ (id : ℕ) (p : Package), w.store.packages[id]? = some p → p.id = id ∧ id < w.store.pkgCounter) ∧
    (∀ signers operator recipients amounts token expiresIn metadatas w' ids,
      batchCreatePackages H signers w operator recipients amounts token expiresIn metadatas = .ok (w', ids) →
      (∀ (id : ℕ) (p : Package), w.store.packages[id]? = some p →
        w'.store.packages[id]? = some p) ∧ ∀ id ∈ ids, w.store.packages[id]? = none) ∧
    (∀ t, (∀ agg, getAggregates w t = .ok agg →
        agg.totalCommitted + agg.totalClaimed + agg.totalExpiredCancelled =
          sumIf (fun p => p.OfToken t) w.store.packages) ∧
      ((∃ agg, getAggregates w t = .ok agg) ↔ (aggregatesOf w t).Fits)) ∧ (indexed w).Perm (numbered w) ∧
    ∀ (campaignRef : Text) (recipient : Address), getCampaignPackageCount w campaignRef =
        (indexed w).countP (fun p => p.metadata[metaCampaignRef]? = some campaignRef) ∧
      getCampaignClaimCount w campaignRef = (indexed w).countP (fun p =>
        p.status = .claimed ∧ p.metadata[metaCampaignRef]? = some campaignRef) ∧
      getRecipientPackageCount w recipient =
        (indexed w).countP (fun p => p.recipient = recipient) := by
  have hw := h.wellFormed
  have hindex := h.indexExact
  -- the views count through the ids, which is the order of the index up to a permutation
  have hcount : ∀ P : Package → Bool, countPackages w P = (indexed w).countP P := by
    intro P
    rw [countPackages_eq]
    exact (h.indexed_perm.countP_eq P).symm
  refine ⟨⟨?_, ?_⟩, ?_, ?_, ?_, h.indexed_perm, ?_⟩
  · intro i hi
    obtain ⟨id, hid, p, hp⟩ := hindex.filled i hi
    exact ⟨id, p, hid, hp⟩
  · intro id p hp
    obtain ⟨i, hi⟩ := hindex.complete id ⟨p, hp⟩
    refine ⟨i, ⟨hindex.lt_of_get hi, hi⟩, ?_⟩
    intro j hj
    exact hindex.once j i id hj.2 hi
  · intro id p hp
    exact ⟨hw.key id p hp, hw.below id p hp⟩
  · intro signers operator recipients amounts token expiresIn metadatas w' ids hbatch
    exact batchCreatePackages_fresh hw hbatch
  · intro t
    rw [h.getAggregates_eq t]
    by_cases hfits : (aggregatesOf w t).Fits
    · rw [if_pos hfits]
      refine ⟨?_, iff_of_true ⟨_, rfl⟩ hfits⟩
      intro agg hagg
      cases hagg
      exact aggregatesOf_total w t
    · rw [if_neg hfits]
      exact ⟨nofun, iff_of_false nofun hfits⟩
  · intro campaignRef recipient
    exact ⟨hcount _, hcount _, hcount _⟩

def gapFilled : List (Move Balances) := [
  .call [] (.init ⟨1⟩),
  .call [⟨1⟩] (.fund ⟨9⟩ ⟨1⟩ 100),
  .call [⟨1⟩] (.createPackage ⟨1⟩ 5 ⟨2⟩ 10 ⟨9⟩ 0 ∅),
  .call [⟨1⟩] (.batchCreatePackages ⟨1⟩ [⟨2⟩, ⟨3⟩] [10, 5] ⟨9⟩ 50 [∅, ∅]),
  .call [⟨1⟩] (.createPackage ⟨1⟩ 2 ⟨2⟩ 20 ⟨9⟩ 0 ∅),
  .call [⟨2⟩] (.claim 6),
  .call [⟨1⟩] (.revoke 5)]

theorem package_index_exact_gapFilled :
    (∃! i : ℕ, i < 4 ∧ (played (plainHost ⟨0⟩) 100 [((⟨9⟩, ⟨1⟩), 100)] gapFilled).2.store.index[i]? = some 2) ∧
    (∃ agg, getAggregates (played (plainHost ⟨0⟩) 100 [((⟨9⟩, ⟨1⟩), 100)] gapFilled).2 ⟨9⟩ = .ok agg ∧
      agg.totalCommitted + agg.totalClaimed + agg.totalExpiredCancelled = 45) ∧
    getRecipientPackageCount (played (plainHost ⟨0⟩) 100 [((⟨9⟩, ⟨1⟩), 100)] gapFilled).2 ⟨2⟩ = 3 := by
  have hrun := played_reaches (H := plainHost ⟨0⟩) 100 [((⟨9⟩, ⟨1⟩), 100)] gapFilled
  generalize hw : (played (plainHost ⟨0⟩) 100 [((⟨9⟩, ⟨1⟩), 100)] gapFilled).2 = w at hrun ⊢
  have hexact := package_index_exact hrun
  have hslots : w.store.pkgIdx = 4 := by
    subst hw
    decide +kernel
  have hstored : w.store.packages[2]?.isSome = true := by
    subst hw
    decide +kernel
  have hsum : sumIf (fun p => p.OfToken ⟨9⟩) w.store.packages = 45 := by
    subst hw
    decide +kernel
  have hfits : (aggregatesOf w ⟨9⟩).Fits := by
    subst hw
    decide +kernel
  have hcount : (indexed w).countP (fun p => p.recipient = (⟨2⟩ : Address)) = 3 := by
    subst hw
    decide +kernel
  obtain ⟨p, hp⟩ := Option.isSome_iff_exists.mp hstored
  obtain ⟨agg, hagg⟩ := (hexact.2.2.2.1 ⟨9⟩).2.mpr hfits
  refine ⟨?_, ⟨agg, hagg, ?_⟩, ?_⟩
  · rw [← hslots]
    exact hexact.1.2 2 p hp
  · rw [(hexact.2.2.2.1 ⟨9⟩).1 agg hagg, hsum]
  · rw [(hexact.2.2.2.2.2 [] ⟨2⟩).2.2, hcount]

/-- Two packages of half the range each, both revoked: together they leave `i128`. -/
def revokedTwice : List (Move Balances) := [
  .call [] (.init ⟨1⟩),
  .call [⟨1⟩] (.fund ⟨9⟩ ⟨1⟩ (2 ^ 126)),
  .call [⟨1⟩] (.createPackage ⟨1⟩ 0 ⟨2⟩ (2 ^ 126) ⟨9⟩ 0 ∅),
  .call [⟨1⟩] (.revoke 0),
  .call [⟨1⟩] (.createPackage ⟨1⟩ 1 ⟨2⟩ (2 ^ 126) ⟨9⟩ 0 ∅),
  .call [⟨1⟩] (.revoke 1)]

theorem revokedTwice_no_aggregates : ∃ w : World Balances, Reaches (plainHost ⟨0⟩)
      (played (plainHost ⟨0⟩) 100 [((⟨9⟩, ⟨1⟩), 2 ^ 126)] revokedTwice).1 w ∧
    ¬ ∃ agg, getAggregates w ⟨9⟩ = .ok agg ∧ agg.totalCommitted + agg.totalClaimed + agg.totalExpiredCancelled =
        sumIf (fun p => p.OfToken ⟨9⟩) w.store.packages := by
  refine ⟨_, played_reaches _ _ _, ?_⟩
  have htrap : (getAggregates (played (plainHost ⟨0⟩) 100 [((⟨9⟩, ⟨1⟩), 2 ^ 126)]
      revokedTwice).2 ⟨9⟩).toOption.isSome = false := by decide +kernel
  rintro ⟨agg, hagg, -⟩
  rw [hagg] at htrap
  cases htrap

end PackageIndex
end Soter.AidEscrow
