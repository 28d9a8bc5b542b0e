import Soter.AidEscrow.Acts

/-! What the acts do to the stored packages, and the sums of amounts over them. -/
namespace Soter.AidEscrow
open Std Soter.Fallible Soter.MapSum
open scoped BigOperators

variable {τ : Type} {H : Host τ} {w w' : World τ} {a : Act}

inductive Forward : PackageStatus → PackageStatus → Prop
  | claim : Forward .created .claimed
  | expire : Forward .created .expired
  | cancel : Forward .created .cancelled
  | refund : Forward .created .refunded
  | refundExpired : Forward .expired .refunded
  | refundCancelled : Forward .cancelled .refunded

structure Package.Evolves (p p' : Package) : Prop where
  id : p'.id = p.id
  amount : p'.amount = p.amount
  token : p'.token = p.token
  metadata : p'.metadata = p.metadata
  status : p'.status = p.status ∨ Forward p.status p'.status

def Act.target : Act → Option PackageStatus
  | .claim _ _ | .disburse _ => some .claimed
  | .cancel _ => some .cancelled
  | .expire _ => some .expired
  | .refund _ => some .refunded
  | _ => none

variable {id : ℕ} {p : Package}

theorem Atom.store_cases (h : Atom H w a w') : w'.store = w.store ∨
    (∃ p, a = .create p ∧ w.store.packages[p.id]? = none ∧ p.status = .created ∧ 0 < p.amount ∧ w'.store = w.store.add p) ∨
    (∃ id p p', w.store.packages[id]? = some p ∧ p.Evolves p' ∧
      (p'.status = p.status ∨ a.target = some p'.status) ∧ w'.store = w.store.put id p') := by
  cases h with
  | settings | note | fund | propose | withdrawProposal | execute | setDelegate | clearDelegate
  | dropDelegate | tick | outside => exact .inl rfl
  | backfill _ h =>
    obtain ⟨totals, rfl⟩ := backfill_only_totals h
    exact .inl rfl
  | create _ hfresh hstatus hamount => exact .inr (.inl ⟨_, rfl, hfresh, hstatus, hamount, rfl⟩)
  | claim hp hstatus | disburse hp hstatus =>
    refine .inr (.inr ⟨_, _, _, hp, ?_, .inr rfl, rfl⟩)
    exact ⟨rfl, rfl, rfl, rfl, .inr (hstatus ▸ .claim)⟩
  | cancel hp hstatus =>
    refine .inr (.inr ⟨_, _, _, hp, ?_, .inr rfl, rfl⟩)
    exact ⟨rfl, rfl, rfl, rfl, .inr (hstatus ▸ .cancel)⟩
  | expire hp hstatus =>
    refine .inr (.inr ⟨_, _, _, hp, ?_, .inr rfl, rfl⟩)
    exact ⟨rfl, rfl, rfl, rfl, .inr (hstatus ▸ .expire)⟩
  | refundLocked hp _ _ hstatus =>
    refine .inr (.inr ⟨_, _, _, hp, ?_, .inr rfl, rfl⟩)
    refine ⟨rfl, rfl, rfl, rfl, .inr ?_⟩
    rcases hstatus with ⟨hs, -⟩ | hs
    · exact hs ▸ .refund
    · exact hs ▸ .refundExpired
  | refundCancelled hp _ _ hstatus =>
    refine .inr (.inr ⟨_, _, _, hp, ?_, .inr rfl, rfl⟩)
    exact ⟨rfl, rfl, rfl, rfl, .inr (hstatus ▸ .refundCancelled)⟩
  | reassign hp | extend hp | attach hp =>
    refine .inr (.inr ⟨_, _, _, hp, ?_, ?_, rfl⟩)
    · exact ⟨rfl, rfl, rfl, rfl, .inl rfl⟩
    · exact .inl rfl

@[simp] theorem put_packages (s : PackageStore) (id : ℕ) (p : Package) (k : ℕ) :
    (s.put id p).packages[k]? = if k = id then some p else s.packages[k]? :=
  get_insert _ _ _ _

@[simp] theorem add_packages (s : PackageStore) (p : Package) (k : ℕ) :
    (s.add p).packages[k]? = if k = p.id then some p else s.packages[k]? :=
  get_insert _ _ _ _

theorem Atom.package_kept (h : Atom H w a w') (hp : w.store.packages[id]? = some p) :
    ∃ p', w'.store.packages[id]? = some p' ∧ p.Evolves p' ∧ (p'.status = p.status ∨ a.target = some p'.status) := by
  have hsame : p.Evolves p := ⟨rfl, rfl, rfl, rfl, .inl rfl⟩
  rcases h.store_cases with hs | ⟨q, -, hfresh, -, -, hs⟩ | ⟨k, q, q', hq, hevolves, htarget, hs⟩
  · exact ⟨p, hs ▸ hp, hsame, .inl rfl⟩
  · refine ⟨p, ?_, hsame, .inl rfl⟩
    rw [hs, add_packages, if_neg, hp]
    rintro rfl
    exact nomatch hfresh.symm.trans hp
  · by_cases hid : id = k
    · subst hid
      obtain rfl := Option.some.inj (hq.symm.trans hp)
      exact ⟨q', by rw [hs, put_packages, if_pos rfl], hevolves, htarget⟩
    · exact ⟨p, by rw [hs, put_packages, if_neg hid, hp], hsame, .inl rfl⟩

theorem Atom.package_new (h : Atom H w a w') (hnone : w.store.packages[id]? = none) (hp : w'.store.packages[id]? = some p) :
    p.status = .created ∧ a = .create p := by
  rcases h.store_cases with hs | ⟨q, ha, -, hstatus, -, hs⟩ | ⟨k, q, q', hq, -, -, hs⟩
  · rw [hs, hnone] at hp
    cases hp
  · rw [hs, add_packages] at hp
    split at hp
    · cases hp
      exact ⟨hstatus, ha⟩
    · exact nomatch hnone.symm.trans hp
  · rw [hs, put_packages] at hp
    split at hp
    · rename_i hid
      subst hid
      exact nomatch hnone.symm.trans hq
    · exact nomatch hnone.symm.trans hp

def Act.subject : Act → Option ℕ
  | .create p => some p.id
  | .claim id _ | .disburse id | .cancel id | .expire id | .refund id | .reassign id _
  | .extend id _ | .attach id _ => some id
  | _ => none

theorem Atom.untouched (h : Atom H w a w') (hid : a.subject ≠ some id) : w'.store.packages[id]? = w.store.packages[id]? := by
  have hother : ∀ (k : ℕ) (q : Package), some k ≠ some id → (w.store.put k q).packages[id]? = w.store.packages[id]? := by
    intro k q hk
    rw [put_packages, if_neg]
    rintro rfl
    exact hk rfl
  cases h with
  | settings | note | fund | propose | withdrawProposal | execute | setDelegate | clearDelegate
  | dropDelegate | tick | outside => rfl
  | backfill _ h =>
    obtain ⟨totals, rfl⟩ := backfill_only_totals h
    rfl
  | @create p =>
    change (w.store.add p).packages[id]? = _
    rw [add_packages, if_neg]
    rintro rfl
    exact hid rfl
  | claim | disburse | cancel | expire | refundLocked | refundCancelled | reassign | extend
  | attach => exact hother _ _ hid

theorem Atom.settings_kept (h : Atom H w a w') (ha : a ≠ .settings) :
    w'.settings = w.settings := by
  cases h with
  | settings => exact absurd rfl ha
  | backfill _ h =>
    obtain ⟨totals, rfl⟩ := backfill_only_totals h
    rfl
  | _ => rfl

theorem Atom.becomes_claimed (h : Atom H w a w') {q : Package}
    (hp : w.store.packages[id]? = some p) (hopen : p.status ≠ .claimed)
    (hq : w'.store.packages[id]? = some q) (hclaimed : q.status = .claimed) :
    (∃ payee, a = .claim id payee) ∨ a = .disburse id := by
  have hsubject : a.subject = some id := by
    by_contra hid
    rw [h.untouched hid, hp] at hq
    cases hq
    exact hopen hclaimed
  obtain ⟨p', hp', -, hstatus⟩ := h.package_kept hp
  obtain rfl := Option.some.inj (hq.symm.trans hp')
  rcases hstatus with hsame | htarget
  · exact absurd (hsame.symm.trans hclaimed) hopen
  · rw [hclaimed] at htarget
    cases a with
    | claim k payee =>
      cases hsubject
      exact .inl ⟨payee, rfl⟩
    | disburse k =>
      cases hsubject
      exact .inr rfl
    | _ => cases htarget

structure WellFormed (w : World τ) : Prop where
  key : ∀ (id : ℕ) (p : Package), w.store.packages[id]? = some p → p.id = id
  below : ∀ (id : ℕ) (p : Package), w.store.packages[id]? = some p → id < w.store.pkgCounter
  amount_pos : ∀ (id : ℕ) (p : Package), w.store.packages[id]? = some p → 0 < p.amount

theorem wellFormed_deployed (now : ℕ) (tokens : τ) : WellFormed (World.deployed now tokens) := by
  constructor <;> intro id p h <;> simp [World.deployed] at h

theorem Atom.wellFormed (h : Atom H w a w') (hw : WellFormed w) : WellFormed w' := by
  rcases h.store_cases with hs | ⟨q, -, hfresh, -, hamount, hs⟩ | ⟨k, q, q', hq, hevolves, -, hs⟩
  · constructor <;> rw [hs]
    exacts [hw.key, hw.below, hw.amount_pos]
  · constructor <;> intro id p hp <;> rw [hs, add_packages] at hp <;> split at hp
    · rename_i hid
      cases hp
      exact hid.symm
    · exact hw.key id p hp
    · rename_i hid
      simp only [hs, PackageStore.add]
      split <;> omega
    · have hlt := hw.below id p hp
      simp only [hs, PackageStore.add]
      split <;> omega
    · cases hp
      exact hamount
    · exact hw.amount_pos id p hp
  · constructor <;> intro id p hp <;> rw [hs, put_packages] at hp <;> split at hp
    · rename_i hid
      cases hp
      rw [hevolves.id, hw.key k q hq, hid]
    · exact hw.key id p hp
    · rename_i hid
      rw [hs, hid]
      exact hw.below k q hq
    · rw [hs]
      exact hw.below id p hp
    · cases hp
      rw [hevolves.amount]
      exact hw.amount_pos k q hq
    · exact hw.amount_pos id p hp

section Sums

/-- The amounts of the stored packages that meet `P`. -/
def sumIf (P : Package → Prop) [DecidablePred P] (m : ExtTreeMap ℕ Package) : ℤ :=
  sumOver (fun _ p => if P p then p.amount else 0) m

variable {P : Package → Prop} [DecidablePred P] {m : ExtTreeMap ℕ Package}

variable {p' : Package}

theorem sumIf_new (hfresh : m[id]? = none) :
    sumIf P (m.insert id p) = sumIf P m + if P p then p.amount else 0 :=
  sumOver_insert_new _ _ _ _ hfresh

theorem sumIf_update (hp : m[id]? = some p) : sumIf P (m.insert id p') =
      sumIf P m - (if P p then p.amount else 0) + if P p' then p'.amount else 0 :=
  sumOver_update _ _ _ _ _ hp

theorem sumIf_rewrite (hp : m[id]? = some p) (hP : P p' ↔ P p)
    (hamount : p'.amount = p.amount) : sumIf P (m.insert id p') = sumIf P m := by
  rw [sumIf_update hp, hamount, if_congr hP rfl rfl, sub_add_cancel]

theorem sumIf_nonneg (hm : ∀ (id : ℕ) (p : Package), m[id]? = some p → 0 < p.amount) : 0 ≤ sumIf P m := by
  refine sumOver_nonneg _ _ fun id p hp => ?_
  split
  · exact (hm id p hp).le
  · exact le_rfl

theorem le_sumIf (hm : ∀ (id : ℕ) (p : Package), m[id]? = some p → 0 < p.amount)
    (hp : m[id]? = some p) (hP : P p) : p.amount ≤ sumIf P m := by
  have h := le_sumOver (fun _ p => if P p then p.amount else 0) m (fun id p hp => by
    split
    · exact (hm id p hp).le
    · exact le_rfl) id p hp
  rwa [if_pos hP] at h

def Package.Awaits (t : Address) (p : Package) : Prop := p.status = .created ∧ p.OfToken t

def Package.AwaitsIn (c : Text) (t : Address) (p : Package) : Prop :=
  p.status = .created ∧ p.OfCampaign c t

instance (t : Address) : DecidablePred (Package.Awaits t) :=
  fun _ => inferInstanceAs (Decidable (_ ∧ _))

instance (c : Text) (t : Address) : DecidablePred (Package.AwaitsIn c t) :=
  fun _ => inferInstanceAs (Decidable (_ ∧ _))

def createdSum (w : World τ) (t : Address) : ℤ := sumIf (Package.Awaits t) w.store.packages

def campaignCreatedSum (w : World τ) (c : Text) (t : Address) : ℤ :=
  sumIf (Package.AwaitsIn c t) w.store.packages

end Sums

theorem applyNestedDelta_amount {m m' : CampaignTotals} {ref c : Text} {token t : Address}
    {amount : ℤ} (hpos : 0 < amount) (h : applyNestedDelta m ref token amount = .ok m') :
    campaignAmountOf m' c t =
      campaignAmountOf m c t + if ref = c ∧ token = t then amount else 0 := by
  obtain ⟨-, rfl⟩ := applyNestedDelta_eq_ok.mp h
  rw [campaignAmountOf_insert, adjusted_of_pos hpos]
  by_cases hct : c = ref ∧ t = token
  · obtain ⟨rfl, rfl⟩ := hct
    simp
  · rw [if_neg hct, if_neg (fun he => hct ⟨he.1.symm, he.2.symm⟩), add_zero]

theorem backfill_amounts (hw : WellFormed w) (c : Text) (t : Address) : ∀ (n : ℕ) (acc : CampaignTotals × CampaignTotals),
    (List.range n).foldlM (backfillOne w) (∅, ∅) = .ok acc →
    campaignAmountOf acc.1 c t = ∑ k ∈ Finset.range n,
      share (fun _ p => if p.AwaitsIn c t then p.amount else 0) w.store.packages k ∧
    campaignAmountOf acc.2 c t = ∑ k ∈ Finset.range n,
      share (fun _ p => if p.status = .claimed ∧ p.OfCampaign c t then p.amount else 0)
        w.store.packages k
  | 0, acc, h => by
    cases h
    simp
  | n + 1, acc, h => by
    rw [List.range_succ, List.foldlM_append, bind_eq_ok] at h
    obtain ⟨mid, hmid, h⟩ := h
    simp only [List.foldlM_cons, List.foldlM_nil, bind_eq_ok, pure_eq_ok] at h
    obtain ⟨last, h, rfl⟩ := h
    obtain ⟨hlocked, hclaimed⟩ := backfill_amounts hw c t n mid hmid
    -- induction on the ids scanned: the last one adds what it holds
    rw [Finset.sum_range_succ, Finset.sum_range_succ, ← hlocked, ← hclaimed]
    unfold backfillOne at h
    -- the scan passes over a gap in the ids and over a package without a campaign
    cases hp : w.store.packages[n]? with
    | none =>
      rw [hp] at h
      cases h
      simp [share, hp]
    | some p =>
      have hpos := hw.amount_pos n p hp
      simp only [hp] at h
      simp only [share, hp, Option.elim_some, Package.AwaitsIn, Package.OfCampaign]
      rcases Option.eq_none_or_eq_some (campaignRefFromMetadata p.metadata) with href | ⟨ref, href⟩
      · simp only [href] at h
        cases h
        simp [href]
      · simp only [href, Option.some.injEq] at h ⊢
        cases hs : p.status with
        | created =>
          simp only [hs, bind_eq_ok, pure_eq_ok] at h
          obtain ⟨m, hm, rfl⟩ := h
          simp [applyNestedDelta_amount hpos hm]
        | claimed =>
          simp only [hs, bind_eq_ok, pure_eq_ok] at h
          obtain ⟨m, hm, rfl⟩ := h
          simp [applyNestedDelta_amount hpos hm]
        | expired | cancelled | refunded =>
          simp only [hs] at h
          cases h
          simp

/-- The migration rebuilds the campaign totals from the package records: Created packages count as
locked, Claimed ones as claimed, in whatever way they were paid. -/
theorem backfill_books (hw : WellFormed w) (h : backfillCampaignTokenTotals w = .ok w') :
    ∃ totals, w' = { w with totals } ∧ totals.books = { w.totals.books with
      campaignLocked := campaignCreatedSum w
      campaignClaimed := fun c t =>
        sumIf (fun p => p.status = .claimed ∧ p.OfCampaign c t) w.store.packages } := by
  simp only [backfillCampaignTokenTotals, bind_eq_ok, pure_eq_ok] at h
  obtain ⟨acc, hacc, rfl⟩ := h
  refine ⟨_, rfl, ?_⟩
  ext1
  · rfl
  · rfl
  · funext c t
    refine (backfill_amounts hw c t _ acc hacc).1.trans ?_
    exact (sumOver_eq_sum_range _ _ _ hw.below).symm
  · funext c t
    refine (backfill_amounts hw c t _ acc hacc).2.trans ?_
    exact (sumOver_eq_sum_range _ _ _ hw.below).symm

end Soter.AidEscrow
