import Soter.AidEscrow.ClaimRuns
import Soter.AidEscrow.Payouts

/-! The claimed totals against the claims that were paid, and the packages that nobody claims any more. -/
namespace Soter.AidEscrow
open Std Soter.Fallible Soter.MapSum Soter.Runs
open scoped BigOperators

variable {τ : Type} {H : Host τ} {w w' : World τ} {a : Act} {m : Move τ}

def PaidAs (w : World τ) (purpose : Purpose) : Prop := ∃ x ∈ w.transfers, x.purpose = purpose

instance (w : World τ) (purpose : Purpose) : Decidable (PaidAs w purpose) :=
  inferInstanceAs (Decidable (∃ x ∈ w.transfers, x.purpose = purpose))

/-- The amounts of the packages that meet `Q` and were paid for a purpose of this kind. -/
def paidSum (w : World τ) (kind : ℕ → Purpose) (Q : Package → Prop) [DecidablePred Q] : ℤ :=
  sumOver (fun id p => if PaidAs w (kind id) ∧ Q p then p.amount else 0) w.store.packages

def claimedSum (w : World τ) (t : Address) : ℤ := paidSum w .claim fun p => p.OfToken t

def campaignClaimedSum (w : World τ) (c : Text) (t : Address) : ℤ :=
  paidSum w .claim fun p => p.OfCampaign c t

def untaggedClaimedSum (w : World τ) (t : Address) : ℤ :=
  paidSum w .claim fun p => campaignRefFromMetadata p.metadata = none ∧ p.OfToken t

def campaignDisbursedSum (w : World τ) (c : Text) (t : Address) : ℤ :=
  paidSum w .disburse fun p => p.OfCampaign c t

section Purposes

variable {purpose : Purpose} {id : ℕ}

theorem paidAs_append {x : Transfer} (h : w'.transfers = w.transfers ++ [x]) (purpose : Purpose) :
    PaidAs w' purpose ↔ PaidAs w purpose ∨ x.purpose = purpose := by
  simp only [PaidAs, h, List.mem_append, List.mem_singleton, or_and_right, exists_or, exists_eq_left]

theorem PaidAs.payout (h : PaidAs w purpose)
    (hid : purpose.package = some id) : ∃ x ∈ payoutsFor w id, x.purpose = purpose := by
  obtain ⟨x, hx, hpurpose⟩ := h
  refine ⟨x, ?_, hpurpose⟩
  rw [payoutsFor, List.mem_filter, hpurpose]
  exact ⟨hx, by simpa using hid⟩

theorem AllSettled.not_paidAs (hI : AllSettled H w) (hid : purpose.package = some id)
    (hp : ∀ p, w.store.packages[id]? = some p → p.status.paid = false) : ¬ PaidAs w purpose := by
  intro hpaid
  obtain ⟨x, hx, -⟩ := hpaid.payout hid
  have hsettled := hI id
  cases hget : w.store.packages[id]? with
  | none =>
    rw [hget, Settled] at hsettled
    rw [hsettled] at hx
    cases hx
  | some p =>
    rw [hget, Settled, if_neg (by simp [hp p hget])] at hsettled
    rw [hsettled] at hx
    cases hx

theorem AllSettled.claimed_iff (hI : AllSettled H w) {p : Package} (hp : w.store.packages[id]? = some p) :
    p.status = .claimed ↔ PaidAs w (.claim id) ∨ PaidAs w (.disburse id) := by
  have hsettled := hI id
  rw [hp, Settled] at hsettled
  constructor
  · intro hs
    rw [hs, if_pos (show PackageStatus.claimed.paid = true from rfl)] at hsettled
    obtain ⟨x, hx, -, -, -, hgives⟩ := hsettled
    have hmem : x ∈ payoutsFor w id := hx ▸ List.mem_singleton_self x
    rw [payoutsFor, List.mem_filter, decide_eq_true_eq] at hmem
    obtain ⟨hmem, hpackage⟩ := hmem
    cases hpurpose : x.purpose with
    | claim k =>
      rw [hpurpose] at hpackage
      exact .inl ⟨x, hmem, by rw [hpurpose, Option.some.inj hpackage]⟩
    | disburse k =>
      rw [hpurpose] at hpackage
      exact .inr ⟨x, hmem, by rw [hpurpose, Option.some.inj hpackage]⟩
    | fund | refund | surplus => simp [hpurpose, hs, Purpose.gives] at hgives
  · intro hpaid
    obtain ⟨x, hx, hgives⟩ : ∃ x ∈ payoutsFor w id, x.purpose.gives = some .claimed := by
      rcases hpaid with h | h <;> obtain ⟨x, hx, hpurpose⟩ := h.payout rfl <;>
        exact ⟨x, hx, by rw [hpurpose]; rfl⟩
    by_cases hs : p.status.paid = true
    · rw [if_pos hs] at hsettled
      obtain ⟨y, hy, -, -, -, hstatus⟩ := hsettled
      rw [hy, List.mem_singleton] at hx
      subst hx
      exact Option.some.inj (hstatus.symm.trans hgives)
    · rw [if_neg hs] at hsettled
      rw [hsettled] at hx
      cases hx

theorem AllSettled.claim_or_disburse (hI : AllSettled H w)
    (hclaim : PaidAs w (.claim id)) (hdisburse : PaidAs w (.disburse id)) : False := by
  obtain ⟨x, hx, hxp⟩ := hclaim.payout (rfl : _ = some id)
  obtain ⟨y, hy, hyp⟩ := hdisburse.payout (rfl : _ = some id)
  have hsettled := hI id
  have hsame : x = y := by
    cases hget : w.store.packages[id]? with
    | none =>
      rw [hget, Settled] at hsettled
      rw [hsettled] at hx
      cases hx
    | some p =>
      rw [hget, Settled] at hsettled
      split at hsettled
      · obtain ⟨z, hz, -⟩ := hsettled
        rw [hz, List.mem_singleton] at hx hy
        rw [hx, hy]
      · rw [hsettled] at hx
        cases hx
  subst hsame
  rw [hxp] at hyp
  cases hyp

end Purposes
section Sums
variable {kind : ℕ → Purpose} {Q : Package → Prop} [DecidablePred Q]

/-- `Q` looks only at what a package never changes. -/
def Lasting (Q : Package → Prop) : Prop :=
  ∀ p p' : Package, p'.token = p.token → p'.metadata = p.metadata → (Q p' ↔ Q p)

theorem lasting_ofToken (t : Address) : Lasting fun p => p.OfToken t := fun p p' ht _ => by
  simp only [Package.OfToken, ht]

theorem lasting_ofCampaign (c : Text) (t : Address) : Lasting fun p => p.OfCampaign c t :=
  fun p p' ht hm => by simp only [Package.OfCampaign, ht, hm]

theorem Atom.paidSum_kept (h : Atom H w a w') (hI : AllSettled H w) (hQ : Lasting Q)
    (hkind : ∀ id, (kind id).package = some id) (hpaid : ∀ id, PaidAs w' (kind id) ↔ PaidAs w (kind id)) :
    paidSum w' kind Q = paidSum w kind Q := by
  have hfun : (fun (id : ℕ) (p : Package) => if PaidAs w' (kind id) ∧ Q p then p.amount else 0) =
      fun id p => if PaidAs w (kind id) ∧ Q p then p.amount else 0 := by
    funext id p
    exact if_congr (by rw [hpaid id]) rfl rfl
  rw [paidSum, hfun]
  rcases h.store_cases with hs | ⟨p, -, hfresh, -, -, hs⟩ | ⟨id, p, p', hp, hevolves, -, hs⟩
  · rw [hs]
    rfl
  · have hnone : ¬ PaidAs w (kind p.id) :=
      hI.not_paidAs (hkind p.id) fun q hq => nomatch hfresh.symm.trans hq
    rw [hs, PackageStore.add, sumOver_insert_new _ _ _ _ hfresh, if_neg fun hc => hnone hc.1, add_zero]
    rfl
  · rw [hs, PackageStore.put, sumOver_update _ _ _ _ _ hp, hevolves.amount,
      if_congr (and_congr_right fun _ => hQ p p' hevolves.token hevolves.metadata) rfl rfl,
      sub_add_cancel]
    rfl

theorem paidSum_claim (hQ : Lasting Q) {id : ℕ} {p q : Package} {x : Transfer}
    (hp : w.store.packages[id]? = some p) (hnone : ¬ PaidAs w (.claim id))
    (hx : x.purpose = .claim id) (htransfers : w'.transfers = w.transfers ++ [x])
    (hstore : w'.store = w.store.put id q) (htoken : q.token = p.token)
    (hmetadata : q.metadata = p.metadata) (hamount : q.amount = p.amount) :
    paidSum w' .claim Q = paidSum w .claim Q + if Q p then p.amount else 0 := by
  have hpaid : ∀ k, PaidAs w' (.claim k) ↔ PaidAs w (.claim k) ∨ id = k := fun k => by
    rw [paidAs_append htransfers, hx, Purpose.claim.injEq]
  have hQ' : Q q ↔ Q p := hQ p q htoken hmetadata
  rw [paidSum, hstore, PackageStore.put, sumOver_update _ _ _ _ _ hp,
    sumOver_congr_except _ (fun k q => if PaidAs w (.claim k) ∧ Q q then q.amount else 0) _ id p hp]
  · simp only [hpaid, hQ', hnone, hamount, or_true, true_and, false_and, ↓reduceIte]
    simp only [paidSum]
    omega
  · intro k q hk _
    simp only [hpaid, Ne.symm hk, or_false]

end Sums
section Books

/-- What the totals should be, if `extra` is added to the campaigns. -/
structure ClaimedExact (extra : Text → Address → ℤ) (w : World τ) : Prop where
  total : ∀ t, getTotalClaimed w t = claimedSum w t
  perCampaign : ∀ c t, getCampaignTokenClaimed w c t = campaignClaimedSum w c t + extra c t

variable {extra : Text → Address → ℤ}

theorem paidAs_claim_of_other {x : Transfer} (hx : x.asClaim = none)
    (h : w'.transfers = w.transfers ++ [x]) (id : ℕ) : PaidAs w' (.claim id) ↔ PaidAs w (.claim id) := by
  rw [paidAs_append h, or_iff_left]
  intro hpurpose
  rw [Transfer.asClaim, hpurpose] at hx
  cases hx

theorem decrementLocked_claimed {totals totals' : Totals} {p : Package} (hp : 0 < p.amount)
    (h : decrementLocked totals p.token p.metadata p.amount = .ok totals') :
    totals'.books.claimed = totals.books.claimed ∧
      totals'.books.campaignClaimed = totals.books.campaignClaimed := by
  rw [decrementLocked_books hp h]
  exact ⟨rfl, rfl⟩

theorem Atom.claimed_books_kept (h : Atom H w a w') (hw : WellFormed w) (ha : a.asClaim = none)
    (hfill : a ≠ .backfill) : w'.totals.books.claimed = w.totals.books.claimed ∧
      w'.totals.books.campaignClaimed = w.totals.books.campaignClaimed ∧
      ∀ id, PaidAs w' (.claim id) ↔ PaidAs w (.claim id) := by
  cases h with
  | backfill => exact absurd rfl hfill
  | claim => cases ha
  | settings | propose | withdrawProposal | setDelegate | clearDelegate | dropDelegate | tick
  | outside | reassign | extend | attach => exact ⟨rfl, rfl, fun _ => Iff.rfl⟩
  | note hbooks =>
    exact ⟨congrArg Books.claimed hbooks, congrArg Books.campaignClaimed hbooks, fun _ => Iff.rfl⟩
  | @create p _ totals _ _ _ _ _ _ _ _ _ hbooks =>
    have hclaimed : totals.books.claimed = w.totals.books.claimed := by rw [hbooks]; rfl
    have hcampaign : totals.books.campaignClaimed = w.totals.books.campaignClaimed := by
      rw [hbooks]; rfl
    exact ⟨hclaimed, hcampaign, fun _ => Iff.rfl⟩
  | fund | execute | refundCancelled =>
    exact ⟨rfl, rfl, paidAs_claim_of_other rfl rfl⟩
  | @cancel _ p totals _ hp _ htotals =>
    obtain ⟨hclaimed, hcampaign⟩ := decrementLocked_claimed (hw.amount_pos _ _ hp) htotals
    exact ⟨hclaimed, hcampaign, fun _ => Iff.rfl⟩
  | @expire _ p totals _ hp _ _ _ htotals =>
    obtain ⟨hclaimed, hcampaign⟩ := decrementLocked_claimed (hw.amount_pos _ _ hp) htotals
    exact ⟨hclaimed, hcampaign, fun _ => Iff.rfl⟩
  | @disburse _ p _ totals _ hp _ _ _ htotals =>
    obtain ⟨hclaimed, hcampaign⟩ := decrementLocked_claimed (hw.amount_pos _ _ hp) htotals
    exact ⟨hclaimed, hcampaign, paidAs_claim_of_other rfl rfl⟩
  | @refundLocked _ p _ _ totals _ hp _ _ _ _ htotals =>
    obtain ⟨hclaimed, hcampaign⟩ := decrementLocked_claimed (hw.amount_pos _ _ hp) htotals
    exact ⟨hclaimed, hcampaign, paidAs_claim_of_other rfl rfl⟩

theorem Atom.claimedExact (h : Atom H w a w') (hw : WellFormed w)
    (hS : AllSettled H w) (hfill : a ≠ .backfill) (hI : ClaimedExact extra w) : ClaimedExact extra w' := by
  by_cases ha : a.asClaim = none
  · obtain ⟨hclaimed, hcampaign, hpaid⟩ := h.claimed_books_kept hw ha hfill
    refine ⟨fun t => ?_, fun c t => ?_⟩
    · rw [claimedSum, h.paidSum_kept hS (lasting_ofToken t) (fun _ => rfl) hpaid]
      exact (congrFun hclaimed t).trans (hI.1 t)
    · rw [campaignClaimedSum, h.paidSum_kept hS (lasting_ofCampaign c t) (fun _ => rfl) hpaid]
      exact (congrFun (congrFun hcampaign c) t).trans (hI.2 c t)
  · cases h with
    | @claim id _ p _ totals _ hp hstatus _ _ _ _ _ htotals =>
      have hnone : ¬ PaidAs w (.claim id) := hS.not_paidAs rfl fun q hq => by
        obtain rfl := Option.some.inj (hp.symm.trans hq)
        rw [hstatus]
        rfl
      have hbooks := settleClaim_books (hw.amount_pos _ _ hp) htotals
      refine ⟨fun t => ?_, fun c t => ?_⟩
      · refine Eq.trans ?_ (paidSum_claim (lasting_ofToken t) (q := { p with status := .claimed })
          hp hnone rfl rfl rfl rfl rfl rfl).symm
        have hold : w.totals.books.claimed t = claimedSum w t := hI.1 t
        refine (congrFun (congrArg Books.claimed hbooks) t).trans ?_
        simp only [Books.countClaimed, Books.unlock, hold]
        split <;> simp [claimedSum]
      · have hold : w.totals.books.campaignClaimed c t = campaignClaimedSum w c t + extra c t :=
          hI.2 c t
        refine (congrFun (congrFun (congrArg Books.campaignClaimed hbooks) c) t).trans
          (Eq.trans ?_ (congrArg (· + extra c t) (paidSum_claim (lasting_ofCampaign c t)
            (q := { p with status := .claimed }) hp hnone rfl rfl rfl rfl rfl rfl).symm))
        simp only [Books.countClaimed, Books.unlock, hold, campaignClaimedSum]
        split <;> omega
    | _ => exact absurd rfl ha

theorem AllSettled.claimed_sum (hI : AllSettled H w) (c : Text) (t : Address) :
    sumIf (fun p => p.status = .claimed ∧ p.OfCampaign c t) w.store.packages =
      campaignClaimedSum w c t + campaignDisbursedSum w c t := by
  rw [campaignClaimedSum, campaignDisbursedSum, paidSum, paidSum, ← sumOver_add]
  refine sumOver_congr _ _ _ fun id p hp => ?_
  have hstatus := hI.claimed_iff hp
  by_cases hin : p.OfCampaign c t
  · by_cases hclaim : PaidAs w (.claim id)
    · have hnot : ¬ PaidAs w (.disburse id) := fun hd => hI.claim_or_disburse hclaim hd
      simp [hstatus, hclaim, hnot, hin]
    · by_cases hdisburse : PaidAs w (.disburse id) <;> simp [hstatus, hclaim, hdisburse, hin]
  · simp [hin]

theorem Atom.claimedExact_backfill (h : Atom H w .backfill w')
    (hw : WellFormed w) (hS : AllSettled H w) (hI : ClaimedExact extra w) :
    ClaimedExact (campaignDisbursedSum w) w' := by
  cases h with
  | backfill _ h =>
    obtain ⟨totals, rfl, hbooks⟩ := backfill_books hw h
    refine ⟨fun t => ?_, fun c t => ?_⟩
    · exact (congrFun (congrArg Books.claimed hbooks) t).trans (hI.1 t)
    · exact (congrFun (congrFun (congrArg Books.campaignClaimed hbooks) c) t).trans (hS.claimed_sum c t)

end Books

def rebuilds (t : Transition (World τ) (Move τ)) : Bool :=
  match t.label with
  | .call _ (.migrate newVersion) => decide (getVersion t.pre = 1 ∧ newVersion = 2)
  | _ => false

def lastRebuilt (tr : Trace τ) : Option (World τ) :=
  (tr.filter rebuilds).getLast?.map Transition.pre

def countedDisbursed (tr : Trace τ) (c : Text) (t : Address) : ℤ :=
  match lastRebuilt tr with
  | some w => campaignDisbursedSum w c t
  | none => 0

theorem countedDisbursed_snoc (tr : Trace τ) (t : Transition (World τ) (Move τ)) :
    countedDisbursed (tr ++ [t]) = if rebuilds t then campaignDisbursedSum t.pre else countedDisbursed tr := by
  funext c k
  unfold countedDisbursed lastRebuilt
  rw [List.filter_append]
  by_cases h : rebuilds t
  · simp [h]
  · simp [h]

theorem Move.permits_backfill (h : m.permits .backfill) : ∃ signers v, m = .call signers (.migrate v) := by
  cases m with
  | tick | outside => cases h
  | call signers c =>
    cases c with
    | migrate v => exact ⟨signers, v, rfl⟩
    | _ => simp [Move.permits, Call.permits] at h

theorem rebuilds_of_other (h : ¬ ∃ signers v, m = .call signers (.migrate v)) :
    rebuilds ⟨w, m, w'⟩ = false := by
  unfold rebuilds
  split
  · rename_i signers v hm
    exact absurd ⟨signers, v, hm⟩ h
  · rfl

theorem rebuilds_migrate (signers : List Address) (v : ℕ) :
    rebuilds ⟨w, .call signers (.migrate v), w'⟩ = decide (getVersion w = 1 ∧ v = 2) := rfl

theorem Step.claimedExact {extra : Text → Address → ℤ} (h : Step H w m w') (hw : WellFormed w)
    (hS : AllSettled H w) (hI : ClaimedExact extra w) :
    ClaimedExact (if rebuilds ⟨w, m, w'⟩ then campaignDisbursedSum w else extra) w' := by
  by_cases hm : ∃ signers v, m = .call signers (.migrate v)
  · obtain ⟨signers, v, rfl⟩ := hm
    cases h with
    | call h =>
      have hrun := migrate_run (H := H) h
      rw [rebuilds_migrate]
      by_cases hv : getVersion w = 1 ∧ v = 2
      · rw [if_pos hv] at hrun
        obtain ⟨mid, -, hfill, hset⟩ := hrun
        rw [if_pos (decide_eq_true hv)]
        exact hset.claimedExact (hfill.wellFormed hw) (hfill.allSettled hS) nofun (hfill.claimedExact_backfill hw hS hI)
      · rw [if_neg hv] at hrun
        rw [if_neg fun hr => hv (of_decide_eq_true hr)]
        exact hrun.claimedExact hw hS nofun hI
  · rw [rebuilds_of_other hm, if_neg nofun]
    obtain ⟨acts, hacts, hkind⟩ := step_path hw h (refundsMeet_true m w)
    exact (hacts.invariant (I := fun w => (WellFormed w ∧ AllSettled H w) ∧ ClaimedExact extra w)
      (C := fun t => t.label ≠ .backfill) ⟨⟨hw, hS⟩, hI⟩
      (fun t ht hfill => hm (Move.permits_backfill (hfill ▸ (hkind t ht).1)))
      fun _ hatom hfill hI => ⟨⟨hatom.wellFormed hI.1.1, hatom.allSettled hI.1.2⟩,
        hatom.claimedExact hI.1.1 hI.1.2 hfill hI.2⟩).2

theorem sum_campaignClaimed {s : Finset Text} (hs : ∀ (id : ℕ) (p : Package),
    w.store.packages[id]? = some p → ∀ c, campaignRefFromMetadata p.metadata = some c → c ∈ s) (t : Address) :
    ∑ c ∈ s, campaignClaimedSum w c t + untaggedClaimedSum w t = claimedSum w t := by
  unfold campaignClaimedSum untaggedClaimedSum claimedSum paidSum
  rw [sum_sumOver, ← sumOver_add]
  refine sumOver_congr _ _ _ fun id p hp => ?_
  by_cases hpaid : PaidAs w (.claim id) ∧ p.OfToken t
  · cases href : campaignRefFromMetadata p.metadata with
    | none => simp [hpaid, href, Package.OfCampaign]
    | some ref =>
      have hmem := hs id p hp ref href
      have htoken : p.token = t := hpaid.2
      simp [hpaid, href, Package.OfCampaign, htoken, hmem]
  · have hcampaign : ∀ c, ¬ (PaidAs w (.claim id) ∧ p.OfCampaign c t) :=
      fun c hc => hpaid ⟨hc.1, hc.2.2⟩
    have huntagged : ¬ (PaidAs w (.claim id) ∧ campaignRefFromMetadata p.metadata = none ∧
        p.OfToken t) := fun hc => hpaid ⟨hc.1, hc.2.2⟩
    simp only [hcampaign, huntagged, hpaid, ↓reduceIte, Finset.sum_const_zero, add_zero]

theorem Reaches.claimedExact {tr : Trace τ} (h : Reaches H tr w) : ClaimedExact (countedDisbursed tr) w := by
  obtain ⟨now, tokens, hrun⟩ := h
  induction hrun with
  | nil =>
    constructor
    · intro t
      simp [getTotalClaimed, claimedSum, paidSum, World.deployed]
    · intro c t
      simp [getCampaignTokenClaimed, campaignClaimedSum, paidSum, World.deployed, countedDisbursed, lastRebuilt]
  | @snoc tr u m v hbefore hstep ih =>
    have hreach : Reaches H tr u := ⟨now, tokens, hbefore⟩
    rw [countedDisbursed_snoc]
    exact hstep.claimedExact hreach.wellFormed hreach.allSettled ih

/-- In every run, the claimed total of a token is what was claimed of it, and the claimed total of
a campaign is what was claimed in it and what had been disbursed in it when the campaign totals
were last rebuilt; so the campaigns and the untagged claims add up to the total, such
disbursements apart. -/
theorem claimed_totals_exact {tr : Trace τ} (h : Reaches H tr w) : (∀ t, getTotalClaimed w t = claimedSum w t) ∧
      (∀ c t, getCampaignTokenClaimed w c t = campaignClaimedSum w c t + countedDisbursed tr c t) ∧
      ∀ (t : Address) (s : Finset Text), (∀ (id : ℕ) (p : Package), w.store.packages[id]? = some p →
          ∀ c, campaignRefFromMetadata p.metadata = some c → c ∈ s) →
        ∑ c ∈ s, getCampaignTokenClaimed w c t + untaggedClaimedSum w t =
          getTotalClaimed w t + ∑ c ∈ s, countedDisbursed tr c t := by
  obtain ⟨htotal, hcampaign⟩ := h.claimedExact
  refine ⟨htotal, hcampaign, fun t s hs => ?_⟩
  have hsum := sum_campaignClaimed hs t
  rw [htotal t, ← hsum, Finset.sum_congr rfl fun c _ => hcampaign c t, Finset.sum_add_distrib]
  omega

/-- One package of a campaign is disbursed and one is claimed before the migration, and one is
disbursed after it. -/
def disburseAndMigrate : List (Move Balances) := [
  .call [] (.init ⟨1⟩),
  .call [⟨1⟩] (.fund ⟨9⟩ ⟨1⟩ 30),
  .call [⟨1⟩] (.batchCreatePackages ⟨1⟩ [⟨2⟩, ⟨3⟩, ⟨4⟩] [10, 5, 3] ⟨9⟩ 50
    [(∅ : Metadata).insert metaCampaignRef [65], (∅ : Metadata).insert metaCampaignRef [65],
      (∅ : Metadata).insert metaCampaignRef [65]]),
  .call [⟨1⟩] (.disburse 0),
  .call [⟨3⟩] (.claim 1),
  .call [⟨1⟩] (.migrate 2),
  .call [⟨1⟩] (.disburse 2)]

theorem claimed_totals_exact_disburseAndMigrate :
    getTotalClaimed (played (plainHost ⟨0⟩) 100 [((⟨9⟩, ⟨1⟩), 100)] disburseAndMigrate).2 ⟨9⟩ = 5 ∧
      claimedSum (played (plainHost ⟨0⟩) 100 [((⟨9⟩, ⟨1⟩), 100)] disburseAndMigrate).2 ⟨9⟩ = 5 := by
  have hexact := claimed_totals_exact
    (played_reaches (H := plainHost ⟨0⟩) 100 [((⟨9⟩, ⟨1⟩), 100)] disburseAndMigrate)
  have htotal : getTotalClaimed
      (played (plainHost ⟨0⟩) 100 [((⟨9⟩, ⟨1⟩), 100)] disburseAndMigrate).2 ⟨9⟩ = 5 := by
    decide +kernel
  exact ⟨htotal, (hexact.1 ⟨9⟩).symm.trans htotal⟩

theorem disburseAndMigrate_counts_disbursed : ∃ w : World Balances, Reaches (plainHost ⟨0⟩)
        (played (plainHost ⟨0⟩) 100 [((⟨9⟩, ⟨1⟩), 100)] disburseAndMigrate).1 w ∧
      getCampaignTokenClaimed w [65] ⟨9⟩ = 15 ∧ campaignClaimedSum w [65] ⟨9⟩ = 5 ∧ getTotalClaimed w ⟨9⟩ = 5 :=
  ⟨_, played_reaches _ _ _, by decide +kernel, by decide +kernel, by decide +kernel⟩

variable {id : ℕ} {p : Package}

def Package.Over (now : ℕ) (p : Package) : Prop := p.status ≠ .created ∨ 0 < p.expiresAt ∧ p.expiresAt < now

/-- What was `p` is over, and has the recipient and the expiry of `p`. -/
def StaysOver (id : ℕ) (p : Package) (w : World τ) : Prop :=
  ∃ q, w.store.packages[id]? = some q ∧ q.Over w.now ∧ q.recipient = p.recipient ∧ q.expiresAt = p.expiresAt

theorem Atom.staysOver (h : Atom H w a w') (hI : StaysOver id p w) : StaysOver id p w' ∧ ∀ payee, a ≠ .claim id payee := by
  obtain ⟨q, hq, hover, hterms⟩ := hI
  by_cases hsubject : a.subject = some id
  · -- the act needs a package that is open, or leaves recipient and expiry as they are
    have hput (q' : Package) : (w.store.put id q').packages[id]? = some q' := by rw [put_packages, if_pos rfl]
    cases h <;> cases hsubject <;> simp only [StaysOver, World.emit, hput] <;> grind [InWindow, Package.Over, World.paid]
  · refine ⟨⟨q, (h.untouched hsubject).trans hq, ?_, hterms⟩, ?_⟩
    · exact hover.imp_right fun hpast => ⟨hpast.1, hpast.2.trans_le h.now_le⟩
    · rintro payee rfl
      exact hsubject rfl

/-- However the contract goes on, a package that is settled or past its expiry stays so, nobody claims it and its recipient
and expiry stay what they are. -/
theorem over_unclaimed {tr tr' : Trace τ} (h : Reaches H tr w) (hrun : Run (Step H) w tr' w')
    (hp : w.store.packages[id]? = some p) (hover : p.Over w.now) :
    StaysOver id p w' ∧ ∀ t ∈ tr', ∀ payee, (id, payee) ∉ claimsOf t := by
  let I (u : World τ) : Prop := WellFormed u ∧ StaysOver id p u
  have hstart : I w := ⟨h.wellFormed, p, hp, hover, rfl, rfl⟩
  have hkeeps (t : Transition (World τ) (Move τ)) (hstep : Step H t.pre t.label t.post) (_ : True) (hI : I t.pre) : I t.post :=
    ⟨hstep.wellFormed hI.1, hstep.invariant hI.1 hI.2 fun _ _ _ hatom _ hu => (hatom.staysOver hu).1⟩
  refine ⟨(hrun.invariant (I := I) hstart (fun _ _ => trivial) hkeeps).2, fun t ht payee hclaim => ?_⟩
  obtain ⟨hw, hI⟩ := (hrun.invariant_at (I := I) hstart (fun _ _ => trivial) hkeeps ht).1
  obtain ⟨acts, hacts, hclaims, -⟩ := (hrun.step_of_mem ht).claims hw
  obtain ⟨u, hu, hlabel⟩ := List.mem_filterMap.mp (hclaims ▸ hclaim)
  have hpre := (hacts.invariant_at (C := fun _ => True) hI (fun _ _ => trivial) (fun _ hatom _ hu => (hatom.staysOver hu).1) hu).1
  have hne := ((hacts.step_of_mem hu).staysOver hpre).2 payee
  cases hact : u.label <;> simp_all [Act.asClaim]

theorem over_unclaimed_repeatedIds : ∃ p, StaysOver 0 p
    (play (tryMove (plainHost ⟨0⟩)) (played (plainHost ⟨0⟩) 100 [((⟨9⟩, ⟨1⟩), 100)] repeatedIds).2 [.tick 300]).2 := by
  have hseen : ((played (plainHost ⟨0⟩) 100 [((⟨9⟩, ⟨1⟩), 100)] repeatedIds).2.store.packages[0]?).map Package.status =
      some .claimed := by
    decide +kernel
  obtain ⟨p, hp, hstatus⟩ := Option.map_eq_some_iff.mp hseen
  exact ⟨p, (over_unclaimed (played_reaches _ _ _) (play_run tryMove_step _ _) hp (.inl (hstatus ▸ nofun))).1⟩

end Soter.AidEscrow
