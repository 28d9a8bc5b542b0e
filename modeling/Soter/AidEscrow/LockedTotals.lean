import Soter.AidEscrow.Paths

/-! The locked totals against the packages that are still Created. -/
namespace Soter.AidEscrow
open Std Soter.Fallible Soter.MapSum Soter.Runs

variable {τ : Type} {H : Host τ} {w w' : World τ} {a : Act}

structure LockedExact (w : World τ) : Prop where
  total : ∀ t, getTotalLocked w t = createdSum w t
  perCampaign : ∀ c t, getCampaignTokenLocked w c t = campaignCreatedSum w c t

def SweptFindsNothingLocked (w : World τ) (id : ℕ) : Prop :=
  ∀ p, w.store.packages[id]? = some p → p.status = .expired → getTotalLocked w p.token = 0

variable {amount : ℤ} {id : ℕ} {p q : Package}

theorem floorSub_of_le {current : ℤ} (h : amount ≤ current) : floorSub current amount = current - amount := by
  unfold floorSub
  split <;> omega

theorem floorSub_zero (h : 0 < amount) : floorSub 0 amount = 0 := by
  rw [floorSub, if_neg (by omega)]

theorem lockedExact_deployed (now : ℕ) (tokens : τ) : LockedExact (World.deployed now tokens) := by
  constructor
  · intro t
    simp [getTotalLocked, createdSum, sumIf, World.deployed]
  · intro c t
    simp [getCampaignTokenLocked, campaignCreatedSum, sumIf, World.deployed]

theorem LockedExact.covers (hI : LockedExact w) (hw : WellFormed w)
    (hp : w.store.packages[id]? = some p) (hs : p.status = .created) :
    p.amount ≤ getTotalLocked w p.token ∧ ∀ c, campaignRefFromMetadata p.metadata = some c →
      p.amount ≤ getCampaignTokenLocked w c p.token := by
  refine ⟨?_, fun c hc => ?_⟩
  · rw [hI.1]
    exact le_sumIf hw.amount_pos hp ⟨hs, rfl⟩
  · rw [hI.2]
    exact le_sumIf hw.amount_pos hp ⟨hs, hc, rfl⟩

theorem LockedExact.release (hI : LockedExact w) (hw : WellFormed w)
    (hp : w.store.packages[id]? = some p) (hs : p.status = .created) (hs' : q.status ≠ .created)
    (hstore : w'.store = w.store.put id q) (hlocked : w'.totals.books.locked = (w.totals.books.unlock p).locked)
    (hcampaign : w'.totals.books.campaignLocked = (w.totals.books.unlock p).campaignLocked) :
    LockedExact w' := by
  have hcover := hI.covers hw hp hs
  constructor
  · intro t
    have hold : amountOf w.totals.locked t = createdSum w t := hI.1 t
    have hnew : getTotalLocked w' t = (w.totals.books.unlock p).locked t := congrFun hlocked t
    rw [hnew, createdSum, hstore, PackageStore.put, sumIf_update hp]
    simp only [Books.unlock, Totals.books, hold, Package.Awaits, hs, hs', true_and, false_and, ↓reduceIte, add_zero]
    by_cases ht : p.OfToken t
    · rw [if_pos ht, if_pos ht, floorSub_of_le]
      · rfl
      · rw [← hI.1 t]
        exact ht ▸ hcover.1
    · rw [if_neg ht, if_neg ht, sub_zero]
      rfl
  · intro c t
    have hold : campaignAmountOf w.totals.campaignLocked c t = campaignCreatedSum w c t := hI.2 c t
    have hnew : getCampaignTokenLocked w' c t = (w.totals.books.unlock p).campaignLocked c t :=
      congrFun (congrFun hcampaign c) t
    rw [hnew, campaignCreatedSum, hstore, PackageStore.put, sumIf_update hp]
    simp only [Books.unlock, Totals.books, hold, Package.AwaitsIn, hs, hs', true_and, false_and, ↓reduceIte, add_zero]
    by_cases hct : p.OfCampaign c t
    · rw [if_pos hct, if_pos hct, floorSub_of_le]
      · rfl
      · rw [← hI.2 c t]
        exact hct.2 ▸ hcover.2 c hct.1
    · rw [if_neg hct, if_neg hct, sub_zero]
      rfl

theorem LockedExact.decrement (hI : LockedExact w) (hw : WellFormed w)
    (hp : w.store.packages[id]? = some p) (hs : p.status = .created) (hs' : q.status ≠ .created)
    (hstore : w'.store = w.store.put id q)
    (htotals : decrementLocked w.totals p.token p.metadata p.amount = .ok w'.totals) : LockedExact w' := by
  have hbooks := decrementLocked_books (hw.amount_pos id p hp) htotals
  exact hI.release hw hp hs hs' hstore (congrArg Books.locked hbooks) (congrArg Books.campaignLocked hbooks)

theorem sums_of_rewrite (hp : w.store.packages[id]? = some p)
    (hawaits : q.status = .created ↔ p.status = .created) (htoken : q.token = p.token)
    (hmetadata : q.metadata = p.metadata) (hamount : q.amount = p.amount)
    (hstore : w'.store = w.store.put id q) :
    createdSum w' = createdSum w ∧ campaignCreatedSum w' = campaignCreatedSum w := by
  constructor
  · funext t
    rw [createdSum, hstore]
    exact sumIf_rewrite hp (by rw [Package.Awaits, Package.OfToken, hawaits, htoken]; rfl) hamount
  · funext c t
    rw [campaignCreatedSum, hstore]
    exact sumIf_rewrite hp (by rw [Package.AwaitsIn, Package.OfCampaign, hawaits, htoken, hmetadata]; rfl) hamount

theorem LockedExact.unlock_nothing (hI : LockedExact w) (hw : WellFormed w)
    (hamount : 0 < p.amount) (hzero : getTotalLocked w p.token = 0) :
    (w.totals.books.unlock p).locked = w.totals.books.locked ∧
      (w.totals.books.unlock p).campaignLocked = w.totals.books.campaignLocked := by
  constructor
  · funext t
    simp only [Books.unlock]
    split
    · rename_i ht
      have hnone : w.totals.books.locked t = 0 := ht ▸ hzero
      rw [hnone, floorSub_zero hamount]
    · rfl
  · funext c t
    simp only [Books.unlock]
    split
    · rename_i hct
      -- what a campaign has locked in a token is part of what the token has locked
      have hnone : w.totals.books.campaignLocked c t = 0 := by
        have hle : campaignCreatedSum w c t ≤ createdSum w t := by
          unfold campaignCreatedSum createdSum sumIf
          refine sumOver_mono _ _ _ fun k q hq => ?_
          have hpos := hw.amount_pos k q hq
          by_cases hin : q.AwaitsIn c t
          · rw [if_pos hin, if_pos ⟨hin.1, hin.2.2⟩]
          · rw [if_neg hin]
            split <;> omega
        have hnonneg : 0 ≤ campaignCreatedSum w c t := sumIf_nonneg hw.amount_pos
        have hsum : createdSum w t = 0 := by
          rw [← hI.1 t, ← hct.2]
          exact hzero
        have hexact : w.totals.books.campaignLocked c t = campaignCreatedSum w c t := hI.2 c t
        omega
      rw [hnone, floorSub_zero hamount]
    · rfl

/-- One act keeps the totals exact, unless it refunds a swept package on top of others that are
still locked. -/
theorem Atom.lockedExact (h : Atom H w a w') (hw : WellFormed w)
    (hC : a.refundMeets SweptFindsNothingLocked w) (hI : LockedExact w) : LockedExact w' := by
  -- most acts leave both the totals and the sums as they are
  have hkeep : w'.totals.books.locked = w.totals.books.locked →
      w'.totals.books.campaignLocked = w.totals.books.campaignLocked →
      createdSum w' = createdSum w ∧ campaignCreatedSum w' = campaignCreatedSum w →
      LockedExact w' := by
    intro hlocked hcampaign hsums
    refine ⟨fun t => ?_, fun c t => ?_⟩
    · rw [hsums.1]
      exact (congrFun hlocked t).trans (hI.1 t)
    · rw [hsums.2]
      exact (congrFun (congrFun hcampaign c) t).trans (hI.2 c t)
  cases h with
  | settings | fund | propose | withdrawProposal | execute | setDelegate | clearDelegate
  | dropDelegate | tick | outside => exact hkeep rfl rfl ⟨rfl, rfl⟩
  | backfill _ h =>
    obtain ⟨totals, rfl, hbooks⟩ := backfill_books hw h
    refine ⟨fun t => ?_, fun c t => ?_⟩
    · exact (congrFun (congrArg Books.locked hbooks) t).trans (hI.1 t)
    · exact congrFun (congrFun (congrArg Books.campaignLocked hbooks) c) t
  | note hbooks =>
    exact hkeep (congrArg Books.locked hbooks) (congrArg Books.campaignLocked hbooks) ⟨rfl, rfl⟩
  | @create p _ totals _ _ hfresh hstatus hamount _ _ _ _ hbooks =>
    constructor
    · intro t
      have hnew : amountOf totals.locked t = (w.totals.books.lock p).locked t :=
        congrFun (congrArg Books.locked hbooks) t
      have hold : w.totals.books.locked t = createdSum w t := hI.1 t
      refine hnew.trans (Eq.trans ?_ (sumIf_new hfresh).symm)
      simp only [Books.lock, Package.Awaits, hstatus, true_and, hold, createdSum]
      split <;> simp
    · intro c t
      have hnew : campaignAmountOf totals.campaignLocked c t = (w.totals.books.lock p).campaignLocked c t :=
        congrFun (congrFun (congrArg Books.campaignLocked hbooks) c) t
      have hold : w.totals.books.campaignLocked c t = campaignCreatedSum w c t := hI.2 c t
      refine hnew.trans (Eq.trans ?_ (sumIf_new hfresh).symm)
      simp only [Books.lock, Package.AwaitsIn, hstatus, true_and, hold, campaignCreatedSum]
      split <;> simp
  | @claim _ _ p _ totals _ hp hstatus _ _ _ _ _ htotals =>
    have hbooks := settleClaim_books (hw.amount_pos _ _ hp) htotals
    have hlocked : totals.books.locked = (w.totals.books.unlock p).locked := by
      rw [hbooks]
      rfl
    have hcampaign : totals.books.campaignLocked = (w.totals.books.unlock p).campaignLocked := by
      rw [hbooks]
      rfl
    exact hI.release hw hp hstatus (q := { p with status := .claimed }) (by simp) rfl hlocked
      hcampaign
  | @disburse _ p _ totals _ hp hstatus _ _ htotals =>
    exact hI.decrement hw hp hstatus (q := { p with status := .claimed }) (by simp) rfl htotals
  | @cancel _ p totals _ hp hstatus htotals =>
    exact hI.decrement hw hp hstatus (q := { p with status := .cancelled }) (by simp) rfl htotals
  | @expire _ p totals _ hp hstatus _ _ htotals =>
    exact hI.decrement hw hp hstatus (q := { p with status := .expired }) (by simp) rfl htotals
  | @refundLocked _ p _ _ totals _ hp _ _ hstatus _ htotals =>
    rcases hstatus with ⟨hcreated, -⟩ | hexpired
    · exact hI.decrement hw hp hcreated (q := { p with status := .refunded }) (by simp) rfl htotals
    · -- The sweep has released this package already; a second release must find nothing to take.
      have hbooks := decrementLocked_books (hw.amount_pos _ _ hp) htotals
      obtain ⟨hlocked, hcampaign⟩ :=
        hI.unlock_nothing hw (hw.amount_pos _ _ hp) (hC p hp hexpired)
      exact hkeep ((congrArg Books.locked hbooks).trans hlocked) ((congrArg Books.campaignLocked hbooks).trans hcampaign)
        (sums_of_rewrite (q := { p with status := .refunded }) hp (by simp [hexpired]) rfl rfl
          rfl rfl)
  | @refundCancelled _ p _ _ _ hp _ _ hstatus =>
    exact hkeep rfl rfl (sums_of_rewrite (q := { p with status := .refunded }) hp
      (by simp [hstatus]) rfl rfl rfl rfl)
  | @reassign _ p recipient _ hp =>
    exact hkeep rfl rfl (sums_of_rewrite (q := { p with recipient }) hp Iff.rfl rfl rfl rfl rfl)
  | @extend _ p expiresAt _ hp =>
    exact hkeep rfl rfl (sums_of_rewrite (q := { p with expiresAt }) hp Iff.rfl rfl rfl rfl rfl)
  | @attach _ p evidenceHash _ hp =>
    exact hkeep rfl rfl (sums_of_rewrite (q := { p with evidenceHash }) hp Iff.rfl rfl rfl rfl rfl)

/-- In every run that refunds a swept package only when nothing is locked in its token, the locked
totals are exact, and no Created package is larger than a total that counts it. -/
theorem locked_totals_exact {tr : Trace τ} (h : Reaches H tr w)
    (hC : ∀ t ∈ tr, t.label.refundsMeet H SweptFindsNothingLocked t.pre) :
    (∀ t, getTotalLocked w t = createdSum w t) ∧
      (∀ c t, getCampaignTokenLocked w c t = campaignCreatedSum w c t) ∧
      ∀ (id : ℕ) (p : Package), w.store.packages[id]? = some p → p.status = .created →
        p.amount ≤ getTotalLocked w p.token ∧ ∀ c, campaignRefFromMetadata p.metadata = some c →
          p.amount ≤ getCampaignTokenLocked w c p.token := by
  have hI : LockedExact w := by
    apply h.invariant_of_refunds lockedExact_deployed hC
    intro u a v hu hatom hmeets hexact
    exact hatom.lockedExact hu hmeets hexact
  exact ⟨hI.total, hI.perCampaign, fun id p hp hs => hI.covers h.wellFormed hp hs⟩

def claimAndSweep : List (Move Balances) := [
  .call [] (.init ⟨1⟩),
  .call [⟨1⟩] (.fund ⟨9⟩ ⟨1⟩ 30),
  .call [⟨1⟩] (.batchCreatePackages ⟨1⟩ [⟨2⟩, ⟨3⟩] [10, 5] ⟨9⟩ 50
    [(∅ : Metadata).insert metaCampaignRef [65], (∅ : Metadata).insert metaCampaignRef [65]]),
  .call [⟨1⟩] (.createPackage ⟨1⟩ 7 ⟨2⟩ 8 ⟨9⟩ 0 ∅),
  .call [⟨2⟩] (.claim 0),
  .tick 200,
  .call [] (.sweepExpiredPackages 0)]

theorem locked_totals_exact_claimAndSweep :
    getTotalLocked (played (plainHost ⟨0⟩) 100 [((⟨9⟩, ⟨1⟩), 100)] claimAndSweep).2 ⟨9⟩ = 8 ∧
      createdSum (played (plainHost ⟨0⟩) 100 [((⟨9⟩, ⟨1⟩), 100)] claimAndSweep).2 ⟨9⟩ = 8 := by
  have hexact := locked_totals_exact
    (played_reaches (H := plainHost ⟨0⟩) 100 [((⟨9⟩, ⟨1⟩), 100)] claimAndSweep)
    fun t ht => played_labels
      (P := fun m => ∀ w, m.refundsMeet (plainHost ⟨0⟩) SweptFindsNothingLocked w)
      (by simp [claimAndSweep, Move.refundsMeet, RefundsMeet]) t ht t.pre
  have hlocked : getTotalLocked
      (played (plainHost ⟨0⟩) 100 [((⟨9⟩, ⟨1⟩), 100)] claimAndSweep).2 ⟨9⟩ = 8 := by
    decide +kernel
  exact ⟨hlocked, (hexact.1 ⟨9⟩).symm.trans hlocked⟩

/-- A package is swept and then refunded while another one of its token is still Created. -/
def refundAfterSweep : List (Move Balances) := [
  .call [] (.init ⟨1⟩),
  .call [⟨1⟩] (.fund ⟨9⟩ ⟨1⟩ 20),
  .call [⟨1⟩] (.createPackage ⟨1⟩ 0 ⟨2⟩ 10 ⟨9⟩ 150 ∅),
  .call [⟨1⟩] (.createPackage ⟨1⟩ 1 ⟨2⟩ 10 ⟨9⟩ 0 ∅),
  .tick 200,
  .call [] (.sweepExpiredPackages 0),
  .call [⟨1⟩] (.refund 0)]

/-- The refund releases the swept package a second time: the Created one is no longer counted. -/
theorem refundAfterSweep_not_exact : ∃ w : World Balances, Reaches (plainHost ⟨0⟩)
        (played (plainHost ⟨0⟩) 100 [((⟨9⟩, ⟨1⟩), 100)] refundAfterSweep).1 w ∧
      getTotalLocked w ⟨9⟩ = 0 ∧ createdSum w ⟨9⟩ = 10 :=
  ⟨_, played_reaches _ _ _, by decide +kernel, by decide +kernel⟩

end Soter.AidEscrow
