import Soter.AidEscrow.Claim

/-! The running totals as functions of token and campaign, whatever maps store them. -/
namespace Soter.AidEscrow
open Std Soter.Fallible Soter.MapSum

@[ext] structure Books where
  locked : Address → ℤ
  claimed : Address → ℤ
  campaignLocked : Text → Address → ℤ
  campaignClaimed : Text → Address → ℤ

def Totals.books (totals : Totals) : Books :=
  ⟨amountOf totals.locked, amountOf totals.claimed, campaignAmountOf totals.campaignLocked,
    campaignAmountOf totals.campaignClaimed⟩

namespace Package

def OfToken (p : Package) (t : Address) : Prop := p.token = t

def OfCampaign (p : Package) (c : Text) (t : Address) : Prop :=
  campaignRefFromMetadata p.metadata = some c ∧ p.token = t

instance (p : Package) (t : Address) : Decidable (p.OfToken t) :=
  inferInstanceAs (Decidable (_ = _))

instance (p : Package) (c : Text) (t : Address) : Decidable (p.OfCampaign c t) :=
  inferInstanceAs (Decidable (_ ∧ _))

end Package

namespace Books

def lock (b : Books) (p : Package) : Books := { b with
  locked := fun t => if p.OfToken t then b.locked t + p.amount else b.locked t
  campaignLocked := fun c t =>
    if p.OfCampaign c t then b.campaignLocked c t + p.amount else b.campaignLocked c t }

/-- Release a package, with the floor at zero that the code applies to each total by itself. -/
def unlock (b : Books) (p : Package) : Books := { b with
  locked := fun t => if p.OfToken t then floorSub (b.locked t) p.amount else b.locked t
  campaignLocked := fun c t =>
    if p.OfCampaign c t then floorSub (b.campaignLocked c t) p.amount else b.campaignLocked c t }

def countClaimed (b : Books) (p : Package) : Books := { b with
  claimed := fun t => if p.OfToken t then b.claimed t + p.amount else b.claimed t
  campaignClaimed := fun c t =>
    if p.OfCampaign c t then b.campaignClaimed c t + p.amount else b.campaignClaimed c t }

end Books

variable {m : CampaignTotals} {p : Package} {delta a : ℤ} {totals totals' : Totals}

theorem amountOf_insert_self_ite (m : TokenTotals) (p : Package) (f : ℤ → ℤ) :
    amountOf (m.insert p.token (f (amountOf m p.token))) =
      fun t => if p.OfToken t then f (amountOf m t) else amountOf m t := by
  funext t
  rw [amountOf_insert]
  by_cases h : p.token = t
  · subst h
    simp only [Package.OfToken, ↓reduceIte]
  · simp only [Package.OfToken, h, ↓reduceIte, show ¬ t = p.token from fun he => h he.symm]

theorem campaignAmountOf_adjusted {m' : CampaignTotals}
    (h : adjustCampaignTokenAmount m p.metadata p.token delta = .ok m') : campaignAmountOf m' = fun c t =>
      if p.OfCampaign c t then adjusted (campaignAmountOf m c t) delta
      else campaignAmountOf m c t := by
  funext c t
  rw [adjustCampaign_amount h]
  exact if_congr (by rw [Package.OfCampaign, eq_comm (a := t)]) rfl rfl

/-- The number fits into `i128`. -/
def FitsI128 (a : ℤ) : Prop := -2 ^ 127 ≤ a ∧ a < 2 ^ 127

theorem adjustCampaign_pos (hp : 0 < p.amount) : (∃ m', adjustCampaignTokenAmount m p.metadata p.token p.amount = .ok m') ↔
      ∀ ref, campaignRefFromMetadata p.metadata = some ref →
        FitsI128 (campaignAmountOf m ref p.token + p.amount) := by
  unfold adjustCampaignTokenAmount
  rcases Option.eq_none_or_eq_some (campaignRefFromMetadata p.metadata) with href | ⟨ref, href⟩
  · simp [href]
  · simp only [href, applyNestedDelta_eq_ok, exists_and_left, exists_eq, and_true, Option.some.injEq, forall_eq']
    exact ⟨fun h => h hp.le, fun h _ => h⟩

theorem adjusted_of_pos (h : 0 < delta) : adjusted a delta = a + delta := by
  rw [adjusted, if_pos (by omega)]

theorem adjusted_neg (h : 0 < delta) : adjusted a (-delta) = floorSub a delta := by
  rw [adjusted, if_neg (by omega), neg_neg]

theorem incrementLocked_books (hp : 0 < p.amount) (h : incrementLocked totals p.token p.metadata p.amount = .ok totals') :
    totals'.books = totals.books.lock p := by
  obtain ⟨-, m, hm, rfl⟩ := incrementLocked_spec h
  ext1
  · exact amountOf_insert_self_ite _ p (· + p.amount)
  · rfl
  · simp only [Totals.books, Books.lock, campaignAmountOf_adjusted hm, adjusted_of_pos hp]
  · rfl

theorem decrementLocked_books (hp : 0 < p.amount) (h : decrementLocked totals p.token p.metadata p.amount = .ok totals') :
    totals'.books = totals.books.unlock p := by
  obtain ⟨m, hm, rfl⟩ := decrementLocked_spec h
  ext1
  · exact amountOf_insert_self_ite _ p (floorSub · p.amount)
  · rfl
  · simp only [Totals.books, Books.unlock, campaignAmountOf_adjusted hm, adjusted_neg hp]
  · rfl

theorem incrementClaimed_books (hp : 0 < p.amount) (h : incrementClaimed totals p.token p.metadata p.amount = .ok totals') :
    totals'.books = totals.books.countClaimed p := by
  obtain ⟨m, hm, rfl⟩ := incrementClaimed_spec h
  ext1
  · rfl
  · exact amountOf_insert_self_ite _ p (· + p.amount)
  · rfl
  · simp only [Totals.books, Books.countClaimed, campaignAmountOf_adjusted hm, adjusted_of_pos hp]

theorem settleClaim_books (hp : 0 < p.amount) (h : settleClaim totals p = .ok totals') :
    totals'.books = (totals.books.unlock p).countClaimed p := by
  simp only [settleClaim, bind_eq_ok] at h
  obtain ⟨mid, hmid, h⟩ := h
  rw [incrementClaimed_books hp h, decrementLocked_books hp hmid]

/-- Some totals read as the given ones with a package locked: what a batch has in mind before it
writes its maps out. -/
theorem exists_locked (totals : Totals) (p : Package) : ∃ totals' : Totals, totals'.books = totals.books.lock p := by
  have hlocked := amountOf_insert_self_ite totals.locked p (· + p.amount)
  cases href : campaignRefFromMetadata p.metadata with
  | none =>
    refine ⟨{ totals with
      locked := totals.locked.insert p.token (amountOf totals.locked p.token + p.amount) }, ?_⟩
    ext1
    · exact hlocked
    · rfl
    · simp [Totals.books, Books.lock, Package.OfCampaign, href]
    · rfl
  | some ref =>
    refine ⟨{ totals with
      locked := totals.locked.insert p.token (amountOf totals.locked p.token + p.amount)
      campaignLocked := totals.campaignLocked.insert ref
        ((totals.campaignLocked[ref]?.getD ∅).insert p.token
          (campaignAmountOf totals.campaignLocked ref p.token + p.amount)) }, ?_⟩
    ext1
    · exact hlocked
    · rfl
    · funext c t
      simp only [Totals.books, Books.lock, campaignAmountOf_insert, Package.OfCampaign, href]
      by_cases h : c = ref ∧ t = p.token
      · obtain ⟨rfl, rfl⟩ := h
        simp
      · rw [if_neg h, if_neg]
        rintro ⟨hc, ht⟩
        exact h ⟨(Option.some.inj hc).symm, ht.symm⟩
    · rfl

end Soter.AidEscrow
