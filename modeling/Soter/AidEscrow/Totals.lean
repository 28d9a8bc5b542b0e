import Soter.AidEscrow.World
import Soter.Lib.MapSum

/-! The locked and claimed totals, per token and per campaign and token. -/
namespace Soter.AidEscrow
open Std Soter.Fallible Soter.MapSum

def campaignRefFromMetadata (metadata : Metadata) : Option Text := metadata[metaCampaignRef]?

/-- `map.get(token).unwrap_or(0)`. -/
def amountOf (m : TokenTotals) (token : Address) : ℤ := m[token]?.getD 0

/-- `map.get(campaign_ref).and_then(|token_map| token_map.get(token)).unwrap_or(0)`. -/
def campaignAmountOf (m : CampaignTotals) (campaignRef : Text) (token : Address) : ℤ :=
  (m[campaignRef]?.bind (·[token]?)).getD 0

/-- Take `amount` off `current`, stopping at zero. Amounts are positive where this is used, so the
subtraction stays within `i128`. -/
def floorSub (current amount : ℤ) : ℤ := if amount < current then current - amount else 0

def applyNestedDelta (campaignMap : CampaignTotals) (campaignRef : Text) (token : Address)
    (delta : ℤ) : Result CampaignTotals := do
  let tokenMap := campaignMap[campaignRef]?.getD ∅
  let current := amountOf tokenMap token
  let updated ← (if 0 ≤ delta then addI128 current delta else .ok (floorSub current (-delta)))
  return campaignMap.insert campaignRef (tokenMap.insert token updated)

def adjustCampaignTokenAmount (campaignMap : CampaignTotals) (metadata : Metadata)
    (token : Address) (delta : ℤ) : Result CampaignTotals :=
  match campaignRefFromMetadata metadata with
  | none => .ok campaignMap
  | some campaignRef => applyNestedDelta campaignMap campaignRef token delta

def incrementLocked (totals : Totals) (token : Address) (metadata : Metadata) (amount : ℤ) :
    Result Totals := do
  let updated ← addI128 (amountOf totals.locked token) amount
  let campaignLocked ← adjustCampaignTokenAmount totals.campaignLocked metadata token amount
  return { totals with locked := totals.locked.insert token updated, campaignLocked }

def decrementLocked (totals : Totals) (token : Address) (metadata : Metadata) (amount : ℤ) :
    Result Totals := do
  let newLocked := floorSub (amountOf totals.locked token) amount
  let campaignLocked ← adjustCampaignTokenAmount totals.campaignLocked metadata token (-amount)
  return { totals with locked := totals.locked.insert token newLocked, campaignLocked }

def incrementClaimed (totals : Totals) (token : Address) (metadata : Metadata) (amount : ℤ) :
    Result Totals := do
  let updated ← addI128 (amountOf totals.claimed token) amount
  let campaignClaimed ← adjustCampaignTokenAmount totals.campaignClaimed metadata token amount
  return { totals with claimed := totals.claimed.insert token updated, campaignClaimed }

def applyCampaignLockedBatchDeltas (totals : Totals) (token : Address)
    (deltas : ExtTreeMap Text ℤ) : Result Totals :=
  if deltas.isEmpty then .ok totals
  else do
    let campaignLocked ← deltas.keys.foldlM
      (fun m campaignRef => applyNestedDelta m campaignRef token (deltas[campaignRef]?.getD 0))
      totals.campaignLocked
    return { totals with campaignLocked }

variable {τ : Type}

def getTotalLocked (w : World τ) (token : Address) : ℤ := amountOf w.totals.locked token

def getTotalClaimed (w : World τ) (token : Address) : ℤ := amountOf w.totals.claimed token

def getCampaignTokenLocked (w : World τ) (campaignRef : Text) (token : Address) : ℤ :=
  campaignAmountOf w.totals.campaignLocked campaignRef token

def getCampaignTokenClaimed (w : World τ) (campaignRef : Text) (token : Address) : ℤ :=
  campaignAmountOf w.totals.campaignClaimed campaignRef token

theorem amountOf_insert (m : TokenTotals) (token t : Address) (a : ℤ) :
    amountOf (m.insert token a) t = if t = token then a else amountOf m t := by
  unfold amountOf
  rw [get_insert]
  split <;> rfl

@[simp] theorem amountOf_empty (t : Address) : amountOf ∅ t = 0 := by
  simp [amountOf]

theorem campaignAmountOf_eq (m : CampaignTotals) (c : Text) (t : Address) :
    campaignAmountOf m c t = amountOf (m[c]?.getD ∅) t := by
  unfold campaignAmountOf amountOf
  cases m[c]? <;> simp

@[simp] theorem campaignAmountOf_empty (c : Text) (t : Address) : campaignAmountOf ∅ c t = 0 := by
  simp [campaignAmountOf]

theorem campaignAmountOf_insert (m : CampaignTotals) (c : Text) (token : Address) (a : ℤ)
    (c' : Text) (t : Address) : campaignAmountOf (m.insert c ((m[c]?.getD ∅).insert token a)) c' t =
      if c' = c ∧ t = token then a else campaignAmountOf m c' t := by
  simp only [campaignAmountOf_eq, get_insert]
  by_cases hc : c' = c
  · subst hc
    simp only [↓reduceIte, Option.getD_some, amountOf_insert, true_and]
  · simp only [hc, ↓reduceIte, false_and]

/-- What adding `delta` makes of a nested total, overflow apart. -/
def adjusted (current delta : ℤ) : ℤ :=
  if 0 ≤ delta then current + delta else floorSub current (-delta)

variable {m m' : CampaignTotals} {token : Address} {delta amount : ℤ} {metadata : Metadata} {totals totals' : Totals}

theorem applyNestedDelta_eq_ok {c : Text} : applyNestedDelta m c token delta = .ok m' ↔
      (0 ≤ delta → -2 ^ 127 ≤ campaignAmountOf m c token + delta ∧ campaignAmountOf m c token + delta < 2 ^ 127) ∧
      m' = m.insert c ((m[c]?.getD ∅).insert token (adjusted (campaignAmountOf m c token) delta)) := by
  simp only [applyNestedDelta, bind_eq_ok, pure_eq_ok, campaignAmountOf_eq, adjusted]
  by_cases hd : 0 ≤ delta
  · simp only [hd, ↓reduceIte, addI128_eq_ok, forall_const]
    constructor
    · rintro ⟨a, ⟨hr, rfl⟩, rfl⟩
      exact ⟨hr, rfl⟩
    · rintro ⟨hr, rfl⟩
      exact ⟨_, ⟨hr, rfl⟩, rfl⟩
  · simp only [hd, ↓reduceIte, Except.ok.injEq, exists_eq_left', false_implies, true_and]
    exact eq_comm

theorem adjustCampaign_amount (h : adjustCampaignTokenAmount m metadata token delta = .ok m') (c : Text)
    (t : Address) : campaignAmountOf m' c t = if campaignRefFromMetadata metadata = some c ∧ t = token then
        adjusted (campaignAmountOf m c t) delta else campaignAmountOf m c t := by
  unfold adjustCampaignTokenAmount at h
  cases href : campaignRefFromMetadata metadata with
  | none =>
    rw [href] at h
    cases h
    simp
  | some ref =>
    rw [href] at h
    obtain ⟨-, rfl⟩ := applyNestedDelta_eq_ok.mp h
    rw [campaignAmountOf_insert]
    by_cases hc : c = ref ∧ t = token
    · obtain ⟨rfl, rfl⟩ := hc
      simp
    · rw [if_neg hc, if_neg]
      rintro ⟨hr, ht⟩
      exact hc ⟨(Option.some.inj hr).symm, ht⟩

theorem adjustCampaign_neg (m : CampaignTotals) (metadata : Metadata) (token : Address) {a : ℤ}
    (ha : 0 < a) : ∃ m', adjustCampaignTokenAmount m metadata token (-a) = .ok m' := by
  unfold adjustCampaignTokenAmount
  cases campaignRefFromMetadata metadata with
  | none => exact ⟨m, rfl⟩
  | some ref =>
    exact ⟨_, applyNestedDelta_eq_ok.mpr ⟨fun h => absurd h (by omega), rfl⟩⟩

theorem incrementLocked_spec (h : incrementLocked totals token metadata amount = .ok totals') :
    (-2 ^ 127 ≤ amountOf totals.locked token + amount ∧ amountOf totals.locked token + amount < 2 ^ 127) ∧
    ∃ campaignLocked, adjustCampaignTokenAmount totals.campaignLocked metadata token amount = .ok campaignLocked ∧
      totals' = { totals with
        locked := totals.locked.insert token (amountOf totals.locked token + amount), campaignLocked } := by
  simp only [incrementLocked, bind_eq_ok, addI128_eq_ok, pure_eq_ok] at h
  obtain ⟨a, ⟨hr, rfl⟩, c, hc, rfl⟩ := h
  exact ⟨hr, c, hc, rfl⟩

theorem decrementLocked_spec (h : decrementLocked totals token metadata amount = .ok totals') :
    ∃ campaignLocked, adjustCampaignTokenAmount totals.campaignLocked metadata token (-amount) =
        .ok campaignLocked ∧ totals' = { totals with
        locked := totals.locked.insert token (floorSub (amountOf totals.locked token) amount),
        campaignLocked } := by
  simp only [decrementLocked, bind_eq_ok, pure_eq_ok] at h
  obtain ⟨c, hc, rfl⟩ := h
  exact ⟨c, hc, rfl⟩

theorem incrementClaimed_spec (h : incrementClaimed totals token metadata amount = .ok totals') :
    ∃ campaignClaimed, adjustCampaignTokenAmount totals.campaignClaimed metadata token amount =
        .ok campaignClaimed ∧ totals' = { totals with
        claimed := totals.claimed.insert token (amountOf totals.claimed token + amount), campaignClaimed } := by
  simp only [incrementClaimed, bind_eq_ok, addI128_eq_ok, pure_eq_ok] at h
  obtain ⟨a, ⟨-, rfl⟩, c, hc, rfl⟩ := h
  exact ⟨c, hc, rfl⟩

end Soter.AidEscrow
