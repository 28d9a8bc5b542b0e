import Soter.AidEscrow.Paths

/-! The four ways to claim a package, compared by the ledger they leave. -/
namespace Soter.AidEscrow
open Std Soter.Fallible Soter.Runs

variable {τ : Type} {H : Host τ} {signers : List Address} {w w' v : World τ} {id : ℕ}
  {p : Package} {c : Address}

/-- The ledger without the events that were published on the way: storage and token balances. -/
def World.quiet (w : World τ) : World τ := { w with events := [] }

def outcome (r : Result (World τ)) : Option (World τ) := r.toOption.map World.quiet

def itemOutcome (r : Result (World τ × List BatchClaimResult)) : Option (World τ) :=
  match r with
  | .ok (w', [item]) => if item.status = .success then some w'.quiet else none
  | _ => none

structure Claimable (w : World τ) (id : ℕ) (p : Package) (c : Address) : Prop where
  stored : w.store.packages[id]? = some p
  campaign : CampaignOpen w p.metadata
  status : p.status = .created
  window : InWindow w.now p
  ungated : merkleRootFromMetadata p.metadata = none
  authorised : Delegate.isAuthorisedClaimer w id p.recipient c = true
  cooldown : ensureRecipientCooldown w p.recipient = .ok ()

def World.claimed (H : Host τ) (w : World τ) (id : ℕ) (p : Package) (c : Address) (tokens : τ)
    (totals : Totals) : World τ :=
  { w.paid tokens H.contract p c (.claim id) with
    totals
    store := w.store.put id { p with status := .claimed }
    recipientLastClaim := w.recipientLastClaim.insert p.recipient w.now
    delegation := w.delegation.clear H.contract w.now id }

/-- Paying a package leads to the ledger `v`, events apart. -/
def PaysTo (H : Host τ) (w : World τ) (id : ℕ) (p : Package) (c : Address) (v : World τ) : Prop :=
  ∃ tokens totals, H.transfer w.tokens p.token H.contract c p.amount = some tokens ∧
    settleClaim w.totals p = .ok totals ∧ (w.claimed H id p c tokens totals).quiet = v

def ClaimsTo (H : Host τ) (w : World τ) (id : ℕ) (c : Address) (v : World τ) : Prop :=
  checkActionPaused w "claim" = .ok () ∧ ∃ p, Claimable w id p c ∧ PaysTo H w id p c v

theorem outcome_eq_some {r : Result (World τ)} : outcome r = some v ↔ ∃ w', r = .ok w' ∧ w'.quiet = v := by
  cases r with
  | error e | ok w' => simp [outcome, Except.toOption]

theorem outcome_eq_of_spec {r r' : Option (World τ)} {P : World τ → Prop}
    (h : ∀ v, r = some v ↔ P v) (h' : ∀ v, r' = some v ↔ P v) : r = r' := by
  ext v
  rw [h, h']

theorem finalizeClaim_outcome {payee : Address} (claimant : Address) :
    (∃ w', finalizeClaim H w p id payee claimant = .ok w' ∧ w'.quiet = v) ↔
      ensureRecipientCooldown w p.recipient = .ok () ∧ PaysTo H w id p payee v := by
  constructor
  · rintro ⟨w', h, rfl⟩
    obtain ⟨hcooldown, tokens, totals, events, htransfer, htotals, -, rfl⟩ := finalizeClaim_spec h
    exact ⟨hcooldown, tokens, totals, htransfer, htotals, rfl⟩
  · rintro ⟨hcooldown, tokens, totals, htransfer, htotals, hv⟩
    have hex : ∃ w', finalizeClaim H w p id payee claimant = .ok w' := by
      simp only [finalizeClaim, bind_eq_ok, pure_eq_ok, exists_unit, transferToken_eq_ok]
      exact ⟨_, hcooldown, _, ⟨tokens, htransfer, rfl⟩, totals, htotals, rfl⟩
    obtain ⟨w', h⟩ := hex
    refine ⟨w', h, ?_⟩
    obtain ⟨-, tokens', totals', events, htransfer', htotals', -, rfl⟩ := finalizeClaim_spec h
    obtain rfl := Option.some.inj (htransfer.symm.trans htransfer')
    obtain rfl := Except.ok.inj (htotals.symm.trans htotals')
    exact hv

theorem isAuthorisedClaimer_iff : Delegate.isAuthorisedClaimer w id p.recipient c = true ↔
    c = p.recipient ∨ Delegate.getDelegate w id = some c := by
  unfold Delegate.isAuthorisedClaimer
  by_cases hc : c = p.recipient
  · simp [hc]
  · cases hd : Delegate.getDelegate w id <;> simp [hc]

theorem claimWithProof_outcome {proof : List Text} (hc : c ∈ signers)
    (hroot : ∀ p, w.store.packages[id]? = some p → merkleRootFromMetadata p.metadata = none) :
    outcome (claimWithProof H signers w id c proof) = some v ↔ ClaimsTo H w id c v := by
  rw [outcome_eq_some]
  constructor
  · rintro ⟨w', h, hv⟩
    simp only [claimWithProof, bind_eq_ok, require_eq_ok, exists_unit, getPackage_eq_ok,
      requireAuth_eq_ok, checkCampaignPaused_eq_ok, checkClaimWindow_eq_ok] at h
    obtain ⟨hpaused, p, hp, hopen, hstatus, hwindow, -, h⟩ := h
    have hnone := hroot p hp
    simp only [hnone, bind_eq_ok, require_eq_ok, exists_unit] at h
    obtain ⟨hcooldown, hpays⟩ := (finalizeClaim_outcome _).mp ⟨w', h.2, hv⟩
    exact ⟨hpaused, p, ⟨hp, hopen, hstatus, hwindow, hnone, isAuthorisedClaimer_iff.mpr h.1, hcooldown⟩, hpays⟩
  · rintro ⟨hpaused, p, hclaim, hpays⟩
    obtain ⟨w', h, hv⟩ := (finalizeClaim_outcome c).mpr ⟨hclaim.cooldown, hpays⟩
    refine ⟨w', ?_, hv⟩
    simp only [claimWithProof, bind_eq_ok, require_eq_ok, exists_unit, getPackage_eq_ok,
      requireAuth_eq_ok, checkCampaignPaused_eq_ok, checkClaimWindow_eq_ok]
    refine ⟨hpaused, p, hclaim.stored, hclaim.campaign, hclaim.status, hclaim.window, hc, ?_⟩
    simp only [hclaim.ungated, bind_eq_ok, require_eq_ok, exists_unit]
    exact ⟨isAuthorisedClaimer_iff.mp hclaim.authorised, h⟩

theorem claimWithRelayer_outcome {relayer : Address} (hc : c ∈ signers) (hr : relayer ∈ signers) :
    outcome (claimWithRelayer H signers w id c relayer) = some v ↔ ClaimsTo H w id c v := by
  rw [outcome_eq_some]
  simp only [claimWithRelayer, bind_eq_ok, pure_eq_ok, require_eq_ok, exists_unit,
    getPackage_eq_ok, requireAuth_eq_ok, checkCampaignPaused_eq_ok, checkClaimWindow_eq_ok,
    clearDelegate_eq, transferToken_eq_ok]
  constructor
  · rintro ⟨w', ⟨hpaused, p, hp, hopen, hstatus, hwindow, hroot, hwho, hcooldown, -, -, paid,
      ⟨tokens, htransfer, rfl⟩, totals, htotals, rfl⟩, hv⟩
    exact ⟨hpaused, p, ⟨hp, hopen, hstatus, hwindow, hroot, hwho, hcooldown⟩, tokens, totals, htransfer, htotals, hv⟩
  · rintro ⟨hpaused, p, hclaim, tokens, totals, htransfer, htotals, hv⟩
    exact ⟨_, ⟨hpaused, p, hclaim.stored, hclaim.campaign, hclaim.status, hclaim.window,
      hclaim.ungated, hclaim.authorised, hclaim.cooldown, hc, hr, _, ⟨tokens, htransfer, rfl⟩,
      totals, htotals, rfl⟩, hv⟩

theorem claim_outcome (hc : c ∈ signers) (hp : w.store.packages[id]? = some p) (hrecipient : p.recipient = c) :
    outcome (claim H signers w id) = some v ↔ ClaimsTo H w id c v := by
  subst hrecipient
  rw [outcome_eq_some]
  simp only [claim, bind_eq_ok, require_eq_ok, exists_unit, getPackage_eq_ok, requireAuth_eq_ok,
    checkCampaignPaused_eq_ok, checkClaimWindow_eq_ok]
  constructor
  · rintro ⟨w', ⟨hpaused, q, hq, hopen, hstatus, hwindow, hroot, -, h⟩, hv⟩
    obtain rfl := Option.some.inj (hp.symm.trans hq)
    obtain ⟨hcooldown, hpays⟩ := (finalizeClaim_outcome _).mp ⟨w', h, hv⟩
    exact ⟨hpaused, p, ⟨hp, hopen, hstatus, hwindow, hroot, if_pos rfl, hcooldown⟩, hpays⟩
  · rintro ⟨hpaused, q, hclaim, hpays⟩
    obtain rfl := Option.some.inj (hp.symm.trans hclaim.stored)
    obtain ⟨w', h, hv⟩ := (finalizeClaim_outcome p.recipient).mpr ⟨hclaim.cooldown, hpays⟩
    exact ⟨w', ⟨hpaused, p, hp, hclaim.campaign, hclaim.status, hclaim.window, hclaim.ungated, hc, h⟩, hv⟩

section Room

def HasRoom (totals : Totals) (p : Package) : Prop :=
  FitsI128 (amountOf totals.claimed p.token + p.amount) ∧
    ∀ ref, campaignRefFromMetadata p.metadata = some ref →
      FitsI128 (campaignAmountOf totals.campaignClaimed ref p.token + p.amount)

variable {totals : Totals}

variable {f : Fault}

theorem settleClaim_iff (hp : 0 < p.amount) : (∃ totals', settleClaim totals p = .ok totals') ↔ HasRoom totals p := by
  obtain ⟨mid, hmid, hclaimed, hcampaign⟩ := decrementLocked_total totals hp
  simp only [settleClaim, hmid, ok_bind, incrementClaimed, bind_eq_ok, pure_eq_ok, addI128_eq_ok, hclaimed, hcampaign]
  have hadjust := adjustCampaign_pos (m := totals.campaignClaimed) hp
  constructor
  · rintro ⟨_, a, ⟨hfits, -⟩, m, hm, -⟩
    exact ⟨hfits, hadjust.mp ⟨m, hm⟩⟩
  · rintro ⟨hfits, hrefs⟩
    obtain ⟨m, hm⟩ := hadjust.mpr hrefs
    exact ⟨_, _, ⟨hfits, rfl⟩, m, hm, rfl⟩

theorem addI128_error {a b : ℤ} (h : addI128 a b = .error f) : f = .trap := by
  unfold addI128 at h
  split at h
  · cases h
  · cases h
    rfl

theorem adjustCampaign_error {m : CampaignTotals} {metadata : Metadata} {token : Address}
    {delta : ℤ} (h : adjustCampaignTokenAmount m metadata token delta = .error f) : f = .trap := by
  unfold adjustCampaignTokenAmount at h
  split at h
  · cases h
  · simp only [applyNestedDelta, bind_eq_error] at h
    rcases h with h | ⟨_, -, h⟩
    · split at h
      · exact addI128_error h
      · cases h
    · cases h

theorem settleClaim_error (h : settleClaim totals p = .error f) : f = .trap := by
  simp only [settleClaim, decrementLocked, incrementClaimed, bind_eq_error] at h
  rcases h with (h | ⟨_, -, h⟩) | ⟨_, -, h | ⟨_, -, h | ⟨_, -, h⟩⟩⟩
  · exact adjustCampaign_error h
  · cases h
  · exact addI128_error h
  · exact adjustCampaign_error h
  · cases h

end Room

theorem claimOneForBatch_of_claimable (h : Claimable w id p c) :
    claimOneForBatch H w c id = match finalizeClaim H w p id c c with
      | .ok w' => .ok (w', ⟨id, .success, p.amount⟩)
      | .error (.error _) => .ok (w, ⟨id, .transferFailed, 0⟩)
      | .error .trap => .error .trap := by
  have hopen : checkCampaignPaused w p.metadata = .ok () :=
    (checkCampaignPaused_eq_ok w).mpr h.campaign
  have hstart : ¬ w.now < p.claimStartsAt := Nat.not_lt.mpr h.window.1
  rcases hfinal : finalizeClaim H w p id c c with (_ | _) | w' <;>
    simp only [claimOneForBatch, h.stored, hopen, h.status, hstart, h.window.2, h.ungated,
      h.authorised, h.cooldown, hfinal, ne_eq, not_true_eq_false, Option.isSome_none,
      Bool.false_eq_true, Bool.true_eq_false, ↓reduceIte]

theorem claimOneForBatch_of_not_claimable (h : ∀ p, ¬ Claimable w id p c) :
    ∃ r, claimOneForBatch H w c id = .ok (w, r) ∧ r.status ≠ .success := by
  unfold claimOneForBatch
  split
  · exact ⟨_, rfl, by simp⟩
  rename_i p hp
  split
  · exact ⟨_, rfl, by simp⟩
  rename_i hopen
  split_ifs with hstatus hearly hlate hroot hwho
  case pos | pos | pos | pos | pos => exact ⟨_, rfl, by simp⟩
  split
  · exact ⟨_, rfl, by simp⟩
  rename_i hcooldown
  exact absurd ⟨hp, (checkCampaignPaused_eq_ok w).mp hopen, not_not.mp hstatus,
    ⟨Nat.not_lt.mp hearly, hlate⟩, by simpa using hroot, by simpa using hwho, hcooldown⟩ (h p)

def Payable (H : Host τ) (w : World τ) (id : ℕ) (p : Package) (c : Address) : Prop :=
  Claimable w id p c ∧ ∃ tokens, H.transfer w.tokens p.token H.contract c p.amount = some tokens

/-- An item of a batch is paid as any single claim would pay it, is passed over where any single
claim is refused, or takes the batch with it because a claimed total has no room. -/
theorem claimOneForBatch_cases (hw : WellFormed w) (id : ℕ) (c : Address) :
    (∃ p w' r, Payable H w id p c ∧ HasRoom w.totals p ∧
      claimOneForBatch H w c id = .ok (w', r) ∧ r.status = .success ∧ PaysTo H w id p c w'.quiet) ∨
    ((∀ p, ¬ Payable H w id p c) ∧ ∃ r, claimOneForBatch H w c id = .ok (w, r) ∧ r.status ≠ .success) ∨
    (∃ p, Payable H w id p c ∧ ¬ HasRoom w.totals p ∧ claimOneForBatch H w c id = .error .trap) := by
  by_cases hex : ∃ p, Claimable w id p c
  · obtain ⟨p, hclaim⟩ := hex
    have hpos := hw.amount_pos id p hclaim.stored
    rw [claimOneForBatch_of_claimable hclaim]
    cases htransfer : H.transfer w.tokens p.token H.contract c p.amount with
    | none =>
      have hfail : finalizeClaim H w p id c c = .error (err .tokenTransferFailed) := by
        simp only [finalizeClaim, hclaim.cooldown, ok_bind, transferToken, htransfer]
        rfl
      refine .inr (.inl ⟨?_, ⟨id, .transferFailed, 0⟩, by rw [hfail], by simp⟩)
      rintro q ⟨hq, tokens, ht⟩
      obtain rfl := Option.some.inj (hclaim.stored.symm.trans hq.stored)
      rw [htransfer] at ht
      cases ht
    | some tokens =>
      by_cases hroom : HasRoom w.totals p
      · obtain ⟨totals, htotals⟩ := (settleClaim_iff hpos).mpr hroom
        have hpays : PaysTo H w id p c (w.claimed H id p c tokens totals).quiet :=
          ⟨tokens, totals, htransfer, htotals, rfl⟩
        obtain ⟨w', hok, hv⟩ := (finalizeClaim_outcome c).mpr ⟨hclaim.cooldown, hpays⟩
        exact .inl ⟨p, w', ⟨id, .success, p.amount⟩, ⟨hclaim, tokens, htransfer⟩, hroom, by rw [hok], rfl, hv ▸ hpays⟩
      · -- The code settles the record with its new status, which the totals do not read.
        have hsettle : settleClaim w.totals { p with status := .claimed } = .error .trap := by
          change settleClaim w.totals p = .error .trap
          cases hs : settleClaim w.totals p with
          | ok totals => exact absurd ((settleClaim_iff hpos).mp ⟨totals, hs⟩) hroom
          | error f => rw [settleClaim_error hs]
        have hfail : finalizeClaim H w p id c c = .error .trap := by
          simp only [finalizeClaim, hclaim.cooldown, ok_bind, transferToken, htransfer, putPackage, hsettle]
          rfl
        exact .inr (.inr ⟨p, ⟨hclaim, tokens, htransfer⟩, hroom, by rw [hfail]⟩)
  · have hnone : ∀ p, ¬ Claimable w id p c := fun p hp => hex ⟨p, hp⟩
    exact .inr (.inl ⟨fun p hp => hnone p hp.1, claimOneForBatch_of_not_claimable hnone⟩)

/-- The next state when the ids are claimed one at a time, and whether the claim succeeded. -/
def claimNext (H : Host τ) (signers : List Address) (c : Address) (w : World τ) (id : ℕ) :
    World τ × Bool :=
  match claimWithRelayer H signers w id c c with
  | .ok w' => (w', true)
  | .error _ => (w, false)

/-- Claim the ids one at a time, from left to right, passing over those that are refused. -/
def claimEach (H : Host τ) (signers : List Address) (c : Address) :
    World τ → List ℕ → World τ × List Bool
  | w, [] => (w, [])
  | w, id :: ids =>
    let next := claimNext H signers c w id
    let rest := claimEach H signers c next.1 ids
    (rest.1, next.2 :: rest.2)

/-- At the state its predecessors leave, no item that could be paid finds a claimed total without
room for it. -/
def RoomForAll (H : Host τ) (signers : List Address) (c : Address) : World τ → List ℕ → Prop
  | _, [] => True
  | w, id :: ids => (∀ p, Payable H w id p c → HasRoom w.totals p) ∧
    RoomForAll H signers c (claimNext H signers c w id).1 ids

def BatchClaimResult.succeeded (r : BatchClaimResult) : Bool := decide (r.status = .success)

/-- While claims are not paused, a batch answers, leaves what claiming its ids one at a time
leaves, and reports success for the same items; while they are paused, neither does anything. -/
def BatchMatches (H : Host τ) (signers : List Address) (w : World τ) (c : Address)
    (ids : List ℕ) : Prop :=
  if checkActionPaused w "claim" = .ok () then
    ∃ w' rs, batchClaim H signers w c ids = .ok (w', rs) ∧
      w'.quiet = (claimEach H signers c w ids).1.quiet ∧
      rs.map BatchClaimResult.succeeded = (claimEach H signers c w ids).2
  else
    (∀ out, batchClaim H signers w c ids ≠ .ok out) ∧
      claimEach H signers c w ids = (w, List.replicate ids.length false)

theorem eq_of_quiet {u : World τ} (h : u.quiet = w.quiet) : u = { w with events := u.events } := by
  cases u
  cases w
  simp only [World.quiet, World.mk.injEq, and_true] at h ⊢
  exact h

theorem claimable_quiet (events : List Published) :
    Claimable { w with events } id p c ↔ Claimable w id p c :=
  ⟨fun h => ⟨h.stored, h.campaign, h.status, h.window, h.ungated, h.authorised, h.cooldown⟩,
    fun h => ⟨h.stored, h.campaign, h.status, h.window, h.ungated, h.authorised, h.cooldown⟩⟩

theorem payable_quiet (events : List Published) :
    Payable H { w with events } id p c ↔ Payable H w id p c :=
  and_congr_left' (claimable_quiet events)

theorem claimNext_success (hc : c ∈ signers) (h : ClaimsTo H w id c v) :
    (claimNext H signers c w id).1.quiet = v ∧ (claimNext H signers c w id).2 = true ∧
      claimWithRelayer H signers w id c c = .ok (claimNext H signers c w id).1 := by
  have hout := (claimWithRelayer_outcome hc hc).mpr h
  obtain ⟨w', hok, hv⟩ := outcome_eq_some.mp hout
  unfold claimNext
  rw [hok]
  exact ⟨hv, rfl, rfl⟩

theorem claimNext_refused (hc : c ∈ signers) (h : ∀ v, ¬ ClaimsTo H w id c v) :
    claimNext H signers c w id = (w, false) := by
  unfold claimNext
  cases hr : claimWithRelayer H signers w id c c with
  | error e => rfl
  | ok w' =>
    have hout := outcome_eq_some.mpr ⟨w', hr, rfl⟩
    exact absurd ((claimWithRelayer_outcome hc hc).mp hout) (h _)

theorem ClaimsTo.payable (h : ClaimsTo H w id c v) : ∃ p, Payable H w id p c := by
  obtain ⟨-, p, hclaim, tokens, -, htransfer, -, -⟩ := h
  exact ⟨p, hclaim, tokens, htransfer⟩

theorem ClaimsTo.settings (h : ClaimsTo H w id c v) : v.settings = w.settings := by
  obtain ⟨-, p, -, tokens, totals, -, -, rfl⟩ := h
  rfl

theorem batchItems_matches (hc : c ∈ signers) : ∀ (ids : List ℕ) (u w : World τ),
    u.quiet = w.quiet → WellFormed w → checkActionPaused w "claim" = .ok () →
    ((∃ u' rs, batchItems (fun w id => claimOneForBatch H w c id) u ids = .ok (u', rs) ∧
      u'.quiet = (claimEach H signers c w ids).1.quiet ∧
      rs.map BatchClaimResult.succeeded = (claimEach H signers c w ids).2) ↔ RoomForAll H signers c w ids)
  | [], u, w, hquiet, _, _ => by
    refine ⟨fun _ => trivial, fun _ => ⟨u, [], rfl, hquiet, rfl⟩⟩
  | id :: ids, u, w, hquiet, hw, hpaused => by
    have hu := eq_of_quiet hquiet
    have hwu : WellFormed u := by
      rw [hu]
      exact ⟨hw.key, hw.below, hw.amount_pos⟩
    have htotals : u.totals = w.totals := by rw [hu]
    have hpay : ∀ p, Payable H u id p c ↔ Payable H w id p c := fun p => by
      rw [hu]
      exact payable_quiet _
    simp only [batchItems, bind_eq_ok, pure_eq_ok, claimEach, RoomForAll]
    rcases claimOneForBatch_cases (H := H) hwu id c with
      ⟨p, u', r, hpayable, hroom, hone, hsuccess, hpays⟩ | ⟨hnone, r, hone, hfailed⟩ |
      ⟨p, hpayable, hfull, hone⟩
    · -- Paid: both sides go on from ledgers that agree but for the events.
      have hclaims : ClaimsTo H w id c u'.quiet := by
        refine ⟨hpaused, p, ((hpay p).mp hpayable).1, ?_⟩
        rw [hu] at hpays
        exact hpays
      obtain ⟨hnext, htrue, hstep⟩ := claimNext_success hc hclaims
      have hw' := Step.wellFormed (H := H) (Step.call (c := .claimWithRelayer id c c) hstep) hw
      have hpaused' : checkActionPaused (claimNext H signers c w id).1 "claim" = .ok () := by
        rw [checkActionPaused_settings (w := w), hpaused]
        exact (congrArg World.settings hnext).trans hclaims.settings
      have ih := batchItems_matches hc ids u' _ hnext.symm hw' hpaused'
      constructor
      · rintro ⟨_, _, ⟨⟨u1, r1⟩, h1, ⟨u2, rs⟩, hrest, hout⟩, hq, hflags⟩
        cases hone.symm.trans h1
        cases hout
        refine ⟨fun q hq' => ?_, ih.mp ⟨_, _, hrest, hq, (List.cons.inj hflags).2⟩⟩
        obtain rfl := Option.some.inj (((hpay p).mp hpayable).1.stored.symm.trans hq'.1.stored)
        rw [← htotals]
        exact hroom
      · rintro ⟨-, hrest⟩
        obtain ⟨u2, rs, hitems, hq, hflags⟩ := ih.mpr hrest
        refine ⟨u2, r :: rs, ⟨(u', r), hone, (u2, rs), hitems, rfl⟩, hq, ?_⟩
        rw [List.map_cons, hflags, htrue]
        exact congrArg (· :: _) (decide_eq_true hsuccess)
    · -- Passed over: neither side moves.
      have hrefused : ∀ v, ¬ ClaimsTo H w id c v := fun v hv => by
        obtain ⟨p, hp⟩ := hv.payable
        exact hnone p ((hpay p).mpr hp)
      have ih := batchItems_matches hc ids u w hquiet hw hpaused
      rw [claimNext_refused hc hrefused]
      constructor
      · rintro ⟨_, _, ⟨⟨u1, r1⟩, h1, ⟨u2, rs⟩, hrest, hout⟩, hq, hflags⟩
        cases hone.symm.trans h1
        cases hout
        exact ⟨fun q hq' => absurd ((hpay q).mpr hq') (hnone q), ih.mp ⟨_, _, hrest, hq, (List.cons.inj hflags).2⟩⟩
      · rintro ⟨-, hrest⟩
        obtain ⟨u2, rs, hitems, hq, hflags⟩ := ih.mpr hrest
        refine ⟨u2, r :: rs, ⟨(u, r), hone, (u2, rs), hitems, rfl⟩, hq, ?_⟩
        rw [List.map_cons, hflags]
        exact congrArg (· :: _) (decide_eq_false hfailed)
    · -- Lost in an overflow: the batch does not answer.
      constructor
      · rintro ⟨_, _, ⟨⟨u1, r1⟩, h1, -⟩, -⟩
        cases hone.symm.trans h1
      · rintro ⟨hroom, -⟩
        rw [htotals] at hfull
        exact absurd (hroom p ((hpay p).mp hpayable)) hfull

theorem claimEach_paused (hpaused : checkActionPaused w "claim" ≠ .ok ()) : ∀ ids : List ℕ,
    claimEach H signers c w ids = (w, List.replicate ids.length false)
  | [] => rfl
  | id :: ids => by
    have hnext : claimNext H signers c w id = (w, false) := by
      unfold claimNext
      cases hr : claimWithRelayer H signers w id c c with
      | error e => rfl
      | ok w' =>
        simp only [claimWithRelayer, bind_eq_ok, exists_unit] at hr
        exact absurd hr.1 hpaused
    rw [claimEach, hnext, claimEach_paused hpaused ids]
    rfl

theorem batchMatches_iff (hw : WellFormed w) (hc : c ∈ signers) {ids : List ℕ}
    (hlen : ids.length ≤ maxBatchClaimSize) : BatchMatches H signers w c ids ↔
      (checkActionPaused w "claim" = .ok () → RoomForAll H signers c w ids) := by
  unfold BatchMatches
  split
  · rename_i hpaused
    have hitems := batchItems_matches (H := H) hc ids w w rfl hw hpaused
    simp only [batchClaim, bind_eq_ok, exists_unit, require_eq_ok, requireAuth_eq_ok, hpaused, hlen,
      hc, true_and, forall_const]
    exact hitems
  · rename_i hpaused
    refine iff_of_true ⟨fun out h => ?_, claimEach_paused hpaused ids⟩ fun h => absurd h hpaused
    simp only [batchClaim, bind_eq_ok, exists_unit] at h
    exact hpaused h.1

theorem batchClaim_single (hw : WellFormed w) (hc : c ∈ signers) :
    itemOutcome (batchClaim H signers w c [id]) = some v ↔ ClaimsTo H w id c v := by
  -- with one id the batch answers with the state and the report of that item
  have hcall : ∀ out, batchClaim H signers w c [id] = .ok out ↔ checkActionPaused w "claim" = .ok () ∧
        ∃ w' r, claimOneForBatch H w c id = .ok (w', r) ∧ (w', [r]) = out := by
    intro out
    simp only [batchClaim, batchItems, bind_eq_ok, pure_eq_ok, exists_unit, requireAuth_eq_ok, hc,
      List.length_singleton, maxBatchClaimSize, true_and]
    constructor
    · rintro ⟨hpaused, -, ⟨w', r⟩, hone, ⟨w2, rs⟩, hnil, rfl⟩
      cases hnil
      exact ⟨hpaused, w', r, hone, rfl⟩
    · rintro ⟨hpaused, w', r, hone, rfl⟩
      exact ⟨hpaused, require_of (by simp), (w', r), hone, (w', []), rfl, rfl⟩
  have hitem : itemOutcome (batchClaim H signers w c [id]) = some v ↔
      checkActionPaused w "claim" = .ok () ∧ ∃ w' r, claimOneForBatch H w c id = .ok (w', r) ∧
        r.status = .success ∧ w'.quiet = v := by
    cases hb : batchClaim H signers w c [id] with
    | error e =>
      refine iff_of_false ?_ ?_
      · intro h
        cases h
      rintro ⟨hpaused, w', r, hone, -⟩
      cases hb.symm.trans ((hcall (w', [r])).mpr ⟨hpaused, w', r, hone, rfl⟩)
    | ok out =>
      obtain ⟨hpaused, w', r, hone, rfl⟩ := (hcall out).mp hb
      simp only [itemOutcome, Option.ite_none_right_eq_some, Option.some.injEq, hpaused, true_and,
        hone, Except.ok.injEq, Prod.mk.injEq]
      constructor
      · exact fun h => ⟨w', r, ⟨rfl, rfl⟩, h⟩
      · rintro ⟨w2, r2, ⟨rfl, rfl⟩, h⟩
        exact h
  -- both sides start with the pause check; after it, the item is paid, passed over or lost
  rw [hitem, ClaimsTo]
  refine and_congr_right fun _ => ?_
  rcases claimOneForBatch_cases (H := H) hw id c with
    ⟨p, w', r, hpayable, hroom, hone, hsuccess, hpays⟩ | ⟨hnone, r, hone, hfailed⟩ |
    ⟨p, hpayable, hfull, hone⟩
  · constructor
    · rintro ⟨w2, r2, h2, -, rfl⟩
      cases hone.symm.trans h2
      exact ⟨p, hpayable.1, hpays⟩
    · rintro ⟨q, hq, hpays'⟩
      obtain rfl := Option.some.inj (hpayable.1.stored.symm.trans hq.stored)
      obtain ⟨tokens, totals, htransfer, htotals, hv⟩ := hpays
      obtain ⟨tokens', totals', htransfer', htotals', rfl⟩ := hpays'
      obtain rfl := Option.some.inj (htransfer.symm.trans htransfer')
      obtain rfl := Except.ok.inj (htotals.symm.trans htotals')
      exact ⟨w', r, hone, hsuccess, hv.symm⟩
  · refine iff_of_false ?_ ?_
    · rintro ⟨w2, r2, h2, hs, -⟩
      cases hone.symm.trans h2
      exact hfailed hs
    · rintro ⟨q, hq, tokens, -, htransfer, -⟩
      exact hnone q ⟨hq, tokens, htransfer⟩
  · refine iff_of_false ?_ ?_
    · rintro ⟨w2, r2, h2, -⟩
      cases hone.symm.trans h2
    · rintro ⟨q, hq, tokens, totals, -, htotals, -⟩
      obtain rfl := Option.some.inj (hpayable.1.stored.symm.trans hq.stored)
      exact hfull ((settleClaim_iff (hw.amount_pos id p hq.stored)).mp ⟨totals, htotals⟩)

/-- In every reachable ledger, all ways to claim a package without a Merkle root succeed for the
same claimants and leave the same ledger, events apart; and a batch is as good as claiming its ids
one at a time exactly if no item that could be paid finds a claimed total without room. -/
theorem claim_paths_agree {tr : Trace τ} (h : Reaches H tr w) (hc : c ∈ signers) :
    (∀ (id : ℕ) (proof : List Text) (relayer : Address), relayer ∈ signers →
      (∀ p, w.store.packages[id]? = some p → merkleRootFromMetadata p.metadata = none) →
      outcome (claimWithProof H signers w id c proof) = outcome (claimWithRelayer H signers w id c relayer) ∧
        itemOutcome (batchClaim H signers w c [id]) = outcome (claimWithRelayer H signers w id c relayer) ∧
        ∀ p, w.store.packages[id]? = some p → p.recipient = c → outcome (claim H signers w id) =
            outcome (claimWithRelayer H signers w id c relayer)) ∧
    ∀ ids : List ℕ, ids.length ≤ maxBatchClaimSize → (BatchMatches H signers w c ids ↔
        (checkActionPaused w "claim" = .ok () → RoomForAll H signers c w ids)) := by
  have hw := h.wellFormed
  refine ⟨fun id proof relayer hr hroot => ?_, fun ids hlen => batchMatches_iff hw hc hlen⟩
  have hrelayer : ∀ v, outcome (claimWithRelayer H signers w id c relayer) = some v ↔
      ClaimsTo H w id c v := fun v => claimWithRelayer_outcome hc hr
  refine ⟨?_, ?_, fun p hp hrecipient => ?_⟩
  · exact outcome_eq_of_spec (fun v => claimWithProof_outcome hc hroot) hrelayer
  · exact outcome_eq_of_spec (fun v => batchClaim_single hw hc) hrelayer
  · exact outcome_eq_of_spec (fun v => claim_outcome hc hp hrecipient) hrelayer

def delegatedPackage : List (Move Balances) := [
  .call [] (.init ⟨1⟩),
  .call [⟨1⟩] (.fund ⟨9⟩ ⟨1⟩ 10),
  .call [⟨1⟩] (.createPackage ⟨1⟩ 0 ⟨2⟩ 10 ⟨9⟩ 0 ∅),
  .call [⟨1⟩] (.setDelegate ⟨1⟩ 0 ⟨4⟩)]

theorem claim_paths_agree_delegatedPackage : outcome (claimWithProof (plainHost ⟨0⟩) [⟨4⟩, ⟨5⟩]
        (played (plainHost ⟨0⟩) 100 [((⟨9⟩, ⟨1⟩), 100)] delegatedPackage).2 0 ⟨4⟩ []) =
      outcome (claimWithRelayer (plainHost ⟨0⟩) [⟨4⟩, ⟨5⟩]
        (played (plainHost ⟨0⟩) 100 [((⟨9⟩, ⟨1⟩), 100)] delegatedPackage).2 0 ⟨4⟩ ⟨5⟩) ∧
    (outcome (claimWithRelayer (plainHost ⟨0⟩) [⟨4⟩, ⟨5⟩]
      (played (plainHost ⟨0⟩) 100 [((⟨9⟩, ⟨1⟩), 100)] delegatedPackage).2 0 ⟨4⟩ ⟨5⟩)).isSome := by
  refine ⟨((claim_paths_agree (c := ⟨4⟩) (played_reaches (H := plainHost ⟨0⟩)
    100 [((⟨9⟩, ⟨1⟩), 100)] delegatedPackage) List.mem_cons_self).1 0 [] ⟨5⟩ (by simp) ?_).1,
    by decide +kernel⟩
  intro p hp
  have hroot : ((played (plainHost ⟨0⟩) 100 [((⟨9⟩, ⟨1⟩), 100)]
      delegatedPackage).2.store.packages[0]?).all
      (fun p => (merkleRootFromMetadata p.metadata).isNone) = true := by
    decide +kernel
  rw [hp] at hroot
  exact Option.isNone_iff_eq_none.mp hroot

/-- A token is claimed up to the largest total there can be, paid back in part and locked again. -/
def claimedToTheBrim : List (Move Balances) := [
  .call [] (.init ⟨1⟩),
  .call [⟨1⟩] (.fund ⟨9⟩ ⟨1⟩ (2 ^ 127 - 1)),
  .call [⟨1⟩] (.createPackage ⟨1⟩ 0 ⟨2⟩ (2 ^ 127 - 1) ⟨9⟩ 0 ∅),
  .call [⟨2⟩] (.claim 0),
  .call [⟨2⟩] (.fund ⟨9⟩ ⟨2⟩ 10),
  .call [⟨1⟩] (.fund ⟨8⟩ ⟨1⟩ 10),
  .call [⟨1⟩] (.createPackage ⟨1⟩ 1 ⟨2⟩ 5 ⟨8⟩ 0 ∅),
  .call [⟨1⟩] (.createPackage ⟨1⟩ 2 ⟨2⟩ 5 ⟨9⟩ 0 ∅)]

theorem claimedToTheBrim_batch_lost : ∃ w : World Balances, Reaches (plainHost ⟨0⟩) (played (plainHost ⟨0⟩) 100
        [((⟨9⟩, ⟨1⟩), 2 ^ 127 - 1), ((⟨8⟩, ⟨1⟩), 10)] claimedToTheBrim).1 w ∧
      (claimEach (plainHost ⟨0⟩) [⟨2⟩] ⟨2⟩ w [1, 2]).2 = [true, false] ∧
      ¬ BatchMatches (plainHost ⟨0⟩) [⟨2⟩] w ⟨2⟩ [1, 2] := by
  refine ⟨_, played_reaches _ _ _, by decide +kernel, ?_⟩
  generalize hw : (played (plainHost ⟨0⟩) 100 [((⟨9⟩, ⟨1⟩), 2 ^ 127 - 1), ((⟨8⟩, ⟨1⟩), 10)]
    claimedToTheBrim).2 = w
  have hpaused : checkActionPaused w "claim" = .ok () := by
    subst hw
    decide +kernel
  have hlost : (batchClaim (plainHost ⟨0⟩) [⟨2⟩] w ⟨2⟩ [1, 2]).toOption.isNone = true := by
    subst hw
    decide +kernel
  rw [BatchMatches, if_pos hpaused]
  rintro ⟨w', rs, h, -⟩
  rw [h] at hlost
  cases hlost

end Soter.AidEscrow
