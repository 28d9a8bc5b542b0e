import Soter.AidEscrow.Payouts
import Soter.AidEscrow.Solvency

/-! What the pause flags keep from happening. -/
namespace Soter.AidEscrow
open Std Soter.Fallible Soter.MapSum Soter.Runs

variable {τ : Type} {H : Host τ} {signers : List Address} {w w' : World τ} {m : Move τ} {a : Act}
  {id : ℕ} {p : Package} {held : τ → Address → ℤ}

def Call.action : Call → Option PauseKey
  | .createPackage .. | .batchCreatePackages .. => some .create
  | .claim .. | .claimWithProof .. | .claimWithRelayer .. | .batchClaim .. => some .claim
  | .proposeSurplusWithdrawal .. | .executeSurplusWithdrawal => some .withdraw
  | .refund .. | .batchRefund .. => some .refund
  | _ => none

def Call.paysOut : Call → Option ℕ
  | .claim id | .claimWithProof id _ _ | .claimWithRelayer id _ _ | .disburse id | .refund id =>
    some id
  | _ => none

def Act.paysOut : Act → Option ℕ
  | .claim id _ | .disburse id | .refund id => some id
  | _ => none

/-- A pause stands in the way of the call: the global one or that of its action, or the one of the
campaign of the package it is to pay out. -/
inductive Blocked (w : World τ) (c : Call) : Prop
  | action (key : PauseKey) : c.action = some key →
      (w.settings.paused = true ∨ w.settings.pauseFlag key = true) → Blocked w c
  | campaign (id : ℕ) (p : Package) : c.paysOut = some id → w.store.packages[id]? = some p →
      ¬ CampaignOpen w p.metadata → Blocked w c

theorem Move.permits_settings (h : m.permits .settings) (ha : m.permits a) : a = .settings ∨ a = .backfill := by
  cases m with
  | tick | outside => cases h
  | call signers c =>
    cases c with
    | migrate v =>
      rcases ha with rfl | ⟨rfl, -⟩
      · exact .inl rfl
      · exact .inr rfl
    | init | transferAdmin | acceptAdmin | cancelAdminTransfer | addDistributor
    | removeDistributor | setMaxDistributors | setConfig | pause | unpause | pauseAction
    | unpauseAction | pauseCampaign | unpauseCampaign | addAllowedToken | removeAllowedToken =>
      exact .inl ha
    | _ => simp [Move.permits, Call.permits] at h

theorem Step.acts_settings (h : Step H w m w') (hw : WellFormed w) : ∃ acts, Run (Atom H) w acts w' ∧ ∀ t ∈ acts,
      t.label = .settings ∨ t.label = .backfill ∨ t.pre.settings = w.settings := by
  obtain ⟨acts, hacts, hkind⟩ := step_path hw h (refundsMeet_true m w)
  refine ⟨acts, hacts, ?_⟩
  intro t ht
  by_cases hm : m.permits .settings
  · rcases Move.permits_settings hm (hkind t ht).1 with hlabel | hlabel
    · exact .inl hlabel
    · exact .inr (.inl hlabel)
  · obtain ⟨before, after, rfl⟩ := List.append_of_mem ht
    right
    right
    refine hacts.split.1.invariant (I := fun u => u.settings = w.settings) (C := fun t => t.label ≠ .settings) rfl ?_ ?_
    · intro s hs hlabel
      have hpermit := (hkind s (List.mem_append_left _ hs)).1
      rw [hlabel] at hpermit
      exact hm hpermit
    · intro s hatom hlabel hpre
      exact (hatom.settings_kept hlabel).trans hpre

theorem Atom.paysOut_open (h : Atom H w a w') (ha : a.paysOut = some id)
    (hp : w.store.packages[id]? = some p) : CampaignOpen w p.metadata := by
  have hsame : ∀ q, w.store.packages[id]? = some q → CampaignOpen w q.metadata →
      CampaignOpen w p.metadata := by
    intro q hq hopen
    obtain rfl := Option.some.inj (hp.symm.trans hq)
    exact hopen
  cases h with
  | claim hq _ hopen | disburse hq _ hopen | refundLocked hq hopen | refundCancelled hq hopen =>
    cases ha
    exact hsame _ hq hopen
  | _ => cases ha

theorem Atom.payouts_kept (h : Atom H w a w') (ha : a.paysOut ≠ some id) :
    payoutsFor w' id = payoutsFor w id := by
  have hother : ∀ x : Transfer, x.purpose.package ≠ some id →
      (w.transfers ++ [x]).filter (fun x => x.purpose.package = some id) = payoutsFor w id := by
    intro x hx
    rw [List.filter_append, List.filter_singleton]
    simp [hx, payoutsFor]
  cases h with
  | backfill _ h =>
    obtain ⟨totals, rfl⟩ := backfill_only_totals h
    rfl
  | fund | execute => exact hother _ (by simp [Purpose.package])
  | claim | disburse | refundLocked | refundCancelled => exact hother _ ha
  | _ => rfl

/-- An act that finds the contract paused, or is about settings, creates no package and takes no
tokens out. -/
theorem Atom.paused (hlaw : TokenLaw H held) (h : Atom H w a w')
    (hpaused : a = .settings ∨ a = .backfill ∨ w.settings.paused = true) :
    (∀ id : ℕ, w.store.packages[id]? = none → w'.store.packages[id]? = none) ∧ ∀ t, held w.tokens t ≤ held w'.tokens t := by
  have hclosed : ∀ metadata, (a ≠ .settings ∧ a ≠ .backfill) → ¬ CampaignOpen w metadata := by
    rintro metadata ⟨hs, hb⟩ ⟨hopen, -⟩
    have hflag := (hpaused.resolve_left hs).resolve_left hb
    rw [hopen] at hflag
    cases hflag
  constructor
  · intro id hnone
    rcases Option.eq_none_or_eq_some w'.store.packages[id]? with hnone' | ⟨p, hp⟩
    · exact hnone'
    · obtain ⟨-, rfl⟩ := h.package_new hnone hp
      have hflag : w.settings.paused = true := by simpa using hpaused
      cases h with
      | create hopen =>
        rw [hflag] at hopen
        cases hopen
  · cases h with
    | fund hamount htransfer => exact hlaw.le_of_deposit hamount.le htransfer
    | outside h => exact hlaw.outside _ _ h
    | claim _ _ hopen | disburse _ _ hopen | refundLocked _ hopen | refundCancelled _ hopen =>
      exact absurd hopen (hclosed _ ⟨by simp, by simp⟩)
    | execute hopen =>
      have hflag : w.settings.paused = true := by simpa using hpaused
      rw [hflag] at hopen
      cases hopen
    | backfill _ h =>
      obtain ⟨totals, rfl⟩ := backfill_only_totals h
      exact fun t => le_rfl
    | _ => exact fun t => le_rfl

theorem Step.paused (hlaw : TokenLaw H held) (h : Step H w m w') (hw : WellFormed w) (hpaused : w.settings.paused = true) :
    (∀ id : ℕ, w.store.packages[id]? = none → w'.store.packages[id]? = none) ∧ ∀ t, held w.tokens t ≤ held w'.tokens t := by
  obtain ⟨acts, hacts, hsettings⟩ := h.acts_settings hw
  refine hacts.invariant (I := fun u => (∀ id : ℕ, w.store.packages[id]? = none →
    u.store.packages[id]? = none) ∧ ∀ t, held w.tokens t ≤ held u.tokens t)
    (C := fun t => t.label = .settings ∨ t.label = .backfill ∨ t.pre.settings = w.settings)
    ⟨fun _ h => h, fun _ => le_rfl⟩ hsettings ?_
  rintro ⟨u, a, v⟩ hatom hkind ⟨hfresh, hheld⟩
  have hflag : a = .settings ∨ a = .backfill ∨ u.settings.paused = true :=
    hkind.imp_right (Or.imp_right fun hsame => (congrArg Settings.paused hsame).trans hpaused)
  constructor
  · intro id hnone
    exact (hatom.paused hlaw hflag).1 id (hfresh id hnone)
  · intro t
    exact (hheld t).trans ((hatom.paused hlaw hflag).2 t)

theorem Step.campaign_closed (h : Step H w m w') (hw : WellFormed w)
    (hp : w.store.packages[id]? = some p) (hclosed : ¬ CampaignOpen w p.metadata) :
    payoutsFor w' id = payoutsFor w id := by
  obtain ⟨acts, hacts, hsettings⟩ := h.acts_settings hw
  have hinv : (∃ q, w'.store.packages[id]? = some q ∧ q.metadata = p.metadata) ∧
      payoutsFor w' id = payoutsFor w id := by
    refine hacts.invariant (I := fun u => (∃ q, u.store.packages[id]? = some q ∧
      q.metadata = p.metadata) ∧ payoutsFor u id = payoutsFor w id)
      (C := fun t => t.label = .settings ∨ t.label = .backfill ∨ t.pre.settings = w.settings)
      ⟨⟨p, hp, rfl⟩, rfl⟩ hsettings ?_
    rintro ⟨u, a, v⟩ hatom hkind ⟨⟨q, hq, hmetadata⟩, hpayouts⟩
    constructor
    · obtain ⟨q', hq', hevolves, -⟩ := hatom.package_kept hq
      exact ⟨q', hq', hevolves.metadata.trans hmetadata⟩
    · have hother : a.paysOut ≠ some id := by
        intro ha
        have hopen := hatom.paysOut_open ha hq
        rcases hkind with rfl | rfl | hsame
        · cases ha
        · cases ha
        · unfold CampaignOpen at hopen hclosed
          rw [hmetadata, show u.settings = w.settings from hsame] at hopen
          exact hclosed hopen
      exact (hatom.payouts_kept hother).trans hpayouts
  exact hinv.2

section Calls

variable {c : Call}

/-- A call with a pause flag of its own goes through only while that flag and the global one are
down. -/
theorem exec_action (h : exec H signers w c = .ok w') {key : PauseKey} (hkey : c.action = some key) :
    w.settings.paused = false ∧ w.settings.pauseFlag key = false := by
  cases c with
  | createPackage =>
    cases hkey
    simp only [exec, createPackage, bind_eq_ok, exists_unit] at h
    exact (checkActionPaused_eq_ok w "create" .create rfl).mp h.1
  | batchCreatePackages =>
    cases hkey
    obtain ⟨ids, h⟩ := fst_map_eq_ok.mp h
    simp only [batchCreatePackages, bind_eq_ok, exists_unit] at h
    exact (checkActionPaused_eq_ok w "create" .create rfl).mp h.1
  | claim =>
    cases hkey
    simp only [exec, claim, bind_eq_ok, exists_unit] at h
    exact (checkActionPaused_eq_ok w "claim" .claim rfl).mp h.1
  | claimWithProof =>
    cases hkey
    simp only [exec, claimWithProof, bind_eq_ok, exists_unit] at h
    exact (checkActionPaused_eq_ok w "claim" .claim rfl).mp h.1
  | claimWithRelayer =>
    cases hkey
    simp only [exec, claimWithRelayer, bind_eq_ok, exists_unit] at h
    exact (checkActionPaused_eq_ok w "claim" .claim rfl).mp h.1
  | batchClaim =>
    cases hkey
    obtain ⟨rs, h⟩ := fst_map_eq_ok.mp h
    simp only [batchClaim, bind_eq_ok, exists_unit] at h
    exact (checkActionPaused_eq_ok w "claim" .claim rfl).mp h.1
  | proposeSurplusWithdrawal =>
    cases hkey
    simp only [exec, proposeSurplusWithdrawal, bind_eq_ok, exists_unit] at h
    exact (checkActionPaused_eq_ok w "withdraw" .withdraw rfl).mp h.1
  | executeSurplusWithdrawal =>
    cases hkey
    simp only [exec, executeSurplusWithdrawal, bind_eq_ok, exists_unit] at h
    exact (checkActionPaused_eq_ok w "withdraw" .withdraw rfl).mp h.1
  | refund =>
    cases hkey
    simp only [exec, refund, bind_eq_ok, exists_unit] at h
    exact (checkActionPaused_eq_ok w "refund" .refund rfl).mp h.1
  | batchRefund =>
    cases hkey
    obtain ⟨rs, h⟩ := fst_map_eq_ok.mp h
    simp only [batchRefund, bind_eq_ok, exists_unit] at h
    exact (checkActionPaused_eq_ok w "refund" .refund rfl).mp h.1
  | _ => cases hkey

theorem exec_paysOut (h : exec H signers w c = .ok w') (hc : c.paysOut = some id)
    (hp : w.store.packages[id]? = some p) : CampaignOpen w p.metadata := by
  cases c with
  | claim k =>
    cases hc
    obtain ⟨payee, hatom⟩ := claim_atom h
    exact hatom.paysOut_open rfl hp
  | claimWithProof k claimant proof =>
    cases hc
    exact (claimWithProof_atom h).paysOut_open rfl hp
  | claimWithRelayer k claimant relayer =>
    cases hc
    exact (claimWithRelayer_atom h).paysOut_open rfl hp
  | disburse k =>
    cases hc
    exact (disburse_atom h).paysOut_open rfl hp
  | refund k =>
    cases hc
    exact (refund_atom h).paysOut_open rfl hp
  | _ => cases hc

theorem afterCall_of_blocked (h : Blocked w c) : afterCall H signers w c = w := by
  apply afterCall_of_refused
  intro w' hok
  cases h with
  | action key hkey hflag =>
    obtain ⟨hpaused, hpause⟩ := exec_action hok hkey
    rw [hpaused, hpause] at hflag
    rcases hflag with hflag | hflag <;> cases hflag
  | campaign id p hc hp hclosed => exact hclosed (exec_paysOut hok hc hp)

theorem checkCampaignPaused_closed {metadata : Metadata} (h : ¬ CampaignOpen w metadata) :
    ∃ e, checkCampaignPaused w metadata = .error e := by
  rcases hr : checkCampaignPaused w metadata with e | u
  · exact ⟨e, rfl⟩
  · exact absurd ((checkCampaignPaused_eq_ok w).mp hr) h

theorem items_blocked (hp : w.store.packages[id]? = some p)
    (hclosed : ¬ CampaignOpen w p.metadata) (claimant admin : Address) :
    claimOneForBatch H w claimant id = .ok (w, ⟨id, .campaignPaused, 0⟩) ∧
      refundOneForBatch H w admin id = .ok (w, ⟨id, .campaignPaused, 0⟩) := by
  obtain ⟨e, he⟩ := checkCampaignPaused_closed hclosed
  constructor
  · simp only [claimOneForBatch, hp, he]
  · simp only [refundOneForBatch, hp, he]

end Calls

/-- Pauses stop money in every reachable ledger. While the contract is paused, no call creates a
package or takes tokens out of it; while a campaign is paused, no call pays out a package of it;
and a call that the global pause, the pause of its action or that of its campaign stands in the way
of leaves everything as it was, as does such an item of a batch. -/
theorem pauses_stop_money (hlaw : TokenLaw H held) {tr : Trace τ} (h : Reaches H tr w)
    (signers : List Address) (c : Call) : (w.settings.paused = true → (∀ id : ℕ, w.store.packages[id]? = none →
        (afterCall H signers w c).store.packages[id]? = none) ∧
      ∀ t, held w.tokens t ≤ held (afterCall H signers w c).tokens t) ∧
    (∀ ref, w.settings.campaignPaused[ref]? = some true → ∀ (id : ℕ) (p : Package),
      w.store.packages[id]? = some p → campaignRefFromMetadata p.metadata = some ref →
      payoutsFor (afterCall H signers w c) id = payoutsFor w id ∧
      (c.paysOut = some id → Blocked w c) ∧ ∀ claimant admin,
        claimOneForBatch H w claimant id = .ok (w, ⟨id, .campaignPaused, 0⟩) ∧
        refundOneForBatch H w admin id = .ok (w, ⟨id, .campaignPaused, 0⟩)) ∧
    (∀ key, w.settings.pauseFlag key = true → c.action = some key → Blocked w c) ∧
    (Blocked w c → afterCall H signers w c = w) := by
  refine ⟨?_, ?_, ?_, afterCall_of_blocked⟩
  · intro hpaused
    rcases afterCall_cases H signers w c with ⟨w', hr, hafter⟩ | ⟨-, hsame⟩
    · rw [hafter]
      exact (Step.call hr).paused hlaw h.wellFormed hpaused
    · rw [hsame]
      exact ⟨fun _ hnone => hnone, fun _ => le_rfl⟩
  · intro ref href id p hp hmetadata
    -- the flag of the campaign closes it to every payout of its packages
    have hclosed : ¬ CampaignOpen w p.metadata := by
      rintro ⟨-, hopen⟩
      have hflag := hopen ref hmetadata
      rw [href] at hflag
      cases hflag
    refine ⟨?_, fun hc => .campaign id p hc hp hclosed, items_blocked hp hclosed⟩
    rcases afterCall_cases H signers w c with ⟨w', hr, hafter⟩ | ⟨-, hsame⟩
    · rw [hafter]
      exact (Step.call hr).campaign_closed h.wellFormed hp hclosed
    · rw [hsame]
  · intro key hflag hkey
    exact .action key hkey (.inr hflag)

def pausedCampaign : List (Move Balances) := [
  .call [] (.init ⟨1⟩),
  .call [⟨1⟩] (.fund ⟨9⟩ ⟨1⟩ 10),
  .call [⟨1⟩] (.createPackage ⟨1⟩ 0 ⟨2⟩ 10 ⟨9⟩ 0 ((∅ : Metadata).insert metaCampaignRef [99])),
  .call [⟨1⟩] (.pauseCampaign [99])]

theorem pauses_stop_money_pausedCampaign : afterCall (plainHost ⟨0⟩) [⟨2⟩]
        (played (plainHost ⟨0⟩) 100 [((⟨9⟩, ⟨1⟩), 10)] pausedCampaign).2 (.claim 0) =
      (played (plainHost ⟨0⟩) 100 [((⟨9⟩, ⟨1⟩), 10)] pausedCampaign).2 := by
  have hrun := played_reaches (H := plainHost ⟨0⟩) 100 [((⟨9⟩, ⟨1⟩), 10)] pausedCampaign
  obtain ⟨-, hcampaign, -, hblocked⟩ :=
    pauses_stop_money (plainHost_law ⟨0⟩) hrun [⟨2⟩] (.claim 0)
  have hseen : ((played (plainHost ⟨0⟩) 100 [((⟨9⟩, ⟨1⟩), 10)]
      pausedCampaign).2.store.packages[0]?).map (fun p => campaignRefFromMetadata p.metadata) =
      some (some [99]) := by
    decide +kernel
  obtain ⟨p, hp, hmetadata⟩ := Option.map_eq_some_iff.mp hseen
  exact hblocked ((hcampaign [99] (by decide +kernel) 0 p hp hmetadata).2.1 rfl)

end Soter.AidEscrow
