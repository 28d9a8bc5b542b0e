import Soter.AidEscrow.Acts

/-! What each call on a single package does, as one act. -/
namespace Soter.AidEscrow
open Std Soter.Fallible Soter.Runs

variable {τ : Type} {H : Host τ} {signers : List Address} {w w' : World τ}

variable {token operator recipient : Address} {amount : ℤ} {c id expiresAt : ℕ} {metadata : Metadata}

theorem fund_atom {sender : Address} (h : fund H signers w token sender amount = .ok w') :
    Atom H w (.fund token sender amount) w' := by
  simp only [fund, bind_eq_ok, pure_eq_ok, require_eq_ok, exists_unit] at h
  obtain ⟨hamount, _, -, -, -, paid, hpaid, rfl⟩ := h
  obtain ⟨tokens, htransfer, rfl⟩ := transferToken_eq_ok.mp hpaid
  exact Atom.fund (E := [.escrowFunded sender token amount w.now]) hamount htransfer rfl

theorem addU64_of_ok {a b : ℕ} (h : addU64 a b = .ok c) : c = a + b :=
  (addU64_eq_ok.mp h).2.symm

theorem counter_eq_ok {counter : ℕ} : (if counter ≤ id then addU64 id 1 else .ok counter) = Except.ok c ↔
      (counter ≤ id → id + 1 < 2 ^ 64) ∧ (if counter ≤ id then id + 1 else counter) = c := by
  by_cases hle : counter ≤ id
  · simp only [hle, ↓reduceIte, addU64_eq_ok, forall_const]
  · simp only [hle, ↓reduceIte, Except.ok.injEq, false_implies, true_and]

def newPackage (token : Address) (createdAt expiresAt claimStartsAt id : ℕ)
    (item : Address × ℤ × Metadata) : Package where
  id := id
  recipient := item.1
  amount := item.2.1
  token := token
  status := .created
  createdAt := createdAt
  expiresAt := expiresAt
  claimStartsAt := claimStartsAt
  metadata := item.2.2
  evidenceHash := []

theorem createPackage_eq_ok : createPackage H signers w operator id recipient amount token expiresAt metadata = .ok w' ↔
      checkActionPaused w "create" = .ok () ∧ Operates signers w operator ∧ 0 < amount ∧
      ∃ decimals, validateToken H w token = .ok decimals ∧ amount.tmod (10 ^ decimals) = 0 ∧
      (getConfig w).minAmount ≤ amount ∧
      ((getConfig w).allowedTokens = [] ∨ token ∈ (getConfig w).allowedTokens) ∧
      ((getConfig w).maxExpiresIn = 0 ∨ ¬ (expiresAt = 0 ∨ expiresAt ≤ w.now ∨
        (getConfig w).maxExpiresIn < expiresAt - w.now)) ∧
      w.store.packages[id]? = none ∧
      ∃ balance, H.balance w.tokens token H.contract = some balance ∧
      amountOf w.totals.locked token + amount ≤ balance ∧
      ∃ totals, incrementLocked w.totals token metadata amount = .ok totals ∧
      ∃ claimStartsAt, resolveClaimStartsAt metadata w.now = .ok claimStartsAt ∧
      ¬ (claimStartsAt < w.now ∨ (0 < expiresAt ∧ expiresAt < claimStartsAt)) ∧
      (w.store.pkgCounter ≤ id → id + 1 < 2 ^ 64) ∧ w.store.pkgIdx + 1 < 2 ^ 64 ∧
      w' = World.emit { w with
        totals
        store := w.store.add
          (newPackage token w.now expiresAt claimStartsAt id (recipient, amount, metadata)) }
        [.packageCreated id recipient amount operator w.now] := by
  simp only [createPackage, bind_eq_ok, pure_eq_ok, require_eq_ok, exists_unit,
    tokenBalance_eq_ok, requireAdminOrDistributor_eq_ok, Option.isNone_iff_eq_none]
  constructor
  · rintro ⟨hpaused, hoperates, hamount, decimals, hdecimals, hunit, hmin, hallowed, hexpiry,
      hfresh, balance, hbalance, required, hrequired, hfunds, totals, htotals, claimStartsAt,
      hstart, hwindow, pkgCounter, hcounter, pkgIdx, hidx, rfl⟩
    obtain ⟨-, rfl⟩ := addI128_eq_ok.mp hrequired
    obtain ⟨hidxRange, rfl⟩ := addU64_eq_ok.mp hidx
    obtain ⟨hcounterRange, rfl⟩ := counter_eq_ok.mp hcounter
    exact ⟨hpaused, hoperates, hamount, decimals, hdecimals, hunit, hmin, hallowed, hexpiry,
      hfresh, balance, hbalance, hfunds, totals, htotals, claimStartsAt, hstart, hwindow,
      hcounterRange, hidxRange, rfl⟩
  · rintro ⟨hpaused, hoperates, hamount, decimals, hdecimals, hunit, hmin, hallowed, hexpiry,
      hfresh, balance, hbalance, hfunds, totals, htotals, claimStartsAt, hstart, hwindow,
      hcounterRange, hidxRange, rfl⟩
    obtain ⟨hrange, -⟩ := incrementLocked_spec htotals
    exact ⟨hpaused, hoperates, hamount, decimals, hdecimals, hunit, hmin, hallowed, hexpiry,
      hfresh, balance, hbalance, _, addI128_eq_ok.mpr ⟨hrange, rfl⟩, hfunds, totals, htotals,
      claimStartsAt, hstart, hwindow, _, counter_eq_ok.mpr ⟨hcounterRange, rfl⟩, _,
      addU64_eq_ok.mpr ⟨hidxRange, rfl⟩, rfl⟩

theorem createPackage_atom (h : createPackage H signers w operator id recipient amount token expiresAt metadata = .ok w') :
    ∃ p : Package, (p.id = id ∧ p.recipient = recipient ∧ p.amount = amount ∧ p.token = token ∧
      p.metadata = metadata) ∧ Atom H w (.create p) w' := by
  obtain ⟨hpaused, -, hamount, _, -, -, -, -, -, hfresh, balance, hbalance, hfunds, totals, htotals,
    claimStartsAt, -, -, -, -, rfl⟩ := createPackage_eq_ok.mp h
  have hbooks := incrementLocked_books
    (p := newPackage token w.now expiresAt claimStartsAt id (recipient, amount, metadata)) hamount
    htotals
  refine ⟨_, ⟨rfl, rfl, rfl, rfl, rfl⟩, Atom.create ?_ hfresh rfl hamount rfl rfl hbalance hfunds hbooks rfl⟩
  exact ((checkActionPaused_eq_ok w "create" .create rfl).mp hpaused).1

variable {p : Package}
section Claims

variable {claimant : Address}

theorem clearDelegate_eq (H : Host τ) (w : World τ) (id : ℕ) : Delegate.clearDelegate H w id =
      { w with delegation := w.delegation.clear H.contract w.now id } := by
  unfold Delegate.clearDelegate Delegation.clear
  cases w.delegation.delegates[id]? <;> rfl

theorem checkClaimWindow_eq_ok {u : Unit} :
    checkClaimWindow w p = .ok u ↔ InWindow w.now p := by
  simp only [checkClaimWindow, InWindow, bind_eq_ok, require_eq_ok, exists_unit]

/-- A completed claim: the cooldown was over, the transfer went through, and the state is the one
after the claim. -/
theorem finalizeClaim_spec {payee : Address} (h : finalizeClaim H w p id payee claimant = .ok w') :
    ensureRecipientCooldown w p.recipient = .ok () ∧ ∃ tokens totals events,
      H.transfer w.tokens p.token H.contract payee p.amount = some tokens ∧
      settleClaim w.totals p = .ok totals ∧
      lifecycleOf events = [(id, .became .claimed)] ∧
      w' = World.emit { w.paid tokens H.contract p payee (.claim id) with
        totals
        store := w.store.put id { p with status := .claimed }
        recipientLastClaim := w.recipientLastClaim.insert p.recipient w.now
        delegation := w.delegation.clear H.contract w.now id } events := by
  simp only [finalizeClaim, bind_eq_ok, pure_eq_ok, exists_unit] at h
  obtain ⟨hcooldown, paid, hpaid, totals, htotals, rfl⟩ := h
  obtain ⟨tokens, htransfer, rfl⟩ := transferToken_eq_ok.mp hpaid
  refine ⟨hcooldown, tokens, totals, ?_⟩
  by_cases hdelegate : claimant = p.recipient
  · refine ⟨[.packageClaimed id payee p.amount payee w.now (receiptHashFromMetadata p.metadata)],
      htransfer, htotals, rfl, ?_⟩
    rw [if_neg (not_not.mpr hdelegate), clearDelegate_eq]
    rfl
  · refine ⟨[.packageClaimed id payee p.amount payee w.now (receiptHashFromMetadata p.metadata),
      .delegateClaimed id p.recipient claimant p.amount claimant w.now,
      .delegateRevoked id p.recipient claimant claimant w.now], htransfer, htotals, rfl, ?_⟩
    rw [if_pos hdelegate, clearDelegate_eq]
    simp only [publish, World.emit, List.append_assoc, List.cons_append, List.nil_append]
    rfl

theorem claim_atom (h : claim H signers w id = .ok w') : ∃ payee, Atom H w (.claim id payee) w' := by
  simp only [claim, bind_eq_ok, require_eq_ok, exists_unit, getPackage_eq_ok, requireAuth_eq_ok,
    checkCampaignPaused_eq_ok, checkClaimWindow_eq_ok] at h
  obtain ⟨-, p, hp, hopen, hstatus, hwindow, hroot, -, h⟩ := h
  obtain ⟨hcooldown, tokens, totals, events, htransfer, htotals, hevents, rfl⟩ :=
    finalizeClaim_spec h
  refine ⟨p.recipient, Atom.claim hp hstatus hopen hwindow ?_ hcooldown htransfer htotals hevents⟩
  rw [Entitled, hroot]
  exact if_pos rfl

theorem claimWithProof_atom {proof : List Text} (h : claimWithProof H signers w id claimant proof = .ok w') :
    Atom H w (.claim id claimant) w' := by
  simp only [claimWithProof, bind_eq_ok, require_eq_ok, exists_unit, getPackage_eq_ok,
    requireAuth_eq_ok, checkCampaignPaused_eq_ok, checkClaimWindow_eq_ok] at h
  obtain ⟨-, p, hp, hopen, hstatus, hwindow, -, h⟩ := h
  have hmain : Entitled H w id p claimant ∧ finalizeClaim H w p id claimant claimant = .ok w' := by
    rcases Option.eq_none_or_eq_some (merkleRootFromMetadata p.metadata) with hroot | ⟨root, hroot⟩
    · simp only [hroot, bind_eq_ok, require_eq_ok, exists_unit] at h
      obtain ⟨hwho, h⟩ := h
      refine ⟨?_, h⟩
      rw [Entitled, hroot]
      rcases hwho with rfl | hdelegate
      · exact if_pos rfl
      · simp [Delegate.isAuthorisedClaimer, hdelegate]
    · simp only [hroot, bind_eq_ok, require_eq_ok, exists_unit] at h
      obtain ⟨_, hverified, rfl, h⟩ := h
      refine ⟨?_, h⟩
      rw [Entitled, hroot]
      exact ⟨proof, hverified⟩
  obtain ⟨hentitled, h⟩ := hmain
  obtain ⟨hcooldown, tokens, totals, events, htransfer, htotals, hevents, rfl⟩ :=
    finalizeClaim_spec h
  exact Atom.claim hp hstatus hopen hwindow hentitled hcooldown htransfer htotals hevents

theorem claimWithRelayer_atom {relayer : Address} (h : claimWithRelayer H signers w id claimant relayer = .ok w') :
    Atom H w (.claim id claimant) w' := by
  simp only [claimWithRelayer, bind_eq_ok, pure_eq_ok, require_eq_ok, exists_unit,
    getPackage_eq_ok, requireAuth_eq_ok, checkCampaignPaused_eq_ok, checkClaimWindow_eq_ok] at h
  obtain ⟨-, p, hp, hopen, hstatus, hwindow, hroot, hwho, hcooldown, -, -, paid, hpaid, totals, htotals, rfl⟩ := h
  rw [clearDelegate_eq] at hpaid
  obtain ⟨tokens, htransfer, rfl⟩ := transferToken_eq_ok.mp hpaid
  refine Atom.claim (E := [.packageClaimedByRelayer id claimant relayer p.amount w.now]) hp
    hstatus hopen hwindow ?_ hcooldown htransfer htotals rfl
  rw [Entitled, hroot]
  exact hwho

end Claims

theorem unlockPackage_eq_ok : unlockPackage w p = .ok w' ↔
      ∃ totals, decrementLocked w.totals p.token p.metadata p.amount = .ok totals ∧ { w with totals } = w' := by
  simp only [unlockPackage, bind_eq_ok, pure_eq_ok]

theorem decrementLocked_total (totals : Totals) (hp : 0 < p.amount) : ∃ totals',
    decrementLocked totals p.token p.metadata p.amount = .ok totals' ∧
      totals'.claimed = totals.claimed ∧ totals'.campaignClaimed = totals.campaignClaimed := by
  obtain ⟨m, hm⟩ := adjustCampaign_neg totals.campaignLocked p.metadata p.token hp
  have hok : ∃ totals', decrementLocked totals p.token p.metadata p.amount = .ok totals' := by
    simp only [decrementLocked, hm, ok_bind]
    exact ⟨_, rfl⟩
  obtain ⟨totals', h⟩ := hok
  obtain ⟨m', -, rfl⟩ := decrementLocked_spec h
  exact ⟨_, h, rfl, rfl⟩

theorem disburse_atom (h : disburse H signers w id = .ok w') :
    Atom H w (.disburse id) w' := by
  simp only [disburse, bind_eq_ok, pure_eq_ok, require_eq_ok, exists_unit, getPackage_eq_ok,
    checkCampaignPaused_eq_ok, unlockPackage_eq_ok] at h
  obtain ⟨admin, -, p, hp, hopen, hstatus, paid, hpaid, _, ⟨totals, htotals, rfl⟩, rfl⟩ := h
  obtain ⟨tokens, htransfer, rfl⟩ := transferToken_eq_ok.mp hpaid
  exact Atom.disburse (E := [.packageDisbursed id p.recipient p.amount admin w.now
    (receiptHashFromMetadata p.metadata)]) hp hstatus hopen htransfer htotals rfl

theorem revoke_atom (h : revoke signers w id = .ok w') : Atom H w (.cancel id) w' := by
  simp only [revoke, bind_eq_ok, pure_eq_ok, require_eq_ok, exists_unit, getPackage_eq_ok, unlockPackage_eq_ok] at h
  obtain ⟨admin, -, p, hp, hstatus, _, ⟨totals, htotals, rfl⟩, rfl⟩ := h
  exact Atom.cancel (E := [.packageRevoked id p.recipient p.amount admin w.now]) hp hstatus htotals rfl

theorem cancelPackage_atom (h : cancelPackage signers w id = .ok w') :
    Atom H w (.cancel id) w' := by
  simp only [cancelPackage, bind_eq_ok, pure_eq_ok, require_eq_ok, exists_unit, getPackage_eq_ok, unlockPackage_eq_ok] at h
  obtain ⟨admin, -, p, hp, hstatus, -, _, ⟨totals, htotals, rfl⟩, rfl⟩ := h
  exact Atom.cancel (E := [.packageRevoked id p.recipient p.amount admin w.now]) hp hstatus htotals rfl

theorem refunded_atom {admin : Address} {paid unlocked : World τ}
    (hp : w.store.packages[id]? = some p) (hopen : CampaignOpen w p.metadata)
    (hadmin : w.settings.admin = some admin)
    (hcreated : p.status = .created → 0 < p.expiresAt ∧ p.expiresAt < w.now)
    (hstatus : ¬ (p.status = .claimed ∨ p.status = .refunded))
    (hpaid : transferToken H w p.token H.contract admin p.amount (.refund id) = .ok paid)
    (hunlocked : (if p.status = .created ∨ p.status = .expired then unlockPackage paid p
      else .ok paid) = .ok unlocked) :
    Atom H w (.refund id) (publish (putPackage unlocked id { p with status := .refunded })
      (.packageRefunded id p.recipient p.amount admin unlocked.now)) := by
  obtain ⟨tokens, htransfer, rfl⟩ := transferToken_eq_ok.mp hpaid
  split at hunlocked
  · rename_i hlocked
    obtain ⟨totals, htotals, rfl⟩ := unlockPackage_eq_ok.mp hunlocked
    exact Atom.refundLocked (E := [.packageRefunded id p.recipient p.amount admin w.now]) hp
      hopen hadmin (hlocked.imp_left fun hc => ⟨hc, hcreated hc⟩) htransfer htotals rfl
  · rename_i hlocked
    obtain rfl := Except.ok.inj hunlocked
    have hcancelled : p.status = .cancelled := by
      cases hs : p.status <;> simp_all
    exact Atom.refundCancelled (E := [.packageRefunded id p.recipient p.amount admin w.now])
      hp hopen hadmin hcancelled htransfer rfl

theorem refund_atom (h : refund H signers w id = .ok w') : Atom H w (.refund id) w' := by
  simp only [refund, bind_eq_ok, pure_eq_ok, require_eq_ok, exists_unit, getPackage_eq_ok,
    checkCampaignPaused_eq_ok, authorisedAdmin_eq_ok] at h
  obtain ⟨-, admin, ⟨hadmin, -⟩, p, hp, hopen, hcreated, hstatus, paid, hpaid, unlocked, hunlocked, rfl⟩ := h
  exact refunded_atom hp hopen hadmin hcreated hstatus hpaid hunlocked

theorem reassignPackage_atom {id : ℕ} {recipient : Address} (h : reassignPackage signers w id recipient = .ok w') :
    Atom H w (.reassign id recipient) w' := by
  simp only [reassignPackage, bind_eq_ok, pure_eq_ok, require_eq_ok, exists_unit, getPackage_eq_ok] at h
  obtain ⟨admin, -, p, hp, hstatus, hexpiry, rfl⟩ := h
  exact Atom.reassign (E := [.packageReassigned id p.recipient recipient admin w.now]) hp hstatus hexpiry rfl

theorem attachEvidenceHash_atom {admin : Address} {id : ℕ} {evidenceHash : Text}
    (h : attachEvidenceHash signers w admin id evidenceHash = .ok w') :
    Atom H w (.attach id evidenceHash) w' := by
  simp only [attachEvidenceHash, bind_eq_ok, pure_eq_ok, require_eq_ok, exists_unit, getPackage_eq_ok] at h
  obtain ⟨-, _, -, -, p, hp, hempty, hhash, rfl⟩ := h
  exact Atom.attach (E := [.evidenceAttached id admin evidenceHash w.now]) hp hempty hhash rfl

theorem extendExpiry_atom {id expiresAt : ℕ} (h : extendExpiry signers w id expiresAt = .ok w') :
    Atom H w (.extend id expiresAt) w' := by
  simp only [extendExpiry, bind_eq_ok, pure_eq_ok, require_eq_ok, exists_unit, getPackage_eq_ok] at h
  obtain ⟨admin, -, p, hp, hstatus, hbounded, halive, hlater, -, rfl⟩ := h
  exact Atom.extend (E := [.extendedEvent id admin p.expiresAt expiresAt]) hp hstatus hbounded halive hlater rfl

theorem extendExpiration_atom {id additionalTime : ℕ} (h : extendExpiration signers w id additionalTime = .ok w') :
    ∃ expiresAt, Atom H w (.extend id expiresAt) w' := by
  simp only [extendExpiration, bind_eq_ok] at h
  obtain ⟨-, -, p, -, -, -, expiresAt, -, h⟩ := h
  exact ⟨expiresAt, extendExpiry_atom h⟩

theorem proposeSurplusWithdrawal_atom {receiver token : Address} {amount : ℤ}
    (h : proposeSurplusWithdrawal H signers w receiver amount token = .ok w') :
    ∃ q, Atom H w (.propose q) w' := by
  simp only [proposeSurplusWithdrawal, bind_eq_ok, pure_eq_ok, require_eq_ok, exists_unit,
    checkActionPaused_eq_ok w "withdraw" .withdraw rfl] at h
  obtain ⟨⟨hpaused, -⟩, _, -, hamount, hnone, surplus, hsurplus, hle, executableAt, hat, rfl⟩ := h
  exact ⟨⟨receiver, token, amount, executableAt⟩, Atom.propose (E :=
    [.surplusWithdrawalProposed receiver token amount executableAt w.now]) hpaused hamount hnone
    hsurplus hle (addU64_of_ok hat) rfl⟩

theorem cancelSurplusWithdrawal_atom (h : cancelSurplusWithdrawal signers w = .ok w') :
    Atom H w .withdrawProposal w' := by
  simp only [cancelSurplusWithdrawal, bind_eq_ok, pure_eq_ok, orFail_eq_ok] at h
  obtain ⟨_, -, q, hq, rfl⟩ := h
  exact Atom.withdrawProposal (E := [.surplusWithdrawalCancelled q.to q.token q.amount w.now]) hq rfl

theorem executeSurplusWithdrawal_atom (h : executeSurplusWithdrawal H signers w = .ok w') :
    Atom H w .execute w' := by
  simp only [executeSurplusWithdrawal, bind_eq_ok, pure_eq_ok, orFail_eq_ok, require_eq_ok,
    exists_unit, checkActionPaused_eq_ok w "withdraw" .withdraw rfl] at h
  obtain ⟨⟨hpaused, -⟩, _, -, q, hq, htime, surplus, hsurplus, hle, paid, hpaid, rfl⟩ := h
  obtain ⟨tokens, htransfer, rfl⟩ := transferToken_eq_ok.mp hpaid
  exact Atom.execute (E := [.surplusWithdrawnEvent q.to q.token q.amount]) hpaused hq htime hsurplus hle htransfer rfl

section Delegates

variable {admin delegate : Address}

theorem delegate_setDelegate_eq_ok : Delegate.setDelegate w admin id delegate = .ok w' ↔
      ∃ p, w.store.packages[id]? = some p ∧ p.status ≠ .claimed ∧ delegate ≠ p.recipient ∧
        w' = { w with delegation := w.delegation.set w.now admin id delegate 0 } := by
  simp only [Delegate.setDelegate, Delegate.validatePackageState, bind_eq_ok, pure_eq_ok,
    require_eq_ok, exists_unit, getPackage_eq_ok]
  constructor
  · rintro ⟨⟨p, hp, hstatus⟩, q, hq, hne, rfl⟩
    obtain rfl := Option.some.inj (hp.symm.trans hq)
    exact ⟨p, hp, hstatus, hne, rfl⟩
  · rintro ⟨p, hp, hstatus, hne, rfl⟩
    exact ⟨⟨p, hp, hstatus⟩, p, hp, hne, rfl⟩

theorem setDelegate_atom (h : setDelegate signers w admin id delegate = .ok w') :
    admin ∈ signers ∧ Atom H w (.setDelegate admin id delegate 0) w' := by
  simp only [setDelegate, bind_eq_ok, pure_eq_ok, require_eq_ok, exists_unit, getPackage_eq_ok,
    requireAuth_eq_ok, delegate_setDelegate_eq_ok] at h
  obtain ⟨hsigned, p, hp, hstatus, hne, _, ⟨_, -, -, -, rfl⟩, rfl⟩ := h
  exact ⟨hsigned, Atom.setDelegate (E := [.delegateAdded id p.recipient delegate admin
    (w.delegation.expiry[id]?.getD 0) w.now]) hp hstatus hne (by omega) rfl⟩

theorem setDelegateWithExpiry_atom {expiresAt : ℕ}
    (h : setDelegateWithExpiry signers w admin id delegate expiresAt = .ok w') :
    admin ∈ signers ∧ Atom H w (.setDelegate admin id delegate expiresAt) w' := by
  simp only [setDelegateWithExpiry, Delegate.setDelegateWithExpiry, bind_eq_ok, pure_eq_ok,
    require_eq_ok, exists_unit, getPackage_eq_ok, requireAuth_eq_ok,
    delegate_setDelegate_eq_ok] at h
  obtain ⟨hsigned, hlater, p, hp, hstatus, hne, _, ⟨-, _, ⟨_, -, -, -, rfl⟩, rfl⟩, rfl⟩ := h
  refine ⟨hsigned, ?_⟩
  have hatom : Atom H w (.setDelegate admin id delegate expiresAt) _ := Atom.setDelegate
    (E := [.delegateAdded id p.recipient delegate admin expiresAt w.now]) hp hstatus hne
    (show 0 < expiresAt → w.now < expiresAt by omega) rfl
  by_cases hpos : 0 < expiresAt
  · simp only [Delegation.set, if_pos hpos] at hatom ⊢
    exact hatom
  · simp only [Delegation.set, if_neg hpos] at hatom ⊢
    exact hatom

theorem revokeDelegate_atom (h : revokeDelegate H signers w admin id = .ok w') : Atom H w (.clearDelegate id) w' := by
  simp only [revokeDelegate, bind_eq_ok, pure_eq_ok, exists_unit, getPackage_eq_ok, clearDelegate_eq] at h
  obtain ⟨-, p, hp, rfl⟩ := h
  cases Delegate.getDelegate w id with
  | none =>
    have hatom := Atom.clearDelegate (H := H) (E := []) hp rfl
    rwa [emit_nil] at hatom
  | some delegate =>
    exact Atom.clearDelegate (E := [.delegateRevoked id p.recipient delegate admin w.now]) hp rfl

end Delegates
end Soter.AidEscrow
