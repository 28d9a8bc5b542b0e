import Soter.AidEscrow.BatchActs
import Soter.AidEscrow.BatchCreateActs
import Soter.AidEscrow.Packages

/-! Every successful call is a run of acts of the kinds it permits; every administrative call is a change of the
settings, a migration apart. -/
namespace Soter.AidEscrow
open Std Soter.Fallible Soter.Runs Atom

section Administration
variable {τ : Type} {H : Host τ} {signers : List Address} {w w' : World τ}

variable {addr token : Address} {action : Symbol} {campaignRef : Text}

theorem Atom.put (s : Settings) : Atom H w .settings (putSettings w s) := by
  have h : Atom H w .settings ({ w with settings := s }.emit []) := settings rfl
  rwa [emit_nil] at h

theorem Atom.announce (s : Settings) {e : Event} (he : e.lifecycle = none) :
    Atom H w .settings (publish (putSettings w s) e) := by
  refine settings (E := [e]) ?_
  rw [lifecycleOf, List.filterMap_cons_none he, List.filterMap_nil]

theorem init_atom {admin : Address} (h : init w admin = .ok w') : Atom H w .settings w' := by
  simp only [init, bind_eq_ok, pure_eq_ok] at h
  obtain ⟨-, -, rfl⟩ := h
  exact put _

theorem transferAdmin_atom {newAdmin : Address} (h : transferAdmin signers w newAdmin = .ok w') :
    Atom H w .settings w' := by
  simp only [transferAdmin, bind_eq_ok, pure_eq_ok] at h
  obtain ⟨_, -, -, -, rfl⟩ := h
  exact announce _ rfl

theorem acceptAdmin_atom (h : acceptAdmin signers w = .ok w') : Atom H w .settings w' := by
  simp only [acceptAdmin, bind_eq_ok, pure_eq_ok] at h
  obtain ⟨_, -, -, -, rfl⟩ := h
  exact announce _ rfl

theorem cancelAdminTransfer_atom (h : cancelAdminTransfer signers w = .ok w') : Atom H w .settings w' := by
  simp only [cancelAdminTransfer, bind_eq_ok, pure_eq_ok] at h
  obtain ⟨_, -, -, -, rfl⟩ := h
  exact announce _ rfl

theorem addDistributor_atom (h : addDistributor signers w addr = .ok w') : Atom H w .settings w' := by
  simp only [addDistributor, bind_eq_ok, pure_eq_ok] at h
  obtain ⟨_, -, -, -, -, -, rfl⟩ := h
  exact announce _ rfl

theorem removeDistributor_atom (h : removeDistributor signers w addr = .ok w') : Atom H w .settings w' := by
  simp only [removeDistributor, bind_eq_ok, pure_eq_ok] at h
  obtain ⟨_, -, -, -, rfl⟩ := h
  exact announce _ rfl

theorem setMaxDistributors_atom {max : ℕ} (h : setMaxDistributors signers w max = .ok w') :
    Atom H w .settings w' := by
  simp only [setMaxDistributors, bind_eq_ok, pure_eq_ok] at h
  obtain ⟨_, -, -, -, rfl⟩ := h
  exact put _

theorem setConfig_atom {config : Config} (h : setConfig H signers w config = .ok w') :
    Atom H w .settings w' := by
  simp only [setConfig, bind_eq_ok, pure_eq_ok] at h
  obtain ⟨_, -, -, -, -, -, rfl⟩ := h
  exact put _

theorem pause_atom (h : pause signers w = .ok w') : Atom H w .settings w' := by
  simp only [pause, bind_eq_ok, pure_eq_ok] at h
  obtain ⟨_, -, rfl⟩ := h
  exact announce _ rfl

theorem unpause_atom (h : unpause signers w = .ok w') : Atom H w .settings w' := by
  simp only [unpause, bind_eq_ok, pure_eq_ok] at h
  obtain ⟨_, -, rfl⟩ := h
  exact announce _ rfl

theorem pauseAction_atom (h : pauseAction signers w action = .ok w') : Atom H w .settings w' := by
  simp only [pauseAction, bind_eq_ok, pure_eq_ok] at h
  obtain ⟨_, -, _, -, rfl⟩ := h
  exact announce _ rfl

theorem unpauseAction_atom (h : unpauseAction signers w action = .ok w') : Atom H w .settings w' := by
  simp only [unpauseAction, bind_eq_ok, pure_eq_ok] at h
  obtain ⟨_, -, _, -, rfl⟩ := h
  exact announce _ rfl

theorem pauseCampaign_atom (h : pauseCampaign signers w campaignRef = .ok w') : Atom H w .settings w' := by
  simp only [pauseCampaign, bind_eq_ok, pure_eq_ok] at h
  obtain ⟨_, -, rfl⟩ := h
  exact announce _ rfl

theorem unpauseCampaign_atom (h : unpauseCampaign signers w campaignRef = .ok w') : Atom H w .settings w' := by
  simp only [unpauseCampaign, bind_eq_ok, pure_eq_ok] at h
  obtain ⟨_, -, rfl⟩ := h
  exact announce _ rfl

theorem addAllowedToken_atom (h : addAllowedToken H signers w token = .ok w') : Atom H w .settings w' := by
  simp only [addAllowedToken, bind_eq_ok, pure_eq_ok] at h
  obtain ⟨_, -, _, -, -, -, rfl⟩ := h
  exact announce _ rfl

theorem removeAllowedToken_atom (h : removeAllowedToken signers w token = .ok w') : Atom H w .settings w' := by
  simp only [removeAllowedToken, bind_eq_ok, pure_eq_ok] at h
  obtain ⟨_, -, -, -, rfl⟩ := h
  exact announce _ rfl

theorem migrate_run {newVersion : ℕ} (h : migrate signers w newVersion = .ok w') : if getVersion w = 1 ∧ newVersion = 2 then
      ∃ mid, Run (Atom H) w [⟨w, .backfill, mid⟩, ⟨mid, .settings, w'⟩] w' ∧
        Atom H w .backfill mid ∧ Atom H mid .settings w' else Atom H w .settings w' := by
  simp only [migrate, bind_eq_ok, pure_eq_ok] at h
  obtain ⟨_, -, mid, hmid, rfl⟩ := h
  split at hmid
  · rename_i hv
    rw [if_pos hv]
    have hfill : Atom H w .backfill mid := backfill hv.1 hmid
    exact ⟨mid, (Run.single hfill).append (Run.single (put _)), hfill, put _⟩
  · rename_i hv
    rw [if_neg hv]
    cases hmid
    exact put _

end Administration
section Paths
variable {τ : Type}

def Call.permits (signers : List Address) : Call → Act → Prop
  | .migrate newVersion, a => a = .settings ∨ a = .backfill ∧ newVersion = 2
  | .fund token sender amount, a => a = .fund token sender amount
  | .createPackage .., a => ∃ p, a = .create p
  | .batchCreatePackages .., a => (∃ p, a = .create p) ∨ a = .note
  | .claim id, a => ∃ payee, a = .claim id payee
  | .claimWithProof id claimant _, a => a = .claim id claimant
  | .claimWithRelayer id claimant _, a => a = .claim id claimant
  | .batchClaim claimant ids, a => ∃ id ∈ ids, a = .claim id claimant
  | .disburse id, a => a = .disburse id
  | .reassignPackage id recipient, a => a = .reassign id recipient
  | .batchRevoke ids, a => ∃ id ∈ ids, a = .cancel id
  | .batchRefund ids, a => ∃ id ∈ ids, a = .refund id
  | .revoke id, a => a = .cancel id
  | .refund id, a => a = .refund id
  | .cancelPackage id, a => a = .cancel id
  | .attachEvidenceHash _ id evidenceHash, a => a = .attach id evidenceHash
  | .extendExpiration id _, a => ∃ expiresAt, a = .extend id expiresAt
  | .extendExpiry id expiresAt, a => a = .extend id expiresAt
  | .proposeSurplusWithdrawal .., a => ∃ q, a = .propose q
  | .cancelSurplusWithdrawal, a => a = .withdrawProposal
  | .executeSurplusWithdrawal, a => a = .execute
  | .setDelegate admin id delegate, a => a = .setDelegate admin id delegate 0 ∧ admin ∈ signers
  | .setDelegateWithExpiry admin id delegate expiresAt, a =>
    a = .setDelegate admin id delegate expiresAt ∧ admin ∈ signers
  | .revokeDelegate _ id, a => a = .clearDelegate id
  | .cleanupExpiredDelegates _, a => ∃ id, a = .dropDelegate id
  | .sweepExpiredDelegates _, a => ∃ id, a = .dropDelegate id
  | .sweepExpiredPackages _, a => ∃ id, a = .expire id
  | _, a => a = .settings

def Move.permits : Move τ → Act → Prop
  | .call signers c, a => c.permits signers a
  | .tick _, a => a = .tick
  | .outside _, a => a = .outside

/-- `C` holds of every package that the call refunds, at the moment it does so: for an item of a
batch, in the state the items before it left. -/
def RefundsMeet (H : Host τ) (C : World τ → ℕ → Prop) (w : World τ) : Call → Prop
  | .refund id => C w id
  | .batchRefund ids => ∀ admin, w.settings.admin = some admin →
    ItemsMeet (fun w id => refundOneForBatch H w admin id)
      (fun w id r => r.status = .success → C w id) w ids
  | _ => True

/-- `C` holds of the package an act refunds, if it refunds one. -/
def Act.refundMeets (C : World τ → ℕ → Prop) (w : World τ) : Act → Prop
  | .refund id => C w id
  | _ => True

variable {H : Host τ} {signers : List Address} {w w' : World τ} {C : World τ → ℕ → Prop}

variable {a : Act} {ids : List ℕ} {admin : Address} {rs : List BatchAdminActionResult} {c : Call} {m : Move τ}
  {tr : Trace τ} {I : World τ → Prop}

theorem Act.refundMeets.mono {D : World τ → ℕ → Prop} (h : a.refundMeets C w)
    (hCD : ∀ w id, C w id → D w id) : a.refundMeets D w := by
  cases a <;> first | exact hCD w _ h | trivial

theorem path_of_atom {Q : Transition (World τ) Act → Prop} (h : Atom H w a w')
    (hQ : Q ⟨w, a, w'⟩) : ∃ acts, Run (Atom H) w acts w' ∧ ∀ t ∈ acts, Q t := by
  refine ⟨_, Run.single h, fun t ht => ?_⟩
  rw [List.mem_singleton.mp ht]
  exact hQ

theorem fst_map_eq_ok {α β : Type} {x : Result (α × β)} {a : α} :
    Prod.fst <$> x = .ok a ↔ ∃ b, x = .ok (a, b) := by
  cases x with
  | error e => exact ⟨nofun, nofun⟩
  | ok ab =>
    obtain ⟨a', b⟩ := ab
    simp [Functor.map, Except.map]

theorem claimItems_run {claimant : Address} {rs : List BatchClaimResult}
    (h : batchItems (fun w id => claimOneForBatch H w claimant id) w ids = .ok (w', rs)) :
    ∃ acts, Run (Atom H) w acts w' ∧ ∀ t ∈ acts, ∃ id ∈ ids, t.label = .claim id claimant := by
  refine batchItems_run (I := fun _ => True) (C := fun _ _ _ => True)
    (P := fun id t => t.label = .claim id claimant) ?_ ids w w' rs trivial
    (itemsMeet_of_forall (fun _ _ _ => trivial) ids w) h
  intro w id w' r _ hone _
  rcases claimOneForBatch_spec hone with ⟨-, -, rfl⟩ | ⟨-, hatom⟩
  · exact ⟨trivial, [], Run.nil, by simp⟩
  · exact ⟨trivial, path_of_atom hatom rfl⟩

theorem revokeItems_run (h : batchItems (fun w id => revokeOneForBatch w admin id) w ids = .ok (w', rs)) :
    ∃ acts, Run (Atom H) w acts w' ∧ ∀ t ∈ acts, ∃ id ∈ ids, t.label = .cancel id := by
  refine batchItems_run (I := fun _ => True) (C := fun _ _ _ => True)
    (P := fun id t => t.label = .cancel id) ?_ ids w w' rs trivial
    (itemsMeet_of_forall (fun _ _ _ => trivial) ids w) h
  intro w id w' r _ hone _
  rcases revokeOneForBatch_spec hone with ⟨-, -, rfl⟩ | ⟨-, hatom⟩
  · exact ⟨trivial, [], Run.nil, by simp⟩
  · exact ⟨trivial, path_of_atom hatom rfl⟩

theorem Atom.refund_settings {id : ℕ} (h : Atom H w (.refund id) w') : w'.settings = w.settings := by
  cases h <;> rfl

theorem refundItems_run (hadmin : w.settings.admin = some admin)
    (hC : ItemsMeet (fun w id => refundOneForBatch H w admin id) (fun w id r => r.status = .success → C w id) w ids)
    (h : batchItems (fun w id => refundOneForBatch H w admin id) w ids = .ok (w', rs)) :
    ∃ acts, Run (Atom H) w acts w' ∧ ∀ t ∈ acts, ∃ id ∈ ids, t.label = .refund id ∧ C t.pre id := by
  refine batchItems_run (I := fun w => w.settings.admin = some admin)
    (P := fun id t => t.label = .refund id ∧ C t.pre id) ?_ ids w w' rs hadmin hC h
  intro w id w' r hadmin hone hmeets
  rcases refundOneForBatch_spec hadmin hone with ⟨-, -, rfl⟩ | ⟨hsuccess, hatom⟩
  · exact ⟨hadmin, [], Run.nil, by simp⟩
  · exact ⟨hatom.refund_settings ▸ hadmin, path_of_atom hatom ⟨rfl, hmeets hsuccess⟩⟩

/-- Every successful call is a run of acts that it permits, and the acts that refund a package
find it as `C` wants. -/
theorem exec_path (hw : WellFormed w) (h : exec H signers w c = .ok w') (hC : RefundsMeet H C w c) :
    ∃ acts, Run (Atom H) w acts w' ∧ ∀ t ∈ acts, c.permits signers t.label ∧ t.label.refundMeets C t.pre := by
  cases c with
  | init admin => exact path_of_atom (init_atom h) ⟨rfl, trivial⟩
  | transferAdmin newAdmin => exact path_of_atom (transferAdmin_atom h) ⟨rfl, trivial⟩
  | acceptAdmin => exact path_of_atom (acceptAdmin_atom h) ⟨rfl, trivial⟩
  | cancelAdminTransfer => exact path_of_atom (cancelAdminTransfer_atom h) ⟨rfl, trivial⟩
  | migrate newVersion =>
    -- only the migration from 1 to 2 backfills
    have hrun := migrate_run (H := H) h
    split at hrun
    · rename_i hv
      obtain ⟨mid, hrun, -, -⟩ := hrun
      refine ⟨_, hrun, fun t ht => ?_⟩
      rcases List.mem_cons.mp ht with rfl | ht
      · exact ⟨.inr ⟨rfl, hv.2⟩, trivial⟩
      · rw [List.mem_singleton.mp ht]
        exact ⟨.inl rfl, trivial⟩
    · exact path_of_atom hrun ⟨.inl rfl, trivial⟩
  | addDistributor addr => exact path_of_atom (addDistributor_atom h) ⟨rfl, trivial⟩
  | removeDistributor addr => exact path_of_atom (removeDistributor_atom h) ⟨rfl, trivial⟩
  | setMaxDistributors max => exact path_of_atom (setMaxDistributors_atom h) ⟨rfl, trivial⟩
  | setConfig config => exact path_of_atom (setConfig_atom h) ⟨rfl, trivial⟩
  | pause => exact path_of_atom (pause_atom h) ⟨rfl, trivial⟩
  | unpause => exact path_of_atom (unpause_atom h) ⟨rfl, trivial⟩
  | pauseAction action => exact path_of_atom (pauseAction_atom h) ⟨rfl, trivial⟩
  | unpauseAction action => exact path_of_atom (unpauseAction_atom h) ⟨rfl, trivial⟩
  | pauseCampaign campaignRef => exact path_of_atom (pauseCampaign_atom h) ⟨rfl, trivial⟩
  | unpauseCampaign campaignRef => exact path_of_atom (unpauseCampaign_atom h) ⟨rfl, trivial⟩
  | addAllowedToken token => exact path_of_atom (addAllowedToken_atom h) ⟨rfl, trivial⟩
  | removeAllowedToken token => exact path_of_atom (removeAllowedToken_atom h) ⟨rfl, trivial⟩
  | fund token sender amount => exact path_of_atom (fund_atom h) ⟨rfl, trivial⟩
  | createPackage operator id recipient amount token expiresAt metadata =>
    obtain ⟨p, -, hatom⟩ := createPackage_atom h
    exact path_of_atom hatom ⟨⟨p, rfl⟩, trivial⟩
  | batchCreatePackages operator recipients amounts token expiresIn metadatas =>
    obtain ⟨ids, h⟩ := fst_map_eq_ok.mp h
    -- one act for each package, and a last one that only notes the summary
    obtain ⟨acts, hacts, hkind⟩ := batchCreatePackages_run (H := H) hw.below h
    refine ⟨acts, hacts, fun t ht => ⟨hkind t ht, ?_⟩⟩
    rcases hkind t ht with ⟨p, hp⟩ | hnote
    · rw [hp]
      trivial
    · rw [hnote]
      trivial
  | claim id =>
    obtain ⟨payee, hatom⟩ := claim_atom h
    exact path_of_atom hatom ⟨⟨payee, rfl⟩, trivial⟩
  | claimWithProof id claimant proof => exact path_of_atom (claimWithProof_atom h) ⟨rfl, trivial⟩
  | claimWithRelayer id claimant relayer =>
    exact path_of_atom (claimWithRelayer_atom h) ⟨rfl, trivial⟩
  | batchClaim claimant ids =>
    obtain ⟨rs, h⟩ := fst_map_eq_ok.mp h
    simp only [batchClaim, bind_eq_ok, exists_unit] at h
    obtain ⟨acts, hacts, hkind⟩ := claimItems_run h.2.2.2
    refine ⟨acts, hacts, fun t ht => ?_⟩
    obtain ⟨id, hid, hlabel⟩ := hkind t ht
    exact ⟨⟨id, hid, hlabel⟩, hlabel ▸ trivial⟩
  | disburse id => exact path_of_atom (disburse_atom h) ⟨rfl, trivial⟩
  | reassignPackage id recipient => exact path_of_atom (reassignPackage_atom h) ⟨rfl, trivial⟩
  | batchRevoke ids =>
    obtain ⟨rs, h⟩ := fst_map_eq_ok.mp h
    simp only [batchRevoke, bind_eq_ok, exists_unit] at h
    obtain ⟨-, admin, -, h⟩ := h
    obtain ⟨acts, hacts, hkind⟩ := revokeItems_run (H := H) h
    refine ⟨acts, hacts, fun t ht => ?_⟩
    obtain ⟨id, hid, hlabel⟩ := hkind t ht
    exact ⟨⟨id, hid, hlabel⟩, hlabel ▸ trivial⟩
  | batchRefund ids =>
    obtain ⟨rs, h⟩ := fst_map_eq_ok.mp h
    simp only [batchRefund, bind_eq_ok, exists_unit, authorisedAdmin_eq_ok] at h
    obtain ⟨-, -, admin, ⟨hadmin, -⟩, h⟩ := h
    obtain ⟨acts, hacts, hkind⟩ := refundItems_run hadmin (hC admin hadmin) h
    refine ⟨acts, hacts, fun t ht => ?_⟩
    obtain ⟨id, hid, hlabel, hmeets⟩ := hkind t ht
    exact ⟨⟨id, hid, hlabel⟩, hlabel ▸ hmeets⟩
  | revoke id => exact path_of_atom (revoke_atom h) ⟨rfl, trivial⟩
  | refund id => exact path_of_atom (refund_atom h) ⟨rfl, hC⟩
  | cancelPackage id => exact path_of_atom (cancelPackage_atom h) ⟨rfl, trivial⟩
  | attachEvidenceHash admin id evidenceHash =>
    exact path_of_atom (attachEvidenceHash_atom h) ⟨rfl, trivial⟩
  | extendExpiration id additionalTime =>
    obtain ⟨expiresAt, hatom⟩ := extendExpiration_atom (H := H) h
    exact path_of_atom hatom ⟨⟨expiresAt, rfl⟩, trivial⟩
  | extendExpiry id expiresAt => exact path_of_atom (extendExpiry_atom h) ⟨rfl, trivial⟩
  | proposeSurplusWithdrawal receiver amount token =>
    obtain ⟨q, hatom⟩ := proposeSurplusWithdrawal_atom h
    exact path_of_atom hatom ⟨⟨q, rfl⟩, trivial⟩
  | cancelSurplusWithdrawal => exact path_of_atom (cancelSurplusWithdrawal_atom h) ⟨rfl, trivial⟩
  | executeSurplusWithdrawal => exact path_of_atom (executeSurplusWithdrawal_atom h) ⟨rfl, trivial⟩
  | setDelegate admin id delegate =>
    obtain ⟨hsigned, hatom⟩ := setDelegate_atom (H := H) h
    exact path_of_atom hatom ⟨⟨rfl, hsigned⟩, trivial⟩
  | setDelegateWithExpiry admin id delegate expiresAt =>
    obtain ⟨hsigned, hatom⟩ := setDelegateWithExpiry_atom (H := H) h
    exact path_of_atom hatom ⟨⟨rfl, hsigned⟩, trivial⟩
  | revokeDelegate admin id => exact path_of_atom (revokeDelegate_atom h) ⟨rfl, trivial⟩
  | cleanupExpiredDelegates admin =>
    obtain ⟨n, h⟩ := fst_map_eq_ok.mp h
    simp only [cleanupExpiredDelegates, bind_eq_ok, pure_eq_ok] at h
    obtain ⟨-, -, h⟩ := h
    obtain ⟨acts, hacts, hkind⟩ := sweepExpiredDelegates_run H w 100
    rw [show (Delegate.sweepExpiredDelegates H w 100).1 = w' from congrArg Prod.fst h] at hacts
    refine ⟨acts, hacts, fun t ht => ?_⟩
    obtain ⟨id, hlabel⟩ := hkind t ht
    exact ⟨⟨id, hlabel⟩, hlabel ▸ trivial⟩
  | sweepExpiredDelegates limit =>
    cases h
    obtain ⟨acts, hacts, hkind⟩ := sweepExpiredDelegates_run H w limit
    refine ⟨acts, hacts, fun t ht => ?_⟩
    obtain ⟨id, hlabel⟩ := hkind t ht
    exact ⟨⟨id, hlabel⟩, hlabel ▸ trivial⟩
  | sweepExpiredPackages limit =>
    obtain ⟨n, h⟩ := fst_map_eq_ok.mp h
    obtain ⟨acts, hacts, hkind⟩ := sweepExpiredPackages_run h
    refine ⟨acts, hacts, fun t ht => ?_⟩
    obtain ⟨id, hlabel⟩ := hkind t ht
    exact ⟨⟨id, hlabel⟩, hlabel ▸ trivial⟩

theorem Step.exec_ok (h : Step H w (.call signers c) w') : exec H signers w c = .ok w' := by
  cases h with
  | call h => exact h

theorem afterCall_of_ok (h : exec H signers w c = .ok w') : afterCall H signers w c = w' := by
  unfold afterCall
  rw [h]
  rfl

theorem afterCall_of_refused (h : ∀ w', exec H signers w c ≠ .ok w') : afterCall H signers w c = w := by
  unfold afterCall
  rcases hr : exec H signers w c with e | w'
  · rfl
  · exact absurd hr (h w')

theorem afterCall_cases (H : Host τ) (signers : List Address) (w : World τ) (c : Call) :
    (∃ w', exec H signers w c = .ok w' ∧ afterCall H signers w c = w') ∨
      (∀ w', exec H signers w c ≠ .ok w') ∧ afterCall H signers w c = w := by
  by_cases h : ∃ w', exec H signers w c = .ok w'
  · obtain ⟨w', hok⟩ := h
    exact .inl ⟨w', hok, afterCall_of_ok hok⟩
  · have hrefused : ∀ w', exec H signers w c ≠ .ok w' := fun w' hok => h ⟨w', hok⟩
    exact .inr ⟨hrefused, afterCall_of_refused hrefused⟩

def Move.refundsMeet (H : Host τ) (C : World τ → ℕ → Prop) (w : World τ) : Move τ → Prop
  | .call _ c => RefundsMeet H C w c
  | .tick _ | .outside _ => True

theorem step_path (hw : WellFormed w) (h : Step H w m w') (hC : m.refundsMeet H C w) :
    ∃ acts, Run (Atom H) w acts w' ∧ ∀ t ∈ acts, m.permits t.label ∧ t.label.refundMeets C t.pre := by
  cases h with
  | call h => exact exec_path hw h hC
  | tick h => exact path_of_atom (tick h) ⟨rfl, trivial⟩
  | outside h => exact path_of_atom (outside h) ⟨rfl, trivial⟩

theorem refundsMeet_true (m : Move τ) (w : World τ) : m.refundsMeet H (fun _ _ => True) w := by
  cases m with
  | tick | outside => trivial
  | call signers c =>
    cases c <;> try trivial
    intro admin _
    exact itemsMeet_of_forall (fun _ _ _ _ => trivial) _ _

/-- The contract refines the acts: from a well-formed ledger, a step whose refunds are as `C` wants
is a run of acts whose refunds are. -/
theorem step_refines (H : Host τ) (C : World τ → ℕ → Prop) : Refines (Step H) (Atom H)
    (fun t => WellFormed t.pre ∧ t.label.refundsMeet H C t.pre) (fun a => a.label.refundMeets C a.pre) := by
  intro t hstep hpre
  obtain ⟨acts, hacts, hkind⟩ := step_path hpre.1 hstep hpre.2
  exact ⟨acts, hacts, fun a ha => (hkind a ha).2⟩

theorem Atom.run_wellFormed {acts : List (Transition (World τ) Act)} (h : Run (Atom H) w acts w')
    (hw : WellFormed w) : WellFormed w' :=
  h.invariant (C := fun _ => True) hw (fun _ _ => trivial) fun _ hatom _ => hatom.wellFormed

theorem Step.wellFormed (h : Step H w m w') (hw : WellFormed w) : WellFormed w' := by
  obtain ⟨acts, hacts, -⟩ := step_path hw h (refundsMeet_true m w)
  exact run_wellFormed hacts hw

theorem Reaches.wellFormed (h : Reaches H tr w) : WellFormed w := by
  obtain ⟨now, tokens, hrun⟩ := h
  exact hrun.invariant (C := fun _ => True) (wellFormed_deployed now tokens)
    (fun _ _ => trivial) fun _ hstep _ => hstep.wellFormed

theorem Step.invariant (h : Step H w m w') (hw : WellFormed w)
    (hstart : I w) (hI : ∀ u a v, Atom H u a v → m.permits a → I u → I v) : I w' := by
  obtain ⟨acts, hacts, hkind⟩ := step_path hw h (refundsMeet_true m w)
  exact hacts.invariant (C := fun t => m.permits t.label) hstart (fun t ht => (hkind t ht).1)
    fun t hatom hpermits => hI t.pre t.label t.post hatom hpermits

theorem Step.settings_kept (h : Step H w m w') (hw : WellFormed w)
    (hm : ¬ m.permits .settings) : w'.settings = w.settings := by
  apply h.invariant (I := fun u => u.settings = w.settings) hw rfl
  intro u a v hatom hpermits hu
  have hkind : a ≠ .settings := fun ha => hm (ha ▸ hpermits)
  exact (hatom.settings_kept hkind).trans hu

/-- What holds at deployment and is kept by every act holds of every reachable ledger, if the
refunds of the run are as `C` wants. -/
theorem Reaches.invariant_of_refunds {C : World τ → ℕ → Prop}
    (h : Reaches H tr w) (hstart : ∀ now tokens, I (World.deployed now tokens))
    (hC : ∀ t ∈ tr, t.label.refundsMeet H C t.pre)
    (hI : ∀ u a v, WellFormed u → Atom H u a v → a.refundMeets C u → I u → I v) : I w := by
  have hpre : ∀ t ∈ tr, WellFormed t.pre ∧ t.label.refundsMeet H C t.pre := by
    intro t ht
    obtain ⟨before, after, rfl⟩ := List.append_of_mem ht
    obtain ⟨now, tokens, hrun⟩ := h
    exact ⟨Reaches.wellFormed ⟨now, tokens, hrun.split.1⟩, hC t ht⟩
  obtain ⟨now, tokens, hrun⟩ := h
  have hboth : WellFormed w ∧ I w := by
    apply Run.invariant_of_refines (I := fun u => WellFormed u ∧ I u) (step_refines H C) ?_ hrun
    · exact ⟨wellFormed_deployed now tokens, hstart now tokens⟩
    · exact hpre
    · intro a hatom hmeets hu
      exact ⟨hatom.wellFormed hu.1, hI a.pre a.label a.post hu.1 hatom hmeets hu.2⟩
  exact hboth.2

theorem Reaches.invariant (h : Reaches H tr w) (hstart : ∀ now tokens, I (World.deployed now tokens))
    (hI : ∀ u a v, WellFormed u → Atom H u a v → I u → I v) : I w := by
  apply h.invariant_of_refunds (C := fun _ _ => True) hstart
  · intro t _
    exact refundsMeet_true t.label t.pre
  · intro u a v hu hatom _
    exact hI u a v hu hatom

theorem Reaches.split {before after : Trace τ} {t : Transition (World τ) (Move τ)}
    (h : Reaches H (before ++ t :: after) w) : Reaches H before t.pre ∧ Step H t.pre t.label t.post := by
  obtain ⟨now, tokens, hrun⟩ := h
  obtain ⟨hbefore, hstep, -⟩ := hrun.split
  exact ⟨⟨now, tokens, hbefore⟩, hstep⟩

/-- Who may make the call that leaves the settings `s`: whoever finds no administrator, the nominee who takes over, and the
administrator, who stays one. -/
def Governs (signers : List Address) (w : World τ) (s : Settings) : Call → Prop
  | .init admin => w.settings.admin = none ∧ s.admin = some admin
  | .acceptAdmin => ∃ a ∈ signers, w.settings.pendingAdmin = some a ∧ s.admin = some a
  | _ => s.admin = w.settings.admin ∧ ∃ admin ∈ signers, w.settings.admin = some admin

theorem setPauseFlag_admin (s : Settings) (key : PauseKey) (flag : Bool) : (s.setPauseFlag key flag).admin = s.admin := by
  cases key <;> rfl

theorem Step.governed (h : Step H w m w') (hw : WellFormed w) :
    w'.settings = w.settings ∨ ∃ signers c, m = .call signers c ∧ Governs signers w w'.settings c := by
  by_cases hm : m.permits .settings
  · cases h with
    | tick | outside => cases hm
    | @call _ signers c h =>
      refine .inr ⟨signers, c, rfl, ?_⟩
      cases c with
      | init | acceptAdmin =>
        simp only [exec, init, acceptAdmin, bind_eq_ok, require_eq_ok, orFail_eq_ok, requireAuth_eq_ok, exists_unit,
          pure_eq_ok] at h
        grind [Governs, putSettings, publish]
      | transferAdmin | cancelAdminTransfer | migrate | addDistributor | removeDistributor | setMaxDistributors | setConfig
      | pause | unpause | pauseAction | unpauseAction | pauseCampaign | unpauseCampaign | addAllowedToken
      | removeAllowedToken =>
        -- each of these first asks for the administrator
        obtain ⟨admin, hadmin, h⟩ := bind_eq_ok.mp h
        obtain ⟨hstored, hsigned⟩ := (authorisedAdmin_eq_ok signers w).mp hadmin
        refine ⟨?_, admin, hsigned, hstored⟩
        simp only [bind_eq_ok, exists_unit, pure_eq_ok] at h
        grind [putSettings, publish, setPauseFlag_admin, backfill_only_totals]
      | _ => simp [Move.permits, Call.permits] at hm
  · refine .inl (h.invariant hw (I := fun u => u.settings = w.settings) rfl fun u a v hatom hpermits hI => ?_)
    exact (hatom.settings_kept fun ha => hm (ha ▸ hpermits)).trans hI

/-- Nothing but a call of one who governs changes the settings, and whoever administers the contract has initialised it or
has itself accepted. -/
theorem settings_governed (h : Reaches H tr w) : (∀ t ∈ tr, t.post.settings = t.pre.settings ∨
      ∃ signers c, t.label = .call signers c ∧ Governs signers t.pre t.post.settings c) ∧
    ∀ a, w.settings.admin = some a →
      ∃ t ∈ tr, ∃ signers, t.label = .call signers (.init a) ∨ t.label = .call signers .acceptAdmin ∧ a ∈ signers := by
  obtain ⟨now, tokens, hrun⟩ := h
  induction hrun with
  | nil => simp [World.deployed]
  | @snoc tr u m v hrun hstep ih =>
    have hlast := hstep.governed (Reaches.wellFormed ⟨now, tokens, hrun⟩)
    have hmem : ⟨u, m, v⟩ ∈ tr ++ [⟨u, m, v⟩] := by simp
    refine ⟨by grind, fun a ha => ?_⟩
    rcases hlast with hsame | ⟨signers, c, rfl, hgoverns⟩
    · rw [hsame] at ha
      grind
    · cases c <;> grind [Governs]

theorem settings_governed_handover :
    ∃ t ∈ (played (plainHost ⟨0⟩) 0 [] [.call [] (.init ⟨1⟩), .call [⟨1⟩] (.transferAdmin ⟨2⟩), .call [⟨2⟩] .acceptAdmin]).1,
      ∃ signers, t.label = .call signers (.init ⟨2⟩) ∨ t.label = .call signers .acceptAdmin ∧ ⟨2⟩ ∈ signers :=
  (settings_governed (played_reaches _ _ _)).2 ⟨2⟩ (by decide +kernel)

end Paths
end Soter.AidEscrow
