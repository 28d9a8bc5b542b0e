import Soter.Lib.Journal
import Soter.AidEscrow.Paths

/-! The published events against the stored packages: replaying the log gives the packages. -/
namespace Soter.AidEscrow
open List hiding after
open Std Soter.Fallible Soter.Runs Soter.MapSum Soter.Journal Ensures Event

variable {τ : Type} {H : Host τ} {signers : List Address} {w w' : World τ} {a : Act}

variable {id : ℕ} {p : Package} {u : World τ}
section Replay

structure Standing where
  status : PackageStatus
  recipient : Address
  amount : ℤ
  deriving DecidableEq

def Package.standing (p : Package) : Standing := ⟨p.status, p.recipient, p.amount⟩

def Lifecycle.apply (s : Option Standing) (e : ℕ × Lifecycle) : Option Standing :=
  match e.2 with
  | .created recipient amount => some ⟨.created, recipient, amount⟩
  | .reassigned recipient => s.map fun s => { s with recipient }
  | .became status => s.map fun s => { s with status }

def lifecycleLog (w : World τ) : List (ℕ × Lifecycle) := lifecycleOf (w.events.map Published.event)

def standing (w : World τ) (id : ℕ) : Option Standing :=
  w.store.packages[id]?.map Package.standing

def LogExact (w : World τ) : Prop :=
  Mirrors Prod.fst Lifecycle.apply (standing w) (lifecycleLog w)

variable {E : List Event}

theorem lifecycleLog_emit (w : World τ) (E : List Event) :
    lifecycleLog (w.emit E) = lifecycleLog w ++ lifecycleOf E := by
  have hevents : (E.map (Published.mk eventSchemaVersion)).map Published.event = E := by
    rw [map_map]
    exact map_id E
  unfold lifecycleLog lifecycleOf World.emit
  rw [map_append, filterMap_append, hevents]

theorem LogExact.quiet (hw : LogExact w) (hlog : lifecycleLog w' = lifecycleLog w)
    (hsame : ∀ id, standing w' id = standing w id) : LogExact w' := by
  unfold LogExact
  rw [hlog]
  exact hw.congr hsame

theorem LogExact.write {l : Lifecycle} (hw : LogExact w) (hlog : lifecycleLog w' = lifecycleLog w ++ [(id, l)])
    (hstore : ∀ k : ℕ, w'.store.packages[k]? = if k = id then some p else w.store.packages[k]?)
    (hp : some p.standing = Lifecycle.apply (standing w id) (id, l)) : LogExact w' := by
  unfold LogExact
  rw [hlog]
  apply hw.snoc
  · unfold standing
    rw [hstore, if_pos rfl]
    exact hp
  · intro k hk
    unfold standing
    rw [hstore, if_neg (Ne.symm hk)]

theorem LogExact.become {status : PackageStatus} (hw : LogExact w) (hp : w.store.packages[id]? = some p)
    (hstore : u.store = w.store.put id { p with status }) (hevents : u.events = w.events)
    (hE : lifecycleOf E = [(id, .became status)]) : LogExact (u.emit E) := by
  apply hw.write (p := { p with status })
  · rw [lifecycleLog_emit, hE, lifecycleLog, hevents]
    rfl
  · intro k
    change u.store.packages[k]? = _
    rw [hstore, put_packages]
  · rw [standing, hp]
    rfl

theorem LogExact.silent (hw : LogExact w) (hevents : u.events = w.events) (hsame : ∀ id, standing u id = standing w id)
    (hE : lifecycleOf E = []) : LogExact (u.emit E) := by
  apply hw.quiet
  · rw [lifecycleLog_emit, hE, append_nil, lifecycleLog, hevents]
    rfl
  · exact hsame

theorem standing_put {p' : Package} (hp : w.store.packages[id]? = some p) (hstore : u.store = w.store.put id p')
    (hsame : p'.standing = p.standing) (k : ℕ) : standing u k = standing w k := by
  unfold standing
  rw [hstore, put_packages]
  by_cases hk : k = id
  · rw [if_pos hk, hk, hp, Option.map_some, Option.map_some, hsame]
  · rw [if_neg hk]

theorem Atom.logExact (h : Atom H w a w') (hw : LogExact w) : LogExact w' := by
  cases h with
  | settings hE | note _ hE | fund _ _ hE | withdrawProposal _ hE | dropDelegate _ _ _ _ hE
  | clearDelegate _ hE =>
    exact hw.silent rfl (fun _ => rfl) hE
  | propose _ _ _ _ _ _ hE | execute _ _ _ _ _ _ hE | setDelegate _ _ _ _ hE =>
    exact hw.silent rfl (fun _ => rfl) hE
  | backfill _ h =>
    obtain ⟨totals, rfl⟩ := backfill_only_totals h
    exact hw
  | tick | outside => exact hw
  | @create p _ _ E _ hfresh hstatus _ _ _ _ _ _ hE =>
    apply hw.write (p := p)
    · rw [lifecycleLog_emit, hE]
      rfl
    · exact add_packages w.store p
    · rw [Package.standing, hstatus]
      rfl
  | claim hp _ _ _ _ _ _ _ hE | disburse hp _ _ _ _ hE | cancel hp _ _ hE | expire hp _ _ _ _ hE
  | refundLocked hp _ _ _ _ _ hE | refundCancelled hp _ _ _ _ hE => exact hw.become hp rfl rfl hE
  | @reassign id p recipient E hp _ _ hE =>
    apply hw.write (p := { p with recipient })
    · rw [lifecycleLog_emit, hE]
      rfl
    · exact put_packages w.store id _
    · rw [standing, hp]
      rfl
  | extend hp _ _ _ _ hE | attach hp _ _ hE => exact hw.silent rfl (standing_put hp rfl rfl) hE

theorem Reaches.logExact {tr : Trace τ} (h : Reaches H tr w) : LogExact w := by
  apply h.invariant
  · intro now tokens
    apply Mirrors.nil
    intro id
    simp [standing, World.deployed]
  · intro u a v _ hatom hu
    exact hatom.logExact hu

end Replay

section Batches

def Event.batch : Event → Option (List ℕ × ℤ)
  | .batchCreatedEvent ids _ totalAmount => some (ids, totalAmount)
  | _ => none

def batchLog (w : World τ) : List (List ℕ × ℤ) :=
  (w.events.map Published.event).filterMap batch

/-- Nothing has been published about batches since `w`. -/
def Quiet (w u : World τ) : Prop := batchLog u = batchLog w

variable {token claimant admin : Address} {m : Move τ} {ids : List ℕ}

theorem Quiet.publish {e : Event} (h : Quiet w u) (he : e.batch = none) : Quiet w (publish u e) := by
  unfold Quiet batchLog AidEscrow.publish
  rw [map_append, filterMap_append]
  simp only [map_cons, map_nil, filterMap_cons, he, filterMap_nil, append_nil]
  exact h

theorem quiet_clearDelegate (h : Quiet w u) (id : ℕ) : Quiet w (Delegate.clearDelegate H u id) := by
  rw [clearDelegate_eq]
  exact h

theorem quiet_transferToken (h : Quiet w u) {sender receiver : Address} {amount : ℤ} {purpose : Purpose} :
    Ensures (Quiet w) (transferToken H u token sender receiver amount purpose) := by
  intro v hv
  obtain ⟨tokens, -, rfl⟩ := transferToken_eq_ok.mp hv
  exact h

theorem quiet_putPackage (h : Quiet w u) (id : ℕ) (p : Package) : Quiet w (putPackage u id p) := h

theorem quiet_unlockPackage (h : Quiet w u) :
    Ensures (Quiet w) (unlockPackage u p) := after fun _ => Ensures.pure h

theorem quiet_finalizeClaim (h : Quiet w u) {payee : Address} :
    Ensures (Quiet w) (finalizeClaim H u p id payee claimant) := by
  unfold finalizeClaim
  refine after fun _ => (quiet_transferToken h).bind fun v hv => after fun totals => ?_
  apply Ensures.pure
  have hrecorded : Quiet w (recordRecipientClaim
      { putPackage v id { p with status := .claimed } with totals } p.recipient) := hv
  have hcleared : ∀ e : Event, e.batch = none → Quiet w (Delegate.clearDelegate H (publish
      (recordRecipientClaim { putPackage v id { p with status := .claimed } with totals }
        p.recipient) e) id) := fun e he => quiet_clearDelegate (hrecorded.publish he) id
  dsimp only
  split
  · exact ((hcleared _ rfl).publish rfl).publish rfl
  · exact hcleared _ rfl

theorem quiet_delegate_setDelegate (h : Quiet w u) {delegate : Address} :
    Ensures (Quiet w) (Delegate.setDelegate u admin id delegate) :=
  after fun _ => after fun _ => after fun _ => Ensures.pure h

theorem quiet_batchItems {ρ : Type} {one : World τ → ℕ → Result (World τ × ρ)}
    (hone : ∀ u id, Quiet w u → Ensures (fun r => Quiet w r.1) (one u id)) :
    ∀ (ids : List ℕ) (u : World τ), Quiet w u → Ensures (fun r => Quiet w r.1) (batchItems one u ids)
  | [], u, h => Ensures.ok h
  | id :: ids, u, h => by
    rw [batchItems]
    refine (hone u id h).bind ?_
    rintro ⟨v, r⟩ hv
    refine (quiet_batchItems hone ids v hv).bind ?_
    rintro ⟨v', rs⟩ hv'
    exact Ensures.pure hv'

theorem quiet_claimOneForBatch (h : Quiet w u) :
    Ensures (fun r => Quiet w r.1) (claimOneForBatch H u claimant id) := by
  intro r hr
  rcases claimOneForBatch_inv hr with ⟨-, -, hsame⟩ | ⟨-, p, -, -, -, -, -, -, hclaimed⟩
  · rw [hsame]
    exact h
  · exact quiet_finalizeClaim h r.1 hclaimed

theorem quiet_revokeOneForBatch (h : Quiet w u) :
    Ensures (fun r => Quiet w r.1) (revokeOneForBatch u admin id) := by
  intro r hr
  rcases revokeOneForBatch_cases hr with ⟨-, -, hsame⟩ | ⟨-, p, v, -, -, hunlocked, hdone⟩
  · rw [hsame]
    exact h
  · have hv := quiet_unlockPackage (quiet_putPackage h _ _) v hunlocked
    rw [hdone]
    exact Quiet.publish hv rfl

theorem quiet_release (h : Quiet w u) {locked : Prop} [Decidable locked] :
    Ensures (Quiet w) (if locked then unlockPackage u p else .ok u) := by
  split
  · exact quiet_unlockPackage h
  · exact Ensures.ok h

theorem quiet_refundOneForBatch (h : Quiet w u) :
    Ensures (fun r => Quiet w r.1) (refundOneForBatch H u admin id) := by
  intro r hr
  rcases refundOneForBatch_cases hr with
    ⟨-, -, hsame⟩ | ⟨-, p, paid, v, -, -, -, -, hpaid, hunlocked, hdone⟩
  · rw [hsame]
    exact h
  · have hv := quiet_release (quiet_transferToken h paid hpaid) v hunlocked
    rw [hdone]
    exact Quiet.publish hv rfl

theorem quiet_extendExpiry {expiresAt : ℕ} : Ensures (Quiet w) (extendExpiry signers w id expiresAt) := by
  refine after fun _ => after fun _ => after fun _ =>
    after fun _ => after fun _ => after fun _ => after fun _ => ?_
  exact Ensures.pure (Quiet.publish rfl rfl)

theorem quiet_sweepPosition {maxLimit i : ℕ} {s : World τ × ℕ} (h : Quiet w s.1) :
    Ensures (fun s' => Quiet w s'.1) (sweepPosition H maxLimit s i) := by
  unfold sweepPosition
  split
  · exact Ensures.ok h
  split
  · exact Ensures.ok h
  split
  · exact Ensures.ok h
  split_ifs
  · exact Ensures.ok h
  · exact Ensures.ok h
  · refine (quiet_unlockPackage (quiet_putPackage h _ _)).bind fun _ hv => ?_
    exact Ensures.pure (Quiet.publish hv rfl)

theorem quiet_sweepExpiredDelegates (H : Host τ) (w : World τ) (limit : ℕ) :
    Quiet w (Delegate.sweepExpiredDelegates H w limit).1 := by
  unfold Delegate.sweepExpiredDelegates
  extract_lets maxLimit s
  have hs : Quiet w s.world := by
    have hstart : Quiet w w := rfl
    refine foldlRecOn (motive := fun s : Delegate.Sweep τ => Quiet w s.world) _ _ hstart ?_
    intro s hs id _
    unfold Delegate.sweepOne
    split
    · exact hs
    · exact Quiet.publish hs rfl
  split
  · exact hs
  · exact hs

theorem exec_quiet {c : Call} (hc : ∀ operator recipients amounts token expiresIn metadatas,
    c ≠ .batchCreatePackages operator recipients amounts token expiresIn metadatas) :
    Ensures (Quiet w) (exec H signers w c) := by
  have hstart : Quiet w w := rfl
  -- each entry point: its checks, then the updates and events that end it
  cases c with
  | batchCreatePackages => exact absurd rfl (hc _ _ _ _ _ _)
  | init => exact after fun _ => Ensures.pure hstart
  | setMaxDistributors => exact after fun _ => after fun _ => Ensures.pure hstart
  | setConfig =>
    exact after fun _ => after fun _ => after fun _ => Ensures.pure hstart
  | migrate =>
    refine after fun _ => Ensures.bind (Q := Quiet w) ?_ fun _ hu => Ensures.pure hu
    split
    · exact after fun _ => Ensures.pure hstart
    · exact Ensures.ok hstart
  | pause | unpause | pauseCampaign | unpauseCampaign =>
    exact after fun _ => Ensures.pure (hstart.publish rfl)
  | transferAdmin | acceptAdmin | cancelAdminTransfer | removeDistributor | pauseAction
  | unpauseAction | removeAllowedToken | cancelSurplusWithdrawal =>
    refine after fun _ => after fun _ => ?_
    exact Ensures.pure (Quiet.publish hstart rfl)
  | addDistributor | addAllowedToken =>
    refine after fun _ => after fun _ => after fun _ => ?_
    exact Ensures.pure (Quiet.publish hstart rfl)
  | fund =>
    refine after fun _ => after fun _ => after fun _ =>
      after fun _ => (quiet_transferToken hstart).bind fun _ hu => ?_
    exact Ensures.pure (hu.publish rfl)
  | createPackage =>
    intro u hu
    obtain ⟨-, -, -, _, -, -, -, -, -, -, _, -, -, totals, -, _, -, -, -, -, rfl⟩ :=
      createPackage_eq_ok.mp hu
    exact Quiet.publish hstart rfl
  | claim =>
    refine after fun _ => after fun _ => after fun _ =>
      after fun _ => after fun _ => after fun _ => after fun _ => ?_
    exact quiet_finalizeClaim hstart
  | claimWithProof =>
    refine after fun _ => after fun _ => after fun _ =>
      after fun _ => after fun _ => after fun _ => ?_
    split
    · exact after fun _ => after fun _ => quiet_finalizeClaim hstart
    · exact after fun _ => quiet_finalizeClaim hstart
  | claimWithRelayer id =>
    refine after fun _ => after fun _ => after fun _ =>
      after fun _ => after fun _ => after fun _ => after fun _ =>
      after fun _ => after fun _ => after fun _ =>
      (quiet_transferToken (quiet_clearDelegate hstart id)).bind fun _ hu =>
      after fun _ => ?_
    exact Ensures.pure (Quiet.publish hu rfl)
  | batchClaim =>
    refine map (after fun _ => after fun _ => after fun _ => ?_)
    exact quiet_batchItems (fun _ _ hu => quiet_claimOneForBatch hu) _ _ hstart
  | disburse =>
    refine after fun _ => after fun _ => after fun _ =>
      after fun _ => (quiet_transferToken hstart).bind fun _ hpaid =>
      (quiet_unlockPackage (quiet_putPackage hpaid _ _)).bind fun _ hu => ?_
    exact Ensures.pure (hu.publish rfl)
  | reassignPackage =>
    refine after fun _ => after fun _ => after fun _ =>
      after fun _ => ?_
    exact Ensures.pure (Quiet.publish hstart rfl)
  | batchRevoke =>
    refine map (after fun _ => after fun _ => ?_)
    exact quiet_batchItems (fun _ _ hu => quiet_revokeOneForBatch hu) _ _ hstart
  | batchRefund =>
    refine map (after fun _ => after fun _ => after fun _ => ?_)
    exact quiet_batchItems (fun _ _ hu => quiet_refundOneForBatch hu) _ _ hstart
  | revoke =>
    refine after fun _ => after fun _ => after fun _ =>
      (quiet_unlockPackage (quiet_putPackage hstart _ _)).bind fun _ hu => ?_
    exact Ensures.pure (hu.publish rfl)
  | refund =>
    refine after fun _ => after fun _ => after fun _ =>
      after fun _ => after fun _ => after fun _ =>
      (quiet_transferToken hstart).bind fun _ hpaid => (quiet_release hpaid).bind fun _ hu => ?_
    exact Ensures.pure (hu.publish rfl)
  | cancelPackage =>
    refine after fun _ => after fun _ => after fun _ =>
      after fun _ => (quiet_unlockPackage (quiet_putPackage hstart _ _)).bind fun _ hu => ?_
    exact Ensures.pure (hu.publish rfl)
  | attachEvidenceHash =>
    refine after fun _ => after fun _ => after fun _ =>
      after fun _ => after fun _ => after fun _ => ?_
    exact Ensures.pure (Quiet.publish hstart rfl)
  | extendExpiry => exact quiet_extendExpiry
  | extendExpiration =>
    refine after fun _ => after fun _ => after fun _ =>
      after fun _ => ?_
    exact quiet_extendExpiry
  | proposeSurplusWithdrawal =>
    refine after fun _ => after fun _ => after fun _ =>
      after fun _ => after fun _ => after fun _ => after fun _ => ?_
    exact Ensures.pure (Quiet.publish hstart rfl)
  | executeSurplusWithdrawal =>
    have hwithdrawn : Quiet w { w with pendingWithdrawal := none } := rfl
    refine after fun _ => after fun _ => after fun _ =>
      after fun _ => after fun _ => after fun _ =>
      (quiet_transferToken hwithdrawn).bind fun _ hu => ?_
    exact Ensures.pure (hu.publish rfl)
  | setDelegate =>
    refine after fun _ => after fun _ => after fun _ =>
      after fun _ => (quiet_delegate_setDelegate hstart).bind fun _ hu => ?_
    exact Ensures.pure (hu.publish rfl)
  | setDelegateWithExpiry =>
    refine after fun _ => after fun _ => after fun _ =>
      after fun _ => after fun _ => Ensures.bind (Q := Quiet w) ?_ fun _ hu => ?_
    · refine after fun _ => (quiet_delegate_setDelegate hstart).bind fun _ hu => ?_
      apply Ensures.pure
      split
      · exact hu
      · exact hu
    · exact Ensures.pure (hu.publish rfl)
  | revokeDelegate admin id =>
    refine after fun _ => after fun _ => ?_
    apply Ensures.pure
    split
    · exact (quiet_clearDelegate hstart id).publish rfl
    · exact quiet_clearDelegate hstart id
  | cleanupExpiredDelegates =>
    exact map (after fun _ => Ensures.pure (quiet_sweepExpiredDelegates H w _))
  | sweepExpiredDelegates => exact Ensures.ok (quiet_sweepExpiredDelegates H w _)
  | sweepExpiredPackages limit =>
    refine map fun s hs => ?_
    refine foldlM_preserves (P := fun s : World τ × ℕ => Quiet w s.1) ?_ _ _ _ hstart hs
    intro s i s' hs hone
    exact quiet_sweepPosition hs s' hone

theorem batchLog_emit (w : World τ) (E : List Event) :
    batchLog (w.emit E) = batchLog w ++ E.filterMap batch := by
  have hevents : (E.map (Published.mk eventSchemaVersion)).map Published.event = E := by
    rw [map_map]
    exact map_id E
  unfold batchLog World.emit
  rw [map_append, filterMap_append, hevents]

theorem Atom.emits (h : Atom H w a w') :
    ∃ E : List Event, w'.events = w.events ++ E.map (Published.mk eventSchemaVersion) := by
  cases h with
  | backfill _ h =>
    obtain ⟨totals, rfl⟩ := backfill_only_totals h
    exact ⟨[], (append_nil _).symm⟩
  | tick | outside => exact ⟨[], (append_nil _).symm⟩
  | _ => exact ⟨_, rfl⟩

theorem Step.emits (h : Step H w m w') (hw : WellFormed w) :
    ∃ E : List Event, w'.events = w.events ++ E.map (Published.mk eventSchemaVersion) := by
  refine h.invariant (I := fun u => ∃ E : List Event,
    u.events = w.events ++ E.map (Published.mk eventSchemaVersion)) hw ?_ ?_
  · exact ⟨[], (append_nil _).symm⟩
  · rintro u a v hatom - ⟨E, hE⟩
    obtain ⟨E', hE'⟩ := hatom.emits
    refine ⟨E ++ E', ?_⟩
    rw [hE', hE, append_assoc, map_append]

def Event.creation : Event → Option (ℕ × ℤ)
  | .packageCreated packageId _ amount _ _ => some (packageId, amount)
  | _ => none

theorem batchCreatePackages_events {operator : Address} {recipients : List Address}
    {amounts : List ℤ} {expiresIn : ℕ} {metadatas : List Metadata}
    (h : batchCreatePackages H signers w operator recipients amounts token expiresIn metadatas =
      .ok (w', ids)) : ∃ (E : List Event) (totalAmount : ℤ), w'.events = w.events ++
        (E ++ [batchCreatedEvent ids operator totalAmount]).map (Published.mk eventSchemaVersion) ∧
      E.filterMap batch = [] ∧ (E.filterMap creation).map Prod.fst = ids ∧
      ((E.filterMap creation).map Prod.snd).sum = totalAmount := by
  simp only [batchCreatePackages, bind_eq_ok, pure_eq_ok, require_eq_ok, exists_unit] at h
  obtain ⟨-, -, -, -, -, _, -, _, -, _, -, s, hloop, totals, -, hout⟩ := h
  cases hout
  have hevents : ∃ E : List Event, s.world.events = w.events ++ E.map (Published.mk eventSchemaVersion) ∧
      E.filterMap batch = [] ∧ (E.filterMap creation).map Prod.fst = s.createdIds ∧
      ((E.filterMap creation).map Prod.snd).sum = s.totalAmount := by
    apply foldlM_preserves (P := fun s : BatchLoop τ => ∃ E : List Event,
      s.world.events = w.events ++ E.map (Published.mk eventSchemaVersion) ∧
      E.filterMap batch = [] ∧ (E.filterMap creation).map Prod.fst = s.createdIds ∧
      ((E.filterMap creation).map Prod.snd).sum = s.totalAmount) _ _ _ _ _ hloop
    · rintro s item s' ⟨E, hE, hbatch, hids, htotal⟩ hone
      obtain ⟨_, -, -, -, -, -, -, -, -, -, _, -, rfl⟩ := batchCreateOne_eq_ok.mp hone
      refine ⟨E ++ [.packageCreated s.counter item.1 item.2.1 operator w.now], ?_, ?_, ?_, ?_⟩
      · change s.world.events ++ _ = _
        rw [hE, map_append, append_assoc]
      · rw [filterMap_append, hbatch]
        rfl
      · rw [filterMap_append, map_append, hids]
        rfl
      · rw [filterMap_append, map_append, sum_append, htotal]
        simp [creation]
    · exact ⟨[], (append_nil _).symm, rfl, rfl, rfl⟩
  obtain ⟨E, hE, hbatch, hids, htotal⟩ := hevents
  refine ⟨E, s.totalAmount, ?_, hbatch, hids, htotal⟩
  change s.world.events ++ _ = _
  rw [hE, map_append, append_assoc]
  rfl

theorem not_batch_of_quiet {E : List Event} (hquiet : E.filterMap batch = []) {totalAmount : ℤ} :
    batchCreatedEvent ids admin totalAmount ∉ E := by
  intro hmem
  have hin : (ids, totalAmount) ∈ E.filterMap batch := mem_filterMap.mpr ⟨_, hmem, rfl⟩
  rw [hquiet] at hin
  cases hin

theorem Step.batches_summed (h : Step H w m w') (hw : WellFormed w) :
    ∃ E : List Event, w'.events = w.events ++ E.map (Published.mk eventSchemaVersion) ∧
      ∀ ids admin totalAmount, batchCreatedEvent ids admin totalAmount ∈ E → (E.filterMap creation).map Prod.fst = ids ∧
          ((E.filterMap creation).map Prod.snd).sum = totalAmount := by
  by_cases hbatch : ∃ signers operator recipients amounts token expiresIn metadatas,
      m = .call signers (.batchCreatePackages operator recipients amounts token expiresIn metadatas)
  · obtain ⟨signers, operator, recipients, amounts, token, expiresIn, metadatas, rfl⟩ := hbatch
    obtain ⟨ids, hids⟩ := fst_map_eq_ok.mp h.exec_ok
    obtain ⟨E, totalAmount, hE, hquiet, hfst, hsum⟩ := batchCreatePackages_events hids
    refine ⟨_, hE, ?_⟩
    intro ids' admin' totalAmount' hmem
    have hcreation : (E ++ [batchCreatedEvent ids operator totalAmount]).filterMap creation =
        E.filterMap creation := by
      rw [filterMap_append]
      exact append_nil _
    rw [hcreation]
    rcases mem_append.mp hmem with hmem | hmem
    · exact absurd hmem (not_batch_of_quiet hquiet)
    · cases mem_singleton.mp hmem
      exact ⟨hfst, hsum⟩
  · obtain ⟨E, hE⟩ := h.emits hw
    have hquiet : batchLog w' = batchLog w := by
      cases h with
      | tick | outside => rfl
      | @call _ signers c hok =>
        apply exec_quiet _ w' hok
        intro operator recipients amounts token expiresIn metadatas hc
        subst hc
        exact hbatch ⟨_, _, _, _, _, _, _, rfl⟩
    refine ⟨E, hE, ?_⟩
    intro ids admin totalAmount hmem
    have hlog : batchLog w' = batchLog w ++ E.filterMap batch := by
      rw [← batchLog_emit]
      unfold batchLog World.emit
      rw [hE]
    have hnone : E.filterMap batch = [] := append_right_eq_self.mp (hlog.symm.trans hquiet)
    exact absurd hmem (not_batch_of_quiet hnone)

end Batches

/-- The event log determines the packages, in every run. Replaying the lifecycle events gives the
status, the recipient and the amount of every stored package and of no other; a refused call and a
refused item of a batch publish nothing; and the summary of a batch lists the ids that were
created in its call, with their total. -/
theorem event_log_exact {tr : Trace τ} (h : Reaches H tr w) :
    (∀ id : ℕ, replay Prod.fst Lifecycle.apply id (lifecycleOf (w.events.map Published.event)) =
      w.store.packages[id]?.map Package.standing) ∧ (∀ signers c fault, exec H signers w c = .error fault →
      (afterCall H signers w c).events = w.events) ∧ (∀ (u u' : World τ) (id : ℕ),
      (∀ claimant r, claimOneForBatch H u claimant id = .ok (u', r) → r.status ≠ .success →
        u'.events = u.events) ∧ (∀ admin r, revokeOneForBatch u admin id = .ok (u', r) → r.status ≠ .success →
        u'.events = u.events) ∧ ∀ admin r, refundOneForBatch H u admin id = .ok (u', r) → r.status ≠ .success →
        u'.events = u.events) ∧ ∀ t ∈ tr, ∃ E : List Event,
      t.post.events = t.pre.events ++ E.map (Published.mk eventSchemaVersion) ∧
      ∀ ids admin totalAmount, batchCreatedEvent ids admin totalAmount ∈ E →
        (E.filterMap creation).map Prod.fst = ids ∧
          ((E.filterMap creation).map Prod.snd).sum = totalAmount := by
  refine ⟨h.logExact, ?_, ?_, ?_⟩
  · intro signers c fault hfault
    have hrefused : ∀ w', exec H signers w c ≠ .ok w' := by
      intro w' hok
      rw [hfault] at hok
      cases hok
    rw [afterCall_of_refused hrefused]
  · intro u u' id
    refine ⟨?_, ?_, ?_⟩
    · intro claimant r hone hfailed
      rcases claimOneForBatch_spec hone with ⟨-, -, rfl⟩ | ⟨hsuccess, -⟩
      · rfl
      · exact absurd hsuccess hfailed
    · intro admin r hone hfailed
      rcases revokeOneForBatch_spec (H := H) hone with ⟨-, -, rfl⟩ | ⟨hsuccess, -⟩
      · rfl
      · exact absurd hsuccess hfailed
    · intro admin r hone hfailed
      rw [refundOneForBatch_failed hone hfailed]
  · intro t ht
    -- the summary of a batch is checked against the ledger its call started from
    obtain ⟨before, after, rfl⟩ := append_of_mem ht
    obtain ⟨hbefore, hstep⟩ := h.split
    exact hstep.batches_summed hbefore.wellFormed

def fullHistory : List (Move Balances) := [
  .call [] (.init ⟨1⟩),
  .call [⟨1⟩] (.fund ⟨9⟩ ⟨1⟩ 100),
  .call [⟨1⟩] (.createPackage ⟨1⟩ 0 ⟨2⟩ 10 ⟨9⟩ 150 ∅),
  .call [⟨1⟩] (.batchCreatePackages ⟨1⟩ [⟨2⟩, ⟨3⟩] [10, 5] ⟨9⟩ 60 [∅, ∅]),
  .call [⟨1⟩] (.reassignPackage 1 ⟨4⟩),
  .call [⟨4⟩] (.claim 1),
  .call [⟨1⟩] (.revoke 2),
  .tick 200,
  .call [] (.sweepExpiredPackages 0),
  .call [⟨1⟩] (.refund 2)]

theorem event_log_exact_fullHistory :
    replay Prod.fst Lifecycle.apply 0 (lifecycleOf ((played (plainHost ⟨0⟩) 100
        [((⟨9⟩, ⟨1⟩), 100)] fullHistory).2.events.map Published.event)) = some ⟨.expired, ⟨2⟩, 10⟩ ∧
    replay Prod.fst Lifecycle.apply 1 (lifecycleOf ((played (plainHost ⟨0⟩) 100
        [((⟨9⟩, ⟨1⟩), 100)] fullHistory).2.events.map Published.event)) = some ⟨.claimed, ⟨4⟩, 10⟩ ∧
    replay Prod.fst Lifecycle.apply 2 (lifecycleOf ((played (plainHost ⟨0⟩) 100
        [((⟨9⟩, ⟨1⟩), 100)] fullHistory).2.events.map Published.event)) = some ⟨.refunded, ⟨3⟩, 5⟩ := by
  have hlog := (event_log_exact (played_reaches (H := plainHost ⟨0⟩) 100 [((⟨9⟩, ⟨1⟩), 100)]
    fullHistory)).1
  rw [hlog 0, hlog 1, hlog 2]
  decide +kernel

end Soter.AidEscrow
