import Soter.AidEscrow.Entitlement

/-! Delegates and changes of the recipient: for whom a delegate was registered. -/
namespace Soter.AidEscrow
open Std Soter.Fallible Soter.MapSum Soter.Runs

variable {τ : Type} {H : Host τ} {w w' u v : World τ} {a : Act} {m : Move τ}

/-- The last registration for the package is one of `d`, and it found this recipient. -/
def RegisteredFor (tr : Trace τ) (id : ℕ) (d recipient : Address) : Prop :=
  ∃ before t after, tr = before ++ t :: after ∧ (∃ admin, RegistersAs t admin id d) ∧
    (∃ p, t.pre.store.packages[id]? = some p ∧ p.recipient = recipient) ∧
    ∀ r ∈ after, ∀ admin d', ¬ RegistersAs r admin id d'

/-- The delegate is not the recipient of the package, and was registered for this recipient. -/
structure BelongsTo (tr : Trace τ) (id : ℕ) (d : Address) (p : Package) : Prop where
  other : d ≠ p.recipient
  registered : RegisteredFor tr id d p.recipient

/-- Every delegate on show is one for a stored package, and belongs to its present recipient. -/
def DelegatesBelong (tr : Trace τ) (w : World τ) : Prop :=
  ∀ id d, Delegate.getDelegate w id = some d → ∃ p, w.store.packages[id]? = some p ∧
    BelongsTo tr id d p

/-- Every claim pays the recipient of that moment, a delegate registered for this recipient, or
somebody with a proof for the Merkle root of the package. -/
def ClaimsBelong (H : Host τ) (tr : Trace τ) : Prop :=
  ∀ before t after, tr = before ++ t :: after → ∀ id payee, (id, payee) ∈ claimsOf t →
    ∃ p, t.pre.store.packages[id]? = some p ∧
      (payee = p.recipient ∨ RegisteredFor before id payee p.recipient ∨
        ∃ root proof, merkleRootFromMetadata p.metadata = some root ∧
          verifyMerkleProofForClaimant H payee proof root = .ok true)

def Move.reassigns : Move τ → Option (ℕ × Address)
  | .call _ (.reassignPackage id recipient) => some (id, recipient)
  | _ => none

/-- If the transition reassigns a package, then one that shows no delegate, or to the recipient it
already has. -/
def ReassignsUndelegated (t : Transition (World τ) (Move τ)) : Prop :=
  ∀ id recipient, t.label.reassigns = some (id, recipient) →
    Delegate.getDelegate t.pre id = none ∨
      ∃ p, t.pre.store.packages[id]? = some p ∧ p.recipient = recipient

variable {id : ℕ} {p : Package} {d : Address} {tr : Trace τ}

theorem Atom.recipient_kept (h : Atom H w a w')
    (hp : w.store.packages[id]? = some p) : ∃ p', w'.store.packages[id]? = some p' ∧
      (p'.recipient = p.recipient ∨ a = .reassign id p'.recipient) := by
  have hput : ∀ (k : ℕ) (q q' : Package), w.store.packages[k]? = some q →
      w'.store = w.store.put k q' → q'.recipient = q.recipient →
      ∃ p', w'.store.packages[id]? = some p' ∧ (p'.recipient = p.recipient ∨ a = .reassign id p'.recipient) := by
    intro k q q' hq hstore hrecipient
    rw [hstore, put_packages]
    by_cases hk : id = k
    · subst hk
      obtain rfl := Option.some.inj (hp.symm.trans hq)
      exact ⟨q', if_pos rfl, .inl hrecipient⟩
    · exact ⟨p, (if_neg hk).trans hp, .inl rfl⟩
  cases h with
  | backfill _ h =>
    obtain ⟨totals, rfl⟩ := backfill_only_totals h
    exact ⟨p, hp, .inl rfl⟩
  | @create q _ _ _ _ hfresh =>
    refine ⟨p, ?_, .inl rfl⟩
    change (w.store.add q).packages[id]? = some p
    rw [add_packages, if_neg, hp]
    intro hid
    rw [← hid, hp] at hfresh
    cases hfresh
  | claim hq | disburse hq | cancel hq | expire hq | refundLocked hq | refundCancelled hq
  | extend hq | attach hq => exact hput _ _ _ hq rfl rfl
  | @reassign k q recipient _ hq =>
    change ∃ p', (w.store.put k { q with recipient }).packages[id]? = some p' ∧ _
    rw [put_packages]
    by_cases hk : id = k
    · exact ⟨_, if_pos hk, .inr (by rw [hk])⟩
    · exact ⟨p, (if_neg hk).trans hp, .inl rfl⟩
  | _ => exact ⟨p, hp, .inl rfl⟩

theorem Move.reassigns_of_permits {recipient : Address}
    (h : m.permits (.reassign id recipient)) : m.reassigns = some (id, recipient) := by
  cases m with
  | tick | outside => cases h
  | call signers c =>
    cases c with
    | reassignPackage k newRecipient =>
      cases h
      rfl
    | _ => simp [Move.permits, Call.permits] at h

theorem Step.recipient_kept (h : Step H w m w') (hw : WellFormed w)
    (hp : w.store.packages[id]? = some p) : ∃ p', w'.store.packages[id]? = some p' ∧
      (p'.recipient = p.recipient ∨ m.reassigns = some (id, p'.recipient)) := by
  apply h.invariant (I := fun u => ∃ p', u.store.packages[id]? = some p' ∧
    (p'.recipient = p.recipient ∨ m.reassigns = some (id, p'.recipient))) hw ⟨p, hp, .inl rfl⟩
  intro u a v hatom hpermits hI
  obtain ⟨q, hq, hrecipient⟩ := hI
  obtain ⟨q', hq', hsame | hreassign⟩ := hatom.recipient_kept hq
  · exact ⟨q', hq', hsame ▸ hrecipient⟩
  · rw [hreassign] at hpermits
    exact ⟨q', hq', .inr (Move.reassigns_of_permits hpermits)⟩

theorem Step.getDelegate_origin (h : Step H w m w') (hw : WellFormed w) (hd : Delegate.getDelegate w' id = some d) :
    Delegate.getDelegate w id = some d ∨ ∃ admin, RegistersAs ⟨w, m, w'⟩ admin id d := by
  refine h.invariant (I := fun u => Delegate.getDelegate u id = some d →
    Delegate.getDelegate w id = some d ∨ ∃ admin, RegistersAs ⟨w, m, w'⟩ admin id d) hw .inl ?_ hd
  intro u a v hatom hpermits hI hd
  rcases hatom.getDelegate_origin hd with hold | ⟨admin, expiresAt, ha⟩
  · exact hI hold
  · rw [ha] at hpermits
    exact .inr ⟨admin, Move.registers hpermits w w'⟩

theorem Step.registered (h : Step H w m w') {admin : Address} (hreg : RegistersAs ⟨w, m, w'⟩ admin id d) :
    w'.store = w.store ∧ (∃ expiry, w'.registration id = some (d, expiry)) ∧
      ∃ p, w.store.packages[id]? = some p ∧ d ≠ p.recipient := by
  have hmain : ∀ e, Atom H w (.setDelegate admin id d e) w' →
      w'.store = w.store ∧ (∃ expiry, w'.registration id = some (d, expiry)) ∧
        ∃ p, w.store.packages[id]? = some p ∧ d ≠ p.recipient := by
    intro e hatom
    have hnew := hatom.registers.1
    cases hatom with
    | setDelegate hp _ hne => exact ⟨rfl, ⟨_, hnew⟩, _, hp, hne⟩
  obtain ⟨signers, -, hlabel | ⟨expiresAt, hlabel⟩⟩ := hreg
  · change m = _ at hlabel
    subst hlabel
    cases h with
    | call h => exact hmain 0 (setDelegate_atom h).2
  · change m = _ at hlabel
    subst hlabel
    cases h with
    | call h => exact hmain expiresAt (setDelegateWithExpiry_atom h).2

theorem Step.delegatesBelong (h : Step H u m v) (hu : WellFormed u)
    (hC : ReassignsUndelegated ⟨u, m, v⟩) (hI : DelegatesBelong tr u) :
    DelegatesBelong (tr ++ [⟨u, m, v⟩]) v := by
  intro id d hd
  by_cases hreg : ∃ admin d', RegistersAs ⟨u, m, v⟩ admin id d'
  · -- The move registers a delegate for this package: it is the one on show.
    obtain ⟨admin, d', hreg⟩ := hreg
    obtain ⟨hstore, ⟨expiry, hnew⟩, p, hp, hne⟩ := h.registered hreg
    obtain ⟨expiry', hshown, -⟩ := getDelegate_eq_some.mp hd
    have hpair := Option.some.inj (hnew.symm.trans hshown)
    obtain rfl : d' = d := congrArg Prod.fst hpair
    refine ⟨p, hstore ▸ hp, hne, tr, _, [], rfl, ⟨admin, hreg⟩, ⟨p, hp, rfl⟩, ?_⟩
    intro r hr
    cases hr
  · -- Any other move can only take delegates away, and keeps the recipient of those it leaves.
    have hold : Delegate.getDelegate u id = some d := by
      rcases h.getDelegate_origin hu hd with hold | ⟨admin, hnew⟩
      · exact hold
      · exact absurd ⟨admin, d, hnew⟩ hreg
    obtain ⟨p, hp, hne, before, t, after, rfl, hregistered, hfound, hlast⟩ := hI id d hold
    obtain ⟨p', hp', hrecipient⟩ := h.recipient_kept hu hp
    have hsame : p'.recipient = p.recipient := by
      rcases hrecipient with hsame | hreassigns
      · exact hsame
      · rcases hC id _ hreassigns with hnone | ⟨q, hq, hrecipient⟩
        · rw [hold] at hnone
          cases hnone
        · obtain rfl := Option.some.inj (hp.symm.trans hq)
          exact hrecipient.symm
    refine ⟨p', hp', hsame ▸ hne, before, t, after ++ [⟨u, m, v⟩], by simp, hregistered, hsame ▸ hfound, ?_⟩
    intro r hr admin d' hr'
    rcases List.mem_append.mp hr with hr | hr
    · exact hlast r hr admin d' hr'
    · rw [List.mem_singleton.mp hr] at hr'
      exact hreg ⟨admin, d', hr'⟩

theorem Reaches.delegatesBelong (h : Reaches H tr w) (hC : ∀ t ∈ tr, ReassignsUndelegated t) : DelegatesBelong tr w := by
  obtain ⟨now, tokens, hrun⟩ := h
  induction hrun with
  | nil =>
    intro id d hd
    simp [Delegate.getDelegate, World.deployed] at hd
  | @snoc tr u m v hrun hstep ih =>
    have hu : WellFormed u := Reaches.wellFormed ⟨now, tokens, hrun⟩
    apply hstep.delegatesBelong hu
    · exact hC _ (by simp)
    · exact ih fun t ht => hC t (List.mem_append_left _ ht)

theorem Step.claim_entitled (h : Step H w m w') (hw : WellFormed w) {payee : Address}
    (hmem : (id, payee) ∈ claimsOf ⟨w, m, w'⟩) : ∃ p, w.store.packages[id]? = some p ∧
      (payee = p.recipient ∨ Delegate.getDelegate w id = some payee ∨
        ∃ root proof, merkleRootFromMetadata p.metadata = some root ∧
          verifyMerkleProofForClaimant H payee proof root = .ok true) := by
  obtain ⟨u, u', hframe, hatom⟩ := h.claim_of_mem hw hmem
  cases hatom with
  | claim hq _ _ _ hentitled =>
    obtain ⟨p, hp, hrecipient, hmetadata⟩ := hframe.package hq
    refine ⟨p, hp, ?_⟩
    rw [Entitled, ← hmetadata] at hentitled
    rcases Option.eq_none_or_eq_some (merkleRootFromMetadata p.metadata) with hroot | ⟨root, hroot⟩
    · simp only [hroot, Delegate.isAuthorisedClaimer] at hentitled
      split at hentitled
      · rename_i hpayee
        exact .inl (hpayee.trans hrecipient.symm)
      · right
        left
        apply hframe.active
        rcases Option.eq_none_or_eq_some (Delegate.getDelegate u id) with hnone | ⟨d, hd⟩
        · simp [hnone] at hentitled
        · simp only [hd, decide_eq_true_eq] at hentitled
          rw [hd, hentitled]
    · simp only [hroot] at hentitled
      obtain ⟨proof, hverified⟩ := hentitled
      exact .inr (.inr ⟨root, proof, hroot, hverified⟩)

/-- In a run that reassigns packages only while they show no delegate, or to the recipient they
have, every delegate on show was registered for the present recipient and differs from it; and so
no delegate registered for an earlier recipient is ever paid. -/
theorem delegates_belong_to_recipient {tr : Trace τ} (h : Reaches H tr w)
    (hC : ∀ t ∈ tr, ReassignsUndelegated t) : DelegatesBelong tr w ∧ ClaimsBelong H tr := by
  refine ⟨h.delegatesBelong hC, ?_⟩
  intro before t after hsplit id payee hmem
  subst hsplit
  obtain ⟨hbefore, hstep⟩ := h.split
  have hbelong : DelegatesBelong before t.pre :=
    hbefore.delegatesBelong fun r hr => hC r (List.mem_append_left _ hr)
  obtain ⟨p, hp, hrecipient | hshown | hproof⟩ := hstep.claim_entitled hbefore.wellFormed hmem
  · exact ⟨p, hp, .inl hrecipient⟩
  · obtain ⟨q, hq, -, hregistered⟩ := hbelong id payee hshown
    obtain rfl := Option.some.inj (hp.symm.trans hq)
    exact ⟨p, hp, .inr (.inl hregistered)⟩
  · exact ⟨p, hp, .inr (.inr hproof)⟩

def revokedThenReassigned : List (Move Balances) := [
  .call [] (.init ⟨1⟩),
  .call [⟨1⟩] (.fund ⟨9⟩ ⟨1⟩ 10),
  .call [⟨1⟩] (.createPackage ⟨1⟩ 0 ⟨2⟩ 10 ⟨9⟩ 0 ∅),
  .call [⟨1⟩] (.setDelegate ⟨1⟩ 0 ⟨4⟩),
  .call [⟨1⟩] (.revokeDelegate ⟨1⟩ 0),
  .call [⟨1⟩] (.reassignPackage 0 ⟨5⟩),
  .call [⟨1⟩] (.setDelegate ⟨1⟩ 0 ⟨6⟩),
  .call [⟨6⟩] (.claimWithProof 0 ⟨6⟩ [])]

theorem delegates_belong_to_recipient_revokedThenReassigned :
    (claimsOf <$> (played (plainHost ⟨0⟩) 100 [((⟨9⟩, ⟨1⟩), 100)] revokedThenReassigned).1[7]?) =
      some [(0, ⟨6⟩)] ∧ ClaimsBelong (plainHost ⟨0⟩)
      (played (plainHost ⟨0⟩) 100 [((⟨9⟩, ⟨1⟩), 100)] revokedThenReassigned).1 := by
  refine ⟨by decide +kernel, (delegates_belong_to_recipient (played_reaches (H := plainHost ⟨0⟩) 100
    [((⟨9⟩, ⟨1⟩), 100)] revokedThenReassigned) fun t ht id recipient hreassigns => ?_).2⟩
  have hall : ∀ t ∈ (played (plainHost ⟨0⟩) 100 [((⟨9⟩, ⟨1⟩), 100)] revokedThenReassigned).1,
      (t.label.reassigns.bind fun x => Delegate.getDelegate t.pre x.1) = none := by
    decide +kernel
  have hnone := hall t ht
  rw [hreassigns] at hnone
  exact .inl hnone

def reassignedUnderDelegate : List (Move Balances) := [
  .call [] (.init ⟨1⟩),
  .call [⟨1⟩] (.fund ⟨9⟩ ⟨1⟩ 10),
  .call [⟨1⟩] (.createPackage ⟨1⟩ 0 ⟨2⟩ 10 ⟨9⟩ 0 ∅),
  .call [⟨1⟩] (.setDelegate ⟨1⟩ 0 ⟨4⟩),
  .call [⟨1⟩] (.reassignPackage 0 ⟨5⟩)]

theorem reassignedUnderDelegate_not_belong : ∃ w : World Balances, Reaches (plainHost ⟨0⟩)
        (played (plainHost ⟨0⟩) 100 [((⟨9⟩, ⟨1⟩), 100)] reassignedUnderDelegate).1 w ∧ ¬ DelegatesBelong
        (played (plainHost ⟨0⟩) 100 [((⟨9⟩, ⟨1⟩), 100)] reassignedUnderDelegate).1 w ∧
      ∃ w', Step (plainHost ⟨0⟩) w (.call [⟨4⟩] (.claimWithProof 0 ⟨4⟩ [])) w' := by
  refine ⟨_, played_reaches _ _ _, fun hbelong => ?_, ?_⟩
  · generalize htr : (played (plainHost ⟨0⟩) 100 [((⟨9⟩, ⟨1⟩), 100)] reassignedUnderDelegate).1 = tr
      at hbelong
    have hearlier : ∀ t ∈ tr, t.label.registrar ≠ none →
        (t.pre.store.packages[0]?).map (fun p => p.recipient) = some ⟨2⟩ := by
      subst htr
      decide +kernel
    obtain ⟨p, hp, -, before, t, after, hsplit, ⟨admin, hreg⟩, ⟨q, hq, hrecipient⟩, -⟩ :=
      hbelong 0 ⟨4⟩ (by decide +kernel)
    have hfound := hearlier t (by rw [hsplit]; simp) (by simp [hreg.registrar])
    rw [hq, Option.map_some, hrecipient, ← Option.map_some (f := fun p : Package => p.recipient),
      ← hp] at hfound
    revert hfound
    decide +kernel
  · have hcall : (exec (plainHost ⟨0⟩) [⟨4⟩]
        (played (plainHost ⟨0⟩) 100 [((⟨9⟩, ⟨1⟩), 100)] reassignedUnderDelegate).2
        (.claimWithProof 0 ⟨4⟩ [])).toOption.isSome = true := by
      decide +kernel
    obtain ⟨w', h⟩ := exists_ok_iff.mpr hcall
    exact ⟨w', Step.call h⟩

end Soter.AidEscrow
