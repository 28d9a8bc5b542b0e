import Soter.AidEscrow.DelegateActs

/-! The claims of a run, read off the transfers, and what they have to do with its acts. -/
namespace Soter.AidEscrow
open Std Soter.Fallible Soter.MapSum Soter.Runs

variable {τ : Type} {H : Host τ} {w w' : World τ} {a : Act} {m : Move τ}

def Transfer.asClaim (x : Transfer) : Option (ℕ × Address) :=
  match x.purpose with
  | .claim id => some (id, x.receiver)
  | _ => none

def Act.asClaim : Act → Option (ℕ × Address)
  | .claim id payee => some (id, payee)
  | _ => none

def claimsOf (t : Transition (World τ) (Move τ)) : List (ℕ × Address) :=
  (t.post.transfers.drop t.pre.transfers.length).filterMap Transfer.asClaim

theorem Atom.claim_payments (h : Atom H w a w') :
    ∃ xs, w'.transfers = w.transfers ++ xs ∧ xs.filterMap Transfer.asClaim = a.asClaim.toList := by
  cases h with
  | backfill _ h =>
    obtain ⟨totals, rfl⟩ := backfill_only_totals h
    exact ⟨[], (List.append_nil _).symm, rfl⟩
  | settings | note | create | cancel | expire | reassign | extend | attach | propose
  | withdrawProposal | setDelegate | clearDelegate | dropDelegate | tick | outside =>
    exact ⟨[], (List.append_nil _).symm, rfl⟩
  | fund | claim | disburse | refundLocked | refundCancelled | execute => exact ⟨[_], rfl, rfl⟩

theorem run_claim_payments {acts : List (Transition (World τ) Act)}
    (h : Run (Atom H) w acts w') : ∃ xs, w'.transfers = w.transfers ++ xs ∧
      xs.filterMap Transfer.asClaim = acts.filterMap fun t => t.label.asClaim := by
  induction h with
  | nil => exact ⟨[], (List.append_nil _).symm, rfl⟩
  | snoc _ hatom ih =>
    obtain ⟨xs, hxs, hclaims⟩ := ih
    obtain ⟨ys, hys, hclaim⟩ := hatom.claim_payments
    refine ⟨xs ++ ys, by rw [hys, hxs, List.append_assoc], ?_⟩
    rw [List.filterMap_append, List.filterMap_append, hclaims, hclaim]
    cases hlabel : Act.asClaim _ <;> simp [hlabel]

structure ClaimFrame (w u : World τ) : Prop where
  now : u.now = w.now
  settings : u.settings = w.settings
  packages : ∀ id : ℕ, (u.store.packages[id]?).map (fun p => (p.recipient, p.metadata)) =
    (w.store.packages[id]?).map fun p => (p.recipient, p.metadata)
  delegates : ∀ (id : ℕ) (d : Address), u.delegation.delegates[id]? = some d →
    w.delegation.delegates[id]? = some d
  active : ∀ (id : ℕ) (d : Address), Delegate.getDelegate u id = some d →
    Delegate.getDelegate w id = some d

theorem ClaimFrame.refl (w : World τ) : ClaimFrame w w :=
  ⟨rfl, rfl, fun _ => rfl, fun _ _ h => h, fun _ _ h => h⟩

theorem ClaimFrame.trans {u v : World τ} (h : ClaimFrame w u) (h' : ClaimFrame u v) : ClaimFrame w v :=
  ⟨h'.now.trans h.now, h'.settings.trans h.settings, fun id => (h'.packages id).trans (h.packages id),
    fun id d hd => h.delegates id d (h'.delegates id d hd),
    fun id d hd => h.active id d (h'.active id d hd)⟩

theorem Atom.claimFrame (h : Atom H w a w') (ha : a.asClaim ≠ none) : ClaimFrame w w' := by
  have hactive : ∀ (k : ℕ) (d : Address), Delegate.getDelegate w' k = some d →
      Delegate.getDelegate w k = some d := by
    intro k d hd
    rcases h.getDelegate_origin hd with hold | ⟨admin, e, hset⟩
    · exact hold
    · rw [hset] at ha
      exact absurd rfl ha
  cases h with
  | @claim id _ p _ _ _ hp =>
    refine ⟨rfl, rfl, fun k => ?_, fun k d hd => ?_, hactive⟩
    · change ((w.store.put id { p with status := .claimed }).packages[k]?).map _ = _
      rw [put_packages]
      by_cases hk : k = id
      · subst hk
        rw [if_pos rfl, hp]
        rfl
      · rw [if_neg hk]
    · change (w.delegation.delegates.erase id)[k]? = some d at hd
      rw [get_erase] at hd
      split at hd
      · cases hd
      · exact hd
  | _ => exact absurd rfl ha

theorem ClaimFrame.package {u : World τ} (h : ClaimFrame w u) {id : ℕ} {p : Package}
    (hp : u.store.packages[id]? = some p) : ∃ q, w.store.packages[id]? = some q ∧
      q.recipient = p.recipient ∧ q.metadata = p.metadata := by
  have hsame := h.packages id
  rw [hp] at hsame
  obtain ⟨q, hq, he⟩ := Option.map_eq_some_iff.mp hsame.symm
  exact ⟨q, hq, congrArg Prod.fst he, congrArg Prod.snd he⟩

theorem Move.claims_or_not (m : Move τ) : (∀ a, m.permits a → a.asClaim ≠ none) ∨ ∀ a, m.permits a → a.asClaim = none := by
  cases m with
  | tick | outside => exact .inr (by rintro _ rfl; rfl)
  | call signers c =>
    cases c with
    | claim => exact .inl (by rintro _ ⟨payee, rfl⟩; exact nofun)
    | claimWithProof | claimWithRelayer => exact .inl (by rintro _ rfl; exact nofun)
    | batchClaim => exact .inl (by rintro _ ⟨id, -, rfl⟩; exact nofun)
    | migrate => exact .inr (by rintro _ (rfl | ⟨rfl, -⟩) <;> rfl)
    | batchCreatePackages => exact .inr (by rintro _ (⟨p, rfl⟩ | rfl) <;> rfl)
    | batchRevoke | batchRefund => exact .inr (by rintro _ ⟨id, -, rfl⟩; rfl)
    | createPackage | extendExpiration | proposeSurplusWithdrawal | cleanupExpiredDelegates
    | sweepExpiredDelegates | sweepExpiredPackages => exact .inr (by rintro _ ⟨x, rfl⟩; rfl)
    | setDelegate | setDelegateWithExpiry => exact .inr (by rintro _ ⟨rfl, -⟩; rfl)
    | _ => exact .inr (by rintro _ rfl; rfl)

theorem Step.claims (h : Step H w m w') (hw : WellFormed w) : ∃ acts, Run (Atom H) w acts w' ∧
      claimsOf ⟨w, m, w'⟩ = acts.filterMap (fun t => t.label.asClaim) ∧ (∀ t ∈ acts, m.permits t.label) ∧
      ∀ t ∈ acts, t.label.asClaim ≠ none → ClaimFrame w t.pre := by
  obtain ⟨acts, hacts, hkind⟩ := step_path hw h (refundsMeet_true m w)
  obtain ⟨xs, hxs, hclaims⟩ := run_claim_payments hacts
  refine ⟨acts, hacts, ?_, fun t ht => (hkind t ht).1, fun t ht hclaim => ?_⟩
  · rw [claimsOf, hxs, List.drop_left, hclaims]
  · rcases m.claims_or_not with hall | hnone
    · obtain ⟨before, after, rfl⟩ := List.append_of_mem ht
      exact hacts.split.1.related (C := fun t => t.label.asClaim ≠ none) ClaimFrame.refl (fun _ _ _ => ClaimFrame.trans)
        (fun t ht => hall _ (hkind t (List.mem_append_left _ ht)).1)
        fun _ hatom hclaim => hatom.claimFrame hclaim
    · exact absurd (hnone _ (hkind t ht).1) hclaim

theorem Step.claim_of_mem (h : Step H w m w') (hw : WellFormed w) {id : ℕ} {payee : Address}
    (hmem : (id, payee) ∈ claimsOf ⟨w, m, w'⟩) : ∃ u u', ClaimFrame w u ∧ Atom H u (.claim id payee) u' := by
  obtain ⟨acts, hacts, hclaims, -, hframe⟩ := h.claims hw
  rw [hclaims, List.mem_filterMap] at hmem
  obtain ⟨⟨u, a, u'⟩, ht, hclaim⟩ := hmem
  have ha : a = .claim id payee := by
    cases a <;> simp_all [Act.asClaim]
  subst ha
  exact ⟨u, u', hframe _ ht nofun, hacts.step_of_mem ht⟩

end Soter.AidEscrow
