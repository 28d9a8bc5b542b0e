import Soter.AidEscrow.PackageActs

/-! The calls that work through many packages, as runs of acts. -/
namespace Soter.AidEscrow
open Std Soter.Fallible Soter.Runs Soter.MapSum

variable {τ : Type} {H : Host τ} {signers : List Address} {w w' : World τ}

section Items
variable {ρ : Type} {one : World τ → ℕ → Result (World τ × ρ)}

/-- `C` holds for every item of a batch, at the state the earlier items left it. -/
def ItemsMeet (one : World τ → ℕ → Result (World τ × ρ)) (C : World τ → ℕ → ρ → Prop) :
    World τ → List ℕ → Prop
  | _, [] => True
  | w, id :: ids => ∀ w' r, one w id = .ok (w', r) → C w id r ∧ ItemsMeet one C w' ids

variable {C : World τ → ℕ → ρ → Prop} {claimant admin : Address} {id : ℕ} {r : BatchAdminActionResult}

theorem batchItems_run {I : World τ → Prop} {P : ℕ → Transition (World τ) Act → Prop}
    (hone : ∀ w id w' r, I w → one w id = .ok (w', r) → C w id r →
      I w' ∧ ∃ acts, Run (Atom H) w acts w' ∧ ∀ a ∈ acts, P id a) :
    ∀ (ids : List ℕ) (w w' : World τ) (rs : List ρ), I w → ItemsMeet one C w ids →
      batchItems one w ids = .ok (w', rs) → ∃ acts, Run (Atom H) w acts w' ∧ ∀ a ∈ acts, ∃ id ∈ ids, P id a
  | [], w, w', rs, _, _, h => by
    cases h
    exact ⟨[], Run.nil, by simp⟩
  | id :: ids, w, w', rs, hI, hC, h => by
    simp only [batchItems, bind_eq_ok, pure_eq_ok] at h
    obtain ⟨⟨w1, r⟩, h1, ⟨w2, rs2⟩, h2, hw⟩ := h
    cases hw
    obtain ⟨hmeets, hrest⟩ := hC w1 r h1
    obtain ⟨hI1, acts, hacts, hP⟩ := hone w id w1 r hI h1 hmeets
    obtain ⟨acts', hacts', hP'⟩ := batchItems_run hone ids w1 w2 rs2 hI1 hrest h2
    refine ⟨acts ++ acts', hacts.append hacts', fun a ha => ?_⟩
    rcases List.mem_append.mp ha with ha | ha
    · exact ⟨id, List.mem_cons_self, hP a ha⟩
    · obtain ⟨id', hid', hPa⟩ := hP' a ha
      exact ⟨id', List.mem_cons_of_mem id hid', hPa⟩

theorem itemsMeet_of_forall (hC : ∀ w id r, C w id r) : ∀ (ids : List ℕ) (w : World τ), ItemsMeet one C w ids
  | [], _ => trivial
  | id :: ids, w => fun w' r _ => ⟨hC w id r, itemsMeet_of_forall hC ids w'⟩

/-- An item of `batch_claim` reports a failure and changes nothing, or is paid as any claim is. -/
theorem claimOneForBatch_inv {r : BatchClaimResult} (h : claimOneForBatch H w claimant id = .ok (w', r)) :
    (r.status ≠ .success ∧ r.amount = 0 ∧ w' = w) ∨ r.status = .success ∧ ∃ p, w.store.packages[id]? = some p ∧
        checkCampaignPaused w p.metadata = .ok () ∧ p.status = .created ∧
        (p.claimStartsAt ≤ w.now ∧ ¬ (0 < p.expiresAt ∧ p.expiresAt < w.now)) ∧
        merkleRootFromMetadata p.metadata = none ∧
        Delegate.isAuthorisedClaimer w id p.recipient claimant = true ∧
        finalizeClaim H w p id claimant claimant = .ok w' := by
  unfold claimOneForBatch at h
  split at h
  · cases h
    exact .inl ⟨by simp, rfl, rfl⟩
  rename_i p hp
  split at h
  · cases h
    exact .inl ⟨by simp, rfl, rfl⟩
  rename_i hopen
  split_ifs at h with hstatus hearly hlate hroot hwho
  case pos | pos | pos | pos | pos =>
    cases h
    exact .inl ⟨by simp, rfl, rfl⟩
  split at h
  · cases h
    exact .inl ⟨by simp, rfl, rfl⟩
  split at h
  · rename_i claimed hclaimed
    cases h
    exact .inr ⟨rfl, p, hp, hopen, not_not.mp hstatus, ⟨Nat.not_lt.mp hearly, hlate⟩,
      by simpa using hroot, by simpa using hwho, hclaimed⟩
  · cases h
    exact .inl ⟨by simp, rfl, rfl⟩
  · cases h

theorem claimOneForBatch_spec {r : BatchClaimResult} (h : claimOneForBatch H w claimant id = .ok (w', r)) :
    (r.status ≠ .success ∧ r.amount = 0 ∧ w' = w) ∨ (r.status = .success ∧ Atom H w (.claim id claimant) w') := by
  rcases claimOneForBatch_inv h with
    hfailed | ⟨hr, p, hp, hopen, hstatus, hwindow, hroot, hwho, hclaimed⟩
  · exact .inl hfailed
  obtain ⟨hcooldown, tokens, totals, events, htransfer, htotals, hevents, rfl⟩ :=
    finalizeClaim_spec hclaimed
  refine .inr ⟨hr, Atom.claim hp hstatus (checkCampaignPaused_eq_ok w |>.mp hopen) hwindow ?_
    hcooldown htransfer htotals hevents⟩
  rw [Entitled, hroot]
  exact hwho

theorem revokeOneForBatch_cases (h : revokeOneForBatch w admin id = .ok (w', r)) :
    (r.status ≠ .success ∧ r.amount = 0 ∧ w' = w) ∨
      r.status = .success ∧ ∃ p u, w.store.packages[id]? = some p ∧ p.status = .created ∧
        unlockPackage (putPackage w id { p with status := .cancelled })
          { p with status := .cancelled } = .ok u ∧
        w' = publish u (.packageRevoked id p.recipient p.amount admin u.now) := by
  unfold revokeOneForBatch at h
  split at h
  · cases h
    exact .inl ⟨by simp, rfl, rfl⟩
  rename_i p hp
  split_ifs at h with hstatus
  · cases h
    exact .inl ⟨by simp, rfl, rfl⟩
  simp only [bind_eq_ok, pure_eq_ok] at h
  obtain ⟨u, hunlocked, hw⟩ := h
  cases hw
  exact .inr ⟨rfl, p, u, hp, not_not.mp hstatus, hunlocked, rfl⟩

theorem revokeOneForBatch_spec (h : revokeOneForBatch w admin id = .ok (w', r)) :
    (r.status ≠ .success ∧ r.amount = 0 ∧ w' = w) ∨ (r.status = .success ∧ Atom H w (.cancel id) w') := by
  rcases revokeOneForBatch_cases h with hfailed | ⟨hr, p, u, hp, hstatus, hunlocked, rfl⟩
  · exact .inl hfailed
  obtain ⟨totals, htotals, rfl⟩ := unlockPackage_eq_ok.mp hunlocked
  exact .inr ⟨hr, Atom.cancel (E := [.packageRevoked id p.recipient p.amount admin w.now]) hp hstatus htotals rfl⟩

theorem refundOneForBatch_cases (h : refundOneForBatch H w admin id = .ok (w', r)) :
    (r.status ≠ .success ∧ r.amount = 0 ∧ w' = w) ∨ r.status = .success ∧ ∃ p paid u, w.store.packages[id]? = some p ∧
        checkCampaignPaused w p.metadata = .ok () ∧
        ¬ (p.status = .created ∧ (p.expiresAt = 0 ∨ w.now ≤ p.expiresAt)) ∧
        ¬ (p.status ≠ .created ∧ p.status ≠ .expired ∧ p.status ≠ .cancelled) ∧
        transferToken H w p.token H.contract admin p.amount (.refund id) = .ok paid ∧
        (if p.status = .created ∨ p.status = .expired then unlockPackage paid p
          else .ok paid) = .ok u ∧
        w' = publish (putPackage u id { p with status := .refunded })
          (.packageRefunded id p.recipient p.amount admin u.now) := by
  unfold refundOneForBatch at h
  split at h
  · cases h
    exact .inl ⟨by simp, rfl, rfl⟩
  rename_i p hp
  split at h
  · cases h
    exact .inl ⟨by simp, rfl, rfl⟩
  rename_i hopen
  dsimp only at h
  split at h
  · cases h
    exact .inl ⟨by simp, rfl, rfl⟩
  rename_i halive
  split at h
  · cases h
    exact .inl ⟨by simp, rfl, rfl⟩
  rename_i hdone
  split at h
  · cases h
    exact .inl ⟨by simp, rfl, rfl⟩
  rename_i paid hpaid
  simp only [bind_eq_ok, pure_eq_ok] at h
  obtain ⟨u, hunlocked, hw⟩ := h
  cases hw
  exact .inr ⟨rfl, p, paid, u, hp, hopen, halive, hdone, hpaid, hunlocked, rfl⟩

theorem refundOneForBatch_spec (hadmin : w.settings.admin = some admin)
    (h : refundOneForBatch H w admin id = .ok (w', r)) : (r.status ≠ .success ∧ r.amount = 0 ∧ w' = w) ∨
      (r.status = .success ∧ Atom H w (.refund id) w') := by
  rcases refundOneForBatch_cases h with
    hfailed | ⟨hr, p, paid, u, hp, hopen, halive, hdone, hpaid, hunlocked, rfl⟩
  · exact .inl hfailed
  refine .inr ⟨hr, refunded_atom hp (checkCampaignPaused_eq_ok w |>.mp hopen) hadmin ?_ ?_ hpaid hunlocked⟩
  · intro hcreated
    have hlate : ¬ (p.expiresAt = 0 ∨ w.now ≤ p.expiresAt) := fun hl => halive ⟨hcreated, hl⟩
    omega
  · rintro (hs | hs) <;> simp [hs] at hdone

theorem refundOneForBatch_failed (h : refundOneForBatch H w admin id = .ok (w', r)) (hr : r.status ≠ .success) : w' = w := by
  rcases refundOneForBatch_cases h with ⟨-, -, hsame⟩ | ⟨hsuccess, -⟩
  · exact hsame
  · exact absurd hsuccess hr

end Items

theorem sweepPosition_run {maxLimit i : ℕ} {s s' : World τ × ℕ}
    (hs : ∃ acts, Run (Atom H) w acts s.1 ∧ ∀ a ∈ acts, ∃ id, a.label = .expire id)
    (h : sweepPosition H maxLimit s i = .ok s') :
    ∃ acts, Run (Atom H) w acts s'.1 ∧ ∀ a ∈ acts, ∃ id, a.label = .expire id := by
  unfold sweepPosition at h
  split_ifs at h with hfull
  · cases h
    exact hs
  split at h
  · cases h
    exact hs
  rename_i id _
  split at h
  · cases h
    exact hs
  rename_i p hp
  split_ifs at h with hstatus halive
  · cases h
    exact hs
  · cases h
    exact hs
  simp only [bind_eq_ok, pure_eq_ok, unlockPackage_eq_ok] at h
  obtain ⟨_, ⟨totals, htotals, rfl⟩, rfl⟩ := h
  obtain ⟨acts, hacts, hexpire⟩ := hs
  have hstep := Atom.expire (H := H) (E := [.packageSwept id p.recipient p.amount H.contract s.1.now]) hp
    (not_not.mp hstatus) (show 0 < p.expiresAt by omega) (show p.expiresAt < s.1.now by omega)
    htotals rfl
  refine ⟨_, hacts.snoc hstep, fun a ha => ?_⟩
  rcases List.mem_append.mp ha with ha | ha
  · exact hexpire a ha
  · rw [List.mem_singleton.mp ha]
    exact ⟨id, rfl⟩

theorem sweepExpiredPackages_run {limit n : ℕ} (h : sweepExpiredPackages H w limit = .ok (w', n)) :
    ∃ acts, Run (Atom H) w acts w' ∧ ∀ a ∈ acts, ∃ id, a.label = .expire id :=
  foldlM_preserves (P := fun s : World τ × ℕ =>
    ∃ acts, Run (Atom H) w acts s.1 ∧ ∀ a ∈ acts, ∃ id, a.label = .expire id)
    (fun _ _ _ hs hone => sweepPosition_run hs hone) _ _ _ ⟨[], Run.nil, by simp⟩ h

def Delegate.Sweep.view (s : Delegate.Sweep τ) : World τ :=
  { s.world with delegation := { s.world.delegation with
      delegates := s.delegateMap, expiry := s.expiryMap } }

structure SweepTracks (H : Host τ) (w : World τ) (s : Delegate.Sweep τ) : Prop where
  run : ∃ acts, Run (Atom H) w acts s.view ∧ ∀ a ∈ acts, ∃ id, a.label = .dropDelegate id
  now : s.world.now = w.now
  expiry : ∀ (id : ℕ) (delegate : Address), s.delegateMap[id]? = some delegate →
    s.expiryMap[id]? = w.delegation.expiry[id]?
  untouched : s.cleanedCount = 0 → s.view = s.world

theorem sweepOne_tracks {s : Delegate.Sweep τ} (hs : SweepTracks H w s) {id expiresAt : ℕ}
    (hid : w.delegation.expiry[id]? = some expiresAt) (hpos : 0 < expiresAt)
    (hlate : expiresAt ≤ w.now) : SweepTracks H w (Delegate.sweepOne H s id) := by
  unfold Delegate.sweepOne
  split
  · exact hs
  rename_i delegate hdelegate
  obtain ⟨acts, hacts, hdrop⟩ := hs.run
  refine ⟨?_, hs.now, ?_, by simp⟩
  · have hstep := fun recipient : Address => Atom.dropDelegate (H := H) (w := s.view)
      (E := [.delegateRevoked id recipient delegate H.contract s.world.now]) hdelegate
      ((hs.expiry id delegate hdelegate).trans hid) hpos (hs.now.symm ▸ hlate) rfl
    refine ⟨_, hacts.snoc (hstep _), fun a ha => ?_⟩
    rcases List.mem_append.mp ha with ha | ha
    · exact hdrop a ha
    · rw [List.mem_singleton.mp ha]
      exact ⟨id, rfl⟩
  · intro id' delegate' h
    simp only [get_erase] at h ⊢
    split at h
    · cases h
    · rename_i hne
      rw [if_neg hne]
      exact hs.expiry id' delegate' h

theorem mem_expiredIds {maxLimit id : ℕ} (h : id ∈ Delegate.expiredIds w maxLimit) :
    ∃ expiresAt, w.delegation.expiry[id]? = some expiresAt ∧ 0 < expiresAt ∧ expiresAt ≤ w.now := by
  have hmem := List.mem_of_mem_take h
  simp only [List.mem_map, List.mem_filter, decide_eq_true_eq] at hmem
  obtain ⟨⟨_, expiresAt⟩, ⟨hentry, hpos, hlate⟩, rfl⟩ := hmem
  exact ⟨expiresAt, ExtTreeMap.mem_toList_iff_getElem?_eq_some.mp hentry, hpos, hlate⟩

theorem sweepExpiredDelegates_run (H : Host τ) (w : World τ) (limit : ℕ) :
    ∃ acts, Run (Atom H) w acts (Delegate.sweepExpiredDelegates H w limit).1 ∧
      ∀ a ∈ acts, ∃ id, a.label = .dropDelegate id := by
  unfold Delegate.sweepExpiredDelegates
  extract_lets maxLimit s
  have hs : SweepTracks H w s := by
    refine List.foldlRecOn _ _ ⟨⟨[], Run.nil, by simp⟩, rfl, fun _ _ _ => rfl, fun _ => rfl⟩ ?_
    intro s hs id hid
    obtain ⟨expiresAt, hget, hpos, hlate⟩ := mem_expiredIds hid
    exact sweepOne_tracks hs hget hpos hlate
  split
  · exact hs.run
  · rename_i hnone
    rw [← hs.untouched (by omega)]
    exact hs.run

end Soter.AidEscrow
