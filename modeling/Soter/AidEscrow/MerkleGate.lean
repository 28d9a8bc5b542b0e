import Soter.AidEscrow.Allowlist
import Soter.AidEscrow.ClaimPaths
import Soter.AidEscrow.ClaimRuns

/-! What a Merkle root in the metadata keeps away from a package. -/
namespace Soter.AidEscrow
open Std Soter.Fallible Soter.MapSum Soter.Runs

variable {τ : Type} {H : Host τ} {signers : List Address} {w w' : World τ} {m : Move τ} {id : ℕ}
  {p : Package} {payee : Address} {raw : Text}

/-- The move is a `claim_with_proof` for the payee, and its proof is accepted for the root that
`raw` encodes. -/
def ProvesMembership (H : Host τ) (m : Move τ) (id : ℕ) (payee : Address) (raw : Text) : Prop :=
  ∃ signers proof root, m = .call signers (.claimWithProof id payee proof) ∧
    parseHex32 raw = some root ∧ verifyMerkleProofForClaimant H payee proof root = .ok true

/-- In this transition the package is paid to a claimant, and becomes Claimed by a claim, only
with an accepted proof. -/
structure GateStands (H : Host τ) (id : ℕ) (raw : Text) (t : Transition (World τ) (Move τ)) :
    Prop where
  paid : ∀ payee, (id, payee) ∈ claimsOf t → ProvesMembership H t.label id payee raw
  status : ∀ p q : Package, t.pre.store.packages[id]? = some p → p.status ≠ .claimed →
    t.post.store.packages[id]? = some q → q.status = .claimed →
    (∃ payee, ProvesMembership H t.label id payee raw) ∨
      ∃ signers, t.label = .call signers (.disburse id)

/-- Everything but the root is in order for a claim by `c`. -/
structure ReadyFor (H : Host τ) (w : World τ) (id : ℕ) (p : Package) (c : Address) : Prop where
  unpaused : checkActionPaused w "claim" = .ok ()
  campaign : CampaignOpen w p.metadata
  status : p.status = .created
  window : InWindow w.now p
  authorised : Delegate.isAuthorisedClaimer w id p.recipient c = true
  cooldown : ensureRecipientCooldown w p.recipient = .ok ()
  pays : ∃ tokens, H.transfer w.tokens p.token H.contract c p.amount = some tokens
  room : HasRoom w.totals p

theorem isHex64_iff : IsHex64 raw ↔ ∃ root, parseHex32 raw = some root := by
  constructor
  · intro h
    obtain ⟨out, hout⟩ := parseHexPairs_isSome h.digits (by rw [h.length])
    have hlength := (parseHexPairs_eq_some hout).1
    rw [h.length] at hlength
    exact ⟨⟨out, by omega⟩, parseHex32_eq_some.mpr ⟨h.length, hout⟩⟩
  · rintro ⟨root, hroot⟩
    exact IsHex64.of_parseHex32 hroot

section Calls

variable {acts : List (Transition (World τ) Act)}

theorem claim_ungated (h : claim H signers w id = .ok w') (hp : w.store.packages[id]? = some p) :
    merkleRootFromMetadata p.metadata = none := by
  simp only [claim, bind_eq_ok, require_eq_ok, exists_unit, getPackage_eq_ok] at h
  obtain ⟨-, q, hq, -, -, -, hroot, -⟩ := h
  rw [hp] at hq
  cases hq
  exact hroot

theorem claimWithRelayer_ungated {relayer : Address} (h : claimWithRelayer H signers w id payee relayer = .ok w')
    (hp : w.store.packages[id]? = some p) : merkleRootFromMetadata p.metadata = none := by
  simp only [claimWithRelayer, bind_eq_ok, require_eq_ok, exists_unit, getPackage_eq_ok] at h
  obtain ⟨-, q, hq, -, -, -, hroot, -⟩ := h
  rw [hp] at hq
  cases hq
  exact hroot

theorem claimWithProof_verified {proof : List Text} {root : Bytes32} (h : claimWithProof H signers w id payee proof = .ok w')
    (hp : w.store.packages[id]? = some p) (hroot : merkleRootFromMetadata p.metadata = some root) :
    verifyMerkleProofForClaimant H payee proof root = .ok true := by
  simp only [claimWithProof, bind_eq_ok, require_eq_ok, exists_unit, getPackage_eq_ok] at h
  obtain ⟨-, q, hq, -, -, -, -, h⟩ := h
  rw [hp] at hq
  cases hq
  simp only [hroot, bind_eq_ok, require_eq_ok, exists_unit] at h
  obtain ⟨verified, hverified, htrue, -⟩ := h
  rw [hverified, htrue]

theorem claimOneForBatch_ungated {r : BatchClaimResult}
    (h : claimOneForBatch H w payee id = .ok (w', r)) (hr : r.status = .success)
    (hp : w.store.packages[id]? = some p) : merkleRootFromMetadata p.metadata = none := by
  by_contra hroot
  have hnot : ∀ q, ¬ Claimable w id q payee := by
    intro q hq
    obtain rfl := Option.some.inj (hp.symm.trans hq.stored)
    exact hroot hq.ungated
  obtain ⟨r', h', hr'⟩ := claimOneForBatch_of_not_claimable (H := H) hnot
  rw [h] at h'
  cases h'
  exact hr' hr

theorem run_metadata_kept (h : Run (Atom H) w acts w') (hp : w.store.packages[id]? = some p) :
    ∃ q, w'.store.packages[id]? = some q ∧ q.metadata = p.metadata := by
  refine h.invariant (I := fun u => ∃ q, u.store.packages[id]? = some q ∧ q.metadata = p.metadata)
    (C := fun _ => True) ⟨p, hp, rfl⟩ (fun _ _ => trivial) ?_
  rintro t hatom - ⟨q, hq, hmetadata⟩
  obtain ⟨q', hq', hevolves, -⟩ := hatom.package_kept hq
  exact ⟨q', hq', hevolves.metadata.trans hmetadata⟩

theorem exists_claim_act (h : Run (Atom H) w acts w')
    (hmem : (id, payee) ∈ claimsOf ⟨w, m, w'⟩) : ∃ t ∈ acts, t.label = .claim id payee := by
  obtain ⟨xs, hxs, hclaims⟩ := run_claim_payments h
  rw [claimsOf, hxs, List.drop_left, hclaims, List.mem_filterMap] at hmem
  obtain ⟨t, ht, hclaim⟩ := hmem
  refine ⟨t, ht, ?_⟩
  cases hlabel : t.label <;> simp_all [Act.asClaim]

theorem batchClaim_ungated {ids : List ℕ} {rs : List BatchClaimResult} {claimant : Address}
    (h : batchItems (fun w id => claimOneForBatch H w claimant id) w ids = .ok (w', rs))
    (hmem : (id, payee) ∈ claimsOf ⟨w, m, w'⟩) (hp : w.store.packages[id]? = some p) :
    merkleRootFromMetadata p.metadata = none := by
  -- the item that paid found its package as the batch did, since the acts keep its metadata
  have hrun : ∃ acts, Run (Atom H) w acts w' ∧ ∀ t ∈ acts, ∃ k ∈ ids,
      t.label = .claim k claimant ∧ ∀ q, t.pre.store.packages[k]? = some q →
        merkleRootFromMetadata q.metadata = none := by
    refine batchItems_run (I := fun _ => True) (C := fun _ _ _ => True)
      (P := fun k t => t.label = .claim k claimant ∧ ∀ q, t.pre.store.packages[k]? = some q →
        merkleRootFromMetadata q.metadata = none) ?_ ids w w' rs trivial
      (itemsMeet_of_forall (fun _ _ _ => trivial) ids w) h
    intro u k u' r _ hone _
    rcases claimOneForBatch_spec hone with ⟨-, -, rfl⟩ | ⟨hsuccess, hatom⟩
    · exact ⟨trivial, [], Run.nil, by simp⟩
    · exact ⟨trivial, path_of_atom hatom ⟨rfl, fun q => claimOneForBatch_ungated hone hsuccess⟩⟩
  obtain ⟨acts, hacts, hkind⟩ := hrun
  obtain ⟨t, ht, hlabel⟩ := exists_claim_act hacts hmem
  obtain ⟨k, -, hk, hungated⟩ := hkind t ht
  rw [hlabel] at hk
  cases hk
  obtain ⟨before, after, rfl⟩ := List.append_of_mem ht
  obtain ⟨q, hq, hmetadata⟩ := run_metadata_kept hacts.split.1 hp
  rw [← hmetadata]
  exact hungated q hq

end Calls

theorem Move.permits_claim (h : m.permits (.claim id payee)) : (∃ signers, m = .call signers (.claim id)) ∨
    (∃ signers proof, m = .call signers (.claimWithProof id payee proof)) ∨
    (∃ signers relayer, m = .call signers (.claimWithRelayer id payee relayer)) ∨
    ∃ signers ids, m = .call signers (.batchClaim payee ids) := by
  cases m with
  | tick | outside => cases h
  | call signers c =>
    cases c with
    | claim k =>
      obtain ⟨payee', h⟩ := h
      cases h
      exact .inl ⟨signers, rfl⟩
    | claimWithProof k claimant proof =>
      cases h
      exact .inr (.inl ⟨signers, proof, rfl⟩)
    | claimWithRelayer k claimant relayer =>
      cases h
      exact .inr (.inr (.inl ⟨signers, relayer, rfl⟩))
    | batchClaim claimant ids =>
      obtain ⟨k, -, h⟩ := h
      cases h
      exact .inr (.inr (.inr ⟨signers, ids, rfl⟩))
    | _ => simp [Move.permits, Call.permits] at h

theorem Move.permits_disburse (h : m.permits (.disburse id)) : ∃ signers, m = .call signers (.disburse id) := by
  cases m with
  | tick | outside => cases h
  | call signers c =>
    cases c with
    | disburse k =>
      cases h
      exact ⟨signers, rfl⟩
    | _ => simp [Move.permits, Call.permits] at h

theorem Step.claim_verified (h : Step H w m w') (hw : WellFormed w) {root : Bytes32}
    (hp : w.store.packages[id]? = some p) (hroot : merkleRootFromMetadata p.metadata = some root)
    (hmem : (id, payee) ∈ claimsOf ⟨w, m, w'⟩) : ∃ signers proof, m = .call signers (.claimWithProof id payee proof) ∧
        verifyMerkleProofForClaimant H payee proof root = .ok true := by
  obtain ⟨acts, hacts, -, hpermits, -⟩ := h.claims hw
  obtain ⟨t, ht, hlabel⟩ := exists_claim_act hacts hmem
  have hpermit := hpermits t ht
  rw [hlabel] at hpermit
  have hgated : merkleRootFromMetadata p.metadata ≠ none := by
    rw [hroot]
    exact Option.some_ne_none root
  rcases Move.permits_claim hpermit with ⟨signers, rfl⟩ | ⟨signers, proof, rfl⟩ |
    ⟨signers, relayer, rfl⟩ | ⟨signers, ids, rfl⟩
  · exact absurd (claim_ungated h.exec_ok hp) hgated
  · exact ⟨signers, proof, rfl, claimWithProof_verified h.exec_ok hp hroot⟩
  · exact absurd (claimWithRelayer_ungated h.exec_ok hp) hgated
  · obtain ⟨rs, hbatch⟩ := fst_map_eq_ok.mp h.exec_ok
    simp only [batchClaim, bind_eq_ok, exists_unit] at hbatch
    exact absurd (batchClaim_ungated hbatch.2.2.2 hmem hp) hgated

theorem Step.becomes_claimed (h : Step H w m w') (hw : WellFormed w) {q : Package}
    (hp : w.store.packages[id]? = some p) (hopen : p.status ≠ .claimed)
    (hq : w'.store.packages[id]? = some q) (hclaimed : q.status = .claimed) :
    (∃ payee, (id, payee) ∈ claimsOf ⟨w, m, w'⟩) ∨ ∃ signers, m = .call signers (.disburse id) := by
  obtain ⟨acts, hacts, hclaims, hpermits, -⟩ := h.claims hw
  have hact : ∃ q, w'.store.packages[id]? = some q ∧ (q.status = .claimed → ∃ t ∈ acts,
      (∃ payee, t.label = .claim id payee) ∨ t.label = .disburse id) := by
    refine hacts.invariant (I := fun u => ∃ q, u.store.packages[id]? = some q ∧
      (q.status = .claimed → ∃ t ∈ acts, (∃ payee, t.label = .claim id payee) ∨ t.label = .disburse id))
      (C := fun t => t ∈ acts) ⟨p, hp, fun hs => absurd hs hopen⟩ (fun t ht => ht) ?_
    rintro t hatom ht ⟨q, hq, hcause⟩
    obtain ⟨q', hq', -, -⟩ := hatom.package_kept hq
    refine ⟨q', hq', fun hs => ?_⟩
    by_cases hbefore : q.status = .claimed
    · exact hcause hbefore
    · exact ⟨t, ht, hatom.becomes_claimed hq hbefore hq' hs⟩
  obtain ⟨q', hq', hcause⟩ := hact
  rw [hq] at hq'
  cases hq'
  obtain ⟨t, ht, ⟨payee, hlabel⟩ | hlabel⟩ := hcause hclaimed
  · refine .inl ⟨payee, ?_⟩
    rw [hclaims, List.mem_filterMap]
    exact ⟨t, ht, by rw [hlabel]; rfl⟩
  · have hpermit := hpermits t ht
    rw [hlabel] at hpermit
    exact .inr (Move.permits_disburse hpermit)

theorem exists_ungated_claim {c : Address} (hw : WellFormed w)
    (hp : w.store.packages[id]? = some p) (hroot : merkleRootFromMetadata p.metadata = none)
    (hready : ReadyFor H w id p c) : ∃ w', Step H w (.call [c] (.claimWithRelayer id c c)) w' ∧
      (id, c) ∈ claimsOf ⟨w, .call [c] (.claimWithRelayer id c c), w'⟩ := by
  obtain ⟨tokens, htransfer⟩ := hready.pays
  obtain ⟨totals, htotals⟩ := (settleClaim_iff (hw.amount_pos id p hp)).mpr hready.room
  have hclaim : Claimable w id p c := ⟨hp, hready.campaign, hready.status, hready.window, hroot,
    hready.authorised, hready.cooldown⟩
  have hclaims : ClaimsTo H w id c (w.claimed H id p c tokens totals).quiet :=
    ⟨hready.unpaused, p, hclaim, tokens, totals, htransfer, htotals, rfl⟩
  have hc : c ∈ [c] := List.mem_cons_self
  obtain ⟨w', hok, -⟩ := outcome_eq_some.mp ((claimWithRelayer_outcome hc hc).mpr hclaims)
  refine ⟨w', .call hok, ?_⟩
  have hatom : Atom H w (.claim id c) w' := claimWithRelayer_atom hok
  obtain ⟨xs, hxs, hpaid⟩ := hatom.claim_payments
  rw [claimsOf, hxs, List.drop_left, hpaid]
  exact List.mem_cons_self

theorem Step.gateStands (h : Step H w m w') (hw : WellFormed w)
    (hp : w.store.packages[id]? = some p) (hraw : p.metadata[metaMerkleRootKey]? = some raw)
    (hhex : IsHex64 raw) : GateStands H id raw ⟨w, m, w'⟩ := by
  obtain ⟨root, hroot⟩ := isHex64_iff.mp hhex
  have hread : merkleRootFromMetadata p.metadata = some root := by
    rw [merkleRootFromMetadata, hraw, Option.bind_some, hroot]
  have hpaid : ∀ payee, (id, payee) ∈ claimsOf ⟨w, m, w'⟩ →
      ProvesMembership H m id payee raw := by
    intro payee hmem
    obtain ⟨signers, proof, hm, hverified⟩ := h.claim_verified hw hp hread hmem
    exact ⟨signers, proof, root, hm, hroot, hverified⟩
  refine ⟨hpaid, ?_⟩
  intro p' q hp' hopen hq hclaimed
  rcases h.becomes_claimed hw hp' hopen hq hclaimed with ⟨payee, hmem⟩ | hdisburse
  · exact .inl ⟨payee, hpaid payee hmem⟩
  · exact .inr hdisburse

/-- In every run the gate of a package whose root is a hexadecimal digest stands; and for a package
that is otherwise ready to be claimed it stands in the next transition only then. -/
theorem merkle_gate {tr : Trace τ} (h : Reaches H tr w) :
    (∀ t ∈ tr, ∀ (id : ℕ) (p : Package) (raw : Text), t.pre.store.packages[id]? = some p →
      p.metadata[metaMerkleRootKey]? = some raw → IsHex64 raw → GateStands H id raw t) ∧
    ∀ (id : ℕ) (p : Package) (raw : Text) (c : Address), w.store.packages[id]? = some p →
      p.metadata[metaMerkleRootKey]? = some raw → ReadyFor H w id p c →
      ((∀ m w', Step H w m w' → GateStands H id raw ⟨w, m, w'⟩) ↔ IsHex64 raw) := by
  constructor
  · intro t ht id p raw hp hraw hhex
    obtain ⟨before, after, rfl⟩ := List.append_of_mem ht
    obtain ⟨hbefore, hstep⟩ := h.split
    exact hstep.gateStands hbefore.wellFormed hp hraw hhex
  · intro id p raw c hp hraw hready
    constructor
    · intro hgate
      by_contra hhex
      have hread : merkleRootFromMetadata p.metadata = none := by
        rw [merkleRootFromMetadata, hraw, Option.bind_some, Option.eq_none_iff_forall_ne_some]
        intro root hroot
        exact hhex (isHex64_iff.mpr ⟨root, hroot⟩)
      obtain ⟨w', hstep, hmem⟩ := exists_ungated_claim h.wellFormed hp hread hready
      obtain ⟨_, _, root, -, hroot, -⟩ := (hgate _ w' hstep).paid c hmem
      exact hhex (isHex64_iff.mpr ⟨root, hroot⟩)
    · intro hhex m w' hstep
      exact hstep.gateStands h.wellFormed hp hraw hhex

def gatedHost : Host Balances :=
  { plainHost ⟨9⟩ with sha256 := sampleSha256, addressString := accountText }

/-- A package for a list of one account, claimed in vain by its recipient and then with a proof. -/
def gatedPackage (root : String) : List (Move Balances) := [
  .call [] (.init ⟨5⟩),
  .call [⟨5⟩] (.fund ⟨8⟩ ⟨5⟩ 10),
  .call [⟨5⟩] (.createPackage ⟨5⟩ 0 ⟨6⟩ 10 ⟨8⟩ 0
    ((∅ : Metadata).insert metaMerkleRootKey (asciiText root))),
  .call [⟨6⟩] (.claim 0),
  .call [⟨0⟩] (.claimWithProof 0 ⟨0⟩ [])]

def accountRoot : String := "f56f6f2c6cf1b9388e3495dfab96f0c55ec5d217f481b2ae45d11b46145c44ef"

theorem merkle_gate_gatedPackage : ∃ t ∈ (played gatedHost 100 [((⟨8⟩, ⟨5⟩), 10)] (gatedPackage accountRoot)).1,
      claimsOf t = [(0, ⟨0⟩)] ∧ GateStands gatedHost 0 (asciiText accountRoot) t := by
  have hrun := played_reaches (H := gatedHost) 100 [((⟨8⟩, ⟨5⟩), 10)] (gatedPackage accountRoot)
  have hgate := (merkle_gate hrun).1
  have hlast : (played gatedHost 100 [((⟨8⟩, ⟨5⟩), 10)] (gatedPackage accountRoot)).1[3]?.map
      (fun t => (claimsOf t, (t.pre.store.packages[0]?).bind fun p =>
        p.metadata[metaMerkleRootKey]?)) = some ([(0, ⟨0⟩)], some (asciiText accountRoot)) := by
    decide +kernel
  obtain ⟨t, ht, hseen⟩ := Option.map_eq_some_iff.mp hlast
  obtain ⟨hclaims, hentry⟩ := Prod.mk.inj hseen
  obtain ⟨p, hp, hraw⟩ := Option.bind_eq_some_iff.mp hentry
  have hmem := List.mem_of_getElem? ht
  have hhex : IsHex64 (asciiText accountRoot) := ⟨by decide +kernel, by decide +kernel⟩
  exact ⟨t, hmem, hclaims, hgate t hmem 0 p _ hp hraw hhex⟩

theorem unreadableRoot_not_gated :
    ¬ ∀ (tr : Trace Balances) (w : World Balances), Reaches gatedHost tr w → ∀ t ∈ tr,
      ∀ (id : ℕ) (p : Package) (raw : Text), t.pre.store.packages[id]? = some p →
        p.metadata[metaMerkleRootKey]? = some raw → GateStands gatedHost id raw t := by
  intro hall
  have hrun := played_reaches (H := gatedHost) 100 [((⟨8⟩, ⟨5⟩), 10)] (gatedPackage "0xf56f")
  have hlast : (played gatedHost 100 [((⟨8⟩, ⟨5⟩), 10)] (gatedPackage "0xf56f")).1[3]?.map
      (fun t => (claimsOf t, (t.pre.store.packages[0]?).bind fun p =>
        p.metadata[metaMerkleRootKey]?)) = some ([(0, ⟨6⟩)], some (asciiText "0xf56f")) := by
    decide +kernel
  obtain ⟨t, ht, hseen⟩ := Option.map_eq_some_iff.mp hlast
  obtain ⟨hclaims, hentry⟩ := Prod.mk.inj hseen
  obtain ⟨p, hp, hraw⟩ := Option.bind_eq_some_iff.mp hentry
  have hgate := hall _ _ hrun t (List.mem_of_getElem? ht) 0 p _ hp hraw
  obtain ⟨_, _, root, -, hroot, -⟩ := hgate.paid ⟨6⟩ (by rw [hclaims]; exact List.mem_cons_self)
  have hunread : parseHex32 (asciiText "0xf56f") = none := by decide +kernel
  rw [hunread] at hroot
  cases hroot

end Soter.AidEscrow
