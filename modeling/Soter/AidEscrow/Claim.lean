import Soter.AidEscrow.Admin
import Soter.AidEscrow.Delegate
import Soter.AidEscrow.Merkle

/-! The four ways to claim a package. -/
namespace Soter.AidEscrow
open Std Soter.Fallible

variable {τ : Type} (H : Host τ) (signers : List Address) (w : World τ)

def ensureRecipientCooldown (recipient : Address) : Result Unit :=
  let cooldown := (getConfig w).claimCooldown
  if cooldown = 0 then .ok ()
  else match w.recipientLastClaim[recipient]? with
    | none => .ok ()
    | some lastClaim => require (cooldown ≤ w.now - lastClaim) (err .claimCooldownActive)

def recordRecipientClaim (recipient : Address) : World τ :=
  { w with recipientLastClaim := w.recipientLastClaim.insert recipient w.now }

def settleClaim (totals : Totals) (package : Package) : Result Totals := do
  let totals ← decrementLocked totals package.token package.metadata package.amount
  incrementClaimed totals package.token package.metadata package.amount

def finalizeClaim (package : Package) (packageId : ℕ) (payoutRecipient claimant : Address) :
    Result (World τ) := do
  ensureRecipientCooldown w package.recipient
  let w ← transferToken H w package.token H.contract payoutRecipient package.amount
    (.claim packageId)
  let package := { package with status := .claimed }
  let w := putPackage w packageId package
  let totals ← settleClaim w.totals package
  let w := recordRecipientClaim { w with totals } package.recipient
  let receiptHash := receiptHashFromMetadata package.metadata
  let w := publish w (.packageClaimed packageId payoutRecipient package.amount payoutRecipient
    w.now receiptHash)
  let w := Delegate.clearDelegate H w packageId
  -- A delegate, or a claimant let in by a Merkle proof.
  let isDelegate := claimant ≠ package.recipient
  return if isDelegate then
    publish
      (publish w (.delegateClaimed packageId package.recipient claimant package.amount claimant
        w.now))
      (.delegateRevoked packageId package.recipient claimant claimant w.now)
  else w

/-- The claim window: the start has come and the expiry, if there is one, has not passed. -/
def checkClaimWindow (package : Package) : Result Unit := do
  require (package.claimStartsAt ≤ w.now) (err .claimTooEarly)
  require (¬ (0 < package.expiresAt ∧ package.expiresAt < w.now)) (err .packageExpired)

def claim (id : ℕ) : Result (World τ) := do
  checkActionPaused w "claim"
  let package ← getPackage w id
  checkCampaignPaused w package.metadata
  require (package.status = .created) (err .packageNotActive)
  checkClaimWindow w package
  require (merkleRootFromMetadata package.metadata = none) (err .invalidProof)
  requireAuth signers package.recipient
  finalizeClaim H w package id package.recipient package.recipient

def claimWithProof (id : ℕ) (claimant : Address) (proof : List Text) : Result (World τ) := do
  checkActionPaused w "claim"
  let package ← getPackage w id
  checkCampaignPaused w package.metadata
  require (package.status = .created) (err .packageNotActive)
  checkClaimWindow w package
  requireAuth signers claimant
  match merkleRootFromMetadata package.metadata with
  | some root => do
    let verified ← verifyMerkleProofForClaimant H claimant proof root
    require (verified = true) (err .invalidProof)
    finalizeClaim H w package id claimant claimant
  | none => do
    require (claimant = package.recipient ∨ Delegate.getDelegate w id = some claimant)
      (err .notAuthorized)
    finalizeClaim H w package id claimant claimant

def claimWithRelayer (id : ℕ) (claimant relayer : Address) : Result (World τ) := do
  checkActionPaused w "claim"
  let package ← getPackage w id
  checkCampaignPaused w package.metadata
  require (package.status = .created) (err .packageNotActive)
  checkClaimWindow w package
  require (merkleRootFromMetadata package.metadata = none) (err .invalidProof)
  require (Delegate.isAuthorisedClaimer w id package.recipient claimant = true)
    (err .notAuthorized)
  ensureRecipientCooldown w package.recipient
  requireAuth signers claimant
  requireAuth signers relayer
  let w := Delegate.clearDelegate H w id
  let w ← transferToken H w package.token H.contract claimant package.amount (.claim id)
  let package := { package with status := .claimed }
  let w := putPackage w id package
  let totals ← settleClaim w.totals package
  let w := recordRecipientClaim { w with totals } package.recipient
  return publish w (.packageClaimedByRelayer id claimant relayer package.amount w.now)

/-- One item of a batch. An item that is not eligible is reported and changes nothing; only a trap
of the host gets past this function, and it takes the whole batch with it. -/
def claimOneForBatch (claimant : Address) (id : ℕ) : Result (World τ × BatchClaimResult) :=
  let notClaimable (status : ClaimStatus) : Result (World τ × BatchClaimResult) :=
    .ok (w, ⟨id, status, 0⟩)
  match w.store.packages[id]? with
  | none => notClaimable .notFound
  | some package =>
    match checkCampaignPaused w package.metadata with
    | .error _ => notClaimable .campaignPaused
    | .ok _ =>
      if package.status ≠ .created then notClaimable .notActive
      else if w.now < package.claimStartsAt then notClaimable .claimTooEarly
      else if 0 < package.expiresAt ∧ package.expiresAt < w.now then notClaimable .expired
      else if (merkleRootFromMetadata package.metadata).isSome then notClaimable .requiresProof
      else if Delegate.isAuthorisedClaimer w id package.recipient claimant = false then
        notClaimable .unauthorized
      else match ensureRecipientCooldown w package.recipient with
        | .error _ => notClaimable .cooldownActive
        | .ok _ =>
          match finalizeClaim H w package id claimant claimant with
          | .ok w' => .ok (w', ⟨id, .success, package.amount⟩)
          | .error (.error _) => notClaimable .transferFailed
          | .error .trap => .error .trap

/-- Work through the ids from left to right, each item on the state the earlier ones left. -/
def batchItems {ρ : Type} (one : World τ → ℕ → Result (World τ × ρ)) :
    World τ → List ℕ → Result (World τ × List ρ)
  | w, [] => .ok (w, [])
  | w, id :: ids => do
    let (w, result) ← one w id
    let (w, results) ← batchItems one w ids
    return (w, result :: results)

def batchClaim (claimant : Address) (ids : List ℕ) :
    Result (World τ × List BatchClaimResult) := do
  checkActionPaused w "claim"
  require (ids.length ≤ maxBatchClaimSize) (err .batchTooLarge)
  requireAuth signers claimant
  batchItems (fun w id => claimOneForBatch H w claimant id) w ids

end Soter.AidEscrow
