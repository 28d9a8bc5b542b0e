import Soter.AidEscrow.Claim

/-! What the admin does with a package: disburse, reassign, revoke, refund, cancel, extend. -/
namespace Soter.AidEscrow
open Std Soter.Fallible

variable {τ : Type} (H : Host τ) (signers : List Address) (w : World τ)

/-- `decrement_locked` on the stored totals. -/
def unlockPackage (package : Package) : Result (World τ) := do
  let totals ← decrementLocked w.totals package.token package.metadata package.amount
  return { w with totals }

def disburse (id : ℕ) : Result (World τ) := do
  let admin ← authorisedAdmin signers w
  let package ← getPackage w id
  checkCampaignPaused w package.metadata
  require (package.status = .created) (err .packageNotActive)
  let w ← transferToken H w package.token H.contract package.recipient package.amount
    (.disburse id)
  let package := { package with status := .claimed }
  let w := putPackage w id package
  let w ← unlockPackage w package
  return publish w (.packageDisbursed id package.recipient package.amount admin w.now
    (receiptHashFromMetadata package.metadata))

def reassignPackage (packageId : ℕ) (newRecipient : Address) : Result (World τ) := do
  let admin ← authorisedAdmin signers w
  let package ← getPackage w packageId
  require (package.status = .created) (err .packageNotActive)
  require (¬ (0 < package.expiresAt ∧ package.expiresAt < w.now)) (err .packageExpired)
  let previousRecipient := package.recipient
  let w := putPackage w packageId { package with recipient := newRecipient }
  return publish w (.packageReassigned packageId previousRecipient newRecipient admin w.now)

def revokeOneForBatch (admin : Address) (id : ℕ) : Result (World τ × BatchAdminActionResult) :=
  match w.store.packages[id]? with
  | none => .ok (w, ⟨id, .notFound, 0⟩)
  | some package =>
    if package.status ≠ .created then .ok (w, ⟨id, .invalidState, 0⟩)
    else do
      let amount := package.amount
      let package := { package with status := .cancelled }
      let w := putPackage w id package
      let w ← unlockPackage w package
      let w := publish w (.packageRevoked id package.recipient amount admin w.now)
      return (w, ⟨id, .success, amount⟩)

def batchRevoke (ids : List ℕ) : Result (World τ × List BatchAdminActionResult) := do
  require (ids.length ≤ maxBatchRevokeRefundSize) (err .batchTooLarge)
  let admin ← authorisedAdmin signers w
  batchItems (fun w id => revokeOneForBatch w admin id) w ids

def refundOneForBatch (admin : Address) (id : ℕ) : Result (World τ × BatchAdminActionResult) :=
  match w.store.packages[id]? with
  | none => .ok (w, ⟨id, .notFound, 0⟩)
  | some package =>
    match checkCampaignPaused w package.metadata with
    | .error _ => .ok (w, ⟨id, .campaignPaused, 0⟩)
    | .ok _ =>
      let shouldUnlockLocked := package.status = .created ∨ package.status = .expired
      if package.status = .created ∧ (package.expiresAt = 0 ∨ w.now ≤ package.expiresAt) then
        .ok (w, ⟨id, .notExpired, 0⟩)
      else if package.status ≠ .created ∧ package.status ≠ .expired ∧
          package.status ≠ .cancelled then
        .ok (w, ⟨id, .invalidState, 0⟩)
      else match transferToken H w package.token H.contract admin package.amount (.refund id) with
        | .error _ => .ok (w, ⟨id, .transferFailed, 0⟩)
        | .ok w => do
          let amount := package.amount
          let w ← (if shouldUnlockLocked then unlockPackage w package else .ok w)
          let w := putPackage w id { package with status := .refunded }
          let w := publish w (.packageRefunded id package.recipient amount admin w.now)
          return (w, ⟨id, .success, amount⟩)

def batchRefund (ids : List ℕ) : Result (World τ × List BatchAdminActionResult) := do
  checkActionPaused w "refund"
  require (ids.length ≤ maxBatchRevokeRefundSize) (err .batchTooLarge)
  let admin ← authorisedAdmin signers w
  batchItems (fun w id => refundOneForBatch H w admin id) w ids

def revoke (id : ℕ) : Result (World τ) := do
  let admin ← authorisedAdmin signers w
  let package ← getPackage w id
  require (package.status = .created) (err .invalidState)
  let package := { package with status := .cancelled }
  let w := putPackage w id package
  let w ← unlockPackage w package
  return publish w (.packageRevoked id package.recipient package.amount admin w.now)

def refund (id : ℕ) : Result (World τ) := do
  checkActionPaused w "refund"
  let admin ← authorisedAdmin signers w
  let package ← getPackage w id
  checkCampaignPaused w package.metadata
  let shouldUnlockLocked := package.status = .created ∨ package.status = .expired
  require (package.status = .created → 0 < package.expiresAt ∧ package.expiresAt < w.now)
    (err .invalidState)
  require (¬ (package.status = .claimed ∨ package.status = .refunded)) (err .invalidState)
  let w ← transferToken H w package.token H.contract admin package.amount (.refund id)
  -- A swept package is still unlocked here, although the sweep has unlocked it already.
  let w ← (if shouldUnlockLocked then unlockPackage w package else .ok w)
  let w := putPackage w id { package with status := .refunded }
  return publish w (.packageRefunded id package.recipient package.amount admin w.now)

def cancelPackage (packageId : ℕ) : Result (World τ) := do
  let admin ← authorisedAdmin signers w
  let package ← getPackage w packageId
  require (package.status = .created) (err .packageNotActive)
  require (¬ (0 < package.expiresAt ∧ package.expiresAt < w.now)) (err .packageExpired)
  let package := { package with status := .cancelled }
  let w := putPackage w packageId package
  let w ← unlockPackage w package
  return publish w (.packageRevoked packageId package.recipient package.amount admin w.now)

def attachEvidenceHash (admin : Address) (packageId : ℕ) (evidenceHash : Text) :
    Result (World τ) := do
  requireAuth signers admin
  let configAdmin ← getAdmin w
  require (admin = configAdmin) (err .notAuthorized)
  let package ← getPackage w packageId
  require (package.evidenceHash = []) (err .invalidState)
  validateEvidenceHash evidenceHash
  let w := putPackage w packageId { package with evidenceHash }
  return publish w (.evidenceAttached packageId admin evidenceHash w.now)

def extendExpiry (id newExpiresAt : ℕ) : Result (World τ) := do
  let admin ← authorisedAdmin signers w
  let config := getConfig w
  let package ← getPackage w id
  require (package.status = .created) (err .packageNotActive)
  require (package.expiresAt ≠ 0) (err .invalidState)
  require (w.now ≤ package.expiresAt) (err .packageExpired)
  let oldExpiresAt := package.expiresAt
  require (oldExpiresAt < newExpiresAt) (err .invalidState)
  require (¬ (0 < config.maxExpiresIn ∧
    (newExpiresAt ≤ w.now ∨ config.maxExpiresIn < newExpiresAt - w.now))) (err .invalidState)
  let w := putPackage w id { package with expiresAt := newExpiresAt }
  return publish w (.extendedEvent id admin oldExpiresAt newExpiresAt)

def extendExpiration (packageId additionalTime : ℕ) : Result (World τ) := do
  require (additionalTime ≠ 0) (err .invalidAmount)
  let package ← getPackage w packageId
  require (package.expiresAt ≠ 0) (err .invalidState)
  let newExpiresAt ← addU64 package.expiresAt additionalTime
  extendExpiry signers w packageId newExpiresAt

def setDelegate (admin : Address) (packageId : ℕ) (delegate : Address) : Result (World τ) := do
  -- The caller names the admin; the stored one is never read.
  requireAuth signers admin
  let package ← getPackage w packageId
  require (package.status ≠ .claimed) (err .packageNotActive)
  require (delegate ≠ package.recipient) (err .invalidState)
  let w ← Delegate.setDelegate w admin packageId delegate
  let expiresAt := w.delegation.expiry[packageId]?.getD 0
  return publish w (.delegateAdded packageId package.recipient delegate admin expiresAt w.now)

def setDelegateWithExpiry (admin : Address) (packageId : ℕ) (delegate : Address)
    (expiresAt : ℕ) : Result (World τ) := do
  requireAuth signers admin
  require (¬ (0 < expiresAt ∧ expiresAt ≤ w.now)) (err .invalidState)
  let package ← getPackage w packageId
  require (package.status ≠ .claimed) (err .packageNotActive)
  require (delegate ≠ package.recipient) (err .invalidState)
  let w ← Delegate.setDelegateWithExpiry w admin packageId delegate expiresAt
  return publish w (.delegateAdded packageId package.recipient delegate admin expiresAt w.now)

def revokeDelegate (admin : Address) (packageId : ℕ) : Result (World τ) := do
  requireAuth signers admin
  let package ← getPackage w packageId
  let currentDelegate := Delegate.getDelegate w packageId
  let w := Delegate.clearDelegate H w packageId
  return match currentDelegate with
    | some delegate =>
      publish w (.delegateRevoked packageId package.recipient delegate admin w.now)
    | none => w

def cleanupExpiredDelegates (admin : Address) : Result (World τ × ℕ) := do
  requireAuth signers admin
  return Delegate.cleanupExpiredDelegates H w

/-- One position of the index scan of `sweep_expired_packages`, with the number swept so far. -/
def sweepPosition (maxLimit : ℕ) (s : World τ × ℕ) (i : ℕ) : Result (World τ × ℕ) :=
  if maxLimit ≤ s.2 then .ok s
  else match s.1.store.index[i]? with
    | none => .ok s
    | some pkgId =>
      match s.1.store.packages[pkgId]? with
      | none => .ok s
      | some package =>
        if package.status ≠ .created then .ok s
        else if package.expiresAt = 0 ∨ s.1.now ≤ package.expiresAt then .ok s
        else do
          let package := { package with status := .expired }
          let w := putPackage s.1 pkgId package
          let w ← unlockPackage w package
          let w := publish w (.packageSwept pkgId package.recipient package.amount H.contract
            w.now)
          return (w, s.2 + 1)

def sweepExpiredPackages (limit : ℕ) : Result (World τ × ℕ) :=
  let maxLimit := if limit = 0 then 50 else min limit 100
  (List.range w.store.pkgIdx).foldlM (sweepPosition H maxLimit) (w, 0)

end Soter.AidEscrow
