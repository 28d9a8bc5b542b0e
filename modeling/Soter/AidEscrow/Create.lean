import Soter.AidEscrow.Admin
import Soter.AidEscrow.Merkle

/-! Funding the pool and creating packages, one at a time or in a batch. -/
namespace Soter.AidEscrow
open Std Soter.Fallible

variable {τ : Type} (H : Host τ) (signers : List Address) (w : World τ)

def fund (token sender : Address) (amount : ℤ) : Result (World τ) := do
  require (0 < amount) (err .invalidAmount)
  let decimals ← validateToken H w token
  require (amount.tmod (10 ^ decimals) = 0) (err .invalidAmount)
  requireAuth signers sender
  let w ← transferToken H w token sender H.contract amount .fund
  return publish w (.escrowFunded sender token amount w.now)

def createPackage (operator : Address) (id : ℕ) (recipient : Address) (amount : ℤ)
    (token : Address) (expiresAt : ℕ) (metadata : Metadata) : Result (World τ) := do
  checkActionPaused w "create"
  requireAdminOrDistributor signers w operator
  let config := getConfig w
  require (0 < amount) (err .invalidAmount)
  let decimals ← validateToken H w token
  require (amount.tmod (10 ^ decimals) = 0) (err .invalidAmount)
  require (config.minAmount ≤ amount) (err .invalidAmount)
  require (config.allowedTokens = [] ∨ token ∈ config.allowedTokens) (err .invalidState)
  require (config.maxExpiresIn = 0 ∨
    ¬ (expiresAt = 0 ∨ expiresAt ≤ w.now ∨ config.maxExpiresIn < expiresAt - w.now))
    (err .invalidState)
  require ((w.store.packages[id]?).isNone = true) (err .packageIdExists)
  let contractBalance ← tokenBalance H w token H.contract
  let required ← addI128 (amountOf w.totals.locked token) amount
  require (required ≤ contractBalance) (err .insufficientFunds)
  let totals ← incrementLocked w.totals token metadata amount
  let createdAt := w.now
  let claimStartsAt ← resolveClaimStartsAt metadata createdAt
  require (¬ (claimStartsAt < createdAt ∨ (0 < expiresAt ∧ expiresAt < claimStartsAt)))
    (err .invalidState)
  let package : Package :=
    { id, recipient, amount, token, status := .created, createdAt, expiresAt, claimStartsAt,
      metadata, evidenceHash := [] }
  let w := putPackage { w with totals := totals } id package
  let counter := w.store.pkgCounter
  let pkgCounter ← (if counter ≤ id then addU64 id 1 else .ok counter)
  let idx := w.store.pkgIdx
  let pkgIdx ← addU64 idx 1
  let w := { w with store := { w.store with
    pkgCounter, index := w.store.index.insert idx id, pkgIdx } }
  return publish w (.packageCreated id recipient amount operator createdAt)

/-- The variables of the loop in `batch_create_packages`; `world` holds the package records, the
index entries and the events, which the loop writes out as it goes. -/
structure BatchLoop (τ : Type) where
  world : World τ
  counter : ℕ
  idx : ℕ
  currentLocked : ℤ
  totalAmount : ℤ
  campaignLockedDeltas : ExtTreeMap Text ℤ
  createdIds : List ℕ

def addCampaignDelta (deltas : ExtTreeMap Text ℤ) (metadata : Metadata) (amount : ℤ) :
    Result (ExtTreeMap Text ℤ) :=
  match campaignRefFromMetadata metadata with
  | none => .ok deltas
  | some campaignRef => do
    let sum ← addI128 (deltas[campaignRef]?.getD 0) amount
    return deltas.insert campaignRef sum

def batchCreateOne (operator token : Address) (config : Config) (unit contractBalance : ℤ)
    (createdAt expiresAt : ℕ) (s : BatchLoop τ) (item : Address × ℤ × Metadata) :
    Result (BatchLoop τ) := do
  let recipient := item.1
  let amount := item.2.1
  let metadata := item.2.2
  let claimStartsAt ← resolveClaimStartsAt metadata createdAt
  require (claimStartsAt ≤ expiresAt) (err .invalidState)
  require (0 < amount) (err .invalidAmount)
  require (¬ (amount < config.minAmount ∨ amount.tmod unit ≠ 0)) (err .invalidAmount)
  let required ← addI128 s.currentLocked amount
  require (required ≤ contractBalance) (err .insufficientFunds)
  let id := s.counter
  let counter ← addU64 s.counter 1
  let package : Package :=
    { id, recipient, amount, token, status := .created, createdAt, expiresAt, claimStartsAt,
      metadata, evidenceHash := [] }
  let w := putPackage s.world id package
  let w := { w with store := { w.store with index := w.store.index.insert s.idx id } }
  let idx ← addU64 s.idx 1
  let currentLocked ← addI128 s.currentLocked amount
  let totalAmount ← addI128 s.totalAmount amount
  let campaignLockedDeltas ← addCampaignDelta s.campaignLockedDeltas metadata amount
  return {
    world := publish w (.packageCreated id recipient amount operator createdAt)
    counter, idx, currentLocked, totalAmount, campaignLockedDeltas
    createdIds := s.createdIds ++ [id] }

def batchCreatePackages (operator : Address) (recipients : List Address) (amounts : List ℤ)
    (token : Address) (expiresIn : ℕ) (metadatas : List Metadata) :
    Result (World τ × List ℕ) := do
  checkActionPaused w "create"
  requireAdminOrDistributor signers w operator
  let config := getConfig w
  require (recipients.length = amounts.length ∧ recipients.length = metadatas.length)
    (err .mismatchedArrays)
  require (config.allowedTokens = [] ∨ token ∈ config.allowedTokens) (err .invalidState)
  require (config.maxExpiresIn = 0 ∨ ¬ (expiresIn = 0 ∨ config.maxExpiresIn < expiresIn))
    (err .invalidState)
  let decimals ← validateToken H w token
  let contractBalance ← tokenBalance H w token H.contract
  let createdAt := w.now
  let expiresAt ← addU64 createdAt expiresIn
  let s ← (recipients.zip (amounts.zip metadatas)).foldlM
    (batchCreateOne operator token config (10 ^ decimals) contractBalance createdAt expiresAt)
    ⟨w, w.store.pkgCounter, w.store.pkgIdx, amountOf w.totals.locked token, 0, ∅, []⟩
  let totals := { w.totals with locked := w.totals.locked.insert token s.currentLocked }
  let totals ← applyCampaignLockedBatchDeltas totals token s.campaignLockedDeltas
  let w := { s.world with
    totals, store := { s.world.store with pkgCounter := s.counter, pkgIdx := s.idx } }
  return (publish w (.batchCreatedEvent s.createdIds operator s.totalAmount), s.createdIds)

end Soter.AidEscrow
