import Soter.AidEscrow.Create
import Soter.AidEscrow.Manage
import Soter.Lib.Run

/-! Surplus withdrawals, and the contract as a transition system: its calls, the passing of time and what others do to
the tokens. Runs can be computed against a token that keeps its balances in a list. -/
namespace Soter.AidEscrow

variable {τ : Type}
section Surplus
open Std Soter.Fallible

variable (H : Host τ) (signers : List Address) (w : World τ)

/-- `contract_balance - total_locked`. -/
def availableSurplus (token : Address) : Result ℤ := do
  let _ ← validateToken H w token
  let contractBalance ← tokenBalance H w token H.contract
  addI128 contractBalance (-amountOf w.totals.locked token)

def proposeSurplusWithdrawal (receiver : Address) (amount : ℤ) (token : Address) :
    Result (World τ) := do
  checkActionPaused w "withdraw"
  let _ ← authorisedAdmin signers w
  require (0 < amount) (err .invalidAmount)
  require (w.pendingWithdrawal = none) (err .surplusWithdrawalPending)
  let surplus ← availableSurplus H w token
  require (amount ≤ surplus) (err .insufficientSurplus)
  let executableAt ← addU64 w.now surplusWithdrawalDelaySecs
  let w := { w with pendingWithdrawal := some ⟨receiver, token, amount, executableAt⟩ }
  return publish w (.surplusWithdrawalProposed receiver token amount executableAt w.now)

def cancelSurplusWithdrawal : Result (World τ) := do
  let _ ← authorisedAdmin signers w
  let proposal ← orFail w.pendingWithdrawal (err .surplusWithdrawalNotPending)
  let w := { w with pendingWithdrawal := none }
  return publish w
    (.surplusWithdrawalCancelled proposal.to proposal.token proposal.amount w.now)

def executeSurplusWithdrawal : Result (World τ) := do
  checkActionPaused w "withdraw"
  let _ ← authorisedAdmin signers w
  let proposal ← orFail w.pendingWithdrawal (err .surplusWithdrawalNotPending)
  require (proposal.executableAt ≤ w.now) (err .surplusWithdrawalTimelockActive)
  let surplus ← availableSurplus H w proposal.token
  require (proposal.amount ≤ surplus) (err .insufficientSurplus)
  let w := { w with pendingWithdrawal := none }
  let w ← transferToken H w proposal.token H.contract proposal.to proposal.amount .surplus
  return publish w (.surplusWithdrawnEvent proposal.to proposal.token proposal.amount)

end Surplus
section Calls
open Soter.Runs

inductive Call
  | init (admin : Address)
  | transferAdmin (newAdmin : Address)
  | acceptAdmin
  | cancelAdminTransfer
  | migrate (newVersion : ℕ)
  | addDistributor (addr : Address)
  | removeDistributor (addr : Address)
  | setMaxDistributors (max : ℕ)
  | setConfig (config : Config)
  | pause
  | unpause
  | pauseAction (action : Symbol)
  | unpauseAction (action : Symbol)
  | pauseCampaign (campaignRef : Text)
  | unpauseCampaign (campaignRef : Text)
  | addAllowedToken (token : Address)
  | removeAllowedToken (token : Address)
  | fund (token sender : Address) (amount : ℤ)
  | createPackage (operator : Address) (id : ℕ) (recipient : Address) (amount : ℤ)
      (token : Address) (expiresAt : ℕ) (metadata : Metadata)
  | batchCreatePackages (operator : Address) (recipients : List Address) (amounts : List ℤ)
      (token : Address) (expiresIn : ℕ) (metadatas : List Metadata)
  | claim (id : ℕ)
  | claimWithProof (id : ℕ) (claimant : Address) (proof : List Text)
  | claimWithRelayer (id : ℕ) (claimant relayer : Address)
  | batchClaim (claimant : Address) (ids : List ℕ)
  | disburse (id : ℕ)
  | reassignPackage (packageId : ℕ) (newRecipient : Address)
  | batchRevoke (ids : List ℕ)
  | batchRefund (ids : List ℕ)
  | revoke (id : ℕ)
  | refund (id : ℕ)
  | cancelPackage (packageId : ℕ)
  | attachEvidenceHash (admin : Address) (packageId : ℕ) (evidenceHash : Text)
  | extendExpiration (packageId additionalTime : ℕ)
  | extendExpiry (id newExpiresAt : ℕ)
  | proposeSurplusWithdrawal (receiver : Address) (amount : ℤ) (token : Address)
  | cancelSurplusWithdrawal
  | executeSurplusWithdrawal
  | setDelegate (admin : Address) (packageId : ℕ) (delegate : Address)
  | setDelegateWithExpiry (admin : Address) (packageId : ℕ) (delegate : Address) (expiresAt : ℕ)
  | revokeDelegate (admin : Address) (packageId : ℕ)
  | cleanupExpiredDelegates (admin : Address)
  | sweepExpiredDelegates (limit : ℕ)
  | sweepExpiredPackages (limit : ℕ)

/-- The ledger after a call that `signers` authorised. A call that fails has no result: the host
undoes everything it did. -/
def exec (H : Host τ) (signers : List Address) (w : World τ) : Call → Result (World τ)
  | .init admin => init w admin
  | .transferAdmin newAdmin => transferAdmin signers w newAdmin
  | .acceptAdmin => acceptAdmin signers w
  | .cancelAdminTransfer => cancelAdminTransfer signers w
  | .migrate newVersion => migrate signers w newVersion
  | .addDistributor addr => addDistributor signers w addr
  | .removeDistributor addr => removeDistributor signers w addr
  | .setMaxDistributors max => setMaxDistributors signers w max
  | .setConfig config => setConfig H signers w config
  | .pause => pause signers w
  | .unpause => unpause signers w
  | .pauseAction action => pauseAction signers w action
  | .unpauseAction action => unpauseAction signers w action
  | .pauseCampaign campaignRef => pauseCampaign signers w campaignRef
  | .unpauseCampaign campaignRef => unpauseCampaign signers w campaignRef
  | .addAllowedToken token => addAllowedToken H signers w token
  | .removeAllowedToken token => removeAllowedToken signers w token
  | .fund token sender amount => fund H signers w token sender amount
  | .createPackage operator id recipient amount token expiresAt metadata =>
    createPackage H signers w operator id recipient amount token expiresAt metadata
  | .batchCreatePackages operator recipients amounts token expiresIn metadatas =>
    Prod.fst <$> batchCreatePackages H signers w operator recipients amounts token expiresIn
      metadatas
  | .claim id => claim H signers w id
  | .claimWithProof id claimant proof => claimWithProof H signers w id claimant proof
  | .claimWithRelayer id claimant relayer => claimWithRelayer H signers w id claimant relayer
  | .batchClaim claimant ids => Prod.fst <$> batchClaim H signers w claimant ids
  | .disburse id => disburse H signers w id
  | .reassignPackage packageId newRecipient => reassignPackage signers w packageId newRecipient
  | .batchRevoke ids => Prod.fst <$> batchRevoke signers w ids
  | .batchRefund ids => Prod.fst <$> batchRefund H signers w ids
  | .revoke id => revoke signers w id
  | .refund id => refund H signers w id
  | .cancelPackage packageId => cancelPackage signers w packageId
  | .attachEvidenceHash admin packageId evidenceHash =>
    attachEvidenceHash signers w admin packageId evidenceHash
  | .extendExpiration packageId additionalTime =>
    extendExpiration signers w packageId additionalTime
  | .extendExpiry id newExpiresAt => extendExpiry signers w id newExpiresAt
  | .proposeSurplusWithdrawal receiver amount token =>
    proposeSurplusWithdrawal H signers w receiver amount token
  | .cancelSurplusWithdrawal => cancelSurplusWithdrawal signers w
  | .executeSurplusWithdrawal => executeSurplusWithdrawal H signers w
  | .setDelegate admin packageId delegate => setDelegate signers w admin packageId delegate
  | .setDelegateWithExpiry admin packageId delegate expiresAt =>
    setDelegateWithExpiry signers w admin packageId delegate expiresAt
  | .revokeDelegate admin packageId => revokeDelegate H signers w admin packageId
  | .cleanupExpiredDelegates admin => Prod.fst <$> cleanupExpiredDelegates H signers w admin
  | .sweepExpiredDelegates limit => .ok (Delegate.sweepExpiredDelegates H w limit).1
  | .sweepExpiredPackages limit => Prod.fst <$> sweepExpiredPackages H w limit

def afterCall (H : Host τ) (signers : List Address) (w : World τ) (c : Call) : World τ :=
  (exec H signers w c).toOption.getD w

/-- What can happen next: a call, a later ledger time, or somebody else's use of the tokens. -/
inductive Move (τ : Type)
  | call (signers : List Address) (c : Call)
  | tick (now : ℕ)
  | outside (tokens : τ)

inductive Step (H : Host τ) : World τ → Move τ → World τ → Prop
  | call {w w' : World τ} {signers : List Address} {c : Call} :
      exec H signers w c = .ok w' → Step H w (.call signers c) w'
  | tick {w : World τ} {now : ℕ} : w.now ≤ now → Step H w (.tick now) { w with now }
  | outside {w : World τ} {tokens : τ} :
      H.outside w.tokens tokens → Step H w (.outside tokens) { w with tokens }

abbrev Trace (τ : Type) := List (Transition (World τ) (Move τ))

def Reaches (H : Host τ) (tr : Trace τ) (w : World τ) : Prop :=
  ∃ now tokens, Run (Step H) (World.deployed now tokens) tr w

end Calls
section Plays
open Soter.Runs

abbrev Balances := List ((Address × Address) × ℕ)

def heldIn (m : Balances) (token account : Address) : ℕ := (m.lookup (token, account)).getD 0

/-- Tokens without decimals that move exactly the amount or refuse, and that only the contract
itself can take from its account. No Merkle root is in use with them. -/
def plainHost (contract : Address) : Host Balances where
  contract := contract
  decimals _ _ := some 0
  balance m token account := some (heldIn m token account)
  transfer m token sender receiver amount :=
    if 0 ≤ amount ∧ amount ≤ heldIn m token sender then
      let debited := ((token, sender), heldIn m token sender - amount.toNat) :: m
      some (((token, receiver), heldIn debited token receiver + amount.toNat) :: debited)
    else none
  outside m m' := ∀ token, heldIn m token contract ≤ heldIn m' token contract
  sha256 _ := ⟨List.replicate 32 0, rfl⟩
  addressString _ := []

theorem heldIn_cons (m : Balances) (token account t a : Address) (n : ℕ) :
    heldIn (((token, account), n) :: m) t a = if t = token ∧ a = account then n else heldIn m t a := by
  unfold heldIn
  by_cases h : (t, a) = (token, account)
  · rw [List.lookup_cons, beq_iff_eq.mpr h]
    obtain ⟨rfl, rfl⟩ := Prod.mk.inj h
    simp
  · rw [List.lookup_cons, beq_eq_false_iff_ne.mpr h, if_neg fun he => h (Prod.ext he.1 he.2)]

variable {H : Host τ}

theorem exists_of_isOk {α : Type} {x : Result α} (h : x.isOk = true) : ∃ a, x = .ok a := by
  cases x with
  | error e => cases h
  | ok a => exact ⟨a, rfl⟩

/-- A move that the contract decides by itself, or `none` if it is refused. -/
def tryMove (H : Host τ) (w : World τ) : Move τ → Option (World τ)
  | .call signers c => (exec H signers w c).toOption
  | .tick now => if w.now ≤ now then some { w with now } else none
  | .outside _ => none

theorem tryMove_step (w : World τ) (m : Move τ) (w' : World τ) (h : tryMove H w m = some w') :
    Step H w m w' := by
  cases m with
  | call signers c =>
    rw [tryMove] at h
    cases hexec : exec H signers w c with
    | error e =>
      rw [hexec] at h
      cases h
    | ok u =>
      rw [hexec] at h
      cases h
      exact Step.call hexec
  | tick now =>
    rw [tryMove] at h
    split at h
    · cases h
      exact Step.tick ‹_›
    · cases h
  | outside tokens => cases h

def played (H : Host τ) (now : ℕ) (tokens : τ) (moves : List (Move τ)) : Trace τ × World τ :=
  play (tryMove H) (World.deployed now tokens) moves

theorem played_reaches (now : ℕ) (tokens : τ) (moves : List (Move τ)) :
    Reaches H (played H now tokens moves).1 (played H now tokens moves).2 :=
  ⟨now, tokens, play_run tryMove_step moves _⟩

theorem played_labels {P : Move τ → Prop} {now : ℕ} {tokens : τ} {moves : List (Move τ)}
    (h : ∀ m ∈ moves, P m) : ∀ t ∈ (played H now tokens moves).1, P t.label :=
  fun t ht => h t.label (play_labels moves _ t ht)

end Plays
end Soter.AidEscrow
