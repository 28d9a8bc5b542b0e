import Soter.AidEscrow.World
import Soter.Lib.MapSum

/-! The delegate module: registered delegates, their expiry and the audit trail. -/
namespace Soter.AidEscrow.Delegate
open Std Soter.Fallible

variable {τ : Type}

def delegateSet : Symbol := "delegate_set"
def delegateCleared : Symbol := "delegate_cleared"
def delegateExpired : Symbol := "delegate_expired"

def isDelegateExpired (w : World τ) (packageId : ℕ) : Bool :=
  match w.delegation.expiry[packageId]? with
  | some expiresAt => decide (0 < expiresAt ∧ expiresAt ≤ w.now)
  | none => false

def validatePackageState (w : World τ) (packageId : ℕ) : Result Unit := do
  let package ← getPackage w packageId
  require (package.status ≠ .claimed) (err .packageNotActive)

def recordDelegateChange (w : World τ) (packageId : ℕ) (previousDelegate : Option Address)
    (newDelegate changedBy : Address) (reason : Symbol) : World τ :=
  { w with delegation := { w.delegation with
      history := w.delegation.history ++
        [⟨packageId, previousDelegate, newDelegate, changedBy, w.now, reason⟩] } }

def recordDelegateChangeSystem (H : Host τ) (w : World τ) (packageId : ℕ)
    (previousDelegate : Option Address) (newDelegate : Address) (reason : Symbol) : World τ :=
  recordDelegateChange w packageId previousDelegate newDelegate H.contract reason

def setDelegate (w : World τ) (admin : Address) (packageId : ℕ) (delegate : Address) :
    Result (World τ) := do
  validatePackageState w packageId
  let package ← getPackage w packageId
  require (delegate ≠ package.recipient) (err .invalidState)
  let previousDelegate := w.delegation.delegates[packageId]?
  let w := { w with delegation := { w.delegation with
    delegates := w.delegation.delegates.insert packageId delegate } }
  return recordDelegateChange w packageId previousDelegate delegate admin delegateSet

def setDelegateWithExpiry (w : World τ) (admin : Address) (packageId : ℕ) (delegate : Address)
    (expiresAt : ℕ) : Result (World τ) := do
  require (¬ (0 < expiresAt ∧ expiresAt ≤ w.now)) (err .invalidState)
  let w ← setDelegate w admin packageId delegate
  -- A zero writes nothing, so an expiry stored earlier stays.
  return if 0 < expiresAt then
    { w with delegation := { w.delegation with
        expiry := w.delegation.expiry.insert packageId expiresAt } }
  else w

def getDelegate (w : World τ) (packageId : ℕ) : Option Address :=
  match w.delegation.delegates[packageId]? with
  | none => none
  | some delegate => if isDelegateExpired w packageId then none else some delegate

def getDelegateInfo (w : World τ) (packageId : ℕ) : Option (Address × Option ℕ) :=
  if isDelegateExpired w packageId then none
  else match w.delegation.delegates[packageId]? with
    | none => none
    | some delegate => some (delegate, w.delegation.expiry[packageId]?)

def getDelegateHistory (w : World τ) (packageId : ℕ) : List DelegateHistory :=
  w.delegation.history.filter fun record => record.packageId = packageId

def isAuthorisedClaimer (w : World τ) (packageId : ℕ) (primaryRecipient claimer : Address) :
    Bool :=
  if claimer = primaryRecipient then true
  else match getDelegate w packageId with
    | some delegate => decide (delegate = claimer)
    | none => false

def clearDelegate (H : Host τ) (w : World τ) (packageId : ℕ) : World τ :=
  let previousDelegate := w.delegation.delegates[packageId]?
  let w := { w with delegation := { w.delegation with
    delegates := w.delegation.delegates.erase packageId,
    expiry := w.delegation.expiry.erase packageId } }
  match previousDelegate with
  | some delegate =>
    recordDelegateChangeSystem H w packageId (some delegate) H.contract delegateCleared
  | none => w

/-- The state of the removal loop of `sweep_expired_delegates`: the maps are kept in memory while
history records and events are written out one by one. -/
structure Sweep (τ : Type) where
  world : World τ
  delegateMap : ExtTreeMap ℕ Address
  expiryMap : ExtTreeMap ℕ ℕ
  cleanedCount : ℕ

def sweepOne (H : Host τ) (s : Sweep τ) (packageId : ℕ) : Sweep τ :=
  match s.delegateMap[packageId]? with
  | none => s
  | some delegate =>
    let recipient := match s.world.store.packages[packageId]? with
      | some package => package.recipient
      | none => H.contract
    let w := recordDelegateChangeSystem H s.world packageId (some delegate) H.contract
      delegateExpired
    { world := publish w (.delegateRevoked packageId recipient delegate H.contract w.now)
      delegateMap := s.delegateMap.erase packageId
      expiryMap := s.expiryMap.erase packageId
      cleanedCount := s.cleanedCount + 1 }

/-- The ids that one sweep looks at, in key order and at most `maxLimit` of them. -/
def expiredIds (w : World τ) (maxLimit : ℕ) : List ℕ :=
  ((w.delegation.expiry.toList.filter fun entry => 0 < entry.2 ∧ entry.2 ≤ w.now).map
    Prod.fst).take maxLimit

def sweepExpiredDelegates (H : Host τ) (w : World τ) (limit : ℕ) : World τ × ℕ :=
  let maxLimit := if limit = 0 then 50 else min limit 100
  let s := (expiredIds w maxLimit).foldl (sweepOne H)
    ⟨w, w.delegation.delegates, w.delegation.expiry, 0⟩
  if 0 < s.cleanedCount then
    ({ s.world with delegation := { s.world.delegation with
        delegates := s.delegateMap, expiry := s.expiryMap } }, s.cleanedCount)
  else (s.world, s.cleanedCount)

def cleanupExpiredDelegates (H : Host τ) (w : World τ) : World τ × ℕ :=
  sweepExpiredDelegates H w 100

end Soter.AidEscrow.Delegate
