import Soter.AidEscrow.Totals

/-! Administration: ownership, versions, distributors, configuration and pauses. -/
namespace Soter.AidEscrow
open Std Soter.Fallible

variable {τ : Type} (H : Host τ) (signers : List Address) (w : World τ)

def defaultConfig : Config := ⟨1, 0, [], 0⟩

def getConfig : Config := w.settings.config.getD defaultConfig

def getVersion : ℕ := w.settings.version.getD 0

def getAdmin : Result Address := orFail w.settings.admin (err .notInitialized)

def authorisedAdmin : Result Address := do
  let admin ← getAdmin w
  requireAuth signers admin
  return admin

variable {u : Unit}

theorem authorisedAdmin_eq_ok {admin : Address} :
    authorisedAdmin signers w = .ok admin ↔ w.settings.admin = some admin ∧ admin ∈ signers := by
  simp only [authorisedAdmin, getAdmin, bind_eq_ok, orFail_eq_ok, requireAuth_eq_ok, pure_eq_ok]
  constructor
  · rintro ⟨a, ha, -, hs, rfl⟩
    exact ⟨ha, hs⟩
  · rintro ⟨ha, hs⟩
    exact ⟨admin, ha, (), hs, rfl⟩

def putSettings (settings : Settings) : World τ := { w with settings }

def init (admin : Address) : Result (World τ) := do
  require (w.settings.admin = none) (err .alreadyInitialized)
  return putSettings w { w.settings with
    admin := some admin, version := some 1, config := some defaultConfig }

def transferAdmin (newAdmin : Address) : Result (World τ) := do
  let admin ← authorisedAdmin signers w
  require (newAdmin ≠ admin) (err .invalidPendingAdmin)
  let w := putSettings w { w.settings with pendingAdmin := some newAdmin }
  return publish w (.adminTransferInitiated admin newAdmin w.now)

def acceptAdmin : Result (World τ) := do
  let pendingAdmin ← orFail w.settings.pendingAdmin (err .noPendingTransfer)
  requireAuth signers pendingAdmin
  let w := putSettings w { w.settings with admin := some pendingAdmin, pendingAdmin := none }
  return publish w (.adminTransferAccepted pendingAdmin w.now)

def cancelAdminTransfer : Result (World τ) := do
  let admin ← authorisedAdmin signers w
  require (w.settings.pendingAdmin ≠ none) (err .noPendingTransfer)
  let w := putSettings w { w.settings with pendingAdmin := none }
  return publish w (.adminTransferCancelled admin w.now)

/-- One id of the backfill scan; the pair holds the locked and the claimed map under
construction. -/
def backfillOne (acc : CampaignTotals × CampaignTotals) (id : ℕ) :
    Result (CampaignTotals × CampaignTotals) :=
  match w.store.packages[id]? with
  | none => .ok acc
  | some package =>
    match campaignRefFromMetadata package.metadata with
    | none => .ok acc
    | some campaignRef =>
      match package.status with
      | .created => do
        let lockedMap ← applyNestedDelta acc.1 campaignRef package.token package.amount
        return (lockedMap, acc.2)
      | .claimed => do
        let claimedMap ← applyNestedDelta acc.2 campaignRef package.token package.amount
        return (acc.1, claimedMap)
      | .expired | .cancelled | .refunded => .ok acc

def backfillCampaignTokenTotals : Result (World τ) := do
  let acc ← (List.range w.store.pkgCounter).foldlM (backfillOne w) (∅, ∅)
  return { w with totals := { w.totals with
    campaignLocked := acc.1, campaignClaimed := acc.2 } }

def migrate (newVersion : ℕ) : Result (World τ) := do
  let _ ← authorisedAdmin signers w
  let currentVersion := getVersion w
  let w ← (if currentVersion = 1 ∧ newVersion = 2 then backfillCampaignTokenTotals w else .ok w)
  return putSettings w { w.settings with version := some newVersion }

def isDistributor (addr : Address) : Bool := w.settings.distributors[addr]?.getD false

def getMaxDistributors : ℕ := w.settings.maxDistributors.getD defaultMaxDistributors

def addDistributor (addr : Address) : Result (World τ) := do
  let admin ← authorisedAdmin signers w
  require (isDistributor w addr = false) (err .distributorAlreadyExists)
  require (w.settings.distributors.size < getMaxDistributors w) (err .distributorSetFull)
  let distributors := w.settings.distributors.insert addr true
  let w := putSettings w { w.settings with distributors }
  return publish w (.distributorAdded admin addr distributors.size w.now)

def removeDistributor (addr : Address) : Result (World τ) := do
  let admin ← authorisedAdmin signers w
  require (isDistributor w addr = true) (err .distributorNotFound)
  let distributors := w.settings.distributors.erase addr
  let w := putSettings w { w.settings with distributors }
  return publish w (.distributorRemoved admin addr distributors.size w.now)

def setMaxDistributors (max : ℕ) : Result (World τ) := do
  let _ ← authorisedAdmin signers w
  require (max ≠ 0) (err .invalidAmount)
  return putSettings w { w.settings with maxDistributors := some max }

def setConfig (config : Config) : Result (World τ) := do
  let _ ← authorisedAdmin signers w
  require (0 < config.minAmount) (err .invalidAmount)
  config.allowedTokens.forM fun token => do
    let _ ← validateToken H w token
    return ()
  return putSettings w { w.settings with config := some config }

def pause : Result (World τ) := do
  let admin ← authorisedAdmin signers w
  return publish (putSettings w { w.settings with paused := true }) (.contractPausedEvent admin)

def unpause : Result (World τ) := do
  let admin ← authorisedAdmin signers w
  return publish (putSettings w { w.settings with paused := false }) (.contractUnpausedEvent admin)

inductive PauseKey
  | create | claim | withdraw | refund
  deriving DecidableEq

def getPauseKey (action : Symbol) : Result PauseKey :=
  if action = "create" then .ok .create
  else if action = "claim" then .ok .claim
  else if action = "withdraw" then .ok .withdraw
  else if action = "refund" then .ok .refund
  else .error (err .invalidState)

def Settings.pauseFlag (s : Settings) : PauseKey → Bool
  | .create => s.pauseCreate
  | .claim => s.pauseClaim
  | .withdraw => s.pauseWithdraw
  | .refund => s.pauseRefund

def Settings.setPauseFlag (s : Settings) (key : PauseKey) (flag : Bool) : Settings :=
  match key with
  | .create => { s with pauseCreate := flag }
  | .claim => { s with pauseClaim := flag }
  | .withdraw => { s with pauseWithdraw := flag }
  | .refund => { s with pauseRefund := flag }

def pauseAction (action : Symbol) : Result (World τ) := do
  let admin ← authorisedAdmin signers w
  let key ← getPauseKey action
  return publish (putSettings w (w.settings.setPauseFlag key true))
    (.actionPausedEvent admin action)

def unpauseAction (action : Symbol) : Result (World τ) := do
  let admin ← authorisedAdmin signers w
  let key ← getPauseKey action
  return publish (putSettings w (w.settings.setPauseFlag key false))
    (.actionUnpausedEvent admin action)

def pauseCampaign (campaignRef : Text) : Result (World τ) := do
  let admin ← authorisedAdmin signers w
  let w := putSettings w { w.settings with
    campaignPaused := w.settings.campaignPaused.insert campaignRef true }
  return publish w (.campaignPausedEvent admin campaignRef)

def unpauseCampaign (campaignRef : Text) : Result (World τ) := do
  let admin ← authorisedAdmin signers w
  let w := putSettings w { w.settings with
    campaignPaused := w.settings.campaignPaused.insert campaignRef false }
  return publish w (.campaignUnpausedEvent admin campaignRef)

def addAllowedToken (token : Address) : Result (World τ) := do
  let admin ← authorisedAdmin signers w
  let _ ← validateToken H w token
  let config := getConfig w
  require (token ∉ config.allowedTokens) (err .invalidState)
  let w := putSettings w { w.settings with
    config := some { config with allowedTokens := config.allowedTokens ++ [token] } }
  return publish w (.tokenAdded admin token w.now)

def removeAllowedToken (token : Address) : Result (World τ) := do
  let admin ← authorisedAdmin signers w
  let config := getConfig w
  require (token ∈ config.allowedTokens) (err .invalidState)
  let w := putSettings w { w.settings with
    config := some { config with
      allowedTokens := config.allowedTokens.filter fun t => t ≠ token } }
  return publish w (.tokenRemoved admin token w.now)

def checkActionPaused (action : Symbol) : Result Unit := do
  require (w.settings.paused = false) (err .contractPaused)
  match getPauseKey action with
  | .ok key => require (w.settings.pauseFlag key = false) (err .contractPaused)
  | .error _ => .ok ()

theorem checkActionPaused_eq_ok (action : Symbol) (key : PauseKey) (hkey : getPauseKey action = .ok key) :
    checkActionPaused w action = .ok u ↔ w.settings.paused = false ∧ w.settings.pauseFlag key = false := by
  simp only [checkActionPaused, hkey, bind_eq_ok, require_eq_ok, exists_const]

theorem checkActionPaused_settings {w u : World τ} {action : Symbol} (h : u.settings = w.settings) :
    checkActionPaused u action = checkActionPaused w action := by
  simp only [checkActionPaused, h]

def isPaused : Bool := w.settings.paused

def isCampaignPaused (campaignRef : Text) : Bool :=
  if isPaused w then true else w.settings.campaignPaused[campaignRef]?.getD false

def isActionPaused (action : Symbol) : Bool :=
  if isPaused w then true
  else match getPauseKey action with
    | .ok key => w.settings.pauseFlag key
    | .error _ => false

def checkCampaignPaused (metadata : Metadata) : Result Unit := do
  require (isPaused w = false) (err .contractPaused)
  match campaignRefFromMetadata metadata with
  | none => .ok ()
  | some campaignRef =>
    require (w.settings.campaignPaused[campaignRef]?.getD false = false) (err .contractPaused)

def CampaignOpen (metadata : Metadata) : Prop :=
  w.settings.paused = false ∧ ∀ campaignRef, campaignRefFromMetadata metadata = some campaignRef →
    w.settings.campaignPaused[campaignRef]?.getD false = false

theorem checkCampaignPaused_eq_ok {metadata : Metadata} :
    checkCampaignPaused w metadata = .ok u ↔ CampaignOpen w metadata := by
  simp only [checkCampaignPaused, CampaignOpen, bind_eq_ok, require_eq_ok, exists_const]
  cases campaignRefFromMetadata metadata with
  | none | some campaignRef => simp [isPaused]

def requireAdminOrDistributor (operator : Address) : Result Unit := do
  requireAuth signers operator
  let admin ← getAdmin w
  require (operator = admin ∨ isDistributor w operator = true) (err .notAuthorized)

def Operates (operator : Address) : Prop :=
  operator ∈ signers ∧
    ∃ admin, w.settings.admin = some admin ∧ (operator = admin ∨ isDistributor w operator = true)

theorem requireAdminOrDistributor_eq_ok {operator : Address} :
    requireAdminOrDistributor signers w operator = .ok u ↔ Operates signers w operator := by
  simp only [requireAdminOrDistributor, getAdmin, bind_eq_ok, requireAuth_eq_ok, exists_const,
    orFail_eq_ok, require_eq_ok, Operates]

end Soter.AidEscrow
