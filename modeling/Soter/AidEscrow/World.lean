import Mathlib.Algebra.Order.Ring.Int
import Soter.AidEscrow.Types

/-! The ledger as the escrow contract sees it: its storage entries, the host it runs on and the
token contracts it calls. -/
namespace Soter.AidEscrow
open Std Soter.Fallible

/-- What the contract uses from outside its own code. `τ` is the state of all token contracts. A
call into a token answers `none` when the invocation fails. -/
structure Host (τ : Type) where
  /-- `env.current_contract_address()`. -/
  contract : Address
  decimals : τ → Address → Option ℕ
  balance : τ → Address → Address → Option ℤ
  transfer : τ → Address → (sender receiver : Address) → ℤ → Option τ
  /-- What everybody else may do to the tokens between two calls of the contract. -/
  outside : τ → τ → Prop
  sha256 : List UInt8 → Bytes32
  /-- `Address::to_string`. -/
  addressString : Address → Text

structure Settings where
  admin : Option Address := none
  pendingAdmin : Option Address := none
  version : Option ℕ := none
  config : Option Config := none
  distributors : ExtTreeMap Address Bool := ∅
  maxDistributors : Option ℕ := none
  paused : Bool := false
  pauseCreate : Bool := false
  pauseClaim : Bool := false
  pauseRefund : Bool := false
  pauseWithdraw : Bool := false
  campaignPaused : ExtTreeMap Text Bool := ∅

abbrev TokenTotals := ExtTreeMap Address ℤ
abbrev CampaignTotals := ExtTreeMap Text TokenTotals

/-- The running totals: `KEY_TOTAL_LOCKED`, `KEY_TOTAL_CLAIMED` and their per-campaign pair. -/
structure Totals where
  locked : TokenTotals := ∅
  claimed : TokenTotals := ∅
  campaignLocked : CampaignTotals := ∅
  campaignClaimed : CampaignTotals := ∅

/-- The package records, the aggregation index, `KEY_PKG_COUNTER` and `KEY_PKG_IDX`. -/
structure PackageStore where
  packages : ExtTreeMap ℕ Package := ∅
  index : ExtTreeMap ℕ ℕ := ∅
  pkgCounter : ℕ := 0
  pkgIdx : ℕ := 0

structure Delegation where
  delegates : ExtTreeMap ℕ Address := ∅
  expiry : ExtTreeMap ℕ ℕ := ∅
  history : List DelegateHistory := []

/-- What a token transfer is made for. The code passes no such label; it names the place in the
code, and for a package the id, so that a transfer can be attributed to a package. -/
inductive Purpose
  | fund
  | claim (id : ℕ)
  | disburse (id : ℕ)
  | refund (id : ℕ)
  | surplus
  deriving DecidableEq, Repr

def Purpose.package : Purpose → Option ℕ
  | .fund | .surplus => none
  | .claim id | .disburse id | .refund id => some id

structure Transfer where
  token : Address
  sender : Address
  receiver : Address
  amount : ℤ
  purpose : Purpose
  deriving DecidableEq, Repr

structure World (τ : Type) where
  now : ℕ
  settings : Settings := {}
  pendingWithdrawal : Option PendingWithdrawal := none
  totals : Totals := {}
  recipientLastClaim : ExtTreeMap Address ℕ := ∅
  store : PackageStore := {}
  delegation : Delegation := {}
  tokens : τ
  transfers : List Transfer := []
  events : List Published := []

variable {τ : Type}

/-- A contract instance right after deployment, before `init`. -/
def World.deployed (now : ℕ) (tokens : τ) : World τ := { now, tokens }

abbrev err (e : Error) : Fault := .error e

/-- `u64` addition under `overflow-checks`. -/
def addU64 (a b : ℕ) : Result ℕ :=
  if a + b < 2 ^ 64 then .ok (a + b) else .error .trap

/-- `i128` addition under `overflow-checks`. -/
def addI128 (a b : ℤ) : Result ℤ :=
  if -2 ^ 127 ≤ a + b ∧ a + b < 2 ^ 127 then .ok (a + b) else .error .trap

variable {b : ℤ} {H : Host τ} {w : World τ} {token : Address}

theorem addU64_eq_ok {a b c : ℕ} : addU64 a b = .ok c ↔ a + b < 2 ^ 64 ∧ a + b = c := by
  unfold addU64
  by_cases h : a + b < 2 ^ 64
  · simp only [h, ↓reduceIte, Except.ok.injEq, true_and]
  · simp only [h, ↓reduceIte, false_and, reduceCtorEq]

theorem addI128_eq_ok {a c : ℤ} : addI128 a b = .ok c ↔ (-2 ^ 127 ≤ a + b ∧ a + b < 2 ^ 127) ∧ a + b = c := by
  unfold addI128
  by_cases h : -2 ^ 127 ≤ a + b ∧ a + b < 2 ^ 127
  · simp only [h, and_self, ↓reduceIte, Except.ok.injEq, true_and]
  · simp only [h, ↓reduceIte, false_and, reduceCtorEq]

/-- `Address::require_auth`: a missing signature aborts the invocation. -/
def requireAuth (signers : List Address) (a : Address) : Result Unit :=
  require (a ∈ signers) .trap

@[simp] theorem requireAuth_eq_ok {signers : List Address} {a : Address} {u : Unit} :
    requireAuth signers a = .ok u ↔ a ∈ signers := require_eq_ok

def publish (w : World τ) (e : Event) : World τ :=
  { w with events := w.events ++ [⟨eventSchemaVersion, e⟩] }

def getPackage (w : World τ) (id : ℕ) : Result Package :=
  orFail w.store.packages[id]? (err .packageNotFound)

def putPackage (w : World τ) (id : ℕ) (package : Package) : World τ :=
  { w with store := { w.store with packages := w.store.packages.insert id package } }

def validateToken (H : Host τ) (w : World τ) (token : Address) : Result ℕ :=
  match H.decimals w.tokens token with
  | some decimals => if decimals ≤ 38 then .ok decimals else .error (err .invalidToken)
  | none => .error (err .invalidToken)

def tokenBalance (H : Host τ) (w : World τ) (token account : Address) : Result ℤ :=
  orFail (H.balance w.tokens token account) (err .invalidToken)

def transferToken (H : Host τ) (w : World τ) (token sender receiver : Address) (amount : ℤ)
    (purpose : Purpose) : Result (World τ) :=
  match H.transfer w.tokens token sender receiver amount with
  | some tokens => .ok { w with
      tokens, transfers := w.transfers ++ [⟨token, sender, receiver, amount, purpose⟩] }
  | none => .error (err .tokenTransferFailed)

theorem transferToken_eq_ok {w' : World τ} {sender receiver : Address} {amount : ℤ} {purpose : Purpose} :
    transferToken H w token sender receiver amount purpose = .ok w' ↔
      ∃ tokens, H.transfer w.tokens token sender receiver amount = some tokens ∧ w' = { w with
          tokens, transfers := w.transfers ++ [⟨token, sender, receiver, amount, purpose⟩] } := by
  unfold transferToken
  cases H.transfer w.tokens token sender receiver amount with
  | none => simp
  | some tokens => simp [eq_comm]

@[simp] theorem tokenBalance_eq_ok {account : Address} :
    tokenBalance H w token account = .ok b ↔ H.balance w.tokens token account = some b :=
  orFail_eq_ok

@[simp] theorem getPackage_eq_ok {id : ℕ} {p : Package} :
    getPackage w id = .ok p ↔ w.store.packages[id]? = some p := orFail_eq_ok

end Soter.AidEscrow
