import Soter.Lib.Fallible
import Soter.Lib.Rely
import Soter.Soroban.Adapter

/-! When the dry run of an issuance predicts the issuance (`createAidPackage` and `dryRunAidPackageIssuance` of
`aid-escrow.service.ts`), and what of the package comes to the contract. -/
namespace Soter.DryRun
open Soter.JsNumbers Soter.Soroban Soter.Tasks

section Service

/-- What is thrown; only an `Error` has a message. -/
inductive Thrown
  | error (message : String)
  | other

def Thrown.message (fallback : String) : Thrown → String
  | .error message => message
  | .other => fallback

structure CreateAidPackageDto where
  packageId : String
  recipientAddress : String
  amount : String
  tokenAddress : String
  expiresAt : ℚ
  metadata : Option (List (String × String)) := none
  expiresAt_nonneg : 0 ≤ expiresAt

/-- `metadata?.campaign_ref`, unless it is empty. -/
def CreateAidPackageDto.campaignRef (dto : CreateAidPackageDto) : Option String :=
  (dto.metadata.bind (·.lookup "campaign_ref")).filter (· ≠ "")

structure CreateAidPackageParams where
  operatorAddress : String
  packageId : String
  recipientAddress : String
  amount : String
  tokenAddress : String
  expiresAt : ℚ
  metadata : Option (List (String × String)) := none

structure FeeConfig where
  feePercentage : String
  maxFee : String

inductive Query
  | getFeeConfig
  | getTokenBalance (tokenAddress accountAddress : String)
  | assertWithinBudget (campaignId : String) (newAmount : ℚ)
  | createAidPackage (params : CreateAidPackageParams)

def Query.Reply : Query → Type
  | .getFeeConfig => Except Thrown FeeConfig
  | .getTokenBalance .. => Except Thrown String
  | .assertWithinBudget .. => Except Thrown Unit
  | .createAidPackage _ => Except Thrown PackageResult

abbrev Handler := Task Query Query.Reply Thrown

def toBigInt (s : String) : Except Thrown ℤ :=
  match bigInt s with
  | some v => .ok v
  | none => .error (.error ("Cannot convert " ++ s ++ " to a BigInt"))

/-- `Number(s)`, for a text that `BigInt` reads. -/
def number (s : String) : Option ℚ := (bigInt s).map fun v => v.sign * round numberBits v.natAbs

def parsePositiveIntegerAmount (amount : String) : Except String ℤ :=
  if amount.toList = [] ∨ amount.toList.all Char.isDigit = false then .error "Amount must be a positive integer string"
  else
    let value := (bigInt amount).getD 0
    if value ≤ 0 then .error "Amount must be greater than zero" else .ok value

def calculateFee (amount : ℤ) (config : FeeConfig) : ℤ × ℤ :=
  let digits (s : String) : ℤ := if s.toList ≠ [] ∧ s.toList.all Char.isDigit = true then (bigInt s).getD 0 else 0
  let uncappedFee := amount * digits config.feePercentage / 100
  let estimatedFee := if 0 < digits config.maxFee ∧ digits config.maxFee < uncappedFee then digits config.maxFee else uncappedFee
  (estimatedFee, amount + estimatedFee)

structure BalanceCheck where
  sufficient : Bool
  balance : String
  required : String

def checkTokenBalance (tokenAddress accountAddress requiredAmount : String) : Handler BalanceCheck := do
  let balanceText ← .ask (.getTokenBalance tokenAddress accountAddress) fun reply => .done reply
  let balance ← .done (toBigInt balanceText)
  let required ← .done (toBigInt requiredAmount)
  return { sufficient := required ≤ balance, balance := balanceText, required := requiredAmount }

def insufficient (tokenAddress : String) (check : BalanceCheck) : String :=
  "Insufficient token balance for " ++ tokenAddress ++ ". Required: " ++ check.required ++ ", Available: " ++ check.balance

variable (dto : CreateAidPackageDto) (operatorAddress : String)

def assertFundingCap : Handler Unit :=
  match dto.campaignRef with
  | none => return ()
  | some campaignId =>
    match number dto.amount with
    | none => .done (.error (.error "Invalid amount for funding cap check"))
    | some amountNum => .ask (.assertWithinBudget campaignId amountNum) fun reply => .done reply

def packageParams : CreateAidPackageParams :=
  { operatorAddress := operatorAddress, packageId := dto.packageId, recipientAddress := dto.recipientAddress
    amount := dto.amount, tokenAddress := dto.tokenAddress, expiresAt := dto.expiresAt }

def createAidPackage : Handler PackageResult := do
  let balanceCheck ← checkTokenBalance dto.tokenAddress operatorAddress dto.amount
  if balanceCheck.sufficient = false then .done (.error (.error (insufficient dto.tokenAddress balanceCheck)))
  else do
    assertFundingCap dto
    .ask (.createAidPackage (packageParams dto operatorAddress)) fun reply => .done reply

structure ValidationError where
  field : String
  message : String

def fieldErrors : List ValidationError :=
  (if dto.packageId = "" then [⟨"packageId", "Package ID is required"⟩] else []) ++
    (if dto.recipientAddress = "" then [⟨"recipientAddress", "Recipient address is required"⟩] else []) ++
    (if dto.tokenAddress = "" then [⟨"tokenAddress", "Token address is required"⟩] else []) ++
    (if dto.expiresAt < 0 then [⟨"expiresAt", "Expiration must be a non-negative Unix timestamp"⟩] else []) ++
    match parsePositiveIntegerAmount dto.amount with
    | .error message => [⟨"amount", message⟩]
    | .ok _ => []

def balanceErrors : Handler (List ValidationError) :=
  match parsePositiveIntegerAmount dto.amount with
  | .error _ => return []
  | .ok value =>
    if dto.tokenAddress = "" ∨ operatorAddress = "" then return []
    else do
      match ← (checkTokenBalance dto.tokenAddress operatorAddress (toString value)).attempt with
      | .ok check => return if check.sufficient then [] else [⟨"balance", insufficient dto.tokenAddress check⟩]
      | .error thrown => return [⟨"balance", thrown.message "Unable to validate token balance"⟩]

def budgetErrors : Handler (List ValidationError) :=
  match dto.campaignRef, parsePositiveIntegerAmount dto.amount with
  | some campaignId, .ok _ =>
    match number dto.amount with
    | none => return [⟨"amount", "Invalid amount for funding cap check"⟩]
    | some amountNum => do
      match ← (Task.ask (.assertWithinBudget campaignId amountNum) fun reply => .done reply : Handler Unit).attempt with
      | .ok _ => return []
      | .error thrown => return [⟨"metadata.campaign_ref", thrown.message "Campaign funding cap validation failed"⟩]
  | _, _ => return []

structure ExpectedEvent where
  packageId : String
  recipient : String
  amount : String
  actor : String

structure DryRunResult where
  valid : Bool
  packageId : String
  config : FeeConfig
  estimatedFee : String
  totalEstimatedDebit : String
  expectedEvents : List ExpectedEvent
  validationErrors : List ValidationError
  operatorAddress : String
  tokenAddress : String

def dryRunResult (feeConfig : FeeConfig) (validationErrors : List ValidationError) : DryRunResult :=
  let fees := calculateFee ((parsePositiveIntegerAmount dto.amount).toOption.getD 0) feeConfig
  { valid := validationErrors.length = 0
    packageId := dto.packageId
    config := feeConfig
    estimatedFee := toString fees.1
    totalEstimatedDebit := toString fees.2
    expectedEvents := if validationErrors.length = 0 then [⟨dto.packageId, dto.recipientAddress, dto.amount, operatorAddress⟩] else []
    validationErrors
    operatorAddress
    tokenAddress := dto.tokenAddress }

def dryRunAidPackageIssuance : Handler DryRunResult := do
  let feeConfig ← .ask .getFeeConfig fun reply => .done reply
  let balance ← balanceErrors dto operatorAddress
  let budget ← budgetErrors dto
  return dryRunResult dto operatorAddress feeConfig (fieldErrors dto ++ balance ++ budget)

end Service
section Prediction
variable (answer : (q : Query) → q.Reply) (dto : CreateAidPackageDto) (operatorAddress : String)

def feeAnswer : Except Thrown FeeConfig := answer .getFeeConfig

def balanceAnswer (tokenAddress accountAddress : String) : Except Thrown String :=
  answer (.getTokenBalance tokenAddress accountAddress)

def budgetAnswer (campaignId : String) (newAmount : ℚ) : Except Thrown Unit := answer (.assertWithinBudget campaignId newAmount)

/-- The dry run reports `valid: true`. -/
def IsValid : Prop := ∃ result, (dryRunAidPackageIssuance dto operatorAddress).outcome answer = .ok result ∧ result.valid = true

def Hands (params : CreateAidPackageParams) : Prop :=
  .createAidPackage params ∈ (createAidPackage dto operatorAddress).trace answer

def Query.ChangesState : Query → Prop
  | .createAidPackage _ => True
  | _ => False

structure Carries (params : CreateAidPackageParams) : Prop where
  recipient : params.recipientAddress = dto.recipientAddress
  amount : params.amount = dto.amount
  token : params.tokenAddress = dto.tokenAddress
  expiry : params.expiresAt = dto.expiresAt
  metadata : params.metadata.getD [] = dto.metadata.getD []

def scvNumber (q : ℚ) : JsNumber := if q.den = 1 then .int q.num else .nan

/-- What `SorobanAdapter` makes of the package. -/
def CreateAidPackageParams.toContract (params : CreateAidPackageParams) : Soroban.CreateAidPackageParams :=
  { params with expiresAt := scvNumber params.expiresAt, metadata := params.metadata.getD [] }

/-- The arguments of `create_package` are the encodings of the fields of the request. -/
def Encodes (sdk : Sdk) (args : List ScVal) : Prop :=
  ∃ operator id recipient amount token expiry metadata, args = [operator, id, recipient, amount, token, expiry, metadata] ∧
    sdk.address dto.recipientAddress = .ok recipient ∧ sdk.i128 dto.amount = .ok amount ∧
    sdk.address dto.tokenAddress = .ok token ∧ sdk.u64 (scvNumber dto.expiresAt) = .ok expiry ∧
    sdk.map (dto.metadata.getD []) = .ok metadata

structure Predicts : Prop where
  agrees : IsValid answer dto operatorAddress ↔ ∃ params, Hands answer dto operatorAddress params
  carries : IsValid answer dto operatorAddress → ∀ params, Hands answer dto operatorAddress params → Carries dto params ∧
    ∀ sdk args, createAidPackageArgs sdk params.toContract = .ok args → Encodes dto sdk args
  readsOnly : (dryRunAidPackageIssuance dto operatorAddress).Asks fun q => ¬ q.ChangesState

def Covers (tokenAddress accountAddress requiredAmount : String) : Prop :=
  ∃ required available text, bigInt requiredAmount = some required ∧
    balanceAnswer answer tokenAddress accountAddress = .ok text ∧ bigInt text = some available ∧ required ≤ available

def Affordable : Prop := Covers answer dto.tokenAddress operatorAddress dto.amount

def WithinBudget : Prop := ∀ campaignId ∈ dto.campaignRef, ∀ amountNum ∈ number dto.amount,
  budgetAnswer answer campaignId amountNum = .ok ()

structure WellFormed : Prop where
  packageId : dto.packageId ≠ ""
  recipient : dto.recipientAddress ≠ ""
  token : dto.tokenAddress ≠ ""
  amount : ∃ v, 0 < v ∧ Denotes dto.amount v
  fees : ∃ config, feeAnswer answer = .ok config

variable {answer dto operatorAddress}

variable {amount : String} {params : CreateAidPackageParams}

theorem parse_eq_ok {value : ℤ} :
    parsePositiveIntegerAmount amount = .ok value ↔ ∃ v : ℕ, 0 < v ∧ Denotes amount v ∧ value = v := by
  unfold parsePositiveIntegerAmount
  constructor
  · intro h
    dsimp only at h
    split_ifs at h with hdigits hsign
    push Not at hdigits
    have hdenotes : Denotes amount _ := ⟨hdigits.1, Bool.of_not_eq_false hdigits.2, rfl⟩
    rw [bigInt_of_denotes hdenotes, Option.getD_some] at hsign h
    exact ⟨_, by omega, hdenotes, (Except.ok.inj h).symm⟩
  · rintro ⟨v, hpos, hdenotes, rfl⟩
    have hall : ¬ (amount.toList = [] ∨ amount.toList.all Char.isDigit = false) := by
      simp [hdenotes.nonempty, hdenotes.digits]
    rw [if_neg hall, bigInt_of_denotes hdenotes, Option.getD_some, if_neg (by omega)]

theorem parse_isOk : (parsePositiveIntegerAmount amount).isOk = true ↔ ∃ v, 0 < v ∧ Denotes amount v := by
  constructor
  · intro h
    cases hvalue : parsePositiveIntegerAmount amount with
    | error message =>
      rw [hvalue] at h
      cases h
    | ok value =>
      obtain ⟨v, hpos, hdenotes, -⟩ := parse_eq_ok.mp hvalue
      exact ⟨v, hpos, hdenotes⟩
  · rintro ⟨v, hpos, hdenotes⟩
    rw [parse_eq_ok.mpr ⟨v, hpos, hdenotes, rfl⟩]
    rfl

variable {tokenAddress accountAddress requiredAmount : String}

theorem checkTokenBalance_sufficient :
    (∃ check, (checkTokenBalance tokenAddress accountAddress requiredAmount).outcome answer = .ok check ∧
      check.sufficient = true) ↔ Covers answer tokenAddress accountAddress requiredAmount := by
  have houtcome : (checkTokenBalance tokenAddress accountAddress requiredAmount).outcome answer =
      balanceAnswer answer tokenAddress accountAddress >>= fun text =>
        toBigInt text >>= fun available => toBigInt requiredAmount >>= fun required =>
          .ok { sufficient := required ≤ available, balance := text, required := requiredAmount } := by
    simp only [checkTokenBalance, Task.bind_eq, Task.outcome_bind]
    rfl
  rw [houtcome, Covers]
  cases balanceAnswer answer tokenAddress accountAddress with
  | error thrown => simp [Except.bind, bind]
  | ok text =>
    cases htext : bigInt text with
    | none => simp [toBigInt, htext, Except.bind, bind]
    | some available =>
      cases hrequired : bigInt requiredAmount with
      | none => simp [toBigInt, htext, hrequired, Except.bind, bind]
      | some required => simp [toBigInt, htext, hrequired, Except.bind, bind]

theorem reads_checkTokenBalance :
    (checkTokenBalance tokenAddress accountAddress requiredAmount).Asks fun q => ¬ q.ChangesState := by
  refine ⟨id, fun reply => Task.Asks.bind (fun text => ?_) (t := .done reply) trivial⟩
  exact Task.Asks.done_bind fun available _ => Task.Asks.done_bind fun required _ => trivial

theorem assertFundingCap_ok (h : Affordable answer dto operatorAddress) :
    (assertFundingCap dto).outcome answer = .ok () ↔ WithinBudget answer dto := by
  obtain ⟨required, -, -, hrequired, -⟩ := h
  obtain ⟨amountNum, hnumber⟩ : ∃ amountNum, number dto.amount = some amountNum := ⟨_, by rw [number, hrequired, Option.map_some]⟩
  unfold assertFundingCap WithinBudget
  rw [hnumber]
  cases dto.campaignRef with
  | none => simp [pure, Task.outcome]
  | some campaignId =>
    simp only [Option.mem_some_iff, forall_eq']
    exact Iff.rfl

theorem reads_assertFundingCap (dto : CreateAidPackageDto) : (assertFundingCap dto).Asks fun q => ¬ q.ChangesState := by
  unfold assertFundingCap
  split
  · trivial
  · split
    · trivial
    · exact ⟨id, fun _ => trivial⟩

theorem hands_iff : Hands answer dto operatorAddress params ↔
    Affordable answer dto operatorAddress ∧ WithinBudget answer dto ∧ params = packageParams dto operatorAddress := by
  have hcap : .createAidPackage params ∉ (assertFundingCap dto).trace answer :=
    fun h => (reads_assertFundingCap dto).mem_trace h trivial
  have hbalance : .createAidPackage params ∉ (checkTokenBalance dto.tokenAddress operatorAddress dto.amount).trace answer :=
    fun h => reads_checkTokenBalance.mem_trace h trivial
  rw [Hands, createAidPackage, Task.bind_eq, Task.trace_bind, List.mem_append, or_iff_right hbalance, Affordable,
    ← checkTokenBalance_sufficient]
  cases hcheck : (checkTokenBalance dto.tokenAddress operatorAddress dto.amount).outcome answer with
  | error thrown => simp
  | ok check =>
    cases hsufficient : check.sufficient with
    | false => simp [hsufficient, Task.trace]
    | true =>
      have haffordable : Affordable answer dto operatorAddress := checkTokenBalance_sufficient.mp ⟨check, hcheck, hsufficient⟩
      rw [← assertFundingCap_ok haffordable]
      simp only [hsufficient, Bool.true_eq_false, if_false, Task.bind_eq, Task.trace_bind, List.mem_append, hcap, false_or]
      cases (assertFundingCap dto).outcome answer with
      | error thrown => simp
      | ok _ => simp [Task.trace, hsufficient]

theorem balanceErrors_eq_nil (hparse : (parsePositiveIntegerAmount dto.amount).isOk = true) (htoken : dto.tokenAddress ≠ "") :
    ∃ errors, (balanceErrors dto operatorAddress).outcome answer = .ok errors ∧
      (errors = [] ↔ (operatorAddress ≠ "" → Affordable answer dto operatorAddress)) := by
  unfold balanceErrors
  cases hvalue : parsePositiveIntegerAmount dto.amount with
  | error message =>
    rw [hvalue] at hparse
    cases hparse
  | ok value =>
    obtain ⟨v, -, hdenotes, rfl⟩ := parse_eq_ok.mp hvalue
    -- the amount is written anew, which changes nothing
    have hsame : Affordable answer dto operatorAddress ↔ Covers answer dto.tokenAddress operatorAddress (toString (v : ℤ)) := by
      unfold Affordable Covers
      rw [bigInt_of_denotes hdenotes, show toString (v : ℤ) = toString v from rfl, bigInt_of_denotes (denotes_toString v)]
    rw [hsame, ← checkTokenBalance_sufficient]
    by_cases hoperator : operatorAddress = ""
    · exact ⟨[], by simp [hoperator, pure, Task.outcome], by simp [hoperator]⟩
    · simp only [htoken, hoperator, or_self, if_false, Task.bind_eq, Task.outcome_bind, Task.outcome_attempt]
      cases (checkTokenBalance dto.tokenAddress operatorAddress (toString (v : ℤ))).outcome answer with
      | error thrown => exact ⟨_, rfl, by simp [hoperator]⟩
      | ok check => cases hsufficient : check.sufficient <;> exact ⟨_, rfl, by simp [hsufficient, hoperator]⟩

theorem budgetErrors_eq_nil (hparse : (parsePositiveIntegerAmount dto.amount).isOk = true) :
    ∃ errors, (budgetErrors dto).outcome answer = .ok errors ∧ (errors = [] ↔ WithinBudget answer dto) := by
  unfold budgetErrors WithinBudget
  cases hvalue : parsePositiveIntegerAmount dto.amount with
  | error message =>
    rw [hvalue] at hparse
    cases hparse
  | ok value =>
    obtain ⟨v, -, hdenotes, rfl⟩ := parse_eq_ok.mp hvalue
    obtain ⟨amountNum, hnumber⟩ : ∃ amountNum, number dto.amount = some amountNum :=
      ⟨_, by rw [number, bigInt_of_denotes hdenotes, Option.map_some]⟩
    rw [hnumber]
    cases dto.campaignRef with
    | none => exact ⟨[], rfl, by simp⟩
    | some campaignId =>
      simp only [Option.mem_some_iff, forall_eq', Task.bind_eq, Task.outcome_bind, Task.outcome_attempt, Task.outcome]
      unfold budgetAnswer
      generalize answer (.assertWithinBudget campaignId amountNum) = reply
      cases (reply : Except Thrown Unit) with
      | error thrown => exact ⟨_, rfl, by simp⟩
      | ok _ => exact ⟨_, rfl, by simp⟩

theorem fieldErrors_eq_nil (dto : CreateAidPackageDto) : fieldErrors dto = [] ↔
    dto.packageId ≠ "" ∧ dto.recipientAddress ≠ "" ∧ dto.tokenAddress ≠ "" ∧ ∃ v, 0 < v ∧ Denotes dto.amount v := by
  have hexpiry : ¬ dto.expiresAt < 0 := not_lt.mpr dto.expiresAt_nonneg
  rw [← parse_isOk, fieldErrors, if_neg hexpiry]
  cases parsePositiveIntegerAmount dto.amount <;> simp [Except.isOk, Except.toBool]

theorem isValid_iff : IsValid answer dto operatorAddress ↔ WellFormed answer dto ∧
    (operatorAddress ≠ "" → Affordable answer dto operatorAddress) ∧ WithinBudget answer dto := by
  have houtcome : (dryRunAidPackageIssuance dto operatorAddress).outcome answer =
      feeAnswer answer >>= fun config => (balanceErrors dto operatorAddress).outcome answer >>= fun balance =>
        (budgetErrors dto).outcome answer >>= fun budget =>
          .ok (dryRunResult dto operatorAddress config (fieldErrors dto ++ balance ++ budget)) := by
    simp only [dryRunAidPackageIssuance, Task.bind_eq, Task.outcome_bind]
    rfl
  unfold IsValid
  rw [houtcome]
  constructor
  · rintro ⟨result, hresult, hvalid⟩
    obtain ⟨config, hfees, hresult⟩ := Fallible.bind_eq_ok.mp hresult
    obtain ⟨balance, hbalance, hresult⟩ := Fallible.bind_eq_ok.mp hresult
    obtain ⟨budget, hbudget, hresult⟩ := Fallible.bind_eq_ok.mp hresult
    cases hresult
    have hempty : fieldErrors dto ++ balance ++ budget = [] := List.length_eq_zero_iff.mp (of_decide_eq_true hvalid)
    simp only [List.append_eq_nil_iff] at hempty
    obtain ⟨⟨hfields, rfl⟩, rfl⟩ := hempty
    obtain ⟨hid, hrecipient, htoken, hamount⟩ := (fieldErrors_eq_nil dto).mp hfields
    obtain ⟨errors, herrors, haffordable⟩ :=
      @balanceErrors_eq_nil answer dto operatorAddress (parse_isOk.mpr hamount) htoken
    obtain ⟨errors', herrors', hbudget'⟩ := @budgetErrors_eq_nil answer dto (parse_isOk.mpr hamount)
    cases hbalance.symm.trans herrors
    cases hbudget.symm.trans herrors'
    exact ⟨⟨hid, hrecipient, htoken, hamount, config, hfees⟩, haffordable.mp rfl, hbudget'.mp rfl⟩
  · rintro ⟨⟨hid, hrecipient, htoken, hamount, config, hfees⟩, haffordable, hwithin⟩
    have hfields := (fieldErrors_eq_nil dto).mpr ⟨hid, hrecipient, htoken, hamount⟩
    obtain ⟨errors, herrors, hnil⟩ := @balanceErrors_eq_nil answer dto operatorAddress (parse_isOk.mpr hamount) htoken
    obtain ⟨errors', herrors', hnil'⟩ := @budgetErrors_eq_nil answer dto (parse_isOk.mpr hamount)
    cases hnil.mpr haffordable
    cases hnil'.mpr hwithin
    refine ⟨dryRunResult dto operatorAddress config [], ?_, rfl⟩
    rw [hfees, herrors, herrors', hfields]
    rfl

theorem reads_dryRun : (dryRunAidPackageIssuance dto operatorAddress).Asks fun q => ¬ q.ChangesState := by
  have hbalance : (balanceErrors dto operatorAddress).Asks fun q => ¬ q.ChangesState := by
    unfold balanceErrors
    split
    · trivial
    · apply Task.asks_ite
      · exact fun _ => trivial
      · intro _
        refine Task.Asks.bind (fun outcome => ?_) reads_checkTokenBalance.attempt
        cases outcome <;> trivial
  have hbudget : (budgetErrors dto).Asks fun q => ¬ q.ChangesState := by
    unfold budgetErrors
    split
    · split
      · trivial
      · refine ⟨id, fun reply => Task.Asks.bind (fun outcome => ?_) (t := .done (.ok reply)) trivial⟩
        cases outcome <;> trivial
    · trivial
  refine ⟨id, fun reply => Task.Asks.bind (fun config => ?_) (t := .done reply) trivial⟩
  refine Task.Asks.bind (fun balance => ?_) hbalance
  refine Task.Asks.bind (fun budget => ?_) hbudget
  trivial

theorem carries_iff (dto : CreateAidPackageDto) (operatorAddress : String) : Carries dto (packageParams dto operatorAddress) ↔ dto.metadata.getD [] = [] :=
  ⟨fun h => h.metadata.symm, fun h => ⟨rfl, rfl, rfl, rfl, h.symm⟩⟩

theorem encodes_of_carries (h : Carries dto params) {sdk : Sdk} {args : List ScVal}
    (hargs : createAidPackageArgs sdk params.toContract = .ok args) : Encodes dto sdk args := by
  obtain ⟨metadata, hmetadata, hargs⟩ := Fallible.bind_eq_ok.mp hargs
  obtain ⟨operator, -, hargs⟩ := Fallible.bind_eq_ok.mp hargs
  obtain ⟨id, -, hargs⟩ := Fallible.bind_eq_ok.mp hargs
  obtain ⟨recipient, hrecipient, hargs⟩ := Fallible.bind_eq_ok.mp hargs
  obtain ⟨amount, hamount, hargs⟩ := Fallible.bind_eq_ok.mp hargs
  obtain ⟨token, htoken, hargs⟩ := Fallible.bind_eq_ok.mp hargs
  obtain ⟨expiry, hexpiry, hargs⟩ := Fallible.bind_eq_ok.mp hargs
  refine ⟨operator, id, recipient, amount, token, expiry, metadata, (Except.ok.inj hargs).symm, ?_, ?_, ?_, ?_, ?_⟩
  · rw [← h.recipient]
    exact hrecipient
  · rw [← h.amount]
    exact hamount
  · rw [← h.token]
    exact htoken
  · rw [← h.expiry]
    exact hexpiry
  · rw [← h.metadata]
    exact hmetadata

theorem predicts_iff (answer : (q : Query) → q.Reply) (dto : CreateAidPackageDto) (operatorAddress : String) :
    Predicts answer dto operatorAddress ↔
      (Affordable answer dto operatorAddress → WithinBudget answer dto → WellFormed answer dto ∧ dto.metadata.getD [] = []) ∧
      (operatorAddress = "" → WellFormed answer dto → WithinBudget answer dto → Affordable answer dto operatorAddress) := by
  have hhands : (∃ params, Hands answer dto operatorAddress params) ↔
      Affordable answer dto operatorAddress ∧ WithinBudget answer dto := by
    simp [hands_iff]
  constructor
  · intro h
    have hagrees := h.agrees
    rw [isValid_iff, hhands] at hagrees
    constructor
    · intro haffordable hwithin
      have hvalid := hagrees.mpr ⟨haffordable, hwithin⟩
      refine ⟨hvalid.1, ?_⟩
      have hcarries := h.carries (isValid_iff.mpr hvalid) _ (hands_iff.mpr ⟨haffordable, hwithin, rfl⟩)
      exact (carries_iff dto operatorAddress).mp hcarries.1
    · intro hoperator hwell hwithin
      exact (hagrees.mp ⟨hwell, fun hne => absurd hoperator hne, hwithin⟩).1
  · rintro ⟨hclean, hnobody⟩
    constructor
    · rw [isValid_iff, hhands]
      constructor
      · rintro ⟨hwell, haffordable, hwithin⟩
        by_cases hoperator : operatorAddress = ""
        · exact ⟨hnobody hoperator hwell hwithin, hwithin⟩
        · exact ⟨haffordable hoperator, hwithin⟩
      · rintro ⟨haffordable, hwithin⟩
        exact ⟨(hclean haffordable hwithin).1, fun _ => haffordable, hwithin⟩
    · intro _ params hhanded
      obtain ⟨haffordable, hwithin, rfl⟩ := hands_iff.mp hhanded
      have hcarries := (carries_iff dto operatorAddress).mpr (hclean haffordable hwithin).2
      exact ⟨hcarries, fun _ _ hargs => encodes_of_carries hcarries hargs⟩
    · exact reads_dryRun

def tenStroops : CreateAidPackageDto where
  packageId := "1"
  recipientAddress := "GBUQWP3BOUZX34ULNQG23RQ6F4BFXWBTRSE53XSTE23JMCVOCJGXVSVZ"
  amount := "10"
  tokenAddress := "GATEMHCCKCY67ZUCKTROYN24ZYT5GK4EQZ5LKG3FZTSZ3NYNEJBBENSN"
  expiresAt := 1704067200
  metadata := some [("campaign_ref", "campaign-123")]
  expiresAt_nonneg := by norm_num

def fundedAnswers : (q : Query) → q.Reply
  | .getFeeConfig => .ok ⟨"0", "0"⟩
  | .getTokenBalance .. => .ok "100"
  | .assertWithinBudget .. => .ok ()
  | .createAidPackage _ => .error (.error "Simulation failed")

/-- The package is issued without the reference of the campaign whose cap was checked for it. -/
theorem campaign_ref_dropped : ¬ ∀ answer dto operatorAddress, Predicts answer dto operatorAddress := by
  intro h
  have haffordable : Affordable fundedAnswers tenStroops "admin" :=
    ⟨10, 100, "100", bigInt_of_denotes ⟨by decide, by decide, rfl⟩, rfl, bigInt_of_denotes ⟨by decide, by decide, rfl⟩, by decide⟩
  have hwithin : WithinBudget fundedAnswers tenStroops := fun _ _ _ _ => rfl
  have hwell : WellFormed fundedAnswers tenStroops :=
    ⟨by decide, by decide, by decide, ⟨10, by decide, ⟨by decide, by decide, rfl⟩⟩, ⟨_, rfl⟩⟩
  have hvalid : IsValid fundedAnswers tenStroops "admin" := isValid_iff.mpr ⟨hwell, fun _ => haffordable, hwithin⟩
  have hcarries := (h _ _ _).carries hvalid _ (hands_iff.mpr ⟨haffordable, hwithin, rfl⟩)
  cases hcarries.1.metadata

end Prediction
end Soter.DryRun
