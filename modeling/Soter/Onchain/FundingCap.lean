import Mathlib
import Soter.Claims.BudgetCap
import Soter.Lib.Rely
import Soter.Onchain.AidEscrowService

/-! The funding cap of a campaign over whole runs of package issuance. -/
namespace Soter.Onchain
open Soter.Tasks Soter.Runs Soter.Fallible Soter.Claims Soter.JsNumbers List

variable {c : CampaignId} {p p' : EscrowPool} {s s' : Store}

section Issuance

def Query.grants : (q : Query) → q.Reply → Bool
  | .createAidPackage _, reply => (reply : Except Failure CreateAidPackageResult).isOk
  | .batchCreateAidPackages _, reply => (reply : Except Failure BatchCreateAidPackagesResult).isOk
  | _, _ => false

def Query.Reads : Query → Prop
  | .getTokenBalance .. | .findCampaign _ | .aggregate .. => True
  | _ => False

theorem not_grants_of_reads : ∀ (q : Query), q.Reads → ∀ reply, q.grants reply = false
  | .getTokenBalance .., _, _ => rfl
  | .findCampaign _, _, _ => rfl
  | .aggregate .., _, _ => rfl

/-- The handler succeeds with the reply to its next request if and only if that issued packages. -/
def Answers {α : Type} : Handler α → Prop
  | .done _ => True
  | .ask q next => ∀ reply, succeeds (next reply) = q.grants reply

variable {α β : Type}

theorem answers_after_reading {f : α → Handler β} (hf : ∀ a, succeeds (f a) = false)
    (hanswers : ∀ a, (f a).Throughout Answers) :
    ∀ {t : Handler α}, t.Asks Query.Reads → (t.bind f).Throughout Answers
  | .done (.ok a), _ => hanswers a
  | .done (.error e), _ => trivial
  | .ask q next, h => by
    refine ⟨fun reply => ?_, fun reply => answers_after_reading hf hanswers (h.2 reply)⟩
    rw [not_grants_of_reads q h.1 reply]
    change succeeds ((next reply).bind f) = false
    cases next reply with
    | ask q' next' => rfl
    | done result =>
      cases result with
      | ok a => exact hf a
      | error e => rfl

theorem answers_map (g : α → β) {t : Handler α} (h : t.Throughout Answers) :
    (t.bind fun a => .done (.ok (g a))).Throughout Answers := by
  refine Task.Throughout.bind (fun q next hnext reply => ?_) (fun a => ?_) (fun _ => trivial) h
  · rw [← hnext reply]
    change succeeds ((next reply).bind fun a => .done (.ok (g a))) = _
    cases next reply with
    | ask q' next' => rfl
    | done result => cases result <;> rfl
  · trivial

theorem succeeds_bind_of_reading {f : α → Handler β} (hf : ∀ a, succeeds (f a) = false) :
    ∀ t : Handler α, succeeds (t.bind f) = false
  | .done (.ok a) => hf a
  | .done (.error _) => rfl
  | .ask _ _ => rfl

theorem asks_checkTokenBalance (tokenAddress accountAddress requiredAmount : String) :
    (checkTokenBalance tokenAddress accountAddress requiredAmount).Asks Query.Reads := by
  refine ⟨trivial, fun reply => ?_⟩
  refine Task.Asks.bind (t := .done reply) (fun balanceText => ?_) trivial
  refine Task.Asks.bind (t := .done (toBigInt balanceText)) (fun balance => ?_) trivial
  refine Task.Asks.bind (t := .done (toBigInt requiredAmount)) (fun required => ?_) trivial
  trivial

theorem asks_assertFundingCap (dto : CreateAidPackageDto) : (assertFundingCap dto).Asks Query.Reads := by
  unfold assertFundingCap
  cases dto.campaignRef with
  | none => trivial
  | some campaignId =>
    cases toNumber dto.amount with
    | none => trivial
    | some amountNum =>
      refine ⟨trivial, fun found => ?_⟩
      cases (found : Option Campaign) with
      | none => trivial
      | some campaign =>
        refine ⟨trivial, fun locked => ⟨trivial, fun disbursed => ?_⟩⟩
        exact Task.asks_ite (fun _ => trivial) fun _ => trivial

theorem answers_submitAidPackage (dto : CreateAidPackageDto) (operatorAddress : String) :
    (submitAidPackage dto operatorAddress).Throughout Answers := by
  refine ⟨fun reply => ?_, fun _ => trivial⟩
  cases (reply : Except Failure CreateAidPackageResult) <;> rfl

theorem answers_submitBatch (dto : BatchCreateAidPackagesDto) (operatorAddress : String) :
    (submitBatch dto operatorAddress).Throughout Answers := by
  refine ⟨fun reply => ?_, fun _ => trivial⟩
  cases (reply : Except Failure BatchCreateAidPackagesResult) <;> rfl

theorem answers_createAidPackage (dto : CreateAidPackageDto) (operatorAddress : String) :
    (createAidPackage dto operatorAddress).Throughout Answers := by
  refine answers_after_reading (fun check => ?_) (fun check => ?_) (asks_checkTokenBalance ..)
  · split
    · rfl
    · exact succeeds_bind_of_reading (fun _ => rfl) (assertFundingCap dto)
  · split
    · trivial
    · exact answers_after_reading (fun _ => rfl) (fun _ => answers_submitAidPackage dto operatorAddress)
        (asks_assertFundingCap dto)

theorem answers_batchCreateAidPackages (dto : BatchCreateAidPackagesDto) (operatorAddress : String) :
    (batchCreateAidPackages dto operatorAddress).Throughout Answers := by
  unfold batchCreateAidPackages
  split
  · trivial
  · cases totalAmount dto.amounts with
    | error e => trivial
    | ok total =>
      refine answers_after_reading (t := checkTokenBalance dto.tokenAddress operatorAddress (toString total))
        (fun check => ?_) (fun check => ?_) (asks_checkTokenBalance ..)
      · split <;> rfl
      · split
        · trivial
        · exact answers_submitBatch dto operatorAddress

theorem answers_body {op : EscrowOp} (h : op.campaignRef = some c) : op.body.Throughout Answers := by
  cases op with
  | createAidPackage dto operatorAddress => exact answers_map _ (answers_createAidPackage dto _)
  | batchCreateAidPackages dto operatorAddress =>
    exact answers_map _ (answers_batchCreateAidPackages dto _)
  | foresee adapter => cases h

theorem not_succeeds_body {op : EscrowOp} (h : op.campaignRef = some c) : succeeds op.body = false := by
  cases op with
  | createAidPackage dto operatorAddress => rfl
  | batchCreateAidPackages dto operatorAddress =>
    simp only [EscrowOp.body, batchCreateAidPackages]
    split
    · rfl
    · cases totalAmount dto.amounts <;> rfl
  | foresee adapter => cases h

end Issuance

def Query.issues (q : Query) (s : Store) : Bool := q.grants (perform q s).1

def issuedBy (c : CampaignId) (thread : EscrowOp × Handler Issued) : ℤ :=
  if thread.1.campaignRef = some c ∧ succeeds thread.2 = true then thread.1.total else 0

theorem sum_map_set {α : Type} (f : α → ℤ) {b : α} : ∀ {l : List α} {i : ℕ} {a : α},
    l[i]? = some a → ((l.set i b).map f).sum = (l.map f).sum - f a + f b
  | x :: l, 0, a, h => by
    obtain rfl : x = a := Option.some.inj h
    simp only [set_cons_zero, map_cons, sum_cons]
    omega
  | x :: l, i + 1, a, h => by
    have ih := sum_map_set f (b := b) (l := l) (i := i) (a := a) h
    simp only [set_cons_succ, map_cons, sum_cons, ih]
    omega

theorem issued_step (hthreads : ∀ thread ∈ p.threads, thread.1.campaignRef = some c →
      thread.2.Throughout Answers) {turn : Turn EscrowOp} (hstep : EscrowStep p turn p') :
    (∃ op q, p.request turn = some (op, q) ∧ op.campaignRef = some c ∧ q.issues p.store = true ∧
        issued c p' = issued c p + op.total) ∨
      (¬ ∃ op q, p.request turn = some (op, q) ∧ op.campaignRef = some c ∧
        q.issues p.store = true) ∧ issued c p' = issued c p := by
  have hissued : ∀ p : EscrowPool, issued c p = (p.threads.map (issuedBy c)).sum := fun _ => rfl
  rcases hstep.cases with ⟨op, rfl, rfl⟩ | ⟨i, op, q, next, rfl, hi, hr, rfl⟩
  · right
    have hrequest : ¬ ∃ op' q, p.request (.start op) = some (op', q) ∧ op'.campaignRef = some c ∧
        q.issues p.store = true := by
      rintro ⟨op', q, hq, -⟩
      cases hq
    refine ⟨hrequest, ?_⟩
    have hnone : issuedBy c (op, op.body) = 0 := by
      refine if_neg fun h => ?_
      rw [not_succeeds_body h.1] at h
      exact Bool.false_ne_true h.2
    rw [hissued, hissued, map_append, sum_append, map_singleton, sum_singleton, hnone, add_zero]
  · have hbefore : issuedBy c (op, .ask q next) = 0 := if_neg fun h => Bool.false_ne_true h.2
    have hafter : ((p.threads.set i (op, next (perform q p.store).1)).map (issuedBy c)).sum =
        (p.threads.map (issuedBy c)).sum + issuedBy c (op, next (perform q p.store).1) := by
      rw [sum_map_set (issuedBy c) hi, hbefore, sub_zero]
    by_cases hissues : op.campaignRef = some c ∧ q.issues p.store = true
    · left
      refine ⟨op, q, hr, hissues.1, hissues.2, ?_⟩
      have hnext := (hthreads _ (mem_of_getElem? hi) hissues.1).1 (perform q p.store).1
      rw [hissued, hafter, issuedBy, if_pos ⟨hissues.1, hnext.trans hissues.2⟩, hissued]
    · right
      refine ⟨fun ⟨op', q', hq, hc, hq'⟩ => ?_, ?_⟩
      · rw [hr] at hq
        cases hq
        exact hissues ⟨hc, hq'⟩
      · have hnone : issuedBy c (op, next (perform q p.store).1) = 0 := by
          refine if_neg fun h => hissues ⟨h.1, ?_⟩
          have hnext := (hthreads _ (mem_of_getElem? hi) h.1).1 (perform q p.store).1
          exact hnext.symm.trans h.2
        rw [hissued, hafter, hnone, add_zero, hissued]

theorem answers_of_run {s₀ : Store} {tr : List EscrowTransition} (hrun : Run EscrowStep { store := s₀ } tr p) :
    ∀ thread ∈ p.threads, thread.1.campaignRef = some c → thread.2.Throughout Answers := by
  refine hrun.invariant (I := fun p : EscrowPool => ∀ thread ∈ p.threads,
      thread.1.campaignRef = some c → thread.2.Throughout Answers)
    (C := fun _ => True) (fun _ ht => absurd ht not_mem_nil) (fun _ _ => trivial)
    fun t hstep _ hpre => ?_
  rcases hstep.cases with ⟨op, -, hpost⟩ | ⟨i, op, q, next, -, hi, -, hpost⟩
  · rw [hpost]
    intro thread hthread hc
    rcases mem_append.mp hthread with hthread | hthread
    · exact hpre thread hthread hc
    · rw [mem_singleton.mp hthread] at hc ⊢
      exact answers_body hc
  · rw [hpost]
    intro thread hthread hc
    rcases mem_or_eq_of_mem_set hthread with hthread | rfl
    · exact hpre thread hthread hc
    · exact (hpre _ (mem_of_getElem? hi) hc).2 _

def Within (c : CampaignId) (amount : ℚ) (s : Store) : Prop :=
  ∃ campaign, s.db.campaigns[c]? = some campaign ∧
    s.db.total c .lock + s.db.disbursed c + amount ≤ campaign.budget

theorem perform_db (q : Query) (s : Store) : (perform q s).2.db = s.db := by
  cases q <;> rfl

def SameDb (s s' : Store) : Prop := s'.db = s.db

theorem SameDb.refl (s : Store) : SameDb s s := rfl

theorem SameDb.trans (s₁ s₂ s₃ : Store) (h : SameDb s₁ s₂) (h' : SameDb s₂ s₃) : SameDb s₁ s₃ :=
  Eq.trans h' h

theorem Within.of_sameDb {amount : ℚ} (h : Within c amount s) (hdb : SameDb s s') : Within c amount s' := by
  rw [Within, show s'.db = s.db from hdb]
  exact h

def Checked (op : EscrowOp) (q : Query) (s : Store) : Prop :=
  ∀ dto operatorAddress params c, op = .createAidPackage dto operatorAddress →
    dto.campaignRef = some c → q = .createAidPackage params → Within c op.total s

/-- A handler of `op` that keeps to this, with `post` of its result. -/
def KeepsCap {α : Type} (op : EscrowOp) (post : Except Failure α → Store → Prop) (t : Handler α)
    (s : Store) : Prop :=
  t.Keeps perform SameDb (fun _ => True) (fun _ _ => True) (Checked op) post s

theorem keepsCap_of_reads {α : Type} {op : EscrowOp} {t : Handler α} (h : t.Asks Query.Reads) :
    KeepsCap op (fun _ _ => True) t s := by
  refine Task.Keeps.of_asks (fun q s hq => ?_) (fun _ _ => trivial) h
  intro dto operatorAddress params c _ _ heq
  rw [heq] at hq
  exact hq.elim

theorem keepsCap_assertWithinBudget {op : EscrowOp} (c : CampaignId) (newAmount : ℚ) :
    KeepsCap op (fun result s => result = .ok () → Within c newAmount s) (assertWithinBudget c newAmount) s := by
  have hread : ∀ (q : Query) (s : Store), q.Reads → Checked op q s := by
    intro q s hq dto operatorAddress params c _ _ heq
    rw [heq] at hq
    exact hq.elim
  intro s₁ _ _ _
  refine ⟨hread _ _ trivial, ?_⟩
  cases hfound : (perform (.findCampaign c) s₁).1 with
  | none => exact fun s' _ _ => nofun
  | some campaign =>
    intro s₂ hdb₂ _ _
    refine ⟨hread _ _ trivial, fun s₃ hdb₃ _ _ => ⟨hread _ _ trivial, ?_⟩⟩
    have hsame₂ : s₂.db = s₁.db := hdb₂
    have hsame₃ : s₃.db = s₁.db := Eq.trans hdb₃ hsame₂
    refine Task.keeps_ite (fun _ => fun s' _ _ => nofun) fun hle => fun s' hdb' _ _ => ?_
    have hsame' : s'.db = s₁.db := Eq.trans hdb' hsame₃
    simp only [perform, hsame₂, hsame₃, aggregateSum_getD, not_lt, gt_iff_lt] at hle
    refine ⟨campaign, ?_, ?_⟩
    · rw [hsame']
      exact hfound
    · rw [hsame']
      exact hle

theorem keepsCap_assertFundingCap {dto : CreateAidPackageDto} {operatorAddress : String} :
    KeepsCap (.createAidPackage dto operatorAddress) (fun result s => result = .ok () → ∀ c, dto.campaignRef = some c →
        Within c (EscrowOp.createAidPackage dto operatorAddress).total s) (assertFundingCap dto) s := by
  unfold assertFundingCap
  cases href : dto.campaignRef with
  | none => exact fun _ _ _ _ _ => nofun
  | some campaignId =>
    cases hamount : toNumber dto.amount with
    | none => exact fun _ _ _ => nofun
    | some amountNum =>
      obtain ⟨z, hz, hcast⟩ := Option.map_eq_some_iff.mp hamount
      refine Task.Keeps.of_post (fun result s hwithin hok c hc => ?_) (keepsCap_assertWithinBudget campaignId amountNum)
      cases hc
      rw [EscrowOp.total, hz, Option.getD_some, hcast]
      exact hwithin hok

theorem keepsCap_createAidPackage {dto : CreateAidPackageDto} {operatorAddress : String} :
    KeepsCap (.createAidPackage dto operatorAddress) (fun _ _ => True) (createAidPackage dto operatorAddress) s := by
  refine Task.Keeps.bind SameDb.refl (fun _ _ => True) (fun check s _ => ?_) (fun _ _ _ => trivial)
    (keepsCap_of_reads (asks_checkTokenBalance dto.tokenAddress operatorAddress dto.amount))
  refine Task.keeps_ite (fun _ => fun _ _ _ => trivial) fun _ => ?_
  refine Task.Keeps.bind SameDb.refl _ (fun _ s hchecked => ?_) (fun _ _ _ => trivial) keepsCap_assertFundingCap
  intro s' hdb _ _
  refine ⟨?_, fun _ _ _ => trivial⟩
  intro dto' operatorAddress' params c hop href _
  cases hop
  exact (hchecked rfl c href).of_sameDb hdb

theorem keepsCap_body (op : EscrowOp) : KeepsCap op (fun _ _ => True) op.body s := by
  cases op with
  | createAidPackage dto operatorAddress =>
    exact Task.Keeps.bind_result SameDb.refl (fun _ => ⟨_, rfl⟩) keepsCap_createAidPackage
  | batchCreateAidPackages dto operatorAddress =>
    refine Task.Keeps.of_asks (P := fun _ => True) (fun q s _ => ?_) (fun _ _ => trivial) ?_
    · intro dto' operatorAddress' params c hop
      cases hop
    · exact Task.Asks.of_forall (fun _ => trivial) _
  | foresee adapter =>
    intro s' _ _ _
    refine ⟨?_, fun _ _ _ => trivial⟩
    intro dto' operatorAddress' params c hop
    cases hop

theorem checked_of_run {s₀ : Store} {tr : List EscrowTransition}
    (hrun : Run EscrowStep { store := s₀ } tr p) {t : EscrowTransition} (ht : t ∈ tr) {op : EscrowOp}
    {q : Query} (hr : t.pre.request t.label = some (op, q)) : Checked op q t.pre.store := by
  have hidle : Pool.Kept perform SameDb (fun _ => True) (fun _ _ _ => True) Checked
      (fun _ _ _ => True) ({ store := s₀ } : EscrowPool) := Pool.Kept.idle trivial
  have hkept := (Pool.Kept.run SameDb.refl SameDb.trans (fun op s _ => keepsCap_body op)
    (fun _ q s _ _ _ => ⟨perform_db q s, trivial⟩) hrun hidle (fun _ _ _ _ _ => trivial) ht).1
  exact hkept.request SameDb.refl hr trivial

section Cap

/-- What is issued for the campaign at this turn fits into the budget next to what has been. -/
def FitsCap (budget : ℚ) (c : CampaignId) (p : EscrowPool) (turn : Turn EscrowOp) : Prop :=
  ∀ op q, p.request turn = some (op, q) → op.campaignRef = some c → q.issues p.store = true →
    ((issued c p + op.total : ℤ) : ℚ) ≤ budget

/-- What is issued for the campaign at this turn is a single package, and the ledger shows at least what
has been issued before. -/
def Recorded (c : CampaignId) (p : EscrowPool) (turn : Turn EscrowOp) : Prop :=
  ∀ op q, p.request turn = some (op, q) → op.campaignRef = some c → q.issues p.store = true →
    (∃ dto operatorAddress params, op = .createAidPackage dto operatorAddress ∧
      q = .createAidPackage params) ∧
    (issued c p : ℚ) ≤ p.store.db.total c .lock + p.store.db.disbursed c

variable {s₀ : Store} {tr : List EscrowTransition} {campaign : Campaign}

theorem campaign_of_run (hcampaign : s₀.db.campaigns[c]? = some campaign)
    (hrun : Run EscrowStep { store := s₀ } tr p) {t : EscrowTransition} (ht : t ∈ tr) :
    t.pre.store.db.campaigns[c]? = some campaign := by
  refine (hrun.invariant_at (I := fun p => p.store.db.campaigns[c]? = some campaign)
    (C := fun _ => True) hcampaign (fun _ _ => trivial) (fun t hstep _ hpre => ?_) ht).1
  rcases hstep.store with ⟨-, hstore⟩ | ⟨q, -, hstore⟩
  · rw [hstore]
    exact hpre
  · rw [hstore, perform_db]
    exact hpre

end Cap

def cappedStore : Store where
  db := fundedDb
  adapter :=
    { balance := .ok "1000"
      created := .ok { packageId := "1", transactionHash := "hash" } }

def packageOf60 : EscrowOp :=
  .createAidPackage
    { packageId := "1", recipientAddress := "G", amount := "60", tokenAddress := "C", expiresAt := 0,
      campaignRef := some 1 } "admin"

def issuedTwice : List (Turn EscrowOp) :=
  [.start packageOf60] ++ replicate 5 (.advance 0) ++ [.start packageOf60] ++
    replicate 5 (.advance 1)

def escrowPlayed (turns : List (Turn EscrowOp)) : List EscrowTransition × EscrowPool :=
  play (Pool.take perform EscrowOp.body) { store := cappedStore } turns

theorem escrowPlayed_run (turns : List (Turn EscrowOp)) :
    Run EscrowStep { store := cappedStore } (escrowPlayed turns).1 (escrowPlayed turns).2 :=
  play_run (fun _ _ _ h => h) turns _

theorem cappedStore_campaign : cappedStore.db.campaigns[1]? = some { budget := 100 } := fundedDb_campaign

end Soter.Onchain
