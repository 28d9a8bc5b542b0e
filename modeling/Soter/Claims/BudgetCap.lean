import Soter.Claims.Service

/-! What one database request does to the balance ledger, and a campaign's budget as a cap on what is locked and
disbursed. The cap is checked where claims are created; a reissue locks its new amount unchecked. The balance gives back
what cancelled claims had locked, the reservation does not. -/
namespace Soter.Claims

section Effects
open Std Soter.Fallible Soter.Tasks Soter.Runs

inductive Effect (db db' : Db) : Query → Prop
  | unchanged {q : Query} (ledger : db'.ledger = db.ledger) : Effect db db' q
  | created {dto : CreateClaimDto} {newId : ClaimId} {now : Time}
      (reserved : reserveBudget db dto.campaignId dto.amount = .ok ())
      (totals : ∀ c e, db'.total c e = db.total c e + portion dto.campaignId c .lock e dto.amount) :
      Effect db db' (.create dto newId now)
  | cancelled {id : ClaimId} {claim : Claim} {dto : CancelClaimDto} {now : Time}
      (totals : ∀ c e, db'.total c e =
        db.total c e + portion claim.campaignId c .unlock e (-claim.amount)) :
      Effect db db' (.cancel id claim dto now)
  | reissued {originalId newId : ClaimId} {original : Claim} {dto : ReissueClaimDto} {now : Time}
      (present : db.claims[originalId]? ≠ none) (fresh : db.claims[newId]? = none)
      (totals : ∀ c e, db'.total c e = db.total c e
        + portion original.campaignId c .unlock e (-original.amount)
        + portion original.campaignId c .lock e (dto.newAmount original)) :
      Effect db db' (.reissue originalId original dto newId now)

variable {db : Db} {q : Query}

theorem commit_updateClaim_ledger {id : ClaimId} {data : Claim → Claim} :
    (commit (db.updateClaim id data) db).2.ledger = db.ledger :=
  commit_keeps (P := fun db' : Db => db'.ledger = db.ledger) rfl fun _ _ h => (updateClaim_ledger h).1

theorem perform_effect (services : Services) (q : Query) (db : Db) : Effect db (perform services q db).2 q := by
  cases q with
  | findCampaign id | findClaim id | findExpiredClaims now => exact .unchanged rfl
  | create dto newId now =>
    have hrolledBack : Effect db db (.create dto newId now) := .unchanged rfl
    refine commit_keeps (P := fun db' => Effect db db' _) hrolledBack fun claim db' h => ?_
    obtain ⟨hreserved, -, htotals⟩ := createTx_spec h
    exact .created hreserved htotals
  | cancel id claim dto now =>
    have hrolledBack : Effect db db (.cancel id claim dto now) := .unchanged rfl
    refine commit_keeps (P := fun db' => Effect db db' _) hrolledBack fun _ db' h => ?_
    exact .cancelled (cancelTx_spec h).2
  | reissue originalId original dto newId now =>
    have hrolledBack : Effect db db (.reissue originalId original dto newId now) := .unchanged rfl
    refine commit_keeps (P := fun db' => Effect db db' _) hrolledBack fun pair db' h => ?_
    obtain ⟨hpresent, hfresh⟩ := reissueTx_rows h
    exact .reissued hpresent hfresh (reissueTx_spec h).2
  | setStatus id status => exact .unchanged commit_updateClaim_ledger
  | setReceiptPointer id receiptPointer => exact .unchanged commit_updateClaim_ledger
  | recordVerification id status result => exact .unchanged commit_updateClaim_ledger

theorem perform_campaigns (services : Services) (q : Query) (db : Db) :
    (perform services q db).2.campaigns = db.campaigns := by
  have hkeeps {α : Type} {tx : Except Failure (α × Db)} (h : ∀ a db', tx = .ok (a, db') → db'.campaigns = db.campaigns) :
      (commit tx db).2.campaigns = db.campaigns :=
    commit_keeps (P := fun db' : Db => db'.campaigns = db.campaigns) rfl h
  cases q with
  | findCampaign id | findClaim id | findExpiredClaims now => rfl
  | create dto newId now => exact hkeeps fun _ _ h => (createTx_spec h).2.1
  | cancel id claim dto now => exact hkeeps fun _ _ h => (cancelTx_spec h).1
  | reissue originalId original dto newId now => exact hkeeps fun _ _ h => (reissueTx_spec h).1
  | setStatus id status => exact hkeeps fun _ _ h => (updateClaim_ledger h).2
  | setReceiptPointer id receiptPointer => exact hkeeps fun _ _ h => (updateClaim_ledger h).2
  | recordVerification id status result => exact hkeeps fun _ _ h => (updateClaim_ledger h).2

section Totals
variable {db' : Db} {c : CampaignId}

theorem Effect.disbursed (h : Effect db db' q) : db'.disbursed c = db.disbursed c := by
  unfold Db.disbursed
  cases h with
  | unchanged hledger => exact total_congr hledger
  | created hreserved htotals | cancelled htotals => rw [htotals, portion_of_type_ne (by decide), add_zero]
  | reissued hpresent hfresh htotals =>
    rw [htotals, portion_of_type_ne (by decide), portion_of_type_ne (by decide), add_zero, add_zero]

theorem Effect.unlock_le (h : Effect db db' q) : db'.total c .unlock ≤ db.total c .unlock := by
  cases h with
  | unchanged hledger => exact (total_congr hledger).le
  | created hreserved htotals => rw [htotals, portion_of_type_ne (by decide), add_zero]
  | @cancelled id claim dto now htotals =>
    have hamount : portion claim.campaignId c .unlock .unlock (-claim.amount) ≤ 0 :=
      portion_nonpos (neg_nonpos.mpr claim.amount.2)
    rw [htotals]
    linarith
  | @reissued originalId newId original dto now hpresent hfresh htotals =>
    have hamount : portion original.campaignId c .unlock .unlock (-original.amount) ≤ 0 :=
      portion_nonpos (neg_nonpos.mpr original.amount.2)
    -- the entry that locks the new amount is of another type
    have hlock : portion original.campaignId c .lock .unlock (dto.newAmount original) = 0 :=
      portion_of_type_ne (by decide)
    rw [htotals, hlock]
    linarith

theorem Effect.lock_of_cancel {id : ClaimId} {claim : Claim} {dto : CancelClaimDto} {now : Time}
    (h : Effect db db' (.cancel id claim dto now)) : db'.total c .lock = db.total c .lock := by
  cases h with
  | unchanged hledger => exact total_congr hledger
  | cancelled htotals => rw [htotals, portion_of_type_ne (by decide), add_zero]

end Totals
end Effects
section Cap
open Std Soter.Fallible Soter.Tasks Soter.Runs Soter.MapSum

variable {services : Services} {budget : ℚ≥0} {c : CampaignId} {db db' : Db} {q : Query}

def WithinBudget (budget : ℚ≥0) (c : CampaignId) (db : Db) : Prop :=
  db.locked c + db.disbursed c ≤ budget

instance : Decidable (WithinBudget budget c db) :=
  inferInstanceAs (Decidable (db.locked c + db.disbursed c ≤ (budget : ℚ)))

/-- A replacement that is larger than the original adds no more than what is left of the budget. -/
def ReissueFits (budget : ℚ≥0) (c : CampaignId) : Query → Db → Prop
  | .reissue originalId original dto newId _, db =>
    original.campaignId = c → db.claims[originalId]? ≠ none → db.claims[newId]? = none →
      original.amount < dto.newAmount original →
        (dto.newAmount original - original.amount : ℚ) ≤ budget - db.locked c - db.disbursed c
  | _, _ => True

structure Capped (budget : ℚ≥0) (c : CampaignId) (db : Db) : Prop where
  within : WithinBudget budget c db
  unlocked : db.total c .unlock ≤ 0
  campaign : ∃ campaign, db.campaigns[c]? = some campaign ∧ campaign.budget = budget

theorem Capped.of_ledger_nil {campaign : Campaign} (hledger : db.ledger = [])
    (hcampaign : db.campaigns[c]? = some campaign) : Capped campaign.budget c db := by
  have htotal (e : EventType) : db.total c e = 0 := by
    simp only [Db.total, hledger, entriesOf, List.filter_nil, List.map_nil, List.sum_nil]
  refine ⟨?_, (htotal .unlock).le, campaign, hcampaign, rfl⟩
  have hbudget : (0 : ℚ) ≤ campaign.budget := campaign.budget.2
  simpa only [WithinBudget, Db.locked, Db.disbursed, htotal, add_zero] using hbudget

theorem Capped.perform (h : Capped budget c db) (hfits : ReissueFits budget c q db) :
    Capped budget c (perform services q db).2 := by
  obtain ⟨campaign, hcampaign, hbudget⟩ := h.campaign
  have hcampaign' : (Claims.perform services q db).2.campaigns[c]? = some campaign := by
    rw [perform_campaigns, hcampaign]
  have heffect := perform_effect services q db
  have hwithin := h.within
  have hunlocked := h.unlocked
  generalize (Claims.perform services q db).2 = db' at heffect hcampaign' ⊢
  -- the sum of the unlock entries only falls, and no campaign is touched
  refine ⟨?_, heffect.unlock_le.trans hunlocked, campaign, hcampaign', hbudget⟩
  simp only [WithinBudget, Db.locked, heffect.disbursed] at hwithin ⊢
  cases heffect with
  | unchanged hledger =>
    simp only [total_congr hledger]
    exact hwithin
  | @created dto newId now hreserved htotals =>
    simp only [htotals, portion_of_type_ne, ne_eq, reduceCtorEq, not_false_eq_true, add_zero]
    by_cases hc : dto.campaignId = c
    · -- the reservation counted at least what is locked, since unlock entries only take away
      obtain ⟨campaign', hcampaign'', hroom⟩ := reserveBudget_eq_ok.mp hreserved
      rw [hc, hcampaign] at hcampaign''
      cases hcampaign''
      rw [hc, hbudget] at hroom
      rw [hc, portion_self]
      linarith
    · rw [portion_of_campaign_ne hc, add_zero]
      exact hwithin
  | @cancelled id claim dto now htotals =>
    simp only [htotals, portion_of_type_ne, ne_eq, reduceCtorEq, not_false_eq_true, add_zero]
    have hamount : portion claim.campaignId c .unlock .unlock (-claim.amount) ≤ 0 :=
      portion_nonpos (neg_nonpos.mpr claim.amount.2)
    linarith
  | @reissued originalId newId original dto now hpresent hfresh htotals =>
    simp only [htotals, portion_of_type_ne, ne_eq, reduceCtorEq, not_false_eq_true, add_zero]
    by_cases hc : original.campaignId = c
    · rw [hc, portion_self, portion_self]
      -- unlocking and locking again nets to the change of the amount
      rcases lt_or_ge original.amount (dto.newAmount original) with hraise | hkeep
      · have hroom := hfits hc hpresent hfresh hraise
        rw [Db.locked] at hroom
        linarith
      · have hkeep' : (dto.newAmount original : ℚ) ≤ original.amount := NNRat.coe_le_coe.mpr hkeep
        linarith
    · rw [portion_of_campaign_ne hc, portion_of_campaign_ne hc, add_zero, add_zero]
      exact hwithin

theorem ReissueFits.of_within (h : WithinBudget budget c (perform services q db).2) :
    ReissueFits budget c q db := by
  cases q with
  | reissue originalId original dto newId now =>
    intro hc hpresent hfresh _
    obtain ⟨res, hres⟩ := reissueTx_commits services original dto now hpresent hfresh
    have htotals := (reissueTx_spec hres).2
    have hstore : (perform services (.reissue originalId original dto newId now) db).2 = res.2 :=
      congrArg Prod.snd (commit_ok hres)
    rw [hstore] at h
    simp only [WithinBudget, Db.locked, Db.disbursed, htotals, portion_of_type_ne, ne_eq,
      reduceCtorEq, not_false_eq_true, add_zero, hc, portion_self] at h ⊢
    linarith
  | findCampaign id | findClaim id | findExpiredClaims now | create dto newId now | cancel id claim dto now
  | setStatus id status | setReceiptPointer id receiptPointer | recordVerification id status result => trivial

def FitsAt (budget : ℚ≥0) (c : CampaignId) (t : Transition System (Turn Op)) : Prop :=
  ∀ q, t.pre.asked t.label = some q → ReissueFits budget c q t.pre.store

theorem Capped.of_run {s s' : System} {tr : List (Transition System (Turn Op))}
    (hrun : Run (Step services) s tr s') (hs : Capped budget c s.store)
    (hfits : ∀ t ∈ tr, FitsAt budget c t) : Capped budget c s'.store :=
  Pool.run_invariant hrun hs hfits fun _ _ hq h => h.perform hq

/-- From an empty ledger on, in any interleaving, the locked and disbursed amounts of a campaign
stay within its budget exactly as long as its reissues fit into what is left of it. -/
theorem budget_cap_exact {campaign : Campaign} {s : System}
    {tr : List (Transition System (Turn Op))} (hledger : db.ledger = [])
    (hcampaign : db.campaigns[c]? = some campaign) (hrun : Run (Step services) (idle db) tr s) :
    (WithinBudget campaign.budget c db ∧ ∀ t ∈ tr, WithinBudget campaign.budget c t.post.store) ↔
      ∀ t ∈ tr, FitsAt campaign.budget c t := by
  have hstart : Capped campaign.budget c db := Capped.of_ledger_nil hledger hcampaign
  constructor
  · rintro ⟨-, hwithin⟩ t ht q hq
    have hstore := Pool.Step.store_of_asked (hrun.step_of_mem ht) hq
    have hpost := hwithin t ht
    rw [hstore] at hpost
    exact ReissueFits.of_within hpost
  · intro hfits
    refine ⟨hstart.within, fun t ht => ?_⟩
    -- every state of the run is the last one of a shorter run
    obtain ⟨before, after, rfl⟩ := List.append_of_mem ht
    obtain ⟨hbefore, hstep, -⟩ := hrun.split
    have hupTo : Run (Step services) (idle db) (before ++ [t]) t.post := hbefore.snoc hstep
    refine (Capped.of_run hupTo hstart fun t' ht' => hfits t' ?_).within
    rcases List.mem_append.mp ht' with hmem | hmem
    · exact List.mem_append_left _ hmem
    · exact List.mem_append_right _ (List.mem_cons.mpr (.inl (List.mem_singleton.mp hmem)))

def fundedDb : Db := { campaigns := (∅ : ExtTreeMap CampaignId Campaign).insert 1 { budget := 100 } }

theorem fundedDb_campaign : fundedDb.campaigns[1]? = some { budget := 100 } := by
  rw [fundedDb, get_insert, if_pos rfl]

def claimOf40 : CreateClaimDto where
  campaignId := 1
  amount := 40
  recipientRef := "r"

def claimOf60 : CreateClaimDto where
  campaignId := 1
  amount := 60
  recipientRef := "r"

/-- A claim of 40 that is reissued with the amount `amount`. -/
def reissuedFor (amount : ℚ≥0) : List (Turn Op) :=
  [.start (.create claimOf40 7 0), .advance 0,
    .advance 0, .start (.reissue 7 { operatorId := "op", amount := some amount } 8 0), .advance 1,
    .advance 1]

theorem budget_cap_exact_reissuedFor : (played fundedDb (reissuedFor 100)).2.store.locked 1 = 100 ∧
      ∀ t ∈ (played fundedDb (reissuedFor 100)).1, FitsAt 100 1 t :=
  ⟨by decide +kernel,
    (budget_cap_exact rfl fundedDb_campaign (played_run fundedDb (reissuedFor 100))).mp
      (by decide +kernel)⟩

theorem reissue_overspends :
    fundedDb.ledger = [] ∧ fundedDb.campaigns[1]? = some { budget := 100 } ∧
      ∃ tr s, Run (Step plainServices) (idle fundedDb) tr s ∧ ¬ WithinBudget 100 1 s.store :=
  ⟨rfl, fundedDb_campaign, _, _, played_run fundedDb (reissuedFor 101), by decide +kernel⟩

end Cap
section Views
open Std Soter.Fallible Soter.Tasks Soter.Runs

variable {services : Services} {c : CampaignId} {db : Db} {a : ℚ}

/-- The reported balance has room for `a`. -/
def ReportsRoom (db : Db) (c : CampaignId) (a : ℚ) : Prop :=
  ∃ balance, getCampaignBalance db c = .ok balance ∧ a ≤ balance.availableBudget

instance : Decidable (ReportsRoom db c a) :=
  decidable_of_iff ((getCampaignBalance db c).toOption.any (a ≤ ·.availableBudget) = true) <| by
    simp only [ReportsRoom, Option.any_eq_true, toOption_eq_some, decide_eq_true_eq]

/-- The amounts that the two views judge alike. For a campaign in use these are all but the ones
that only the released amount makes room for; a deleted campaign reports no balance, so that the
reservation has to be refused for lack of budget. -/
def ViewsAgree (db : Db) (c : CampaignId) (a : ℚ) : Prop :=
  ∀ campaign, db.campaigns[c]? = some campaign →
    if campaign.deletedAt = none then
      ¬ (campaign.budget - db.total c .lock - db.disbursed c < a ∧
        a ≤ campaign.budget - db.total c .lock - db.disbursed c + db.released c)
    else campaign.budget < db.total c .lock + db.disbursed c + a

theorem reportsRoom_iff : ReportsRoom db c a ↔ ∃ campaign, db.campaigns[c]? = some campaign ∧
    campaign.deletedAt = none ∧ a ≤ campaign.budget - db.locked c - db.disbursed c := by
  simp only [ReportsRoom, getCampaignBalance_eq_ok]
  constructor
  · rintro ⟨balance, ⟨campaign, hcampaign, hlive, rfl⟩, ha⟩
    exact ⟨campaign, hcampaign, hlive, ha⟩
  · rintro ⟨campaign, hcampaign, hlive, ha⟩
    exact ⟨_, ⟨campaign, hcampaign, hlive, rfl⟩, ha⟩

theorem views_agree_iff (hunlocked : db.total c .unlock ≤ 0) :
    (reserveBudget db c a = .ok () ↔ ReportsRoom db c a) ↔ ViewsAgree db c a := by
  rw [reserveBudget_eq_ok, reportsRoom_iff]
  rcases Option.eq_none_or_eq_some db.campaigns[c]? with hnone | ⟨campaign, hcampaign⟩
  · simp [ViewsAgree, hnone]
  simp only [ViewsAgree, hcampaign, Option.some.injEq, exists_eq_left', forall_eq', Db.locked, Db.released]
  by_cases hlive : campaign.deletedAt = none
  · simp only [hlive, true_and, ↓reduceIte]
    constructor
    -- in the band the balance has room only by counting what was released
    · rintro hiff ⟨hover, hroom⟩
      have hreserved := hiff.mpr (by linarith)
      linarith
    · intro hband
      constructor
      · intro hreserved
        linarith
      · intro hroom
        by_contra hrefused
        exact hband ⟨by linarith, by linarith⟩
  · simp only [hlive, false_and, iff_false, ↓reduceIte]
    exact lt_iff_not_ge.symm

theorem unlocked_of_run {s : System} {tr : List (Transition System (Turn Op))}
    (hledger : db.ledger = []) (hrun : Run (Step services) (idle db) tr s) : s.store.total c .unlock ≤ 0 := by
  have hstart : db.total c .unlock ≤ 0 := by simp [Db.total, hledger, entriesOf]
  refine Pool.run_invariant (I := fun db => db.total c .unlock ≤ 0) (C := fun _ _ => True) hrun
    hstart (fun _ _ _ _ => trivial) fun q db _ h => ?_
  exact (perform_effect services q db).unlock_le.trans h

def cancelledClaim : List (Turn Op) :=
  [.start (.create claimOf60 7 0), .advance 0,
    .advance 0, .start (.cancel 7 { operatorId := "op" } 0), .advance 1, .advance 1]

end Views
end Soter.Claims
