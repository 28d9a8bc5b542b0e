import Mathlib
import Soter.Claims.BudgetCap
import Soter.Claims.Handlers

/-! What a campaign has locked against what its claims hold. The check that a claim may still be
cancelled is made before the transaction that releases its amount, and an archived claim is released
by nobody. -/
namespace Soter.Claims
open Std Soter.Fallible Soter.Tasks Soter.Runs Soter.MapSum

variable {services : Services} {db db' : Db} {q : Query} {c : CampaignId} {id : ClaimId}

def ClaimStatus.holdsFunds : ClaimStatus → Bool
  | .requested | .verified | .approved | .disbursed => true
  | .archived | .cancelled => false

def Claim.held (claim : Claim) : ℚ := if claim.status.holdsFunds then claim.amount else 0

def Claim.heldIn (claim : Claim) (c : CampaignId) : ℚ :=
  if claim.campaignId = c then claim.held else 0

def Db.held (db : Db) (c : CampaignId) : ℚ := sumOver (fun _ claim => claim.heldIn c) db.claims

def Db.entryCount (db : Db) (id : ClaimId) (eventType : EventType) : ℕ :=
  db.ledger.countP fun entry => entry.claimId = some id ∧ entry.eventType = eventType

/-- The locked amounts are those of the claims that hold funds, each locked once and released at
most once. -/
structure HoldingsExact (db : Db) : Prop where
  balance : ∀ c, db.locked c = db.held c
  locks : ∀ id claim, db.claims[id]? = some claim → db.entryCount id .lock = 1
  unlocks : ∀ id, db.entryCount id .unlock ≤ 1

def Releasable (db : Db) (id : ClaimId) (row : Claim) : Prop :=
  row.held = row.amount ∧ db.entryCount id .unlock = 0

/-- A cancellation finds its claim unreleased; any other write of a status leaves what the claim
holds as it is. -/
def Query.Settles : Query → Db → Prop
  | .cancel id _ _ _, db => ∀ row, db.claims[id]? = some row → Releasable db id row
  | .reissue id _ _ newId _, db => ∀ row, db.claims[id]? = some row → db.claims[newId]? = none →
      Releasable db id row
  | .setStatus id status, db | .recordVerification id status _, db =>
    ∀ row, db.claims[id]? = some row → { row with status }.held = row.held
  | _, _ => True

def RowsKept (db db' : Db) : Prop :=
  ∀ (id : ClaimId) (row : Claim), db.claims[id]? = some row → ∃ row', db'.claims[id]? = some row' ∧
    row'.campaignId = row.campaignId ∧ row'.amount = row.amount

theorem RowsKept.refl (db : Db) : RowsKept db db := fun _ row h => ⟨row, h, rfl, rfl⟩

theorem RowsKept.trans {db₁ db₂ db₃ : Db} (h : RowsKept db₁ db₂) (h' : RowsKept db₂ db₃) :
    RowsKept db₁ db₃ := by
  intro id row hrow
  obtain ⟨row', hrow', hcampaign, hamount⟩ := h id row hrow
  obtain ⟨row'', hrow'', hcampaign', hamount'⟩ := h' id row' hrow'
  exact ⟨row'', hrow'', hcampaign'.trans hcampaign, hamount'.trans hamount⟩

theorem perform_rowsKept (services : Services) (q : Query) (db : Db) :
    RowsKept db (perform services q db).2 := by
  intro id row hrow
  obtain ⟨row', hrow', hrewrites⟩ := (perform_rows services q db).row hrow
  exact ⟨row', hrow', hrewrites.campaign, hrewrites.amount⟩

def Db.gap (db : Db) (c : CampaignId) : ℚ := db.locked c - db.held c

theorem gap_update {row row' : Claim} (hrow : db.claims[id]? = some row) :
    { db with claims := db.claims.insert id row' }.gap c =
      db.gap c + (row.heldIn c - row'.heldIn c) := by
  have hheld : { db with claims := db.claims.insert id row' }.held c =
      db.held c - row.heldIn c + row'.heldIn c := sumOver_update _ _ id row row' hrow
  have hlocked : { db with claims := db.claims.insert id row' }.locked c = db.locked c := rfl
  rw [Db.gap, Db.gap, hheld, hlocked]
  ring

theorem gap_new {row : Claim} (hfresh : db.claims[id]? = none) :
    { db with claims := db.claims.insert id row }.gap c = db.gap c - row.heldIn c := by
  have hheld : { db with claims := db.claims.insert id row }.held c = db.held c + row.heldIn c :=
    sumOver_insert_new _ _ id row hfresh
  have hlocked : { db with claims := db.claims.insert id row }.locked c = db.locked c := rfl
  rw [Db.gap, Db.gap, hheld, hlocked]
  ring

theorem gap_createEntry {entry : LedgerEntry} (htype : entry.eventType = .lock ∨ entry.eventType = .unlock) :
    (db.createEntry entry).gap c = db.gap c + if entry.campaignId = c then entry.amount else 0 := by
  have hheld : (db.createEntry entry).held c = db.held c := rfl
  rw [Db.gap, Db.gap, hheld, Db.locked, Db.locked, total_createEntry, total_createEntry]
  rcases htype with h | h <;> simp only [h, and_true, and_false, reduceCtorEq, if_false] <;> ring

@[simp] theorem entryCount_claims (claims : ExtTreeMap ClaimId Claim) (a : ClaimId)
    (e : EventType) : { db with claims }.entryCount a e = db.entryCount a e := rfl

theorem entryCount_createEntry (entry : LedgerEntry) (a : ClaimId) (e : EventType) : (db.createEntry entry).entryCount a e =
      db.entryCount a e + if entry.claimId = some a ∧ entry.eventType = e then 1 else 0 := by
  simp only [Db.entryCount, Db.createEntry, List.countP_append, List.countP_singleton, decide_eq_true_eq]

section Effects

/-- The row that a cancellation releases is the one its handler read, as far as the ledger goes. -/
def Query.ReadsRow : Query → Db → Prop
  | .cancel id claim _ _, db | .reissue id claim _ _ _, db =>
    ∃ row, db.claims[id]? = some row ∧ row.campaignId = claim.campaignId ∧
      row.amount = claim.amount
  | _, _ => True

/-- What a request does to the books: by how much locked and held drift apart, which claim is new
and which one is released. `settles` says when the books stay right. -/
structure HoldingEffect (db db' : Db) (q : Query) (drift : CampaignId → ℚ)
    (new released : Option ClaimId) : Prop where
  gap : ∀ c, db'.gap c = db.gap c + drift c
  locks : ∀ id, db'.entryCount id .lock = db.entryCount id .lock + if new = some id then 1 else 0
  unlocks : ∀ id,
    db'.entryCount id .unlock = db.entryCount id .unlock + if released = some id then 1 else 0
  rows : ∀ id, db'.claims[id]? = none ↔ db.claims[id]? = none ∧ new ≠ some id
  fresh : ∀ id, new = some id → db.claims[id]? = none
  present : ∀ id, released = some id → db.claims[id]? ≠ none
  settles : q.Settles db ↔
    (∀ c, drift c = 0) ∧ ∀ id, released = some id → db.entryCount id .unlock = 0

variable {row claim : Claim} {now : Time} {res : Claim × Db}

theorem HoldingEffect.unchanged (h : q.Settles db) : HoldingEffect db db q (fun _ => 0) none none where
  gap _ := (add_zero _).symm
  locks _ := by simp
  unlocks _ := by simp
  rows _ := by simp
  fresh _ h := by cases h
  present _ h := by cases h
  settles := by simp [h]

theorem HoldingEffect.update {row' : Claim} (hrow : db.claims[id]? = some row)
    (hsettles : q.Settles db ↔ row'.held = row.held) (hcampaign : row'.campaignId = row.campaignId) :
    HoldingEffect db { db with claims := db.claims.insert id row' } q
      (fun c => row.heldIn c - row'.heldIn c) none none where
  gap _ := gap_update hrow
  locks _ := by simp
  unlocks _ := by simp
  rows a := by
    rw [get_insert]
    by_cases ha : a = id
    · simp [ha, hrow]
    · simp [ha]
  fresh _ h := by cases h
  present _ h := by cases h
  settles := by
    simp only [reduceCtorEq, false_implies, implies_true, and_true, hsettles]
    constructor
    · intro h c
      simp only [Claim.heldIn, hcampaign, h, sub_self]
    · intro h
      have hself := h row.campaignId
      simp only [Claim.heldIn, hcampaign, if_true] at hself
      linarith

theorem held_of_cancelled (h : claim.status = .cancelled) : claim.held = 0 := by
  simp [Claim.held, h, ClaimStatus.holdsFunds]

theorem held_of_requested (h : claim.status = .requested) : claim.held = claim.amount := by
  simp [Claim.held, h, ClaimStatus.holdsFunds]

theorem drift_eq_zero : (∀ c, (if row.campaignId = c then row.held - row.amount else 0) = 0) ↔ row.held = row.amount := by
  constructor
  · intro h
    have hself := h row.campaignId
    rw [if_pos rfl] at hself
    linarith
  · intro h c
    simp only [h, sub_self, ite_self]

theorem createTx_holding {dto : CreateClaimDto} (h : createTx services dto id now db = .ok res) :
    HoldingEffect db res.2 (.create dto id now) (fun _ => 0) (some id) none := by
  simp only [createTx, bind_eq_ok, exists_unit, pure_eq_ok] at h
  obtain ⟨-, db₁, hcreate, rfl⟩ := h
  obtain ⟨hfresh, rfl⟩ := createClaim_eq_ok.mp hcreate
  refine ⟨fun c => ?_, fun a => ?_, fun a => ?_, fun a => ?_, fun a ha => ?_, ?_, ?_⟩
  · rw [gap_createEntry (.inl rfl), gap_new hfresh]
    simp only [Claim.heldIn, held_of_requested]
    ring
  · simp [entryCount_createEntry]
  · simp [entryCount_createEntry]
  · simp only [Db.createEntry, get_insert]
    by_cases ha : a = id
    · simp [ha]
    · simp [ha, Ne.symm ha]
  · cases ha
    exact hfresh
  · simp
  · simp [Query.Settles]

theorem cancelTx_holding {dto : CancelClaimDto} (h : cancelTx id claim dto now db = .ok res)
    (hrow : db.claims[id]? = some row) (hcampaign : row.campaignId = claim.campaignId)
    (hamount : row.amount = claim.amount) : HoldingEffect db res.2 (.cancel id claim dto now)
      (fun c => if row.campaignId = c then row.held - row.amount else 0) none (some id) := by
  simp only [cancelTx, bind_eq_ok, pure_eq_ok] at h
  obtain ⟨updated, hupdate, rfl⟩ := h
  obtain ⟨row', hrow', rfl⟩ := updateClaim_eq_ok.mp hupdate
  rw [hrow] at hrow'
  cases hrow'
  refine ⟨fun c => ?_, fun a => ?_, fun a => ?_, fun a => ?_, fun a ha => ?_, fun a ha => ?_, ?_⟩
  · -- the row held its amount until now; the entry takes off what the handler read
    rw [gap_createEntry (.inr rfl), gap_update hrow]
    simp only [Claim.heldIn, held_of_cancelled, ← hcampaign, ← hamount]
    split_ifs <;> ring
  · simp [entryCount_createEntry]
  · simp [entryCount_createEntry]
  · simp only [Db.createEntry, get_insert]
    by_cases ha : a = id
    · simp [ha, hrow]
    · simp [ha]
  · cases ha
  · cases ha
    simp [hrow]
  · simp only [Query.Settles, Releasable, hrow, Option.some.injEq, forall_eq', drift_eq_zero]

theorem reissueTx_holding {original : Claim} {dto : ReissueClaimDto} {newId : ClaimId} {res : (Claim × Claim) × Db}
    (h : reissueTx services id original dto newId now db = .ok res)
    (hrow : db.claims[id]? = some row) (hcampaign : row.campaignId = original.campaignId)
    (hamount : row.amount = original.amount) : HoldingEffect db res.2 (.reissue id original dto newId now)
      (fun c => if row.campaignId = c then row.held - row.amount else 0) (some newId) (some id) := by
  have hfresh := (reissueTx_rows h).2
  have hne : newId ≠ id := by
    rintro rfl
    rw [hrow] at hfresh
    cases hfresh
  simp only [reissueTx, bind_eq_ok, pure_eq_ok] at h
  obtain ⟨updated, hupdate, db₁, hcreate, rfl⟩ := h
  obtain ⟨row', hrow', rfl⟩ := updateClaim_eq_ok.mp hupdate
  rw [hrow] at hrow'
  cases hrow'
  obtain ⟨hnew, rfl⟩ := createClaim_eq_ok.mp hcreate
  refine ⟨fun c => ?_, fun a => ?_, fun a => ?_, fun a => ?_, fun a ha => ?_, fun a ha => ?_, ?_⟩
  · -- the replacement holds what it locks, so that only the original counts
    rw [gap_createEntry (.inl rfl), gap_new hnew, gap_createEntry (.inr rfl), gap_update hrow]
    simp only [Claim.heldIn, held_of_cancelled, held_of_requested, ← hcampaign, ← hamount]
    split_ifs <;> ring
  · simp [entryCount_createEntry]
  · simp [entryCount_createEntry]
  · simp only [Db.createEntry, get_insert]
    by_cases ha : a = newId
    · simp [ha]
    · by_cases ha' : a = id
      · simp [ha', hne, hne.symm, hrow]
      · simp [ha, ha', Ne.symm ha]
  · cases ha
    exact hfresh
  · cases ha
    simp [hrow]
  · simp only [Query.Settles, Releasable, hrow, hfresh, Option.some.injEq, forall_eq', drift_eq_zero, forall_const]

theorem perform_holding (services : Services) (hread : q.ReadsRow db) :
    ∃ drift new released, HoldingEffect db (perform services q db).2 q drift new released := by
  have hupdate {id : ClaimId} {data : Claim → Claim} {q : Query}
      (hdata : ∀ row, db.claims[id]? = some row → (data row).campaignId = row.campaignId)
      (hsettles : q.Settles db ↔ ∀ row, db.claims[id]? = some row → (data row).held = row.held) :
      ∃ drift new released, HoldingEffect db (commit (db.updateClaim id data) db).2 q drift new
        released := by
    cases hrow : db.claims[id]? with
    | none =>
      have hfail : db.updateClaim id data = .error .recordNotFound := by
        simp [Db.updateClaim, hrow, orFail]
      rw [hfail]
      exact ⟨_, _, _, .unchanged (hsettles.mpr fun row h => by rw [hrow] at h; cases h)⟩
    | some row =>
      have hdone : db.updateClaim id data =
          .ok (data row, { db with claims := db.claims.insert id (data row) }) :=
        updateClaim_eq_ok.mpr ⟨row, hrow, rfl⟩
      rw [hdone]
      refine ⟨_, _, _, .update hrow ?_ (hdata row hrow)⟩
      simp only [hsettles, hrow, Option.some.injEq, forall_eq']
  cases q with
  | findCampaign id | findClaim id | findExpiredClaims now => exact ⟨_, _, _, .unchanged trivial⟩
  | create dto newId now =>
    rw [perform]
    rcases commit_cases (createTx services dto newId now db) db with
      ⟨e, -, hstore⟩ | ⟨claim, db', htx, hstore⟩
    · rw [hstore]
      exact ⟨_, _, _, .unchanged trivial⟩
    · rw [hstore]
      exact ⟨_, _, _, createTx_holding htx⟩
  | cancel id claim dto now =>
    obtain ⟨row, hrow, hcampaign, hamount⟩ := hread
    rw [perform]
    rcases commit_cases (cancelTx id claim dto now db) db with
      ⟨e, hfail, -⟩ | ⟨claim', db', htx, hstore⟩
    · simp [cancelTx, Db.updateClaim, hrow, orFail] at hfail
    · rw [hstore]
      exact ⟨_, _, _, cancelTx_holding htx hrow hcampaign hamount⟩
  | reissue originalId original dto newId now =>
    obtain ⟨row, hrow, hcampaign, hamount⟩ := hread
    rw [perform]
    rcases commit_cases (reissueTx services originalId original dto newId now db) db with
      ⟨e, hfail, hstore⟩ | ⟨pair, db', htx, hstore⟩
    · rw [hstore]
      refine ⟨_, _, _, .unchanged fun row' _ hfresh => ?_⟩
      have hpresent : db.claims[originalId]? ≠ none := by simp [hrow]
      obtain ⟨res, hres⟩ := reissueTx_commits services original dto now hpresent hfresh
      rw [hres] at hfail
      cases hfail
    · rw [hstore]
      exact ⟨_, _, _, reissueTx_holding htx hrow hcampaign hamount⟩
  | setStatus id status => exact hupdate (fun _ _ => rfl) Iff.rfl
  | setReceiptPointer id receiptPointer =>
    exact hupdate (fun _ _ => rfl) (by simp [Query.Settles, Claim.held])
  | recordVerification id status result => exact hupdate (fun _ _ => rfl) Iff.rfl

end Effects
section Runs

def Unissued (db : Db) : Prop :=
  ∀ id : ClaimId, db.claims[id]? = none → db.entryCount id .lock = 0

variable {drift : CampaignId → ℚ} {new released : Option ClaimId}

theorem HoldingEffect.unissued (h : HoldingEffect db db' q drift new released) (hunissued : Unissued db) : Unissued db' := by
  intro id hid
  obtain ⟨hnone, hnew⟩ := (h.rows id).mp hid
  rw [h.locks, if_neg hnew, hunissued id hnone]

theorem HoldingEffect.exact_iff (h : HoldingEffect db db' q drift new released)
    (hunissued : Unissued db) (hexact : HoldingsExact db) : HoldingsExact db' ↔ q.Settles db := by
  have hgap (c : CampaignId) : db.gap c = 0 := sub_eq_zero.mpr (hexact.balance c)
  rw [h.settles]
  constructor
  · intro hexact'
    refine ⟨fun c => ?_, fun id hid => ?_⟩
    · have hgap' : db'.gap c = 0 := sub_eq_zero.mpr (hexact'.balance c)
      have hdrift := h.gap c
      rw [hgap', hgap, zero_add] at hdrift
      exact hdrift.symm
    · have hcount := h.unlocks id
      have hle := hexact'.unlocks id
      rw [if_pos hid] at hcount
      omega
  · rintro ⟨hdrift, hreleased⟩
    refine ⟨fun c => ?_, fun id claim hclaim => ?_, fun id => ?_⟩
    · have hgap' : db'.gap c = 0 := by rw [h.gap, hgap, hdrift, add_zero]
      exact sub_eq_zero.mp hgap'
    · -- a new claim has its one entry from now on, an old one keeps it
      rw [h.locks]
      by_cases hnew : new = some id
      · rw [if_pos hnew, hunissued id (h.fresh id hnew)]
      · have hold : db.claims[id]? ≠ none := fun hnone => by
          rw [(h.rows id).mpr ⟨hnone, hnew⟩] at hclaim
          cases hclaim
        obtain ⟨row, hrow⟩ := Option.ne_none_iff_exists'.mp hold
        rw [if_neg hnew, hexact.locks id row hrow]
    · rw [h.unlocks]
      by_cases hid : released = some id
      · rw [if_pos hid, hreleased id hid]
      · rw [if_neg hid]
        exact hexact.unlocks id

theorem checkCancellable_eq_ok {subject cannot may : String} {found : Option Claim}
    {claim : Claim} (h : checkCancellable subject cannot may found = .ok claim) :
    found = some claim ∧ claim.status ∈ cancellableStatuses := by
  simp only [checkCancellable, bind_eq_ok, exists_unit, require_eq_ok, orFail_eq_ok, pure_eq_ok] at h
  obtain ⟨row, hrow, -, hstatus, rfl⟩ := h
  exact ⟨(Option.filter_eq_some_iff.mp hrow).1, hstatus⟩

theorem readsRow_keeps (services : Services) (op : Op) (db : Db) :
    (op.body services).Keeps (perform services) RowsKept Unissued (fun _ _ => True) Query.ReadsRow (fun _ _ => True) db := by
  have hnoRow {α : Type} {h : Handler α} {db : Db} {P : Query → Prop} (hP : ∀ q db, P q → q.ReadsRow db) (hasks : h.Asks P) :
      h.Keeps (perform services) RowsKept Unissued (fun _ _ => True) Query.ReadsRow (fun _ _ => True) db :=
    .of_asks hP (fun _ _ => trivial) hasks
  have hnothing (q : Query) (db : Db) (h : False) : q.ReadsRow db := h.elim
  cases op with
  | cancel id dto now =>
    refine Task.Keeps.bind_result RowsKept.refl (fun _ => ⟨_, rfl⟩) fun db' _ _ _ => ⟨trivial, ?_⟩
    refine .bind_done (fun found hfound => ?_) fun _ _ _ _ _ => trivial
    cases hfound
    refine .bind_done (fun claim hclaim => ?_) fun _ _ _ _ _ => trivial
    obtain ⟨hrow, -⟩ := checkCancellable_eq_ok hclaim
    refine fun db'' hmoved _ _ => ⟨hmoved id claim hrow, hnoRow hnothing ?_⟩
    exact Task.Asks.bind (fun _ => asks_decrypted) (Task.asks_done _)
  | reissue originalId dto newId now =>
    refine Task.Keeps.bind_result RowsKept.refl (fun _ => ⟨_, rfl⟩) fun db' _ _ _ => ⟨trivial, ?_⟩
    refine .bind_done (fun found hfound => ?_) fun _ _ _ _ _ => trivial
    cases hfound
    refine .bind_done (fun original horiginal => ?_) fun _ _ _ _ _ => trivial
    obtain ⟨hrow, -⟩ := checkCancellable_eq_ok horiginal
    refine fun db'' hmoved _ _ => ⟨hmoved originalId original hrow, hnoRow hnothing ?_⟩
    refine Task.Asks.bind (fun pair => ?_) (Task.asks_done _)
    refine Task.Asks.bind (fun _ => ?_) asks_decrypted
    exact Task.Asks.bind (fun _ => Task.asks_done _) asks_decrypted
  | create dto newId now | verify id | approve id => exact hnoRow (fun q db h => by cases h <;> trivial) (body_asks _ _)
  | disburse id receiptPointer =>
    exact hnoRow (fun q db h => by cases h <;> trivial) (body_asks _ _)
  | archive id => exact hnoRow (fun q db h => by cases h <;> trivial) (body_asks _ _)
  | cleanupExpiredClaims now onchain audit =>
    exact hnoRow (fun q db h => by cases h <;> trivial) (body_asks _ _)
  | processVerification id score =>
    exact hnoRow (fun q db h => by cases h <;> trivial) (body_asks _ _)

/-- In every interleaving, the locked amounts are those of the claims that hold funds, at every
point, exactly as long as every request settles what it touches. -/
theorem locked_balance_exact {s : System} {tr : List (Transition System (Turn Op))}
    (hledger : db.ledger = []) (hclaims : db.claims = ∅) (hrun : Run (Step services) (idle db) tr s) :
    (HoldingsExact db ∧ ∀ t ∈ tr, HoldingsExact t.post.store) ↔
      ∀ t ∈ tr, ∀ q, t.pre.asked t.label = some q → q.Settles t.pre.store := by
  have hstart : HoldingsExact db := by
    refine ⟨fun c => ?_, fun id claim h => ?_, fun id => ?_⟩
    · rw [Db.held, hclaims, sumOver_empty]
      simp [Db.locked, Db.total, hledger, entriesOf]
    · simp [hclaims] at h
    · simp [Db.entryCount, hledger]
  have hunissued : Unissued db := fun id _ => by simp [Db.entryCount, hledger]
  have hserve (op : Op) (q : Query) (db : Db) (hissued : Unissued db) (_ : True)
      (hread : q.ReadsRow db) :
      RowsKept db (perform services q db).2 ∧ Unissued (perform services q db).2 := by
    obtain ⟨_, _, _, heffect⟩ := perform_holding services hread
    exact ⟨perform_rowsKept services q db, heffect.unissued hissued⟩
  have hiff : (∀ t ∈ tr, HoldingsExact t.post.store) ↔
      ∀ t ∈ tr, ∀ q, t.pre.asked t.label = some q → q.Settles t.pre.store := by
    refine hrun.forall_post_iff (I := fun p => HoldingsExact p.store) hstart fun t ht hexact => ?_
    have hkept := (Pool.Kept.run RowsKept.refl (fun _ _ _ => RowsKept.trans)
      (fun op db _ => readsRow_keeps services op db) hserve hrun (Pool.Kept.idle hunissued)
      (fun _ _ _ _ _ => trivial) ht).1
    rcases (hrun.step_of_mem ht).request_cases with ⟨hnone, hstore⟩ | ⟨op, q, hrequest, hstore⟩
    · rw [Pool.asked_of_no_request hnone, hstore]
      simp [hexact]
    · obtain ⟨_, _, _, heffect⟩ :=
        perform_holding services (hkept.request RowsKept.refl hrequest trivial)
      rw [hstore, Pool.asked_of_request hrequest, heffect.exact_iff hkept.store hexact]
      simp
  exact ⟨fun h => hiff.mp h.2, fun h => ⟨hstart, hiff.mpr h⟩⟩

def cancelledTwice : List (Turn Op) :=
  [.start (.create claimOf60 7 0), .advance 0,
    .advance 0, .start (.cancel 7 { operatorId := "op1" } 0),
    .start (.cancel 7 { operatorId := "op2" } 0), .advance 1, .advance 2, .advance 1, .advance 2]

theorem locked_balance_exact_cancelledTwice :
    ¬ ∀ t ∈ (played fundedDb cancelledTwice).1, ∀ q, t.pre.asked t.label = some q → q.Settles t.pre.store := by
  intro hsettles
  have hexact := ((locked_balance_exact rfl rfl (played_run fundedDb cancelledTwice)).mpr hsettles).2
  have hbalance : ∀ t ∈ (played fundedDb cancelledTwice).1,
      t.post.store.locked 1 = t.post.store.held 1 := fun t ht => (hexact t ht).balance 1
  exact absurd hbalance (by decide +kernel)

/-- The amount is released twice: with no call under way, the campaign has less than nothing
locked. -/
theorem cancelledTwice_not_exact : fundedDb.ledger = [] ∧ fundedDb.claims = ∅ ∧
      ∃ tr s, Run (Step plainServices) (idle fundedDb) tr s ∧ s.Quiet ∧ ¬ HoldingsExact s.store := by
  refine ⟨rfl, rfl, _, _, played_run fundedDb cancelledTwice, by decide +kernel, fun h => ?_⟩
  exact absurd (h.balance 1) (by decide +kernel)

end Runs
end Soter.Claims
