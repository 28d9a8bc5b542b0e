import Soter.Claims.Holdings

/-! The statuses of a claim as a state machine. Every handler but the verification pipeline checks
the status before it writes one, on a row that it read earlier. -/
namespace Soter.Claims
open Std Soter.Fallible Soter.Tasks Soter.Runs Soter.MapSum

variable {services : Services} {db : Db} {op : Op} {q : Query} {id : ClaimId}

/-- The moves that a claim is meant to make; `op` is the call that makes it. -/
inductive StatusMove (op : Op) : ClaimStatus → ClaimStatus → Prop
  | verified : StatusMove op .requested .verified
  | sentBack : StatusMove op .verified .requested
  | approved : StatusMove op .verified .approved
  | disbursed : StatusMove op .approved .disbursed
  | archived : StatusMove op .disbursed .archived
  | cancelled {status : ClaimStatus} (admitted : status ∈ cancellableStatuses) :
      StatusMove op status .cancelled
  | expired {status : ClaimStatus} (admitted : status = .requested ∨ status = .verified)
      (cleanup : ∃ now onchain audit, op = .cleanupExpiredClaims now onchain audit) :
      StatusMove op status .archived

/-- The check with which a call admits a claim to its write. `processVerification` makes none; it is
meant for claims that wait for approval. -/
def Op.Admits : Op → ClaimStatus → Prop
  | .create .., _ => False
  | .cancel .., status | .reissue .., status => status ∈ cancellableStatuses
  | .verify _, status => status = .requested
  | .approve _, status => status = .verified
  | .disburse .., status => status = .approved
  | .archive _, status => status = .disbursed
  | .cleanupExpiredClaims .., status | .processVerification .., status =>
    status = .requested ∨ status = .verified

instance : ∀ (op : Op) (status : ClaimStatus), Decidable (op.Admits status)
  | .create .., _ => inferInstanceAs (Decidable False)
  | .cancel .., status | .reissue .., status =>
    inferInstanceAs (Decidable (status ∈ cancellableStatuses))
  | .verify _, status => inferInstanceAs (Decidable (status = .requested))
  | .approve _, status => inferInstanceAs (Decidable (status = .verified))
  | .disburse .., status => inferInstanceAs (Decidable (status = .approved))
  | .archive _, status => inferInstanceAs (Decidable (status = .disbursed))
  | .cleanupExpiredClaims .., status | .processVerification .., status =>
    inferInstanceAs (Decidable (status = .requested ∨ status = .verified))

/-- The check of the call still passes on the row that its request is about to overwrite. -/
def StillAdmits (op : Op) (q : Query) (db : Db) : Prop :=
  ∀ id status, q.writes = some (id, status) → ∀ row : Claim, db.claims[id]? = some row →
    op.Admits row.status

/-- `t` writes the status `status` to the claim `id`. -/
def Enters (t : Transition System (Turn Op)) (id : ClaimId) (status : ClaimStatus) : Prop :=
  t.pre.asked t.label = some (.setStatus id status) ∧ t.pre.store.claims[id]? ≠ none

structure FollowsMachine (tr : List (Transition System (Turn Op))) : Prop where
  /-- Claims stay, and a status changes by a move only. -/
  moves : ∀ t ∈ tr, ∀ (id : ClaimId) (row : Claim), t.pre.store.claims[id]? = some row →
    ∃ row', t.post.store.claims[id]? = some row' ∧ (row'.status = row.status ∨
      ∃ op q, t.pre.request t.label = some (op, q) ∧ StatusMove op row.status row'.status)
  born : ∀ t ∈ tr, ∀ (id : ClaimId) (row : Claim), t.pre.store.claims[id]? = none →
    t.post.store.claims[id]? = some row → row.status = .requested
  /-- Whatever comes later, a cancelled or archived claim stays one, and a disbursed claim is
  disbursed or archived. -/
  final : ∀ before t after u, tr = before ++ t :: after → u ∈ t :: after →
    ∀ (id : ClaimId) (row : Claim), t.post.store.claims[id]? = some row →
      (row.status = .cancelled ∨ row.status = .archived ∨ row.status = .disbursed) →
        ∃ row', u.post.store.claims[id]? = some row' ∧ (row'.status = row.status ∨
          row.status = .disbursed ∧ row'.status = .archived)
  once : ∀ before t between u after, tr = before ++ t :: between ++ u :: after →
    ∀ id, (Enters t id .approved → ¬ Enters u id .approved) ∧
      (Enters t id .disbursed → ¬ Enters u id .disbursed)

section Steps

variable {row : Claim} {status : ClaimStatus}

theorem statusMove_of_admits (hasks : op.Asks q) (hwrites : q.writes = some (id, status)) (hadmits : op.Admits row.status) :
    status = row.status ∨ StatusMove op row.status status := by
  cases hasks with
  | findCampaign | create | findCancelled | findReissued | findVerified | findApproved
  | findDisbursed | pointToReceipt | findArchived | findExpired | findProcessed => cases hwrites
  | cancel claim =>
    cases hwrites
    exact .inr (.cancelled hadmits)
  | reissue original =>
    cases hwrites
    exact .inr (.cancelled hadmits)
  | verify =>
    cases hwrites
    rw [show row.status = .requested from hadmits]
    exact .inr .verified
  | approve =>
    cases hwrites
    rw [show row.status = .verified from hadmits]
    exact .inr .approved
  | disburse =>
    cases hwrites
    rw [show row.status = .approved from hadmits]
    exact .inr .disbursed
  | archive =>
    cases hwrites
    rw [show row.status = .disbursed from hadmits]
    exact .inr .archived
  | expire id =>
    cases hwrites
    exact .inr (.expired hadmits ⟨_, _, _, rfl⟩)
  | process status result houtcome =>
    cases hwrites
    -- the outcome is one of the two statuses between which the pipeline may move a claim
    rcases hadmits with h | h <;> rw [h] <;> rcases houtcome with rfl | rfl
    · exact .inr .verified
    · exact .inl rfl
    · exact .inl rfl
    · exact .inr .sentBack

variable {s : System} {tr : List (Transition System (Turn Op))}
  {t u : Transition System (Turn Op)}

def AdmitsAt (t : Transition System (Turn Op)) : Prop :=
  ∀ op q, t.pre.request t.label = some (op, q) → StillAdmits op q t.pre.store

instance : Decidable (AdmitsAt t) :=
  decidable_of_iff (∀ r ∈ t.pre.request t.label, ∀ w ∈ r.2.writes,
      ∀ row ∈ t.pre.store.claims[w.1]?, r.1.Admits row.status) <| by
    simp only [AdmitsAt, StillAdmits, Option.mem_def, Prod.forall]

theorem Run.moves (hrun : Run (Step services) (idle db) tr s) (ht : t ∈ tr) (hadmits : AdmitsAt t) (hrow : t.pre.store.claims[id]? = some row) :
    ∃ row', t.post.store.claims[id]? = some row' ∧ (row'.status = row.status ∨
      ∃ op q, t.pre.request t.label = some (op, q) ∧ StatusMove op row.status row'.status) := by
  rcases (hrun.step_of_mem ht).request_cases with ⟨-, hstore⟩ | ⟨op, q, hrequest, hstore⟩
  · exact ⟨row, by rw [hstore, hrow], .inl rfl⟩
  · obtain ⟨row', hrow', hrewrites⟩ := (perform_rows services q t.pre.store).row hrow
    refine ⟨row', by rw [hstore, hrow'], ?_⟩
    rcases hrewrites.status with hsame | hwrites
    · exact .inl hsame
    · have hasks : op.Asks q := Pool.asks_of_run (body_asks services) hrun ht hrequest
      rcases statusMove_of_admits hasks hwrites (hadmits op q hrequest id _ hwrites row hrow) with
        hsame | hmove
      · exact .inl hsame
      · exact .inr ⟨op, q, hrequest, hmove⟩

def Closed (P : ClaimStatus → Prop) : Prop := ∀ op a b, StatusMove op a b → P a → P b

theorem Run.stays {P : ClaimStatus → Prop} (hclosed : Closed P)
    (hrun : Run (Step services) (idle db) tr s) (hadmits : ∀ t ∈ tr, AdmitsAt t)
    {before after : List (Transition System (Turn Op))} (htr : tr = before ++ t :: after)
    (hu : u ∈ after) (hrow : t.post.store.claims[id]? = some row) (hP : P row.status) :
    (∃ row', u.pre.store.claims[id]? = some row' ∧ P row'.status) ∧
      ∃ row', u.post.store.claims[id]? = some row' ∧ P row'.status := by
  subst htr
  have hafter := hrun.split.2.2
  refine hafter.invariant_at (I := fun p => ∃ row', p.store.claims[id]? = some row' ∧ P row'.status)
    (C := fun t' => t' ∈ before ++ t :: after) ⟨row, hrow, hP⟩ (fun t' ht' => by simp [ht']) ?_ hu
  rintro t' - ht' ⟨row', hrow', hP'⟩
  obtain ⟨row'', hrow'', hstatus⟩ := Run.moves hrun ht' (hadmits t' ht') hrow'
  refine ⟨row'', hrow'', ?_⟩
  rcases hstatus with hsame | ⟨op, q, -, hmove⟩
  · rw [hsame]
    exact hP'
  · exact hclosed op _ _ hmove hP'

theorem closed_cancelled : Closed (· = .cancelled) := by
  rintro op a b hmove rfl
  cases hmove with
  | cancelled hadmitted => exact absurd hadmitted (by decide)
  | expired hadmitted => simp at hadmitted

theorem closed_archived : Closed (· = .archived) := by
  rintro op a b hmove rfl
  cases hmove with
  | cancelled hadmitted => exact absurd hadmitted (by decide)
  | expired hadmitted => simp at hadmitted

theorem closed_disbursed : Closed fun status => status = .disbursed ∨ status = .archived := by
  rintro op a b hmove (rfl | rfl)
  · cases hmove with
    | archived => exact .inr rfl
    | cancelled hadmitted => exact absurd hadmitted (by decide)
    | expired hadmitted => simp at hadmitted
  · exact .inr (closed_archived op _ b hmove rfl)

theorem closed_approved : Closed fun status => status ≠ .requested ∧ status ≠ .verified := by
  rintro op a b hmove ⟨hrequested, hverified⟩
  cases hmove <;> simp_all

theorem closed_left_approved :
    Closed fun status => status ≠ .requested ∧ status ≠ .verified ∧ status ≠ .approved := by
  rintro op a b hmove ⟨hrequested, hverified, happroved⟩
  cases hmove <;> simp_all

theorem Enters.admitted (hrun : Run (Step services) (idle db) tr s)
    (ht : t ∈ tr) (hadmits : AdmitsAt t) (h : Enters t id status) :
    ∃ (op : Op) (row : Claim), op.Asks (.setStatus id status) ∧ t.pre.store.claims[id]? = some row ∧
      op.Admits row.status := by
  obtain ⟨op, hrequest⟩ := Pool.request_of_asked h.1
  obtain ⟨row, hrow⟩ := Option.ne_none_iff_exists'.mp h.2
  exact ⟨op, row, Pool.asks_of_run (body_asks services) hrun ht hrequest, hrow, hadmits op _ hrequest id status rfl row hrow⟩

theorem Enters.entered (hrun : Run (Step services) (idle db) tr s) (ht : t ∈ tr) (h : Enters t id status) :
    ∃ row, t.post.store.claims[id]? = some row ∧ row.status = status := by
  obtain ⟨row, hrow⟩ := Option.ne_none_iff_exists'.mp h.2
  have hdone : setStatusTx id status t.pre.store = .ok ({ row with status },
      { t.pre.store with claims := t.pre.store.claims.insert id { row with status } }) :=
    updateClaim_eq_ok.mpr ⟨row, hrow, rfl⟩
  rw [Pool.Step.store_of_asked (hrun.step_of_mem ht) h.1, perform, commit_ok hdone]
  exact ⟨{ row with status }, by rw [get_insert, if_pos rfl], rfl⟩

end Steps

/-- Every run whose writes are served while the checks of their calls still pass follows the
machine. -/
theorem status_machine {s : System} {tr : List (Transition System (Turn Op))}
    (hrun : Run (Step services) (idle db) tr s) (hadmits : ∀ t ∈ tr, AdmitsAt t) : FollowsMachine tr where
  moves t ht id row hrow := Run.moves hrun ht (hadmits t ht) hrow
  born t ht id row hnone hrow := by
    rcases (hrun.step_of_mem ht).request_cases with ⟨-, hstore⟩ | ⟨op, q, -, hstore⟩
    · rw [hstore, hnone] at hrow
      cases hrow
    · rw [hstore] at hrow
      exact (perform_rows services q t.pre.store).new_requested hnone hrow
  final before t after u htr hu id row hrow hfinal := by
    rcases List.mem_cons.mp hu with rfl | hu
    · exact ⟨row, hrow, .inl rfl⟩
    rcases hfinal with hstatus | hstatus | hstatus
    · obtain ⟨row', hrow', hstatus'⟩ := (Run.stays closed_cancelled hrun hadmits htr hu hrow hstatus).2
      exact ⟨row', hrow', .inl (hstatus'.trans hstatus.symm)⟩
    · obtain ⟨row', hrow', hstatus'⟩ := (Run.stays closed_archived hrun hadmits htr hu hrow hstatus).2
      exact ⟨row', hrow', .inl (hstatus'.trans hstatus.symm)⟩
    · obtain ⟨row', hrow', hstatus'⟩ :=
        (Run.stays closed_disbursed hrun hadmits htr hu hrow (.inl hstatus)).2
      refine ⟨row', hrow', hstatus'.imp (fun h => h.trans hstatus.symm) fun h => ⟨hstatus, h⟩⟩
  once before t between u after htr id := by
    have ht : t ∈ tr := by simp [htr]
    have hu : u ∈ tr := by simp [htr]
    have hlater : u ∈ between ++ u :: after := by simp
    have hcut : tr = before ++ t :: (between ++ u :: after) := by simp [htr]
    constructor
    · intro hfirst hsecond
      obtain ⟨row, hrow, hstatus⟩ := hfirst.entered hrun ht
      obtain ⟨row', hrow', hpast⟩ := (Run.stays closed_approved hrun hadmits hcut hlater hrow
        (by simp [hstatus])).1
      obtain ⟨op, row'', hasks, hrow'', hadmitted⟩ := hsecond.admitted hrun hu (hadmits u hu)
      rw [hrow'] at hrow''
      cases hrow''
      cases hasks
      exact hpast.2 hadmitted
    · intro hfirst hsecond
      obtain ⟨row, hrow, hstatus⟩ := hfirst.entered hrun ht
      obtain ⟨row', hrow', hpast⟩ := (Run.stays closed_left_approved hrun hadmits hcut hlater hrow
        (by simp [hstatus])).1
      obtain ⟨op, row'', hasks, hrow'', hadmitted⟩ := hsecond.admitted hrun hu (hadmits u hu)
      rw [hrow'] at hrow''
      cases hrow''
      cases hasks
      exact hpast.2.2 hadmitted

def cancelledInVerification : List (Turn Op) :=
  [.start (.create claimOf60 7 0), .advance 0,
    .advance 0, .start (.processVerification 7 1), .advance 1,
    .start (.cancel 7 { operatorId := "op" } 0), .advance 2, .advance 2, .advance 1]

def verifiedThenCancelled : List (Turn Op) :=
  [.start (.create claimOf60 7 0), .advance 0,
    .advance 0, .start (.processVerification 7 1), .advance 1, .advance 1,
    .start (.cancel 7 { operatorId := "op" } 0), .advance 2, .advance 2]

theorem status_machine_verifiedThenCancelled : FollowsMachine (played fundedDb verifiedThenCancelled).1 :=
  status_machine (played_run fundedDb verifiedThenCancelled) (by decide +kernel)

theorem cancelledInVerification_leaves_machine :
    ∃ tr s, Run (Step plainServices) (idle fundedDb) tr s ∧ ¬ FollowsMachine tr := by
  refine ⟨_, _, played_run fundedDb cancelledInVerification, fun h => ?_⟩
  have hmoves : ∀ t ∈ (played fundedDb cancelledInVerification).1, ∀ row ∈ t.pre.store.claims[7]?,
      row.status = .cancelled → ∀ row' ∈ t.post.store.claims[7]?, row'.status = .cancelled := by
    intro t ht row hrow hstatus row' hrow'
    obtain ⟨row'', hrow'', hmove⟩ := h.moves t ht 7 row hrow
    rw [Option.mem_def.mp hrow'] at hrow''
    cases hrow''
    rcases hmove with hsame | ⟨op, q, -, hmove⟩
    · rw [hsame, hstatus]
    · rw [hstatus] at hmove
      exact closed_cancelled op _ _ hmove rfl
  exact absurd hmoves (by decide +kernel)

end Soter.Claims
