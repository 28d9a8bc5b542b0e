import Soter.AidEscrow.Paths

/-! Batches of revocations and refunds against the same calls made one at a time. -/
namespace Soter.AidEscrow
open Std Soter.Fallible Soter.Runs

variable {τ : Type} {H : Host τ} {signers : List Address} {w w' : World τ} {admin : Address}

def oneByOne (H : Host τ) (signers : List Address) (call : ℕ → Call) (w : World τ)
    (ids : List ℕ) : World τ :=
  ids.foldl (fun u id => afterCall H signers u (call id)) w

structure Reports (H : Host τ) (signers : List Address) (call : Call) (u : World τ) (id : ℕ)
    (r : BatchAdminActionResult) : Prop where
  packageId : r.packageId = id
  success : r.status = .success ↔ ∃ v, exec H signers u call = .ok v
  paid : r.status = .success → ∃ p, u.store.packages[id]? = some p ∧ r.amount = p.amount
  unpaid : r.status ≠ .success → r.amount = 0
  untouched : r.status ≠ .success → afterCall H signers u call = u

section Items

variable {c : Call} {id : ℕ} {p : Package} {v : World τ}

theorem alike_refused {status : BatchAdminActionStatus} (hstatus : status ≠ .success) (h : ∀ v, exec H signers w c ≠ .ok v) :
    ∃ r, (.ok (w, ⟨id, status, 0⟩) : Result (World τ × BatchAdminActionResult)) =
        .ok (afterCall H signers w c, r) ∧ Reports H signers c w id r := by
  have hsame := afterCall_of_refused h
  rw [hsame]
  refine ⟨_, rfl, rfl, ?_, ?_, ?_, ?_⟩
  · exact iff_of_false hstatus fun ⟨v, hv⟩ => h v hv
  · exact fun hs => absurd hs hstatus
  · exact fun _ => rfl
  · exact fun _ => hsame

theorem alike_done (hp : w.store.packages[id]? = some p) (h : exec H signers w c = .ok w') :
    ∃ r, (.ok (w', ⟨id, .success, p.amount⟩) : Result (World τ × BatchAdminActionResult)) =
        .ok (afterCall H signers w c, r) ∧ Reports H signers c w id r := by
  rw [afterCall_of_ok h]
  refine ⟨_, rfl, rfl, ?_, ?_, ?_, ?_⟩
  · exact iff_of_true rfl ⟨w', h⟩
  · exact fun _ => ⟨p, hp, rfl⟩
  · exact fun hs => absurd rfl hs
  · exact fun hs => absurd rfl hs

theorem unlockPackage_total (w : World τ) (hp : 0 < p.amount) : ∃ u, unlockPackage w p = .ok u := by
  obtain ⟨totals, htotals, -⟩ := decrementLocked_total w.totals hp
  exact ⟨_, unlockPackage_eq_ok.mpr ⟨totals, htotals, rfl⟩⟩

theorem revoke_eq_ok (hadmin : authorisedAdmin signers w = .ok admin) :
    exec H signers w (.revoke id) = .ok v ↔ ∃ p : Package, w.store.packages[id]? = some p ∧
      p.status = .created ∧ ∃ u, unlockPackage (putPackage w id { p with status := .cancelled })
        { p with status := .cancelled } = .ok u ∧
      publish u (.packageRevoked id p.recipient p.amount admin u.now) = v := by
  simp only [exec, revoke, hadmin, ok_bind, bind_eq_ok, pure_eq_ok, require_eq_ok, exists_unit, getPackage_eq_ok]

theorem refund_eq_ok (hopen : checkActionPaused w "refund" = .ok ()) (hadmin : authorisedAdmin signers w = .ok admin) :
    exec H signers w (.refund id) = .ok v ↔ ∃ p : Package, w.store.packages[id]? = some p ∧ CampaignOpen w p.metadata ∧
      (p.status = .created → 0 < p.expiresAt ∧ p.expiresAt < w.now) ∧
      ¬ (p.status = .claimed ∨ p.status = .refunded) ∧
      ∃ paid, transferToken H w p.token H.contract admin p.amount (.refund id) = .ok paid ∧
      ∃ u, (if p.status = .created ∨ p.status = .expired then unlockPackage paid p
        else .ok paid) = .ok u ∧
      publish (putPackage u id { p with status := .refunded })
        (.packageRefunded id p.recipient p.amount admin u.now) = v := by
  simp only [exec, refund, hopen, hadmin, ok_bind, bind_eq_ok, pure_eq_ok, require_eq_ok,
    exists_unit, getPackage_eq_ok, checkCampaignPaused_eq_ok]
  rfl

theorem revokeOneForBatch_alike (hw : WellFormed w) (hadmin : authorisedAdmin signers w = .ok admin) (id : ℕ) :
    ∃ r, revokeOneForBatch w admin id = .ok (afterCall H signers w (.revoke id), r) ∧
      Reports H signers (.revoke id) w id r := by
  unfold revokeOneForBatch
  split
  · rename_i hnone
    apply alike_refused (by decide)
    intro v hv
    obtain ⟨p, hp, -⟩ := (revoke_eq_ok hadmin).mp hv
    rw [hnone] at hp
    cases hp
  rename_i p hp
  by_cases hstatus : p.status = .created
  · rw [if_neg (not_not.mpr hstatus)]
    have hpos : 0 < ({ p with status := .cancelled } : Package).amount := hw.amount_pos id p hp
    obtain ⟨u, hu⟩ := unlockPackage_total (putPackage w id { p with status := .cancelled }) hpos
    have hdone := (revoke_eq_ok (H := H) hadmin).mpr ⟨p, hp, hstatus, u, hu, rfl⟩
    simp only [hu, ok_bind]
    exact alike_done hp hdone
  · rw [if_pos hstatus]
    apply alike_refused (by decide)
    intro v hv
    obtain ⟨q, hq, hcreated, -⟩ := (revoke_eq_ok hadmin).mp hv
    obtain rfl := Option.some.inj (hp.symm.trans hq)
    exact hstatus hcreated

theorem refund_found (hopen : checkActionPaused w "refund" = .ok ()) (hadmin : authorisedAdmin signers w = .ok admin)
    (hp : w.store.packages[id]? = some p) (h : exec H signers w (.refund id) = .ok v) :
    CampaignOpen w p.metadata ∧ (p.status = .created → 0 < p.expiresAt ∧ p.expiresAt < w.now) ∧
      ¬ (p.status = .claimed ∨ p.status = .refunded) ∧
      ∃ paid, transferToken H w p.token H.contract admin p.amount (.refund id) = .ok paid := by
  obtain ⟨q, hq, hcampaign, hlate, hstatus, paid, hpaid, -⟩ := (refund_eq_ok hopen hadmin).mp h
  obtain rfl := Option.some.inj (hp.symm.trans hq)
  exact ⟨hcampaign, hlate, hstatus, paid, hpaid⟩

theorem refundOneForBatch_alike (hw : WellFormed w) (hopen : checkActionPaused w "refund" = .ok ())
    (hadmin : authorisedAdmin signers w = .ok admin) (id : ℕ) :
    ∃ r, refundOneForBatch H w admin id = .ok (afterCall H signers w (.refund id), r) ∧
      Reports H signers (.refund id) w id r := by
  unfold refundOneForBatch
  split
  · rename_i hnone
    apply alike_refused (by decide)
    intro v hv
    obtain ⟨p, hp, -⟩ := (refund_eq_ok hopen hadmin).mp hv
    rw [hnone] at hp
    cases hp
  rename_i p hp
  split
  · rename_i hpaused
    apply alike_refused (by decide)
    intro v hv
    have hcampaign : checkCampaignPaused w p.metadata = .ok () :=
      (checkCampaignPaused_eq_ok w).mpr (refund_found hopen hadmin hp hv).1
    rw [hpaused] at hcampaign
    cases hcampaign
  rename_i hcampaign
  dsimp only
  split
  · rename_i halive
    apply alike_refused (by decide)
    intro v hv
    have hlate := (refund_found hopen hadmin hp hv).2.1 halive.1
    omega
  rename_i halive
  split
  · rename_i hdone
    apply alike_refused (by decide)
    intro v hv
    have hstatus := (refund_found hopen hadmin hp hv).2.2.1
    cases hs : p.status <;> simp [hs] at hdone hstatus
  rename_i hdone
  split
  · rename_i hfailed
    apply alike_refused (by decide)
    intro v hv
    obtain ⟨paid, hpaid⟩ := (refund_found hopen hadmin hp hv).2.2.2
    rw [hfailed] at hpaid
    cases hpaid
  rename_i paid hpaid
  -- nothing after the transfer can fail, so that the item and the call end alike
  have hreleased : ∃ u, (if p.status = .created ∨ p.status = .expired then unlockPackage paid p
      else .ok paid) = .ok u := by
    split
    · exact unlockPackage_total paid (hw.amount_pos id p hp)
    · exact ⟨paid, rfl⟩
  obtain ⟨u, hu⟩ := hreleased
  have hlate : p.status = .created → 0 < p.expiresAt ∧ p.expiresAt < w.now := by
    intro hcreated
    have hexpiry : ¬ (p.expiresAt = 0 ∨ w.now ≤ p.expiresAt) := fun hl => halive ⟨hcreated, hl⟩
    omega
  have hstatus : ¬ (p.status = .claimed ∨ p.status = .refunded) := by
    rintro (hs | hs) <;> simp [hs] at hdone
  have hdone := (refund_eq_ok hopen hadmin).mpr ⟨p, hp, (checkCampaignPaused_eq_ok w).mp hcampaign,
    hlate, hstatus, paid, hpaid, u, hu, rfl⟩
  rw [hu, ok_bind]
  exact alike_done hp hdone

end Items

section Batches

variable {c : Call} {u : World τ}

theorem afterCall_settings (hw : WellFormed w) (hc : ¬ c.permits signers .settings) :
    WellFormed (afterCall H signers w c) ∧ (afterCall H signers w c).settings = w.settings := by
  rcases afterCall_cases H signers w c with ⟨w', hr, hafter⟩ | ⟨-, hsame⟩
  · rw [hafter]
    have hstep : Step H w (.call signers c) w' := Step.call hr
    exact ⟨hstep.wellFormed hw, hstep.settings_kept hw hc⟩
  · rw [hsame]
    exact ⟨hw, rfl⟩

theorem batchItems_alike {call : ℕ → Call}
    {one : World τ → ℕ → Result (World τ × BatchAdminActionResult)} {I : World τ → Prop}
    (hkeep : ∀ u id, I u → I (afterCall H signers u (call id)))
    (hone : ∀ u id, I u → ∃ r, one u id = .ok (afterCall H signers u (call id), r) ∧
      Reports H signers (call id) u id r) : ∀ (ids : List ℕ) (u : World τ), I u → ∃ rs,
      batchItems one u ids = .ok (oneByOne H signers call u ids, rs) ∧ rs.length = ids.length ∧
      ∀ (i id : ℕ) (r : BatchAdminActionResult), ids[i]? = some id → rs[i]? = some r →
        Reports H signers (call id) (oneByOne H signers call u (ids.take i)) id r
  | [], u, _ => ⟨[], rfl, rfl, by simp⟩
  | id :: ids, u, hu => by
    obtain ⟨r, hr, hreport⟩ := hone u id hu
    obtain ⟨rs, hrs, hlength, hreports⟩ := batchItems_alike hkeep hone ids _ (hkeep u id hu)
    refine ⟨r :: rs, ?_, ?_, ?_⟩
    · simp only [batchItems, hr, hrs, ok_bind]
      rfl
    · rw [List.length_cons, List.length_cons, hlength]
    · intro i id' r' hid hr'
      cases i with
      | zero =>
        cases hid
        cases hr'
        exact hreport
      | succ i => exact hreports i id' r' hid hr'

def During (w u : World τ) : Prop := WellFormed u ∧ u.settings = w.settings

theorem During.authorised (hu : During w u) (hadmin : w.settings.admin = some admin)
    (hsigned : admin ∈ signers) : authorisedAdmin signers u = .ok admin :=
  (authorisedAdmin_eq_ok signers u).mpr ⟨hu.2 ▸ hadmin, hsigned⟩

theorem During.afterCall (hu : During w u) (hc : ¬ c.permits signers .settings) : During w (afterCall H signers u c) := by
  obtain ⟨hwell, hsame⟩ := afterCall_settings (H := H) hu.1 hc
  exact ⟨hwell, hsame.trans hu.2⟩

theorem revokeItems_alike (hw : WellFormed w) (hadmin : w.settings.admin = some admin)
    (hsigned : admin ∈ signers) (ids : List ℕ) :
    ∃ rs, batchItems (fun u id => revokeOneForBatch u admin id) w ids =
        .ok (oneByOne H signers .revoke w ids, rs) ∧ rs.length = ids.length ∧
      ∀ (i id : ℕ) (r : BatchAdminActionResult), ids[i]? = some id → rs[i]? = some r →
        Reports H signers (.revoke id) (oneByOne H signers .revoke w (ids.take i)) id r := by
  have hkeep : ∀ u id, During w u → During w (afterCall H signers u (.revoke id)) := by
    intro u id hu
    apply hu.afterCall
    intro hpermits
    cases hpermits
  have hone : ∀ u id, During w u → ∃ r, revokeOneForBatch u admin id =
      .ok (afterCall H signers u (.revoke id), r) ∧ Reports H signers (.revoke id) u id r := by
    intro u id hu
    exact revokeOneForBatch_alike hu.1 (hu.authorised hadmin hsigned) id
  exact batchItems_alike hkeep hone ids w ⟨hw, rfl⟩

theorem refundItems_alike (hw : WellFormed w) (hopen : checkActionPaused w "refund" = .ok ())
    (hadmin : w.settings.admin = some admin) (hsigned : admin ∈ signers) (ids : List ℕ) :
    ∃ rs, batchItems (fun u id => refundOneForBatch H u admin id) w ids =
        .ok (oneByOne H signers .refund w ids, rs) ∧ rs.length = ids.length ∧
      ∀ (i id : ℕ) (r : BatchAdminActionResult), ids[i]? = some id → rs[i]? = some r →
        Reports H signers (.refund id) (oneByOne H signers .refund w (ids.take i)) id r := by
  have hkeep : ∀ u id, During w u → During w (afterCall H signers u (.refund id)) := by
    intro u id hu
    apply hu.afterCall
    intro hpermits
    cases hpermits
  have hone : ∀ u id, During w u → ∃ r, refundOneForBatch H u admin id =
      .ok (afterCall H signers u (.refund id), r) ∧ Reports H signers (.refund id) u id r := by
    intro u id hu
    have hstill : checkActionPaused u "refund" = .ok () :=
      (checkActionPaused_settings hu.2).trans hopen
    exact refundOneForBatch_alike hu.1 hstill (hu.authorised hadmin hsigned) id
  exact batchItems_alike hkeep hone ids w ⟨hw, rfl⟩

theorem oneByOne_refund_paused (H : Host τ) (signers : List Address)
    (hpaused : checkActionPaused w "refund" ≠ .ok ()) : (∀ id v, exec H signers w (.refund id) ≠ .ok v) ∧
      ∀ ids, oneByOne H signers .refund w ids = w := by
  have hrefused : ∀ id v, exec H signers w (.refund id) ≠ .ok v := by
    intro id v hv
    simp only [exec, refund, bind_eq_ok, exists_unit] at hv
    exact hpaused hv.1
  refine ⟨hrefused, fun ids => ?_⟩
  induction ids with
  | nil => rfl
  | cons id ids ih =>
    rw [oneByOne, List.foldl_cons, afterCall_of_refused (hrefused id)]
    exact ih

end Batches

/-- Batches refine the single operations. From every reachable ledger on which the admin signs, a
batch of at most 25 ids, whatever they are, ends in the ledger that the single calls lead to one
after the other, refused ones skipped. The report on each item says whether the single call would
have gone through at that point and with what amount. A batch of refunds that is refused as a
whole is one in which every single refund is refused. -/
theorem batches_refine_singles {tr : Trace τ} (h : Reaches H tr w)
    (hadmin : w.settings.admin = some admin) (hsigned : admin ∈ signers) {ids : List ℕ}
    (hsize : ids.length ≤ maxBatchRevokeRefundSize) :
    (∃ rs, batchRevoke signers w ids = .ok (oneByOne H signers .revoke w ids, rs) ∧ rs.length = ids.length ∧
      ∀ (i id : ℕ) (r : BatchAdminActionResult), ids[i]? = some id → rs[i]? = some r →
        Reports H signers (.revoke id) (oneByOne H signers .revoke w (ids.take i)) id r) ∧
    ((∃ rs, batchRefund H signers w ids = .ok (oneByOne H signers .refund w ids, rs) ∧ rs.length = ids.length ∧
        ∀ (i id : ℕ) (r : BatchAdminActionResult), ids[i]? = some id → rs[i]? = some r →
          Reports H signers (.refund id) (oneByOne H signers .refund w (ids.take i)) id r) ∨
      ((∀ result, batchRefund H signers w ids ≠ .ok result) ∧
        (∀ id v, exec H signers w (.refund id) ≠ .ok v) ∧ oneByOne H signers .refund w ids = w)) := by
  have hw := h.wellFormed
  have hauth : authorisedAdmin signers w = .ok admin :=
    (authorisedAdmin_eq_ok signers w).mpr ⟨hadmin, hsigned⟩
  constructor
  · obtain ⟨rs, hrs, hreports⟩ := revokeItems_alike (H := H) hw hadmin hsigned ids
    refine ⟨rs, ?_, hreports⟩
    simp only [batchRevoke, require_of hsize, hauth, ok_bind]
    exact hrs
  · by_cases hopen : checkActionPaused w "refund" = .ok ()
    · obtain ⟨rs, hrs, hreports⟩ := refundItems_alike (H := H) hw hopen hadmin hsigned ids
      refine .inl ⟨rs, ?_, hreports⟩
      simp only [batchRefund, require_of hsize, hopen, hauth, ok_bind]
      exact hrs
    · obtain ⟨hrefused, hsame⟩ := oneByOne_refund_paused H signers hopen
      refine .inr ⟨?_, hrefused, hsame ids⟩
      intro result hresult
      simp only [batchRefund, bind_eq_ok, exists_unit] at hresult
      exact hopen hresult.1

def expiredPackages : List (Move Balances) := [
  .call [] (.init ⟨1⟩),
  .call [⟨1⟩] (.fund ⟨9⟩ ⟨1⟩ 100),
  .call [⟨1⟩] (.createPackage ⟨1⟩ 0 ⟨2⟩ 10 ⟨9⟩ 150 ∅),
  .call [⟨1⟩] (.createPackage ⟨1⟩ 1 ⟨2⟩ 10 ⟨9⟩ 0 ∅),
  .call [⟨1⟩] (.createPackage ⟨1⟩ 2 ⟨3⟩ 5 ⟨9⟩ 150 ∅),
  .tick 200]

theorem batches_refine_singles_expiredPackages : ∃ rs, batchRefund (plainHost ⟨0⟩) [⟨1⟩]
        (played (plainHost ⟨0⟩) 100 [((⟨9⟩, ⟨1⟩), 100)] expiredPackages).2 [0, 0, 7, 1, 2] =
      .ok (oneByOne (plainHost ⟨0⟩) [⟨1⟩] .refund
        (played (plainHost ⟨0⟩) 100 [((⟨9⟩, ⟨1⟩), 100)] expiredPackages).2 [0, 0, 7, 1, 2], rs) ∧
      rs.map BatchAdminActionResult.status = [.success, .invalidState, .notFound, .notExpired, .success] := by
  have hrun := played_reaches (H := plainHost ⟨0⟩) 100 [((⟨9⟩, ⟨1⟩), 100)] expiredPackages
  generalize hw : (played (plainHost ⟨0⟩) 100 [((⟨9⟩, ⟨1⟩), 100)] expiredPackages).2 = w at hrun ⊢
  have hadmin : w.settings.admin = some ⟨1⟩ := by
    subst hw
    decide +kernel
  have hstatuses : (batchRefund (plainHost ⟨0⟩) [⟨1⟩] w [0, 0, 7, 1, 2]).toOption.map
      (fun result => result.2.map BatchAdminActionResult.status) =
        some [.success, .invalidState, .notFound, .notExpired, .success] := by
    subst hw
    decide +kernel
  have hsigned : (⟨1⟩ : Address) ∈ [(⟨1⟩ : Address)] := List.mem_singleton_self _
  have hsize : [0, 0, 7, 1, 2].length ≤ maxBatchRevokeRefundSize := by decide
  have hbatch := (batches_refine_singles hrun hadmin hsigned hsize).2
  rcases hbatch with ⟨rs, hrs, -⟩ | ⟨hrefused, -⟩
  · refine ⟨rs, hrs, ?_⟩
    rw [hrs] at hstatuses
    exact Option.some.inj hstatuses
  · cases hr : batchRefund (plainHost ⟨0⟩) [⟨1⟩] w [0, 0, 7, 1, 2] with
    | error fault =>
      rw [hr] at hstatuses
      cases hstatuses
    | ok result => exact absurd hr (hrefused result)

end Soter.AidEscrow
