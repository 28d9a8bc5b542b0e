import Soter.AidEscrow.Paths

/-! What is paid out for a package over a whole run, and how its status moves. -/
namespace Soter.AidEscrow
open Std Soter.Fallible Soter.MapSum Soter.Runs

variable {τ : Type} {H : Host τ} {w w' : World τ} {a : Act}

def payoutsFor (w : World τ) (id : ℕ) : List Transfer :=
  w.transfers.filter fun x => x.purpose.package = some id

def PackageStatus.paid : PackageStatus → Bool
  | .claimed | .refunded => true
  | .created | .expired | .cancelled => false

def Purpose.gives : Purpose → Option PackageStatus
  | .claim _ | .disburse _ => some .claimed
  | .refund _ => some .refunded
  | .fund | .surplus => none

structure Transfer.PaysOut (x : Transfer) (contract : Address) (p : Package) : Prop where
  token : x.token = p.token
  sender : x.sender = contract
  amount : x.amount = p.amount
  gives : x.purpose.gives = some p.status

def Settled (contract : Address) (payouts : List Transfer) : Option Package → Prop
  | none => payouts = []
  | some p =>
    if p.status.paid then
      ∃ x, payouts = [x] ∧ x.PaysOut contract p
    else payouts = []

def AllSettled (H : Host τ) (w : World τ) : Prop :=
  ∀ id : ℕ, Settled H.contract (payoutsFor w id) w.store.packages[id]?

variable {x : Transfer} {id : ℕ} {p q : Package}

theorem payoutsFor_append (h : w'.transfers = w.transfers ++ [x]) (id : ℕ) : payoutsFor w' id =
      if x.purpose.package = some id then payoutsFor w id ++ [x] else payoutsFor w id := by
  unfold payoutsFor
  rw [h, List.filter_append]
  split
  · rename_i hx
    simp [hx]
  · rename_i hx
    simp [hx]

theorem AllSettled.other_transfer (hI : AllSettled H w)
    (hx : x.purpose.package = none) (htransfers : w'.transfers = w.transfers ++ [x])
    (hstore : w'.store = w.store) : AllSettled H w' := by
  intro id
  rw [payoutsFor_append htransfers, hx, if_neg nofun, hstore]
  exact hI id

theorem AllSettled.rewrite (hI : AllSettled H w) (hp : w.store.packages[id]? = some p)
    (hpaid : q.status = p.status ∨ p.status.paid = false ∧ q.status.paid = false)
    (htoken : q.token = p.token) (hamount : q.amount = p.amount)
    (htransfers : w'.transfers = w.transfers) (hstore : w'.store = w.store.put id q) : AllSettled H w' := by
  intro k
  have hold := hI k
  rw [payoutsFor, htransfers, hstore, put_packages]
  by_cases hk : k = id
  · subst hk
    rw [hp] at hold
    rw [if_pos rfl, Settled]
    rw [Settled] at hold
    rcases hpaid with hsame | ⟨hunpaid, hunpaid'⟩
    · rw [hsame]
      by_cases hp : p.status.paid = true
      · rw [if_pos hp] at hold ⊢
        obtain ⟨x, hx, hpays⟩ := hold
        have hgives : x.purpose.gives = some q.status := hsame ▸ hpays.gives
        exact ⟨x, hx, hpays.token.trans htoken.symm, hpays.sender, hpays.amount.trans hamount.symm, hgives⟩
      · rw [if_neg hp] at hold ⊢
        exact hold
    · rw [if_neg (by simp [hunpaid])] at hold
      rw [if_neg (by simp [hunpaid'])]
      exact hold
  · rw [if_neg hk]
    exact hold

theorem AllSettled.pay (hI : AllSettled H w) (hp : w.store.packages[id]? = some p) (hunpaid : p.status.paid = false)
    (hpaid : q.status.paid = true) (hx : x.purpose.package = some id) (htoken : x.token = q.token)
    (hsender : x.sender = H.contract) (hamount : x.amount = q.amount) (hgives : x.purpose.gives = some q.status)
    (htransfers : w'.transfers = w.transfers ++ [x]) (hstore : w'.store = w.store.put id q) :
    AllSettled H w' := by
  intro k
  have hold := hI k
  rw [payoutsFor_append htransfers, hx, hstore, put_packages]
  by_cases hk : k = id
  · subst hk
    rw [hp, Settled, if_neg (by simp [hunpaid])] at hold
    rw [if_pos rfl, if_pos rfl, Settled, if_pos hpaid, hold]
    exact ⟨x, rfl, htoken, hsender, hamount, hgives⟩
  · rw [if_neg fun h => hk (Option.some.inj h).symm, if_neg hk]
    exact hold

theorem Atom.allSettled (h : Atom H w a w') (hI : AllSettled H w) : AllSettled H w' := by
  cases h with
  | settings | note | propose | withdrawProposal | setDelegate | clearDelegate | dropDelegate
  | tick | outside => exact hI
  | backfill _ h =>
    obtain ⟨totals, rfl⟩ := backfill_only_totals h
    exact hI
  | fund | execute => exact hI.other_transfer rfl rfl rfl
  | @create p _ _ _ _ hfresh hstatus =>
    intro k
    have hold := hI k
    change Settled H.contract (payoutsFor w k) (w.store.add p).packages[k]?
    rw [add_packages]
    split
    · rename_i hk
      subst hk
      rw [hfresh] at hold
      rw [Settled, hstatus]
      exact hold
    · exact hold
  | @claim _ _ p _ _ _ hp hstatus | @disburse _ p _ _ _ hp hstatus =>
    exact hI.pay (q := { p with status := .claimed }) hp (hstatus ▸ rfl) rfl rfl rfl rfl rfl rfl
      rfl rfl
  | @cancel _ p _ _ hp hstatus =>
    exact hI.rewrite (q := { p with status := .cancelled }) hp (.inr ⟨hstatus ▸ rfl, rfl⟩) rfl
      rfl rfl rfl
  | @expire _ p _ _ hp hstatus =>
    exact hI.rewrite (q := { p with status := .expired }) hp (.inr ⟨hstatus ▸ rfl, rfl⟩) rfl
      rfl rfl rfl
  | @refundLocked _ p _ _ _ _ hp _ _ hstatus =>
    -- a refund pays from Created or Expired, of which neither has been paid
    have hunpaid : p.status.paid = false := by
      rcases hstatus with ⟨hs, -⟩ | hs <;> rw [hs] <;> rfl
    exact hI.pay (q := { p with status := .refunded }) hp hunpaid rfl rfl rfl rfl rfl rfl rfl rfl
  | @refundCancelled _ p _ _ _ hp _ _ hstatus =>
    exact hI.pay (q := { p with status := .refunded }) hp (hstatus ▸ rfl) rfl rfl rfl rfl rfl rfl
      rfl rfl
  | @reassign _ p recipient _ hp =>
    exact hI.rewrite (q := { p with recipient }) hp (.inl rfl) rfl rfl rfl rfl
  | @extend _ p expiresAt _ hp =>
    exact hI.rewrite (q := { p with expiresAt }) hp (.inl rfl) rfl rfl rfl rfl
  | @attach _ p evidenceHash _ hp =>
    exact hI.rewrite (q := { p with evidenceHash }) hp (.inl rfl) rfl rfl rfl rfl

theorem Reaches.allSettled {tr : Trace τ} (h : Reaches H tr w) : AllSettled H w := by
  apply h.invariant
  · intro now tokens id
    simp [World.deployed, payoutsFor, Settled]
  · intro u a v _ hatom hI
    exact hatom.allSettled hI

section Statuses

variable {m : Move τ}

theorem forward_irrefl {s : PackageStatus} : ¬ Forward s s := by
  rintro ⟨⟩

theorem Move.exists_target (m : Move τ) : ∃ s, ∀ a, m.permits a → a.target = none ∨ a.target = some s := by
  cases m with
  | tick | outside => exact ⟨.created, by rintro _ rfl; exact .inl rfl⟩
  | call signers c =>
    cases c with
    | migrate => exact ⟨.created, by rintro _ (rfl | ⟨rfl, -⟩) <;> exact .inl rfl⟩
    | batchCreatePackages => exact ⟨.created, by rintro _ (⟨p, rfl⟩ | rfl) <;> exact .inl rfl⟩
    | claim => exact ⟨.claimed, by rintro _ ⟨payee, rfl⟩; exact .inr rfl⟩
    | claimWithProof | claimWithRelayer | disburse =>
      exact ⟨.claimed, by rintro _ rfl; exact .inr rfl⟩
    | batchClaim => exact ⟨.claimed, by rintro _ ⟨id, -, rfl⟩; exact .inr rfl⟩
    | batchRevoke => exact ⟨.cancelled, by rintro _ ⟨id, -, rfl⟩; exact .inr rfl⟩
    | revoke | cancelPackage => exact ⟨.cancelled, by rintro _ rfl; exact .inr rfl⟩
    | batchRefund => exact ⟨.refunded, by rintro _ ⟨id, -, rfl⟩; exact .inr rfl⟩
    | refund => exact ⟨.refunded, by rintro _ rfl; exact .inr rfl⟩
    | sweepExpiredPackages => exact ⟨.expired, by rintro _ ⟨id, rfl⟩; exact .inr rfl⟩
    | createPackage | extendExpiration | proposeSurplusWithdrawal | cleanupExpiredDelegates
    | sweepExpiredDelegates => exact ⟨.created, by rintro _ ⟨x, rfl⟩; exact .inl rfl⟩
    | setDelegate | setDelegateWithExpiry =>
      exact ⟨.created, by rintro _ ⟨rfl, -⟩; exact .inl rfl⟩
    | _ => exact ⟨.created, by rintro _ rfl; exact .inl rfl⟩

theorem Step.status_forward (h : Step H w m w') (hw : WellFormed w) (hp : w.store.packages[id]? = some p) :
    ∃ p', w'.store.packages[id]? = some p' ∧ (p'.status = p.status ∨ Forward p.status p'.status) := by
  obtain ⟨s, htarget⟩ := m.exists_target
  have hmain : ∃ p', w'.store.packages[id]? = some p' ∧
      (p'.status = p.status ∨ Forward p.status p'.status ∧ p'.status = s) := by
    apply h.invariant (I := fun u => ∃ p', u.store.packages[id]? = some p' ∧
      (p'.status = p.status ∨ Forward p.status p'.status ∧ p'.status = s)) hw ⟨p, hp, .inl rfl⟩
    rintro u a v hatom hpermits ⟨q, hq, hstatus⟩
    obtain ⟨q', hq', hevolves, hto⟩ := hatom.package_kept hq
    refine ⟨q', hq', ?_⟩
    rcases hevolves.status with hsame | hforward
    · rw [hsame]
      exact hstatus
    · -- The status moved, so it moved to the one target of this move.
      have hs : q'.status = s := by
        rcases hto with hsame | hto
        · exact absurd (hsame ▸ hforward) forward_irrefl
        · rcases htarget _ hpermits with hnone | hsome
          · exact nomatch hnone.symm.trans hto
          · exact (Option.some.inj (hsome.symm.trans hto)).symm
      rcases hstatus with hsame | ⟨-, hdone⟩
      · exact .inr ⟨hsame ▸ hforward, hs⟩
      · rw [hdone, hs] at hforward
        exact absurd hforward forward_irrefl
  obtain ⟨p', hp', hstatus⟩ := hmain
  exact ⟨p', hp', hstatus.imp_right And.left⟩

theorem Move.target_of_creates (hm : m.permits (.create p)) {a : Act} (ha : m.permits a) : a.target = none := by
  cases m with
  | tick | outside => cases hm
  | call signers c =>
    cases c with
    | createPackage =>
      obtain ⟨q, rfl⟩ := ha
      rfl
    | batchCreatePackages => rcases ha with ⟨q, rfl⟩ | rfl <;> rfl
    | _ => simp [Move.permits, Call.permits] at hm

theorem Step.status_new (h : Step H w m w') (hw : WellFormed w) (hnone : w.store.packages[id]? = none) (hp : w'.store.packages[id]? = some p) :
    p.status = .created := by
  have hmain : ∀ q, w'.store.packages[id]? = some q →
      q.status = .created ∧ ∃ r, m.permits (.create r) := by
    apply h.invariant (I := fun u => ∀ q, u.store.packages[id]? = some q →
      q.status = .created ∧ ∃ r, m.permits (.create r)) hw (fun q hq => nomatch hnone.symm.trans hq)
    intro u a v hatom hpermits hI q' hq'
    cases hq : u.store.packages[id]? with
    | none =>
      obtain ⟨hcreated, ha⟩ := hatom.package_new hq hq'
      exact ⟨hcreated, q', ha ▸ hpermits⟩
    | some q =>
      obtain ⟨hcreated, r, hr⟩ := hI q hq
      obtain ⟨q'', hq'', -, hto⟩ := hatom.package_kept hq
      obtain rfl := Option.some.inj (hq'.symm.trans hq'')
      rw [Move.target_of_creates hr hpermits] at hto
      exact ⟨(hto.resolve_right nofun).trans hcreated, r, hr⟩
  exact (hmain p hp).1

end Statuses

/-- In every run, each move takes each package at most one step forward and adds packages only as
Created; and what has been paid out for a package is nothing while it is Created, Expired or
Cancelled, and one transfer of its token and amount out of the contract once it is Claimed or
Refunded. -/
theorem payouts_at_most_once {tr : Trace τ} (h : Reaches H tr w) : (∀ t ∈ tr, ∀ id : ℕ,
      (∀ p, t.pre.store.packages[id]? = some p → ∃ p', t.post.store.packages[id]? = some p' ∧
        (p'.status = p.status ∨ Forward p.status p'.status)) ∧
      (t.pre.store.packages[id]? = none → ∀ p, t.post.store.packages[id]? = some p → p.status = .created)) ∧
    ∀ (id : ℕ) (p : Package), w.store.packages[id]? = some p →
      (p.status = .created ∨ p.status = .expired ∨ p.status = .cancelled → payoutsFor w id = []) ∧
      (p.status = .claimed ∨ p.status = .refunded → ∃ x, payoutsFor w id = [x] ∧
        x.token = p.token ∧ x.sender = H.contract ∧ x.amount = p.amount) := by
  constructor
  · intro t ht id
    obtain ⟨before, after, rfl⟩ := List.append_of_mem ht
    obtain ⟨hbefore, hstep⟩ := h.split
    exact ⟨fun p hp => hstep.status_forward hbefore.wellFormed hp,
      fun hnone p hp => hstep.status_new hbefore.wellFormed hnone hp⟩
  · intro id p hp
    have hsettled := h.allSettled id
    rw [hp, Settled] at hsettled
    constructor
    · rintro (hs | hs | hs) <;> simpa [hs, PackageStatus.paid] using hsettled
    · intro hs
      rw [if_pos (by rcases hs with hs | hs <;> rw [hs] <;> rfl)] at hsettled
      obtain ⟨x, hx, htoken, hsender, hamount, -⟩ := hsettled
      exact ⟨x, hx, htoken, hsender, hamount⟩

def repeatedIds : List (Move Balances) := [
  .call [] (.init ⟨1⟩),
  .call [⟨1⟩] (.fund ⟨9⟩ ⟨1⟩ 30),
  .call [⟨1⟩] (.batchCreatePackages ⟨1⟩ [⟨2⟩, ⟨2⟩] [10, 5] ⟨9⟩ 50 [∅, ∅]),
  .call [⟨2⟩] (.batchClaim ⟨2⟩ [0, 0, 7]),
  .tick 200,
  .call [] (.sweepExpiredPackages 0),
  .call [⟨1⟩] (.batchRefund [1, 0, 1])]

theorem payouts_at_most_once_repeatedIds :
    ∃ x, payoutsFor (played (plainHost ⟨0⟩) 100 [((⟨9⟩, ⟨1⟩), 100)] repeatedIds).2 0 = [x] ∧
      x.sender = ⟨0⟩ := by
  have hclaimed : ((played (plainHost ⟨0⟩) 100 [((⟨9⟩, ⟨1⟩), 100)]
      repeatedIds).2.store.packages[0]?).map Package.status = some .claimed := by
    decide +kernel
  obtain ⟨p, hp, hs⟩ := Option.map_eq_some_iff.mp hclaimed
  obtain ⟨x, hx, -, hsender, -⟩ := ((payouts_at_most_once (played_reaches (H := plainHost ⟨0⟩) 100
    [((⟨9⟩, ⟨1⟩), 100)] repeatedIds)).2 0 p hp).2 (.inl hs)
  exact ⟨x, hx, hsender⟩

end Soter.AidEscrow
