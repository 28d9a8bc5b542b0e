import Soter.AidEscrow.LockedTotals

/-! What the contract holds of a token against what its Created packages need. -/
namespace Soter.AidEscrow
open Soter.Fallible Soter.MapSum Soter.Runs

variable {τ : Type} {H : Host τ} {w w' : World τ} {a : Act} {held : τ → Address → ℤ}

/-- The tokens keep an account of the contract that `held` reads: it is never negative, a transfer
moves exactly the amount, and nobody else takes from it. -/
structure TokenLaw (H : Host τ) (held : τ → Address → ℤ) : Prop where
  nonneg : ∀ (s : τ) (t : Address), 0 ≤ held s t
  balance : ∀ (s : τ) (t : Address) (b : ℤ), H.balance s t H.contract = some b → b = held s t
  transfer : ∀ (s s' : τ) (token sender receiver : Address) (amount : ℤ),
    H.transfer s token sender receiver amount = some s' → ∀ t,
    held s' t = held s t - (if t = token ∧ sender = H.contract then amount else 0) +
      (if t = token ∧ receiver = H.contract then amount else 0)
  outside : ∀ s s' : τ, H.outside s s' → ∀ t, held s t ≤ held s' t

def Solvent (held : τ → Address → ℤ) (w : World τ) : Prop :=
  ∀ t, createdSum w t ≤ held w.tokens t

/-- A package that is no longer locked is paid back out of the surplus, and a swept one only when
nothing is locked in its token. -/
def RefundCovered (held : τ → Address → ℤ) (w : World τ) (id : ℕ) : Prop :=
  SweptFindsNothingLocked w id ∧ ∀ p, w.store.packages[id]? = some p →
    p.status = .expired ∨ p.status = .cancelled →
    p.amount ≤ held w.tokens p.token - getTotalLocked w p.token

variable {s s' : τ} {token receiver : Address} {amount : ℤ}

theorem TokenLaw.le_of_payment (hlaw : TokenLaw H held) (hamount : 0 ≤ amount)
    (h : H.transfer s token H.contract receiver amount = some s') (t : Address) :
    held s t - (if t = token then amount else 0) ≤ held s' t := by
  rw [hlaw.transfer s s' token H.contract receiver amount h t]
  simp only [and_true]
  split <;> split <;> omega

theorem TokenLaw.le_of_credit (hlaw : TokenLaw H held) (hamount : amount ≤ 0)
    (h : H.transfer s token H.contract receiver amount = some s') (t : Address) : held s t ≤ held s' t := by
  rw [hlaw.transfer s s' token H.contract receiver amount h t]
  simp only [and_true]
  by_cases ht : t = token <;> by_cases hr : receiver = H.contract <;> simp [ht, hr, hamount]

theorem TokenLaw.le_of_deposit (hlaw : TokenLaw H held) {sender : Address} (hamount : 0 ≤ amount)
    (h : H.transfer s token sender H.contract amount = some s') (t : Address) : held s t ≤ held s' t := by
  rw [hlaw.transfer s s' token sender H.contract amount h t]
  simp only [and_true]
  by_cases ht : t = token <;> by_cases hs : sender = H.contract <;> simp [ht, hs, hamount]

theorem availableSurplus_eq_ok {surplus : ℤ} (h : availableSurplus H w token = .ok surplus) :
    ∃ b, H.balance w.tokens token H.contract = some b ∧ surplus = b - getTotalLocked w token := by
  simp only [availableSurplus, bind_eq_ok, tokenBalance_eq_ok, addI128_eq_ok] at h
  obtain ⟨_, -, b, hb, -, rfl⟩ := h
  exact ⟨b, hb, rfl⟩

theorem createdSum_release {id : ℕ} {p q : Package} (hp : w.store.packages[id]? = some p)
    (hs : p.status = .created) (hs' : q.status ≠ .created)
    (hstore : w'.store = w.store.put id q) (t : Address) :
    createdSum w' t = createdSum w t - if t = p.token then p.amount else 0 := by
  rw [createdSum, hstore, PackageStore.put, sumIf_update hp]
  simp only [Package.Awaits, Package.OfToken, hs, hs', true_and, false_and, ↓reduceIte, add_zero,
    eq_comm (a := t)]
  rfl

theorem Solvent.of_release (hI : Solvent held w)
    (hsum : ∀ t, createdSum w' t = createdSum w t - if t = token then amount else 0)
    (hheld : ∀ t, held w.tokens t - (if t = token then amount else 0) ≤ held w'.tokens t) :
    Solvent held w' := by
  intro t
  rw [hsum t]
  exact (sub_le_sub_right (hI t) _).trans (hheld t)

theorem Solvent.of_surplus (hI : Solvent held w) (hE : LockedExact w) (hsum : createdSum w' = createdSum w)
    (hheld : ∀ t, held w.tokens t - (if t = token then amount else 0) ≤ held w'.tokens t)
    (hsurplus : amount ≤ held w.tokens token - getTotalLocked w token) : Solvent held w' := by
  intro t
  rw [hsum]
  refine le_trans ?_ (hheld t)
  by_cases ht : t = token
  · subst ht
    have hlocked := hE.1 t
    rw [if_pos rfl]
    omega
  · rw [if_neg ht, sub_zero]
    exact hI t

theorem Atom.solvent (hlaw : TokenLaw H held) (h : Atom H w a w') (hw : WellFormed w)
    (hE : LockedExact w) (hC : a.refundMeets (RefundCovered held) w) (hI : Solvent held w) :
    Solvent held w' := by
  -- acts that lock nothing new and take nothing out
  have hkeep : createdSum w' = createdSum w → (∀ t, held w.tokens t ≤ held w'.tokens t) →
      Solvent held w' := fun hsum hheld t => hsum ▸ (hI t).trans (hheld t)
  cases h with
  | settings | note | propose | withdrawProposal | setDelegate | clearDelegate | dropDelegate
  | tick => exact hkeep rfl fun t => le_rfl
  | backfill _ h =>
    obtain ⟨totals, rfl, -⟩ := backfill_books hw h
    exact hkeep rfl fun t => le_rfl
  | outside h => exact hkeep rfl (hlaw.outside _ _ h)
  | fund hamount htransfer => exact hkeep rfl (hlaw.le_of_deposit hamount.le htransfer)
  | @create p _ _ _ _ hfresh hstatus _ _ _ hbalance hfunds =>
    intro t
    refine Eq.trans_le (sumIf_new (P := Package.Awaits t) hfresh) ?_
    by_cases ht : p.Awaits t
    · rw [if_pos ht]
      obtain ⟨-, rfl⟩ := ht
      -- the creation compared the balance with the locked total, which is the sum itself
      have hlocked : w.totals.books.locked p.token = createdSum w p.token := hE.1 p.token
      rw [hlaw.balance _ _ _ hbalance, hlocked] at hfunds
      exact hfunds
    · rw [if_neg ht, add_zero]
      exact hI t
  | @claim _ _ p _ _ _ hp hstatus _ _ _ _ htransfer =>
    exact hI.of_release (createdSum_release (q := { p with status := .claimed }) hp hstatus nofun
      rfl) (hlaw.le_of_payment (hw.amount_pos _ _ hp).le htransfer)
  | @disburse _ p _ _ _ hp hstatus _ htransfer =>
    exact hI.of_release (createdSum_release (q := { p with status := .claimed }) hp hstatus nofun
      rfl) (hlaw.le_of_payment (hw.amount_pos _ _ hp).le htransfer)
  | @cancel _ p _ _ hp hstatus =>
    have hpos := hw.amount_pos _ _ hp
    refine hI.of_release (createdSum_release (q := { p with status := .cancelled }) hp hstatus
      nofun rfl) fun t => sub_le_self _ ?_
    split <;> omega
  | @expire _ p _ _ hp hstatus =>
    have hpos := hw.amount_pos _ _ hp
    refine hI.of_release (createdSum_release (q := { p with status := .expired }) hp hstatus
      nofun rfl) fun t => sub_le_self _ ?_
    split <;> omega
  | @refundLocked _ p _ _ _ _ hp _ _ hstatus htransfer =>
    have hpaid := hlaw.le_of_payment (hw.amount_pos _ _ hp).le htransfer
    rcases hstatus with ⟨hcreated, -⟩ | hexpired
    · exact hI.of_release (createdSum_release (q := { p with status := .refunded }) hp hcreated
        nofun rfl) hpaid
    · exact hI.of_surplus hE (sums_of_rewrite (q := { p with status := .refunded }) hp
        (by simp [hexpired]) rfl rfl rfl rfl).1 hpaid (hC.2 p hp (.inl hexpired))
  | @refundCancelled _ p _ _ _ hp _ _ hstatus htransfer =>
    exact hI.of_surplus hE (sums_of_rewrite (q := { p with status := .refunded }) hp
      (by simp [hstatus]) rfl rfl rfl rfl).1
      (hlaw.le_of_payment (hw.amount_pos _ _ hp).le htransfer) (hC.2 p hp (.inr hstatus))
  | @reassign _ p recipient _ hp =>
    exact hkeep (sums_of_rewrite (q := { p with recipient }) hp Iff.rfl rfl rfl rfl rfl).1
      fun t => le_rfl
  | @extend _ p expiresAt _ hp =>
    exact hkeep (sums_of_rewrite (q := { p with expiresAt }) hp Iff.rfl rfl rfl rfl rfl).1
      fun t => le_rfl
  | @attach _ p evidenceHash _ hp =>
    exact hkeep (sums_of_rewrite (q := { p with evidenceHash }) hp Iff.rfl rfl rfl rfl rfl).1
      fun t => le_rfl
  | @execute q _ _ _ _ hq _ hsurplus hle htransfer =>
    obtain ⟨b, hb, rfl⟩ := availableSurplus_eq_ok hsurplus
    rw [hlaw.balance _ _ _ hb] at hle
    rcases le_total 0 q.amount with hamount | hamount
    · exact hI.of_surplus hE rfl (hlaw.le_of_payment hamount htransfer) hle
    · exact hkeep rfl (hlaw.le_of_credit hamount htransfer)

/-- In every run whose refunds are covered, the contract holds at least what its Created packages
need, so that each of them can be paid. -/
theorem created_packages_covered (hlaw : TokenLaw H held) {tr : Trace τ} (h : Reaches H tr w)
    (hC : ∀ t ∈ tr, t.label.refundsMeet H (RefundCovered held) t.pre) :
    (∀ t, createdSum w t ≤ held w.tokens t) ∧
      ∀ (id : ℕ) (p : Package), w.store.packages[id]? = some p → p.status = .created →
        p.amount ≤ held w.tokens p.token := by
  have hI : LockedExact w ∧ Solvent held w := by
    apply h.invariant_of_refunds (I := fun u => LockedExact u ∧ Solvent held u) ?_ hC
    · -- Exact locked totals travel along: they are what a creation compares with the balance.
      intro u a v hu hatom hmeets hI
      have hswept : a.refundMeets SweptFindsNothingLocked u := hmeets.mono fun _ _ hc => hc.1
      exact ⟨hatom.lockedExact hu hswept hI.1, hatom.solvent hlaw hu hI.1 hmeets hI.2⟩
    · intro now tokens
      refine ⟨lockedExact_deployed now tokens, fun t => ?_⟩
      have hzero : createdSum (World.deployed now tokens) t = 0 := by
        simp [createdSum, sumIf, World.deployed]
      rw [hzero]
      exact hlaw.nonneg tokens t
  refine ⟨hI.2, fun id p hp hs => ?_⟩
  have hshare : p.amount ≤ createdSum w p.token := le_sumIf h.wellFormed.amount_pos hp ⟨hs, rfl⟩
  exact hshare.trans (hI.2 p.token)

theorem plainHost_law (contract : Address) : TokenLaw (plainHost contract) fun m t => heldIn m t contract where
  nonneg m t := Int.natCast_nonneg _
  balance m t b h := (Option.some.inj h).symm
  outside m m' h t := by exact_mod_cast h t
  transfer m m' token sender receiver amount h t := by
    simp only [plainHost] at h
    split at h
    · rename_i hamount
      cases h
      obtain ⟨hpos, hfunds⟩ := hamount
      lift amount to ℕ using hpos
      rw [show (plainHost contract).contract = contract from rfl]
      simp only [heldIn_cons, Int.toNat_natCast, true_and]
      by_cases ht : t = token
      · subst ht
        by_cases hs : sender = contract <;> by_cases hr : receiver = contract
        · subst hs hr
          simp only [true_and, ↓reduceIte]
          omega
        · subst hs
          simp only [hr, Ne.symm hr, and_false, true_and, ↓reduceIte]
          omega
        · subst hr
          simp only [hs, Ne.symm hs, and_false, true_and, ↓reduceIte]
          omega
        · simp [hs, hr, Ne.symm hs, Ne.symm hr]
      · simp [ht]
    · cases h

theorem created_packages_covered_claimAndSweep :
    createdSum (played (plainHost ⟨0⟩) 100 [((⟨9⟩, ⟨1⟩), 100)] claimAndSweep).2 ⟨9⟩ ≤
      heldIn (played (plainHost ⟨0⟩) 100 [((⟨9⟩, ⟨1⟩), 100)] claimAndSweep).2.tokens ⟨9⟩ ⟨0⟩ :=
  (created_packages_covered (plainHost_law ⟨0⟩)
    (played_reaches (H := plainHost ⟨0⟩) 100 [((⟨9⟩, ⟨1⟩), 100)] claimAndSweep)
    fun t ht => played_labels
      (P := fun m => ∀ w, m.refundsMeet (plainHost ⟨0⟩)
        (RefundCovered fun m t => heldIn m t ⟨0⟩) w)
      (by simp [claimAndSweep, Move.refundsMeet, RefundsMeet]) t ht t.pre).1 ⟨9⟩

def refundAfterRelock : List (Move Balances) := [
  .call [] (.init ⟨1⟩),
  .call [⟨1⟩] (.fund ⟨9⟩ ⟨1⟩ 10),
  .call [⟨1⟩] (.createPackage ⟨1⟩ 0 ⟨2⟩ 10 ⟨9⟩ 0 ∅),
  .call [⟨1⟩] (.revoke 0),
  .call [⟨1⟩] (.createPackage ⟨1⟩ 1 ⟨3⟩ 10 ⟨9⟩ 0 ∅),
  .call [⟨1⟩] (.refund 0)]

theorem refundAfterRelock_not_covered : TokenLaw (plainHost ⟨0⟩) (fun m t => heldIn m t ⟨0⟩) ∧
    ∃ w : World Balances, Reaches (plainHost ⟨0⟩)
        (played (plainHost ⟨0⟩) 100 [((⟨9⟩, ⟨1⟩), 100)] refundAfterRelock).1 w ∧
      createdSum w ⟨9⟩ = 10 ∧ heldIn w.tokens ⟨9⟩ ⟨0⟩ = 0 :=
  ⟨plainHost_law ⟨0⟩, _, played_reaches _ _ _, by decide +kernel, by decide +kernel⟩

end Soter.AidEscrow
