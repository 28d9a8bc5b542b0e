import Soter.Lib.Journal
import Soter.AidEscrow.DelegateActs

/-! The delegate history as an audit trail: what it says, and that it is never rewritten. -/
namespace Soter.AidEscrow
open Std Soter.Fallible Soter.Runs Soter.MapSum Soter.Journal Delegate DelegateHistory

variable {τ : Type} {H : Host τ} {w w' : World τ} {a : Act} {d d' : Delegation} {now : ℕ}

def DelegateHistory.apply (current : Option Address) (r : DelegateHistory) : Option Address :=
  if r.reason = delegateSet then some r.newDelegate
  else if r.reason = delegateCleared ∨ r.reason = delegateExpired then none
  else current

/-- The history tells the stored delegates, every record tells the delegate it replaces, and the
records are in the order of time. -/
structure Audited (d : Delegation) (now : ℕ) : Prop where
  mirrors : Mirrors packageId apply
    (fun id => d.delegates[id]?) d.history
  chained : Chained packageId apply
    previousDelegate d.history
  ordered : d.history.Pairwise fun r s => r.changedAt ≤ s.changedAt
  past : ∀ r ∈ d.history, r.changedAt ≤ now

theorem audited_start (now : ℕ) : Audited {} now where
  mirrors := by
    apply Mirrors.nil
    intro id
    simp
  chained := Chained.nil
  ordered := List.Pairwise.nil
  past := by simp

theorem Audited.later (h : Audited d now) {now' : ℕ} (hnow : now ≤ now') : Audited d now' where
  mirrors := h.mirrors
  chained := h.chained
  ordered := h.ordered
  past := by
    intro r hr
    exact (h.past r hr).trans hnow

theorem Audited.record (h : Audited d now) {r : DelegateHistory} (htime : r.changedAt = now)
    (hprevious : r.previousDelegate = d.delegates[r.packageId]?) (hhistory : d'.history = d.history ++ [r])
    (hdelegates : ∀ id : ℕ, d'.delegates[id]? =
      if id = r.packageId then apply d.delegates[id]? r else d.delegates[id]?) :
    Audited d' now where
  mirrors := by
    rw [hhistory]
    apply h.mirrors.snoc
    · exact (hdelegates r.packageId).trans (if_pos rfl)
    · intro id hid
      exact (hdelegates id).trans (if_neg (Ne.symm hid))
  chained := by
    rw [hhistory]
    apply h.chained.snoc
    rw [h.mirrors r.packageId, hprevious]
  ordered := by
    rw [hhistory, List.pairwise_append]
    refine ⟨h.ordered, List.pairwise_singleton _ _, ?_⟩
    intro s hs r' hr'
    rw [List.mem_singleton.mp hr', htime]
    exact h.past s hs
  past := by
    intro s hs
    rw [hhistory] at hs
    rcases List.mem_append.mp hs with hs | hs
    · exact h.past s hs
    · rw [List.mem_singleton.mp hs, htime]

theorem Audited.set (h : Audited d now) (admin : Address) (id : ℕ) (delegate : Address)
    (expiresAt : ℕ) : Audited (d.set now admin id delegate expiresAt) now := by
  apply h.record (r := ⟨id, d.delegates[id]?, delegate, admin, now, delegateSet⟩) rfl rfl rfl
  intro k
  exact get_insert _ _ _ _

theorem Audited.drop (h : Audited d now) (contract : Address) {id : ℕ} {delegate : Address}
    (hid : d.delegates[id]? = some delegate) : Audited (d.drop contract now id delegate) now := by
  apply h.record (r := ⟨id, some delegate, contract, contract, now, delegateExpired⟩) rfl hid.symm rfl
  intro k
  exact get_erase _ _ _

theorem Audited.clear (h : Audited d now) (contract : Address) (id : ℕ) :
    Audited (d.clear contract now id) now := by
  have hdelegates : ∀ k : ℕ, (d.clear contract now id).delegates[k]? =
      if k = id then none else d.delegates[k]? := fun k => get_erase _ _ _
  rcases Option.eq_none_or_eq_some d.delegates[id]? with hnone | ⟨delegate, hid⟩
  · have hhistory : (d.clear contract now id).history = d.history := by
      rw [Delegation.clear, hnone]
    have hsame : ∀ k : ℕ, (d.clear contract now id).delegates[k]? = d.delegates[k]? := by
      intro k
      rw [hdelegates]
      by_cases hk : k = id
      · rw [if_pos hk, hk, hnone]
      · rw [if_neg hk]
    constructor
    · rw [hhistory]
      exact h.mirrors.congr hsame
    · rw [hhistory]
      exact h.chained
    · rw [hhistory]
      exact h.ordered
    · rw [hhistory]
      exact h.past
  · apply h.record (r := ⟨id, some delegate, contract, contract, now, delegateCleared⟩) rfl hid.symm
    · rw [Delegation.clear, hid]
    · exact hdelegates

theorem Atom.audited (h : Atom H w a w') (hw : Audited w.delegation w.now) : Audited w'.delegation w'.now := by
  cases h with
  | claim => exact hw.clear H.contract _
  | setDelegate => exact hw.set _ _ _ _
  | clearDelegate => exact hw.clear H.contract _
  | dropDelegate hid => exact hw.drop H.contract hid
  | tick hnow => exact hw.later hnow
  | backfill _ h =>
    obtain ⟨totals, rfl⟩ := backfill_only_totals h
    exact hw
  | _ => exact hw

theorem Reaches.audited {tr : Trace τ} (h : Reaches H tr w) : Audited w.delegation w.now := by
  apply h.invariant (I := fun u => Audited u.delegation u.now)
  · intro now tokens
    exact audited_start now
  · intro u a v _ hatom hu
    exact hatom.audited hu

theorem Atom.history_grows (h : Atom H w a w') : w.delegation.history <+: w'.delegation.history := by
  have hclear : ∀ id, w.delegation.history <+:
      (w.delegation.clear H.contract w.now id).history := by
    intro id
    unfold Delegation.clear
    cases w.delegation.delegates[id]? with
    | none => exact List.prefix_rfl
    | some delegate => exact List.prefix_append _ _
  cases h with
  | claim => exact hclear _
  | setDelegate => exact List.prefix_append _ _
  | clearDelegate => exact hclear _
  | dropDelegate => exact List.prefix_append _ _
  | backfill _ h =>
    obtain ⟨totals, rfl⟩ := backfill_only_totals h
    exact List.prefix_rfl
  | _ => exact List.prefix_rfl

theorem Reaches.history_kept {tr : Trace τ} (h : Reaches H tr w)
    {t : Transition (World τ) (Move τ)} (ht : t ∈ tr) : t.pre.delegation.history <+: w.delegation.history := by
  obtain ⟨before, after, rfl⟩ := List.append_of_mem ht
  have hpre := h.split.1.wellFormed
  obtain ⟨now, tokens, hrun⟩ := h
  obtain ⟨-, hstep, hafter⟩ := hrun.split
  have hrest := (Run.single hstep).append hafter
  have hboth : WellFormed w ∧ t.pre.delegation.history <+: w.delegation.history := by
    refine hrest.invariant (I := fun u => WellFormed u ∧
      t.pre.delegation.history <+: u.delegation.history) (C := fun _ => True)
      ⟨hpre, List.prefix_rfl⟩ (fun _ _ => trivial) ?_
    rintro s hs - ⟨hu, hprefix⟩
    refine ⟨hs.wellFormed hu, ?_⟩
    refine hs.invariant (I := fun u => t.pre.delegation.history <+: u.delegation.history) hu hprefix ?_
    intro u a v hatom _ hu
    exact hu.trans hatom.history_grows
  exact hboth.2

/-- The delegate history is a faithful audit trail, for every package in every run. Replaying it
gives the stored delegate; every record names the delegate before it; the records are in the order
of time; and at no point of the run did it say anything that it does not say at the end. -/
theorem delegate_history_exact {tr : Trace τ} (h : Reaches H tr w) (id : ℕ) :
    (getDelegateHistory w id).foldl apply none = w.delegation.delegates[id]? ∧
    (∀ before r after, getDelegateHistory w id = before ++ r :: after →
      r.previousDelegate = before.foldl apply none) ∧
    (getDelegateHistory w id).Pairwise (fun r s => r.changedAt ≤ s.changedAt) ∧
    ∀ t ∈ tr, getDelegateHistory t.pre id <+: getDelegateHistory w id := by
  have hw := h.audited
  refine ⟨hw.mirrors id, hw.chained id, hw.ordered.filter _, ?_⟩
  intro t ht
  exact (h.history_kept ht).filter _

def twoDelegates : List (Move Balances) := [
  .call [] (.init ⟨1⟩),
  .call [⟨1⟩] (.fund ⟨9⟩ ⟨1⟩ 100),
  .call [⟨1⟩] (.createPackage ⟨1⟩ 0 ⟨2⟩ 10 ⟨9⟩ 0 ∅),
  .call [⟨1⟩] (.setDelegateWithExpiry ⟨1⟩ 0 ⟨3⟩ 150),
  .tick 200,
  .call [] (.sweepExpiredDelegates 0),
  .call [⟨1⟩] (.setDelegate ⟨1⟩ 0 ⟨4⟩),
  .call [⟨4⟩] (.claimWithProof 0 ⟨4⟩ [])]

theorem delegate_history_exact_twoDelegates :
    (getDelegateHistory (played (plainHost ⟨0⟩) 100 [((⟨9⟩, ⟨1⟩), 100)]
      twoDelegates).2 0).foldl apply none = none ∧
    (getDelegateHistory (played (plainHost ⟨0⟩) 100 [((⟨9⟩, ⟨1⟩), 100)]
      twoDelegates).2 0).map previousDelegate = [none, some ⟨3⟩, none, some ⟨4⟩] := by
  have hexact := delegate_history_exact (played_reaches (H := plainHost ⟨0⟩) 100
    [((⟨9⟩, ⟨1⟩), 100)] twoDelegates) 0
  rw [hexact.1]
  decide +kernel

end Soter.AidEscrow
