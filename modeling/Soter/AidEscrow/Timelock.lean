import Soter.AidEscrow.Pauses
import Soter.Lib.Slot

/-! The timelock of surplus withdrawals over whole runs: the pending proposal as a slot. -/
namespace Soter.AidEscrow
open Std Soter.Fallible Soter.MapSum Soter.Runs

variable {τ : Type} {H : Host τ} {signers : List Address} {w w' : World τ} {m : Move τ} {a : Act}
  {held : τ → Address → ℤ} {t : Transition (World τ) (Move τ)}

def Proposes (t : Transition (World τ) (Move τ)) (receiver token : Address) (amount : ℤ) : Prop :=
  ∃ signers, t.label = .call signers (.proposeSurplusWithdrawal receiver amount token)

def Cancels (t : Transition (World τ) (Move τ)) : Prop :=
  ∃ signers, t.label = .call signers .cancelSurplusWithdrawal

def Executes (t : Transition (World τ) (Move τ)) : Prop :=
  ∃ signers, t.label = .call signers .executeSurplusWithdrawal

def proposalUse (t : Transition (World τ) (Move τ)) : Use PendingWithdrawal :=
  match t.label with
  | .call _ (.proposeSurplusWithdrawal receiver amount token) =>
    .fill ⟨receiver, token, amount, t.pre.now + surplusWithdrawalDelaySecs⟩
  | .call _ .cancelSurplusWithdrawal => .empty
  | .call _ .executeSurplusWithdrawal => .empty
  | _ => .keep

def Uninvolved (t : Transition (World τ) (Move τ)) : Prop :=
  (∀ receiver token amount, ¬ Proposes t receiver token amount) ∧ ¬ Cancels t ∧ ¬ Executes t

/-- The execution `t` pays the proposal `r`: it comes late enough, moves exactly what was
proposed, and leaves the contract what it has locked. -/
structure PaysProposal (H : Host τ) (held : τ → Address → ℤ)
    (r t : Transition (World τ) (Move τ)) (receiver token : Address) (amount : ℤ) : Prop where
  proposes : Proposes r receiver token amount
  delay : r.pre.now + surplusWithdrawalDelaySecs ≤ t.pre.now
  pays : H.transfer t.pre.tokens token H.contract receiver amount = some t.post.tokens
  transfers : t.post.transfers =
    t.pre.transfers ++ [⟨token, H.contract, receiver, amount, .surplus⟩]
  covered : getTotalLocked t.post token ≤ held t.post.tokens token

theorem proposeSurplusWithdrawal_spec {receiver token : Address} {amount : ℤ}
    (h : exec H signers w (.proposeSurplusWithdrawal receiver amount token) = .ok w') :
    0 < amount ∧ w.pendingWithdrawal = none ∧ w'.pendingWithdrawal =
      some ⟨receiver, token, amount, w.now + surplusWithdrawalDelaySecs⟩ := by
  simp only [exec, proposeSurplusWithdrawal, bind_eq_ok, pure_eq_ok, require_eq_ok, exists_unit] at h
  obtain ⟨-, _, -, hamount, hnone, _, -, -, executableAt, hat, rfl⟩ := h
  obtain rfl := addU64_of_ok hat
  exact ⟨hamount, hnone, rfl⟩

theorem cancelSurplusWithdrawal_spec (h : exec H signers w .cancelSurplusWithdrawal = .ok w') :
    w.pendingWithdrawal ≠ none ∧ w'.pendingWithdrawal = none := by
  cases cancelSurplusWithdrawal_atom (H := H) h with
  | withdrawProposal hq =>
    rw [hq]
    exact ⟨Option.some_ne_none _, rfl⟩

theorem executeSurplusWithdrawal_spec (h : exec H signers w .executeSurplusWithdrawal = .ok w') :
    ∃ q balance, w.pendingWithdrawal = some q ∧ w'.pendingWithdrawal = none ∧
      q.executableAt ≤ w.now ∧ H.balance w.tokens q.token H.contract = some balance ∧
      q.amount ≤ balance - getTotalLocked w q.token ∧
      H.transfer w.tokens q.token H.contract q.to q.amount = some w'.tokens ∧
      w'.transfers = w.transfers ++ [⟨q.token, H.contract, q.to, q.amount, .surplus⟩] ∧
      w'.totals = w.totals := by
  cases executeSurplusWithdrawal_atom h with
  | @execute q _ _ _ _ hq hdue hsurplus hle htransfer =>
    obtain ⟨balance, hbalance, rfl⟩ := availableSurplus_eq_ok hsurplus
    exact ⟨q, balance, hq, rfl, hdue, hbalance, hle, htransfer, rfl, rfl⟩

theorem executeSurplusWithdrawal_unpaid {q : PendingWithdrawal} (hq : w.pendingWithdrawal = some q)
    (hunpaid : H.transfer w.tokens q.token H.contract q.to q.amount = none) :
    exec H signers w .executeSurplusWithdrawal ≠ .ok w' := by
  intro h
  obtain ⟨q', _, hq', -, -, -, -, htransfer, -⟩ := executeSurplusWithdrawal_spec h
  rw [hq] at hq'
  cases hq'
  rw [hunpaid] at htransfer
  cases htransfer

theorem Atom.pending_kept (h : Atom H w a w') (hpropose : ∀ q, a ≠ .propose q)
    (hcancel : a ≠ .withdrawProposal) (hexecute : a ≠ .execute) :
    w'.pendingWithdrawal = w.pendingWithdrawal := by
  cases h with
  | propose => exact absurd rfl (hpropose _)
  | withdrawProposal => exact absurd rfl hcancel
  | execute => exact absurd rfl hexecute
  | backfill _ h =>
    obtain ⟨totals, rfl⟩ := backfill_only_totals h
    rfl
  | _ => rfl

theorem proposalUse_of_permits (ha : (∃ q, a = .propose q) ∨ a = .withdrawProposal ∨ a = .execute)
    (hm : m.permits a) : proposalUse ⟨w, m, w'⟩ ≠ .keep := by
  cases m with
  | tick | outside =>
    rcases ha with ⟨q, rfl⟩ | rfl | rfl <;> cases hm
  | call signers c =>
    cases c with
    | proposeSurplusWithdrawal | cancelSurplusWithdrawal | executeSurplusWithdrawal =>
      simp [proposalUse]
    | _ => rcases ha with ⟨q, rfl⟩ | rfl | rfl <;> simp [Move.permits, Call.permits] at hm

/-- Every step obeys the slot: a proposal needs it empty, a cancellation and an execution need it
full, and nothing else touches it. -/
theorem Step.obeys (h : Step H w m w') (hw : WellFormed w) :
    Obeys World.pendingWithdrawal proposalUse ⟨w, m, w'⟩ := by
  have hkeep : proposalUse ⟨w, m, w'⟩ = .keep → w'.pendingWithdrawal = w.pendingWithdrawal := by
    intro huse
    refine h.invariant (I := fun u => u.pendingWithdrawal = w.pendingWithdrawal) hw rfl ?_
    intro u a v hatom hpermits hI
    have hother : ¬ ((∃ q, a = .propose q) ∨ a = .withdrawProposal ∨ a = .execute) :=
      fun ha => proposalUse_of_permits ha hpermits huse
    rw [not_or, not_or] at hother
    obtain ⟨hpropose, hcancel, hexecute⟩ := hother
    exact (hatom.pending_kept (fun q hq => hpropose ⟨q, hq⟩) hcancel hexecute).trans hI
  cases h with
  | tick | outside => exact hkeep rfl
  | @call _ signers c hok =>
    cases c with
    | proposeSurplusWithdrawal =>
      obtain ⟨-, hnone, hsome⟩ := proposeSurplusWithdrawal_spec hok
      exact ⟨hnone, hsome⟩
    | cancelSurplusWithdrawal => exact cancelSurplusWithdrawal_spec hok
    | executeSurplusWithdrawal =>
      obtain ⟨q, -, hq, hnone, -⟩ := executeSurplusWithdrawal_spec hok
      refine ⟨?_, hnone⟩
      change w.pendingWithdrawal ≠ none
      rw [hq]
      exact Option.some_ne_none q
    | _ => exact hkeep rfl

theorem Reaches.obeys {tr : Trace τ} (h : Reaches H tr w) : ∀ t ∈ tr, Obeys World.pendingWithdrawal proposalUse t := by
  intro t ht
  obtain ⟨before, after, rfl⟩ := List.append_of_mem ht
  obtain ⟨hbefore, hstep⟩ := h.split
  exact hstep.obeys hbefore.wellFormed

theorem proposalUse_eq_fill {q : PendingWithdrawal} : proposalUse t = .fill q ↔
    Proposes t q.to q.token q.amount ∧ q.executableAt = t.pre.now + surplusWithdrawalDelaySecs := by
  obtain ⟨pre, label, post⟩ := t
  obtain ⟨receiver, token, amount, executableAt⟩ := q
  cases label with
  | tick | outside => simp [proposalUse, Proposes]
  | call signers c =>
    cases c with
    | proposeSurplusWithdrawal =>
      simp only [proposalUse, Proposes, Use.fill.injEq, PendingWithdrawal.mk.injEq,
        Move.call.injEq, Call.proposeSurplusWithdrawal.injEq, exists_eq_left']
      constructor
      · rintro ⟨rfl, rfl, rfl, rfl⟩
        exact ⟨⟨rfl, rfl, rfl⟩, rfl⟩
      · rintro ⟨⟨rfl, rfl, rfl⟩, rfl⟩
        exact ⟨rfl, rfl, rfl, rfl⟩
    | _ => simp [proposalUse, Proposes]

theorem proposalUse_eq_empty : proposalUse t = .empty ↔ Cancels t ∨ Executes t := by
  obtain ⟨pre, label, post⟩ := t
  cases label with
  | tick | outside => simp [proposalUse, Cancels, Executes]
  | call signers c => cases c <;> simp [proposalUse, Cancels, Executes]

theorem uninvolved_of_keep (h : proposalUse t = .keep) : Uninvolved t := by
  refine ⟨?_, ?_, ?_⟩
  · intro receiver token amount hpropose
    have hfill := proposalUse_eq_fill (q := ⟨receiver, token, amount, _⟩).mpr ⟨hpropose, rfl⟩
    rw [h] at hfill
    cases hfill
  · intro hcancel
    have hempty := proposalUse_eq_empty.mpr (.inl hcancel)
    rw [h] at hempty
    cases hempty
  · intro hexecute
    have hempty := proposalUse_eq_empty.mpr (.inr hexecute)
    rw [h] at hempty
    cases hempty

theorem TokenLaw.covers_locked (hlaw : TokenLaw H held) {s s' : τ} {token receiver : Address}
    {amount balance locked : ℤ} (hbalance : H.balance s token H.contract = some balance)
    (hamount : 0 < amount) (hle : amount ≤ balance - locked)
    (h : H.transfer s token H.contract receiver amount = some s') : locked ≤ held s' token := by
  have hheld : balance = held s token := hlaw.balance s token balance hbalance
  have hpaid := hlaw.le_of_payment hamount.le h token
  rw [if_pos rfl] at hpaid
  omega

/-- An execution pays the proposal that was made last, and nothing has happened to that one since. -/
theorem Reaches.execution_paid (hlaw : TokenLaw H held) {before after : Trace τ}
    (h : Reaches H (before ++ t :: after) w) (ht : Executes t) :
    ∃ earlier r between receiver token amount, before = earlier ++ r :: between ∧
      PaysProposal H held r t receiver token amount ∧ ∀ s ∈ between, Uninvolved s := by
  obtain ⟨hbefore, hstep⟩ := h.split
  obtain ⟨now, tokens, hrun⟩ := hbefore
  obtain ⟨signers, hlabel⟩ := ht
  rw [hlabel] at hstep
  obtain ⟨q, balance, hq, -, hdue, hbalance, hle, htransfer, htransfers, htotals⟩ :=
    executeSurplusWithdrawal_spec hstep.exec_ok
  have hobey := Reaches.obeys ⟨now, tokens, hrun⟩
  obtain ⟨earlier, r, between, rfl, hfill, hkeep⟩ := hrun.filled_by rfl hobey hq
  obtain ⟨hpropose, hat⟩ := proposalUse_eq_fill.mp hfill
  have hamount : 0 < q.amount := by
    obtain ⟨_, hr⟩ := hpropose
    have hrstep := hrun.split.2.1
    rw [hr] at hrstep
    exact (proposeSurplusWithdrawal_spec hrstep.exec_ok).1
  refine ⟨earlier, r, between, q.to, q.token, q.amount, rfl, ?_, ?_⟩
  · refine ⟨hpropose, hat ▸ hdue, htransfer, htransfers, ?_⟩
    have hlocked : getTotalLocked t.post q.token = getTotalLocked t.pre q.token := by
      rw [getTotalLocked, htotals, getTotalLocked]
    rw [hlocked]
    exact hlaw.covers_locked hbalance hamount hle htransfer
  · intro s hs
    exact uninvolved_of_keep (hkeep s hs)

/-- The timelock over a whole run. Every execution pays exactly one earlier proposal, not before
its delay is over, and leaves the contract at least what is locked; no proposal is executed twice
or follows another that is still open; and an execution that fails, by its transfer or otherwise,
leaves the proposal pending. -/
theorem surplus_timelock (hlaw : TokenLaw H held) {tr : Trace τ} (h : Reaches H tr w) :
    (∀ before t after, tr = before ++ t :: after → Executes t →
      ∃ earlier r between receiver token amount, before = earlier ++ r :: between ∧
        PaysProposal H held r t receiver token amount ∧ ∀ s ∈ between, Uninvolved s) ∧
    (∀ before t between t' after, tr = before ++ t :: (between ++ t' :: after) → Executes t →
      Executes t' → ∃ r ∈ between, ∃ receiver token amount, Proposes r receiver token amount) ∧
    (∀ before r between r' after receiver token amount receiver' token' amount',
      tr = before ++ r :: (between ++ r' :: after) → Proposes r receiver token amount →
      Proposes r' receiver' token' amount' → ∃ t ∈ between, Cancels t ∨ Executes t) ∧
    (∀ signers, (∀ w', exec H signers w .executeSurplusWithdrawal ≠ .ok w') →
      (afterCall H signers w .executeSurplusWithdrawal).pendingWithdrawal = w.pendingWithdrawal) ∧
    ∀ signers q, w.pendingWithdrawal = some q → H.transfer w.tokens q.token H.contract q.to q.amount = none →
      ∀ w', exec H signers w .executeSurplusWithdrawal ≠ .ok w' := by
  refine ⟨?_, ?_, ?_, ?_, ?_⟩
  · rintro before t after rfl ht
    exact h.execution_paid hlaw ht
  · rintro before t between t' after rfl ht ht'
    have hobey := h.obeys
    obtain ⟨now, tokens, hrun⟩ := h
    obtain ⟨r, hr, q, hfill⟩ := hrun.filled_between hobey (proposalUse_eq_empty.mpr (.inr ht))
      (proposalUse_eq_empty.mpr (.inr ht'))
    -- the slot was emptied twice, so something filled it in between
    exact ⟨r, hr, q.to, q.token, q.amount, (proposalUse_eq_fill.mp hfill).1⟩
  · rintro before r between r' after receiver token amount receiver' token' amount' rfl hr hr'
    have hobey := h.obeys
    obtain ⟨now, tokens, hrun⟩ := h
    obtain ⟨t, ht, hempty⟩ := hrun.emptied_between hobey
      (proposalUse_eq_fill (q := ⟨receiver, token, amount, _⟩).mpr ⟨hr, rfl⟩)
      (proposalUse_eq_fill (q := ⟨receiver', token', amount', _⟩).mpr ⟨hr', rfl⟩)
    exact ⟨t, ht, proposalUse_eq_empty.mp hempty⟩
  · intro signers hrefused
    rw [afterCall_of_refused hrefused]
  · intro signers q hq hunpaid w'
    exact executeSurplusWithdrawal_unpaid hq hunpaid

/-- A proposal is made, a second one is refused, and a day later the first one is executed. -/
def proposedAndExecuted : List (Move Balances) := [
  .call [] (.init ⟨1⟩),
  .call [⟨1⟩] (.fund ⟨9⟩ ⟨1⟩ 10),
  .call [⟨1⟩] (.proposeSurplusWithdrawal ⟨5⟩ 4 ⟨9⟩),
  .call [⟨1⟩] (.proposeSurplusWithdrawal ⟨6⟩ 5 ⟨9⟩),
  .tick 86500,
  .call [⟨1⟩] .executeSurplusWithdrawal]

def Move.isExecution : Move τ → Bool
  | .call _ .executeSurplusWithdrawal => true
  | _ => false

theorem executes_of_isExecution (h : t.label.isExecution = true) : Executes t := by
  unfold Executes
  cases hlabel : t.label with
  | tick | outside => simp [hlabel, Move.isExecution] at h
  | call signers c =>
    cases c with
    | executeSurplusWithdrawal => exact ⟨signers, rfl⟩
    | _ => simp [hlabel, Move.isExecution] at h

theorem surplus_timelock_proposedAndExecuted :
    ∃ r ∈ (played (plainHost ⟨0⟩) 100 [((⟨9⟩, ⟨1⟩), 10)] proposedAndExecuted).1,
      ∃ t ∈ (played (plainHost ⟨0⟩) 100 [((⟨9⟩, ⟨1⟩), 10)] proposedAndExecuted).1,
      t.post.transfers.drop 1 = [⟨⟨9⟩, ⟨0⟩, ⟨5⟩, 4, .surplus⟩] ∧ ∃ receiver token amount,
        PaysProposal (plainHost ⟨0⟩) (fun m t => heldIn m t ⟨0⟩) r t receiver token amount := by
  have hrun := played_reaches (H := plainHost ⟨0⟩) 100 [((⟨9⟩, ⟨1⟩), 10)] proposedAndExecuted
  have hpaid := (surplus_timelock (plainHost_law ⟨0⟩) hrun).1
  have hlast : (played (plainHost ⟨0⟩) 100 [((⟨9⟩, ⟨1⟩), 10)] proposedAndExecuted).1[4]?.map
      (fun t => (t.label.isExecution, t.post.transfers.drop 1)) =
      some (true, [⟨⟨9⟩, ⟨0⟩, ⟨5⟩, 4, .surplus⟩]) := by
    decide +kernel
  obtain ⟨t, ht, hseen⟩ := Option.map_eq_some_iff.mp hlast
  obtain ⟨hexecution, htransfers⟩ := Prod.mk.inj hseen
  obtain ⟨before, after, hsplit⟩ := List.append_of_mem (List.mem_of_getElem? ht)
  obtain ⟨earlier, r, between, receiver, token, amount, rfl, hpays, -⟩ :=
    hpaid before t after hsplit (executes_of_isExecution hexecution)
  refine ⟨r, ?_, t, List.mem_of_getElem? ht, htransfers, receiver, token, amount, hpays⟩
  rw [hsplit]
  simp

end Soter.AidEscrow
