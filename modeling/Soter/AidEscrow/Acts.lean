import Soter.AidEscrow.Books
import Soter.AidEscrow.Contract

/-! The elementary acts that every call of the contract is made of, with all that each one needs
and everything it changes. -/
namespace Soter.AidEscrow
open Std Soter.Fallible Soter.MapSum

inductive Lifecycle
  | created (recipient : Address) (amount : ℤ)
  | reassigned (recipient : Address)
  | became (status : PackageStatus)

def Event.lifecycle : Event → Option (ℕ × Lifecycle)
  | .packageCreated id recipient amount _ _ => some (id, .created recipient amount)
  | .packageReassigned id _ newRecipient _ _ => some (id, .reassigned newRecipient)
  | .packageClaimed id _ _ _ _ _ => some (id, .became .claimed)
  | .packageClaimedByRelayer id _ _ _ _ => some (id, .became .claimed)
  | .packageDisbursed id _ _ _ _ _ => some (id, .became .claimed)
  | .packageRevoked id _ _ _ _ => some (id, .became .cancelled)
  | .packageRefunded id _ _ _ _ => some (id, .became .refunded)
  | .packageSwept id _ _ _ _ => some (id, .became .expired)
  | _ => none

def lifecycleOf (events : List Event) : List (ℕ × Lifecycle) := events.filterMap Event.lifecycle

inductive Act
  | settings
  | backfill
  | note
  | fund (token sender : Address) (amount : ℤ)
  | create (package : Package)
  | claim (id : ℕ) (payee : Address)
  | disburse (id : ℕ)
  | cancel (id : ℕ)
  | expire (id : ℕ)
  | refund (id : ℕ)
  | reassign (id : ℕ) (recipient : Address)
  | extend (id : ℕ) (expiresAt : ℕ)
  | attach (id : ℕ) (evidenceHash : Text)
  | propose (proposal : PendingWithdrawal)
  | withdrawProposal
  | execute
  | setDelegate (admin : Address) (id : ℕ) (delegate : Address) (expiresAt : ℕ)
  | clearDelegate (id : ℕ)
  | dropDelegate (id : ℕ)
  | tick
  | outside

variable {τ : Type}

def World.emit (w : World τ) (events : List Event) : World τ :=
  { w with events := w.events ++ events.map (Published.mk eventSchemaVersion) }

@[simp] theorem emit_nil (w : World τ) : w.emit [] = w := by
  simp [World.emit]

def InWindow (now : ℕ) (p : Package) : Prop :=
  p.claimStartsAt ≤ now ∧ ¬ (0 < p.expiresAt ∧ p.expiresAt < now)

/-- Who may take a package: with a Merkle root, anybody with a proof; without one, the recipient
and the delegate. -/
def Entitled (H : Host τ) (w : World τ) (id : ℕ) (p : Package) (payee : Address) : Prop :=
  match merkleRootFromMetadata p.metadata with
  | some root => ∃ proof, verifyMerkleProofForClaimant H payee proof root = .ok true
  | none => Delegate.isAuthorisedClaimer w id p.recipient payee = true

def PackageStore.add (s : PackageStore) (p : Package) : PackageStore where
  packages := s.packages.insert p.id p
  index := s.index.insert s.pkgIdx p.id
  pkgCounter := if s.pkgCounter ≤ p.id then p.id + 1 else s.pkgCounter
  pkgIdx := s.pkgIdx + 1

def PackageStore.put (s : PackageStore) (id : ℕ) (p : Package) : PackageStore :=
  { s with packages := s.packages.insert id p }

def Delegation.set (d : Delegation) (now : ℕ) (admin : Address) (id : ℕ) (delegate : Address)
    (expiresAt : ℕ) : Delegation where
  delegates := d.delegates.insert id delegate
  expiry := if 0 < expiresAt then d.expiry.insert id expiresAt else d.expiry
  history := d.history ++ [⟨id, d.delegates[id]?, delegate, admin, now, Delegate.delegateSet⟩]

def Delegation.clear (d : Delegation) (contract : Address) (now : ℕ) (id : ℕ) : Delegation where
  delegates := d.delegates.erase id
  expiry := d.expiry.erase id
  history := match d.delegates[id]? with
    | some delegate => d.history ++
        [⟨id, some delegate, contract, contract, now, Delegate.delegateCleared⟩]
    | none => d.history

def Delegation.drop (d : Delegation) (contract : Address) (now : ℕ) (id : ℕ)
    (delegate : Address) : Delegation where
  delegates := d.delegates.erase id
  expiry := d.expiry.erase id
  history := d.history ++
    [⟨id, some delegate, contract, contract, now, Delegate.delegateExpired⟩]

def World.paid (w : World τ) (tokens : τ) (contract : Address) (p : Package) (receiver : Address)
    (purpose : Purpose) : World τ :=
  { w with tokens, transfers := w.transfers ++ [⟨p.token, contract, receiver, p.amount, purpose⟩] }

inductive Atom (H : Host τ) : World τ → Act → World τ → Prop
  | settings {w : World τ} {settings : Settings} {E : List Event} :
      lifecycleOf E = [] → Atom H w .settings ({ w with settings }.emit E)
  | backfill {w w' : World τ} :
      getVersion w = 1 → backfillCampaignTokenTotals w = .ok w' → Atom H w .backfill w'
  | note {w : World τ} {totals : Totals} {E : List Event} :
      totals.books = w.totals.books → lifecycleOf E = [] →
      Atom H w .note ({ w with totals }.emit E)
  | fund {w : World τ} {token sender : Address} {amount : ℤ} {tokens : τ} {E : List Event} :
      0 < amount → H.transfer w.tokens token sender H.contract amount = some tokens →
      lifecycleOf E = [] →
      Atom H w (.fund token sender amount) ({ w with
        tokens
        transfers := w.transfers ++ [Transfer.mk token sender H.contract amount .fund] }.emit E)
  | create {w : World τ} {p : Package} {balance : ℤ} {totals : Totals} {E : List Event} :
      w.settings.paused = false → w.store.packages[p.id]? = none → p.status = .created →
      0 < p.amount → p.createdAt = w.now → p.evidenceHash = [] →
      H.balance w.tokens p.token H.contract = some balance →
      w.totals.books.locked p.token + p.amount ≤ balance →
      totals.books = w.totals.books.lock p →
      lifecycleOf E = [(p.id, .created p.recipient p.amount)] →
      Atom H w (.create p) ({ w with totals, store := PackageStore.add w.store p }.emit E)
  | claim {w : World τ} {id : ℕ} {payee : Address} {p : Package} {tokens : τ} {totals : Totals}
      {E : List Event} :
      w.store.packages[id]? = some p → p.status = .created → CampaignOpen w p.metadata →
      InWindow w.now p → Entitled H w id p payee →
      ensureRecipientCooldown w p.recipient = .ok () →
      H.transfer w.tokens p.token H.contract payee p.amount = some tokens →
      settleClaim w.totals p = .ok totals →
      lifecycleOf E = [(id, .became .claimed)] →
      Atom H w (.claim id payee) ({ w.paid tokens H.contract p payee (.claim id) with
        totals
        store := w.store.put id { p with status := .claimed }
        recipientLastClaim := w.recipientLastClaim.insert p.recipient w.now
        delegation := w.delegation.clear H.contract w.now id }.emit E)
  | disburse {w : World τ} {id : ℕ} {p : Package} {tokens : τ} {totals : Totals}
      {E : List Event} :
      w.store.packages[id]? = some p → p.status = .created → CampaignOpen w p.metadata →
      H.transfer w.tokens p.token H.contract p.recipient p.amount = some tokens →
      decrementLocked w.totals p.token p.metadata p.amount = .ok totals →
      lifecycleOf E = [(id, .became .claimed)] →
      Atom H w (.disburse id) ({ w.paid tokens H.contract p p.recipient (.disburse id) with
        totals, store := w.store.put id { p with status := .claimed } }.emit E)
  | cancel {w : World τ} {id : ℕ} {p : Package} {totals : Totals} {E : List Event} :
      w.store.packages[id]? = some p → p.status = .created →
      decrementLocked w.totals p.token p.metadata p.amount = .ok totals →
      lifecycleOf E = [(id, .became .cancelled)] →
      Atom H w (.cancel id) ({ w with
        totals, store := w.store.put id { p with status := .cancelled } }.emit E)
  | expire {w : World τ} {id : ℕ} {p : Package} {totals : Totals} {E : List Event} :
      w.store.packages[id]? = some p → p.status = .created → 0 < p.expiresAt →
      p.expiresAt < w.now →
      decrementLocked w.totals p.token p.metadata p.amount = .ok totals →
      lifecycleOf E = [(id, .became .expired)] →
      Atom H w (.expire id) ({ w with
        totals, store := w.store.put id { p with status := .expired } }.emit E)
  | refundLocked {w : World τ} {id : ℕ} {p : Package} {receiver : Address} {tokens : τ}
      {totals : Totals} {E : List Event} :
      w.store.packages[id]? = some p → CampaignOpen w p.metadata →
      w.settings.admin = some receiver →
      (p.status = .created ∧ 0 < p.expiresAt ∧ p.expiresAt < w.now ∨ p.status = .expired) →
      H.transfer w.tokens p.token H.contract receiver p.amount = some tokens →
      decrementLocked w.totals p.token p.metadata p.amount = .ok totals →
      lifecycleOf E = [(id, .became .refunded)] →
      Atom H w (.refund id) ({ w.paid tokens H.contract p receiver (.refund id) with
        totals, store := w.store.put id { p with status := .refunded } }.emit E)
  | refundCancelled {w : World τ} {id : ℕ} {p : Package} {receiver : Address} {tokens : τ}
      {E : List Event} :
      w.store.packages[id]? = some p → CampaignOpen w p.metadata →
      w.settings.admin = some receiver → p.status = .cancelled →
      H.transfer w.tokens p.token H.contract receiver p.amount = some tokens →
      lifecycleOf E = [(id, .became .refunded)] →
      Atom H w (.refund id) ({ w.paid tokens H.contract p receiver (.refund id) with
        store := w.store.put id { p with status := .refunded } }.emit E)
  | reassign {w : World τ} {id : ℕ} {p : Package} {recipient : Address} {E : List Event} :
      w.store.packages[id]? = some p → p.status = .created →
      ¬ (0 < p.expiresAt ∧ p.expiresAt < w.now) →
      lifecycleOf E = [(id, .reassigned recipient)] →
      Atom H w (.reassign id recipient)
        ({ w with store := w.store.put id { p with recipient } }.emit E)
  | extend {w : World τ} {id : ℕ} {p : Package} {expiresAt : ℕ} {E : List Event} :
      w.store.packages[id]? = some p → p.status = .created → p.expiresAt ≠ 0 →
      w.now ≤ p.expiresAt → p.expiresAt < expiresAt → lifecycleOf E = [] →
      Atom H w (.extend id expiresAt)
        ({ w with store := w.store.put id { p with expiresAt } }.emit E)
  | attach {w : World τ} {id : ℕ} {p : Package} {evidenceHash : Text} {E : List Event} :
      w.store.packages[id]? = some p → p.evidenceHash = [] →
      validateEvidenceHash evidenceHash = .ok () → lifecycleOf E = [] →
      Atom H w (.attach id evidenceHash)
        ({ w with store := w.store.put id { p with evidenceHash } }.emit E)
  | propose {w : World τ} {q : PendingWithdrawal} {surplus : ℤ} {E : List Event} :
      w.settings.paused = false → 0 < q.amount → w.pendingWithdrawal = none →
      availableSurplus H w q.token = .ok surplus → q.amount ≤ surplus →
      q.executableAt = w.now + surplusWithdrawalDelaySecs → lifecycleOf E = [] →
      Atom H w (.propose q) ({ w with pendingWithdrawal := some q }.emit E)
  | withdrawProposal {w : World τ} {q : PendingWithdrawal} {E : List Event} :
      w.pendingWithdrawal = some q → lifecycleOf E = [] →
      Atom H w .withdrawProposal ({ w with pendingWithdrawal := none }.emit E)
  | execute {w : World τ} {q : PendingWithdrawal} {surplus : ℤ} {tokens : τ}
      {E : List Event} :
      w.settings.paused = false → w.pendingWithdrawal = some q → q.executableAt ≤ w.now →
      availableSurplus H w q.token = .ok surplus → q.amount ≤ surplus →
      H.transfer w.tokens q.token H.contract q.to q.amount = some tokens →
      lifecycleOf E = [] →
      Atom H w .execute ({ w with
        pendingWithdrawal := none
        tokens
        transfers := w.transfers ++
          [Transfer.mk q.token H.contract q.to q.amount .surplus] }.emit E)
  | setDelegate {w : World τ} {admin : Address} {id : ℕ} {p : Package} {delegate : Address}
      {expiresAt : ℕ} {E : List Event} :
      w.store.packages[id]? = some p → p.status ≠ .claimed → delegate ≠ p.recipient →
      (0 < expiresAt → w.now < expiresAt) → lifecycleOf E = [] →
      Atom H w (.setDelegate admin id delegate expiresAt) ({ w with
        delegation := w.delegation.set w.now admin id delegate expiresAt }.emit E)
  | clearDelegate {w : World τ} {id : ℕ} {p : Package} {E : List Event} :
      w.store.packages[id]? = some p → lifecycleOf E = [] →
      Atom H w (.clearDelegate id) ({ w with
        delegation := w.delegation.clear H.contract w.now id }.emit E)
  | dropDelegate {w : World τ} {id : ℕ} {delegate : Address} {expiresAt : ℕ}
      {E : List Event} :
      w.delegation.delegates[id]? = some delegate → w.delegation.expiry[id]? = some expiresAt →
      0 < expiresAt → expiresAt ≤ w.now → lifecycleOf E = [] →
      Atom H w (.dropDelegate id) ({ w with
        delegation := w.delegation.drop H.contract w.now id delegate }.emit E)
  | tick {w : World τ} {now : ℕ} : w.now ≤ now → Atom H w .tick { w with now }
  | outside {w : World τ} {tokens : τ} :
      H.outside w.tokens tokens → Atom H w .outside { w with tokens }

theorem backfill_only_totals {τ : Type} {w w' : World τ}
    (h : backfillCampaignTokenTotals w = .ok w') : ∃ totals, w' = { w with totals } := by
  simp only [backfillCampaignTokenTotals, bind_eq_ok, pure_eq_ok] at h
  obtain ⟨acc, -, rfl⟩ := h
  exact ⟨_, rfl⟩

end Soter.AidEscrow
