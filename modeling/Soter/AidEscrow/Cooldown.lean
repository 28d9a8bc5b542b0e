import Soter.AidEscrow.ClaimRuns

/-! The claim cooldown of a recipient over whole runs. -/
namespace Soter.AidEscrow
open Std Soter.Fallible Soter.MapSum Soter.Runs

variable {τ : Type} {H : Host τ} {signers : List Address} {w w' u : World τ} {a : Act}
  {m : Move τ}

/-- All claims of a run in order, each with the ledger that its call found and its package. -/
def claimLog (tr : Trace τ) : List (World τ × ℕ) :=
  tr.flatMap fun t => (claimsOf t).map fun c => (t.pre, c.1)

/-- Of two claims for the same stored recipient, the second comes at least the cooldown after the
first, by the configuration the second one found. -/
def RespectsCooldown (first second : World τ × ℕ) : Prop :=
  ∀ p q : Package, first.1.store.packages[first.2]? = some p →
    second.1.store.packages[second.2]? = some q → p.recipient = q.recipient →
    first.1.now ≤ second.1.now ∧
      (getConfig second.1).claimCooldown ≤ second.1.now - first.1.now

/-- The log so far respects the cooldown, and the ledger remembers for the recipient of each of its
claims a claim that is no earlier. -/
structure CooldownKept (log : List (World τ × ℕ)) (u : World τ) : Prop where
  spaced : log.Pairwise RespectsCooldown
  remembered : ∀ c ∈ log, ∃ p last, c.1.store.packages[c.2]? = some p ∧
    u.recipientLastClaim[p.recipient]? = some last ∧ c.1.now ≤ last ∧ last ≤ u.now

variable {log : List (World τ × ℕ)} {id : ℕ} {p : Package}

theorem ensureRecipientCooldown_eq_ok {recipient : Address} {v : Unit} : ensureRecipientCooldown w recipient = .ok v ↔
      (getConfig w).claimCooldown = 0 ∨ w.recipientLastClaim[recipient]? = none ∨
      ∃ last, w.recipientLastClaim[recipient]? = some last ∧ (getConfig w).claimCooldown ≤ w.now - last := by
  unfold ensureRecipientCooldown
  dsimp only
  split
  · rename_i hzero
    simp [hzero]
  · rename_i hzero
    cases hlast : w.recipientLastClaim[recipient]? with
    | none => simp
    | some last => simp [hzero, require_eq_ok]

theorem Atom.lastClaim_kept (h : Atom H w a w') (ha : a.asClaim = none) :
    w'.recipientLastClaim = w.recipientLastClaim ∧ w.now ≤ w'.now := by
  cases h with
  | backfill _ h =>
    obtain ⟨totals, rfl⟩ := backfill_only_totals h
    exact ⟨rfl, le_rfl⟩
  | claim => cases ha
  | tick h => exact ⟨rfl, h⟩
  | _ => exact ⟨rfl, le_rfl⟩

theorem Atom.cooldownKept (h : Atom H u a w') (hframe : a.asClaim ≠ none → ClaimFrame w u) (hI : CooldownKept log u) :
    CooldownKept (log ++ a.asClaim.toList.map fun c => (w, c.1)) w' := by
  by_cases ha : a.asClaim = none
  · obtain ⟨hlast, hnow⟩ := h.lastClaim_kept ha
    simp only [ha, Option.toList_none, List.map_nil, List.append_nil]
    refine ⟨hI.spaced, fun c hc => ?_⟩
    obtain ⟨p, last, hp, hmemory, hle, hpast⟩ := hI.remembered c hc
    exact ⟨p, last, hp, hlast ▸ hmemory, hle, hpast.trans hnow⟩
  · have hF := hframe ha
    cases h with
    | @claim id payee p _ _ _ hp _ _ _ _ hcooldown =>
      -- earlier acts of the same call may have rewritten the package, but not its recipient
      obtain ⟨q, hq, hrecipient, -⟩ := hF.package hp
      simp only [Act.asClaim, Option.toList_some, List.map_cons, List.map_nil]
      constructor
      · rw [List.pairwise_append]
        refine ⟨hI.spaced, List.pairwise_singleton _ _, fun c hc d hd => ?_⟩
        obtain rfl := List.mem_singleton.mp hd
        obtain ⟨p₀, last, hp₀, hmemory, hle, hpast⟩ := hI.remembered c hc
        intro p₁ q₁ hp₁ hq₁ hsame
        obtain rfl := Option.some.inj (hp₀.symm.trans hp₁)
        obtain rfl := Option.some.inj (hq.symm.trans hq₁)
        have hnow : u.now = w.now := hF.now
        have hconfig : getConfig u = getConfig w := by
          rw [getConfig, getConfig, hF.settings]
        rw [hsame, hrecipient] at hmemory
        have hearlier : c.1.now ≤ w.now := by omega
        refine ⟨hearlier, ?_⟩
        change (getConfig w).claimCooldown ≤ w.now - c.1.now
        -- an earlier claim of the same recipient left its time behind, and the check read it
        rcases ensureRecipientCooldown_eq_ok.mp hcooldown with hzero | hnone | ⟨last', hlast', hwait⟩
        · rw [hconfig] at hzero
          omega
        · rw [hnone] at hmemory
          cases hmemory
        · obtain rfl := Option.some.inj (hmemory.symm.trans hlast')
          rw [hconfig] at hwait
          omega
      · intro c hc
        change ∃ p' last, _ ∧ (u.recipientLastClaim.insert p.recipient u.now)[_]? = _ ∧ _ ∧ last ≤ u.now
        rcases List.mem_append.mp hc with hc | hc
        · obtain ⟨p₀, last, hp₀, hmemory, hle, hpast⟩ := hI.remembered c hc
          refine ⟨p₀, ?_⟩
          rw [get_insert]
          split
          · exact ⟨u.now, hp₀, rfl, hle.trans hpast, le_rfl⟩
          · exact ⟨last, hp₀, hmemory, hle, hpast⟩
        · obtain rfl := List.mem_singleton.mp hc
          refine ⟨q, u.now, hq, ?_, hF.now.ge, le_rfl⟩
          rw [get_insert, if_pos hrecipient]
    | _ => exact absurd rfl ha

theorem run_cooldownKept {acts : List (Transition (World τ) Act)}
    (h : Run (Atom H) w acts w') (hframe : ∀ t ∈ acts, t.label.asClaim ≠ none → ClaimFrame w t.pre)
    (hI : CooldownKept log w) : CooldownKept
      (log ++ (acts.filterMap fun t => t.label.asClaim).map fun c => (w, c.1)) w' := by
  induction h with
  | nil => simpa using hI
  | @snoc acts u a v _ hatom ih =>
    have hprefix := ih fun t ht => hframe t (List.mem_append_left _ ht)
    have hstep := hatom.cooldownKept (hframe ⟨u, a, v⟩ (by simp)) hprefix
    rw [List.filterMap_append, List.map_append, ← List.append_assoc]
    have hlast : ([⟨u, a, v⟩] : List (Transition (World τ) Act)).filterMap
        (fun t => t.label.asClaim) = a.asClaim.toList := by
      cases ha : a.asClaim <;> simp [ha]
    rw [hlast]
    exact hstep

theorem Reaches.cooldownKept {tr : Trace τ} (h : Reaches H tr w) : CooldownKept (claimLog tr) w := by
  obtain ⟨now, tokens, hrun⟩ := h
  induction hrun with
  | nil => exact ⟨List.Pairwise.nil, by simp [claimLog]⟩
  | @snoc tr u m v hrun hstep ih =>
    have hw : WellFormed u := Reaches.wellFormed ⟨now, tokens, hrun⟩
    obtain ⟨acts, hacts, hclaims, -, hframe⟩ := hstep.claims hw
    have hlog : claimLog (tr ++ [⟨u, m, v⟩]) =
        claimLog tr ++ (acts.filterMap fun t => t.label.asClaim).map fun c => (u, c.1) := by
      simp [claimLog, hclaims]
    rw [hlog]
    exact run_cooldownKept hacts hframe ih

theorem Atom.claim_cooldown {payee : Address} (h : Atom H u (.claim id payee) w') (hp : u.store.packages[id]? = some p) :
    ensureRecipientCooldown u p.recipient = .ok () := by
  cases h with
  | claim hq _ _ _ _ hcooldown =>
    obtain rfl := Option.some.inj (hp.symm.trans hq)
    exact hcooldown

theorem claim_refused_in_cooldown (hp : u.store.packages[id]? = some p)
    (hcooldown : ensureRecipientCooldown u p.recipient ≠ .ok ()) :
    (∀ w', exec H signers u (.claim id) ≠ .ok w') ∧
    (∀ claimant proof w', exec H signers u (.claimWithProof id claimant proof) ≠ .ok w') ∧
    (∀ claimant relayer w', exec H signers u (.claimWithRelayer id claimant relayer) ≠ .ok w') ∧
    ∀ claimant w' r, claimOneForBatch H u claimant id = .ok (w', r) → w' = u ∧ r.status ≠ .success := by
  refine ⟨fun w' h => ?_, fun claimant proof w' h => ?_, fun claimant relayer w' h => ?_, fun claimant w' r h => ?_⟩
  · obtain ⟨payee, hatom⟩ := claim_atom h
    exact hcooldown (hatom.claim_cooldown hp)
  · exact hcooldown ((claimWithProof_atom h).claim_cooldown hp)
  · exact hcooldown ((claimWithRelayer_atom h).claim_cooldown hp)
  · rcases claimOneForBatch_spec h with ⟨hstatus, -, hsame⟩ | ⟨-, hatom⟩
    · exact ⟨hsame, hstatus⟩
    · exact absurd (hatom.claim_cooldown hp) hcooldown

/-- In every run, of any two claims for the same stored recipient the later one comes at least the
cooldown after the earlier one, by the configuration of its own moment; every claim in the log is
one of a stored package; and a claim that the cooldown refuses changes nothing. -/
theorem claim_cooldown_respected {tr : Trace τ} (h : Reaches H tr w) : (claimLog tr).Pairwise RespectsCooldown ∧
    (∀ c ∈ claimLog tr, ∃ p, c.1.store.packages[c.2]? = some p) ∧
    ∀ (id : ℕ) (p : Package), w.store.packages[id]? = some p →
      ensureRecipientCooldown w p.recipient ≠ .ok () → ∀ signers : List Address,
      (∀ w', exec H signers w (.claim id) ≠ .ok w') ∧
      (∀ claimant proof w', exec H signers w (.claimWithProof id claimant proof) ≠ .ok w') ∧
      (∀ claimant relayer w', exec H signers w (.claimWithRelayer id claimant relayer) ≠ .ok w') ∧
      ∀ claimant w' r, claimOneForBatch H w claimant id = .ok (w', r) → w' = w ∧ r.status ≠ .success := by
  have hkept := h.cooldownKept
  refine ⟨hkept.spaced, fun c hc => ?_, fun id p hp hcooldown signers => ?_⟩
  · obtain ⟨p, -, hp, -⟩ := hkept.remembered c hc
    exact ⟨p, hp⟩
  · exact claim_refused_in_cooldown hp hcooldown

/-- Two packages for one recipient under a cooldown of a hundred seconds: the second claim is
refused in the batch and goes through later. -/
def claimsApart : List (Move Balances) := [
  .call [] (.init ⟨1⟩),
  .call [⟨1⟩] (.setConfig ⟨1, 0, [], 100⟩),
  .call [⟨1⟩] (.fund ⟨9⟩ ⟨1⟩ 30),
  .call [⟨1⟩] (.batchCreatePackages ⟨1⟩ [⟨2⟩, ⟨2⟩] [10, 5] ⟨9⟩ 500 [∅, ∅]),
  .call [⟨2⟩] (.batchClaim ⟨2⟩ [0, 1]),
  .tick 210,
  .call [⟨2⟩] (.claim 1)]

theorem claim_cooldown_respected_claimsApart :
    (claimLog (played (plainHost ⟨0⟩) 100 [((⟨9⟩, ⟨1⟩), 100)] claimsApart).1).Pairwise RespectsCooldown ∧
    (claimLog (played (plainHost ⟨0⟩) 100 [((⟨9⟩, ⟨1⟩), 100)] claimsApart).1).map
      (fun c => (c.1.now, c.2)) = [(100, 0), (210, 1)] :=
  ⟨(claim_cooldown_respected (played_reaches (H := plainHost ⟨0⟩) 100 [((⟨9⟩, ⟨1⟩), 100)]
    claimsApart)).1, by decide +kernel⟩

end Soter.AidEscrow
