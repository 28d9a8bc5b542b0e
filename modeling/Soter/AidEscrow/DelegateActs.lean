import Soter.AidEscrow.Paths

/-! The registration of a delegate: its two map entries read as one, and what acts do to it. -/
namespace Soter.AidEscrow
open Std Soter.Fallible Soter.MapSum Soter.Runs

variable {τ : Type} {H : Host τ} {w w' : World τ} {a : Act}

def World.registration (w : World τ) (id : ℕ) : Option (Address × Option ℕ) :=
  (w.delegation.delegates[id]?).map fun delegate => (delegate, w.delegation.expiry[id]?)

def InForce (now : ℕ) (expiry : Option ℕ) : Prop :=
  ∀ expiresAt, expiry = some expiresAt → 0 < expiresAt → now < expiresAt

def expiryAfter (w : World τ) (id expiresAt : ℕ) : Option ℕ :=
  if 0 < expiresAt then some expiresAt else w.delegation.expiry[id]?

variable {id : ℕ} {d : Address}

theorem isDelegateExpired_eq_false :
    Delegate.isDelegateExpired w id = false ↔ InForce w.now w.delegation.expiry[id]? := by
  unfold Delegate.isDelegateExpired InForce
  rcases Option.eq_none_or_eq_some w.delegation.expiry[id]? with hnone | ⟨e, he⟩
  · simp [hnone]
  · simp [he]

theorem getDelegate_eq_some : Delegate.getDelegate w id = some d ↔
      ∃ expiry, w.registration id = some (d, expiry) ∧ InForce w.now expiry := by
  unfold Delegate.getDelegate World.registration
  rcases Option.eq_none_or_eq_some w.delegation.delegates[id]? with hnone | ⟨d', hd'⟩
  · simp [hnone]
  · rw [hd']
    have hforce : Delegate.isDelegateExpired w id = false ↔ InForce w.now _ :=
      isDelegateExpired_eq_false
    cases hexpired : Delegate.isDelegateExpired w id with
    | true =>
      have hout : ¬ InForce w.now w.delegation.expiry[id]? := by
        intro hin
        rw [hforce.mpr hin] at hexpired
        cases hexpired
      simpa using fun _ => hout
    | false => simpa using fun _ => hforce.mp hexpired

theorem InForce.earlier {now now' : ℕ} {expiry : Option ℕ} (h : InForce now' expiry)
    (hnow : now ≤ now') : InForce now expiry := by
  intro expiresAt he hpos
  have hlater := h expiresAt he hpos
  omega

theorem Atom.now_le (h : Atom H w a w') : w.now ≤ w'.now := by
  cases h with
  | backfill _ h =>
    obtain ⟨totals, rfl⟩ := backfill_only_totals h
    exact le_rfl
  | tick h => exact h
  | _ => exact le_rfl

theorem set_delegates (w : World τ) (admin : Address) (k : ℕ) (d : Address) (e id : ℕ) :
    (w.delegation.set w.now admin k d e).delegates[id]? =
      if id = k then some d else w.delegation.delegates[id]? :=
  get_insert _ _ _ _

theorem set_expiry (w : World τ) (admin : Address) (k : ℕ) (d : Address) (e id : ℕ) :
    (w.delegation.set w.now admin k d e).expiry[id]? =
      if id = k then expiryAfter w k e else w.delegation.expiry[id]? := by
  unfold Delegation.set expiryAfter
  by_cases hpos : 0 < e
  · simp only [hpos, if_true]
    exact get_insert _ _ _ _
  · simp only [hpos, if_false]
    by_cases hk : id = k
    · rw [if_pos hk, hk]
    · rw [if_neg hk]

theorem Atom.registers {admin : Address} {e : ℕ} (h : Atom H w (.setDelegate admin id d e) w') :
    w'.registration id = some (d, expiryAfter w id e) ∧ w'.delegation.expiry[id]? = expiryAfter w id e := by
  cases h with
  | setDelegate =>
    have hdelegate := (set_delegates w admin id d e id).trans (if_pos rfl)
    have hexpiry := (set_expiry w admin id d e id).trans (if_pos rfl)
    refine ⟨?_, hexpiry⟩
    change ((w.delegation.set w.now admin id d e).delegates[id]?).map
      (fun delegate => (delegate, (w.delegation.set w.now admin id d e).expiry[id]?)) = _
    rw [hdelegate, hexpiry]
    rfl

def Act.unregisters : Act → Option ℕ
  | .claim id _ => some id
  | .clearDelegate id => some id
  | _ => none

/-- An act leaves the registration of a package alone, makes a new one, or removes it: by a claim,
by a revocation, or because its expiry has passed. -/
theorem Atom.registration_cases (h : Atom H w a w') (id : ℕ) : (w'.registration id = w.registration id ∧
      w'.delegation.expiry[id]? = w.delegation.expiry[id]?) ∨ (∃ admin d e, a = .setDelegate admin id d e ∧
      w'.registration id = some (d, expiryAfter w id e) ∧ w'.delegation.expiry[id]? = expiryAfter w id e) ∨
    (w'.registration id = none ∧ w'.delegation.expiry[id]? = none ∧ (a.unregisters = some id ∨
        ∃ d e, w.registration id = some (d, some e) ∧ 0 < e ∧ e ≤ w.now)) := by
  -- Only four acts write to the two maps; a claim and a revocation write the same.
  have hatom := h
  have hother : ∀ k, id ≠ k → w'.delegation.delegates = w.delegation.delegates.erase k →
      w'.delegation.expiry = w.delegation.expiry.erase k →
      w'.registration id = w.registration id ∧ w'.delegation.expiry[id]? = w.delegation.expiry[id]? := by
    intro k hk hdelegates hexpiry
    have he : w'.delegation.expiry[id]? = w.delegation.expiry[id]? := by
      rw [hexpiry, get_erase, if_neg hk]
    refine ⟨?_, he⟩
    unfold World.registration
    rw [he, hdelegates, get_erase, if_neg hk]
  have hgone : w'.delegation.delegates = w.delegation.delegates.erase id →
      w'.delegation.expiry = w.delegation.expiry.erase id →
      w'.registration id = none ∧ w'.delegation.expiry[id]? = none := by
    intro hdelegates hexpiry
    unfold World.registration
    rw [hdelegates, hexpiry, get_erase, get_erase, if_pos rfl, if_pos rfl]
    exact ⟨rfl, rfl⟩
  cases h with
  | backfill _ h =>
    obtain ⟨totals, rfl⟩ := backfill_only_totals h
    exact .inl ⟨rfl, rfl⟩
  | @claim k | @clearDelegate k =>
    by_cases hk : id = k
    · subst hk
      obtain ⟨hnone, hexpiry⟩ := hgone rfl rfl
      exact .inr (.inr ⟨hnone, hexpiry, .inl rfl⟩)
    · exact .inl (hother k hk rfl rfl)
  | @dropDelegate k d e _ hd he hpos hlate =>
    by_cases hk : id = k
    · subst hk
      obtain ⟨hnone, hexpiry⟩ := hgone rfl rfl
      refine .inr (.inr ⟨hnone, hexpiry, .inr ⟨d, e, ?_, hpos, hlate⟩⟩)
      rw [World.registration, hd, he]
      rfl
    · exact .inl (hother k hk rfl rfl)
  | @setDelegate admin k _ d e =>
    by_cases hk : id = k
    · subst hk
      obtain ⟨hnew, hexpiry⟩ := hatom.registers
      exact .inr (.inl ⟨admin, d, e, rfl, hnew, hexpiry⟩)
    · have hexpiry := (set_expiry w admin k d e id).trans (if_neg hk)
      refine .inl ⟨?_, hexpiry⟩
      change ((w.delegation.set w.now admin k d e).delegates[id]?).map
        (fun delegate => (delegate, (w.delegation.set w.now admin k d e).expiry[id]?)) = _
      rw [set_delegates, if_neg hk, hexpiry]
      rfl
  | _ => exact .inl ⟨rfl, rfl⟩

theorem Atom.getDelegate_origin (h : Atom H w a w') (hd : Delegate.getDelegate w' id = some d) :
    Delegate.getDelegate w id = some d ∨ ∃ admin e, a = .setDelegate admin id d e := by
  obtain ⟨expiry, hreg, hforce⟩ := getDelegate_eq_some.mp hd
  rcases h.registration_cases id with ⟨hsame, -⟩ | ⟨admin, d', e, ha, hnew, -⟩ | ⟨hnone, -, -⟩
  · left
    apply getDelegate_eq_some.mpr
    exact ⟨expiry, hsame ▸ hreg, hforce.earlier h.now_le⟩
  · right
    have hpair := Option.some.inj (hnew.symm.trans hreg)
    have hdelegate : d' = d := congrArg Prod.fst hpair
    exact ⟨admin, e, hdelegate ▸ ha⟩
  · rw [hnone] at hreg
    cases hreg

def ExpiriesPositive (w : World τ) : Prop :=
  ∀ id e : ℕ, w.delegation.expiry[id]? = some e → 0 < e

theorem Atom.expiriesPositive (h : Atom H w a w') (hw : ExpiriesPositive w) : ExpiriesPositive w' := by
  intro id e he
  rcases h.registration_cases id with ⟨-, hsame⟩ | ⟨admin, d, e', -, -, hnew⟩ | ⟨-, hnone, -⟩
  · exact hw id e (hsame ▸ he)
  · rw [hnew] at he
    unfold expiryAfter at he
    split at he
    · rename_i hpos
      exact Option.some.inj he ▸ hpos
    · exact hw id e he
  · rw [hnone] at he
    cases he

theorem Reaches.expiriesPositive {tr : Trace τ} (h : Reaches H tr w) : ExpiriesPositive w := by
  apply h.invariant
  · intro now tokens id e he
    simp [World.deployed] at he
  · intro u a v _ hatom hI
    exact hatom.expiriesPositive hI

end Soter.AidEscrow
