import Soter.AidEscrow.ClaimRuns

/-! How long a registered delegate is authorised. -/
namespace Soter.AidEscrow
open Std Soter.Fallible Soter.MapSum Soter.Runs

variable {τ : Type} {H : Host τ} {w w' u v : World τ} {m : Move τ}

structure AuthorisedDelegate (w : World τ) (id : ℕ) (d : Address) : Prop where
  shown : Delegate.getDelegate w id = some d
  authorised : ∀ recipient, Delegate.isAuthorisedClaimer w id recipient d = true

/-- No delegate is on show, and the address is authorised only if it is the recipient itself. -/
structure LapsedDelegate (w : World τ) (id : ℕ) (d : Address) : Prop where
  hidden : Delegate.getDelegate w id = none
  unauthorised : ∀ recipient, recipient ≠ d →
    Delegate.isAuthorisedClaimer w id recipient d = false

/-- The package, the delegate and the expiry of a call that registers a delegate; the short form
asks for no expiry. -/
def Call.registers : Call → Option (ℕ × Address × ℕ)
  | .setDelegate _ id d => some (id, d, 0)
  | .setDelegateWithExpiry _ id d expiresAt => some (id, d, expiresAt)
  | _ => none

/-- The transition registers a delegate for the package, revokes it or claims the package. -/
def EndsRegistration (t : Transition (World τ) (Move τ)) (id : ℕ) : Prop :=
  (∃ signers c, t.label = .call signers c ∧
    ((∃ d expiresAt, c.registers = some (id, d, expiresAt)) ∨
      ∃ admin, c = .revokeDelegate admin id)) ∨
  ∃ payee, (id, payee) ∈ claimsOf t

/-- From the ledger on, and until the next registration, revocation or claim of the package, the
delegate is authorised at the times before `expiresAt`, or at all times if that is zero, and at no
other time. -/
def HasOwnPeriod (H : Host τ) (w : World τ) (id : ℕ) (d : Address) (expiresAt : ℕ) : Prop :=
  ∀ tr u, Run (Step H) w tr u → (∀ t ∈ tr, ¬ EndsRegistration t id) →
    if expiresAt = 0 ∨ u.now < expiresAt then AuthorisedDelegate u id d else LapsedDelegate u id d

/-- What a registration with this expiry comes to: it is still there, or its time was over. -/
def LastingRegistration (id : ℕ) (d : Address) (expiry : Option ℕ) (u : World τ) : Prop :=
  u.registration id = some (d, expiry) ∨ u.registration id = none ∧ ¬ InForce u.now expiry

variable {id : ℕ} {d : Address} {expiry : Option ℕ}

theorem authorised_of_getDelegate (h : Delegate.getDelegate u id = some d) : AuthorisedDelegate u id d := by
  refine ⟨h, fun recipient => ?_⟩
  unfold Delegate.isAuthorisedClaimer
  split
  · rfl
  · simp [h]

theorem lapsed_of_getDelegate (h : Delegate.getDelegate u id = none) : LapsedDelegate u id d := by
  refine ⟨h, fun recipient hne => ?_⟩
  unfold Delegate.isAuthorisedClaimer
  rw [if_neg hne.symm, h]

theorem LastingRegistration.getDelegate (h : LastingRegistration id d expiry u) :
    (InForce u.now expiry → Delegate.getDelegate u id = some d) ∧
      (¬ InForce u.now expiry → Delegate.getDelegate u id = none) := by
  rcases h with hreg | ⟨hreg, hover⟩
  · constructor
    · intro hforce
      exact getDelegate_eq_some.mpr ⟨expiry, hreg, hforce⟩
    · intro hover
      apply Option.eq_none_iff_forall_ne_some.mpr
      intro d' hd'
      obtain ⟨expiry', hreg', hforce'⟩ := getDelegate_eq_some.mp hd'
      have hpair := Option.some.inj (hreg.symm.trans hreg')
      have hexpiry : expiry = expiry' := congrArg Prod.snd hpair
      exact hover (hexpiry ▸ hforce')
  · refine ⟨fun hforce => absurd hforce hover, fun _ => ?_⟩
    apply Option.eq_none_iff_forall_ne_some.mpr
    intro d' hd'
    obtain ⟨expiry', hreg', -⟩ := getDelegate_eq_some.mp hd'
    rw [hreg] at hreg'
    cases hreg'

def Act.renews : Act → Option ℕ
  | .setDelegate _ id _ _ => some id
  | a => a.unregisters

theorem Atom.lasting {a : Act} (h : Atom H u a v)
    (ha : a.renews ≠ some id) (hI : LastingRegistration id d expiry u) : LastingRegistration id d expiry v := by
  have hover : ¬ InForce u.now expiry → ¬ InForce v.now expiry :=
    fun hover hforce => hover (hforce.earlier h.now_le)
  rcases h.registration_cases id with ⟨hsame, -⟩ | ⟨admin, d', e, hset, -, -⟩ |
    ⟨hnone, -, hends | ⟨d', e, hreg, hpos, hlate⟩⟩
  · rcases hI with hreg | ⟨hreg, hpast⟩
    · exact .inl (hsame.trans hreg)
    · exact .inr ⟨hsame.trans hreg, hover hpast⟩
  · subst hset
    exact absurd rfl ha
  · -- A claim or a revocation of the package itself.
    cases a with
    | claim | clearDelegate => exact absurd hends ha
    | _ => cases hends
  · -- The sweep removes what has run out.
    refine .inr ⟨hnone, hover fun hforce => ?_⟩
    rcases hI with hkept | ⟨hgone, -⟩
    · have hpair := Option.some.inj (hkept.symm.trans hreg)
      have hexpiry : expiry = some e := congrArg Prod.snd hpair
      have hbefore := hforce e hexpiry hpos
      omega
    · rw [hgone] at hreg
      cases hreg

theorem Step.renews_ends (h : Step H w m w') (hw : WellFormed w) (hkeeps : ¬ EndsRegistration ⟨w, m, w'⟩ id) :
    ∃ acts, Run (Atom H) w acts w' ∧ ∀ t ∈ acts, t.label.renews ≠ some id := by
  obtain ⟨acts, hacts, hclaims, hkind, -⟩ := h.claims hw
  refine ⟨acts, hacts, fun t ht hrenews => hkeeps ?_⟩
  have hpermits := hkind t ht
  obtain ⟨u, a, u'⟩ := t
  change a.renews = some id at hrenews
  cases a with
  | claim k payee =>
    obtain rfl : k = id := Option.some.inj hrenews
    refine .inr ⟨payee, ?_⟩
    rw [hclaims, List.mem_filterMap]
    exact ⟨_, ht, rfl⟩
  | setDelegate admin k d e =>
    obtain rfl : k = id := Option.some.inj hrenews
    left
    cases m with
    | tick | outside => cases hpermits
    | call signers c =>
      refine ⟨signers, c, rfl, .inl ⟨d, e, ?_⟩⟩
      cases c with
      | setDelegate | setDelegateWithExpiry =>
        cases hpermits.1
        rfl
      | _ => simp [Move.permits, Call.permits] at hpermits
  | clearDelegate k =>
    obtain rfl : k = id := Option.some.inj hrenews
    left
    cases m with
    | tick | outside => cases hpermits
    | call signers c =>
      refine ⟨signers, c, rfl, .inr ?_⟩
      cases c with
      | revokeDelegate admin =>
        cases hpermits
        exact ⟨admin, rfl⟩
      | _ => simp [Move.permits, Call.permits] at hpermits
  | _ => cases hrenews

theorem Step.lasting (h : Step H u m v) (hu : WellFormed u) (hkeeps : ¬ EndsRegistration ⟨u, m, v⟩ id)
    (hI : LastingRegistration id d expiry u) : LastingRegistration id d expiry v := by
  obtain ⟨acts, hacts, hrenews⟩ := h.renews_ends hu hkeeps
  exact hacts.invariant (I := LastingRegistration id d expiry) (C := fun t => t.label.renews ≠ some id) hI
    hrenews fun _ hatom ha => hatom.lasting ha

theorem run_lasting {tr : Trace τ} (h : Run (Step H) w tr u) (hw : WellFormed w) (hkeeps : ∀ t ∈ tr, ¬ EndsRegistration t id)
    (hI : LastingRegistration id d expiry w) : LastingRegistration id d expiry u := by
  have hboth : WellFormed u ∧ LastingRegistration id d expiry u :=
    h.invariant (I := fun u => WellFormed u ∧ LastingRegistration id d expiry u)
      (C := fun t => ¬ EndsRegistration t id) ⟨hw, hI⟩ hkeeps
      fun t hstep hkeep hpre => ⟨hstep.wellFormed hpre.1, hstep.lasting hpre.1 hkeep hpre.2⟩
  exact hboth.2

theorem tick_keeps (now id : ℕ) : ¬ EndsRegistration ⟨w, .tick now, { w with now }⟩ id := by
  rintro (⟨signers, c, hlabel, -⟩ | ⟨payee, hclaim⟩)
  · cases hlabel
  · simp [claimsOf] at hclaim

theorem exec_registers {signers : List Address} {c : Call} {e : ℕ}
    (hc : c.registers = some (id, d, e)) (h : exec H signers w c = .ok w') :
    (∃ admin, Atom H w (.setDelegate admin id d e) w') ∧ (0 < e → w.now < e) ∧ w'.now = w.now := by
  have hmain : ∀ admin, Atom H w (.setDelegate admin id d e) w' →
      (∃ admin, Atom H w (.setDelegate admin id d e) w') ∧ (0 < e → w.now < e) ∧
        w'.now = w.now := by
    intro admin hatom
    refine ⟨⟨admin, hatom⟩, ?_⟩
    cases hatom with
    | setDelegate _ _ _ hlater => exact ⟨hlater, rfl⟩
  cases c with
  | setDelegate admin =>
    cases hc
    exact hmain admin (setDelegate_atom h).2
  | setDelegateWithExpiry admin =>
    cases hc
    exact hmain admin (setDelegateWithExpiry_atom h).2
  | _ => cases hc

/-- In every reachable ledger, a successful registration gives the delegate the period it names,
exactly if it names an expiry or the ledger stores none from an earlier registration. -/
theorem registration_has_own_period {tr : Trace τ} (hreach : Reaches H tr w)
    {signers : List Address} {c : Call} {id e : ℕ} {d : Address}
    (hc : c.registers = some (id, d, e)) (h : exec H signers w c = .ok w') :
    HasOwnPeriod H w' id d e ↔ 0 < e ∨ w.delegation.expiry[id]? = none := by
  obtain ⟨⟨admin, hatom⟩, -, hnow⟩ := exec_registers hc h
  have hw : WellFormed w' := (Step.call h).wellFormed hreach.wellFormed
  have hreg := hatom.registers.1
  constructor
  · -- A stored expiry outlives a registration that names none: wait for it.
    intro hperiod
    by_contra hneither
    obtain ⟨hzero, hstored⟩ := not_or.mp hneither
    obtain ⟨stale, hstale⟩ := Option.ne_none_iff_exists'.mp hstored
    have hpositive : 0 < stale := hreach.expiriesPositive id stale hstale
    have hkept : expiryAfter w id e = some stale := (if_neg hzero).trans hstale
    have htick : Step H w' (.tick (max w'.now stale)) { w' with now := max w'.now stale } :=
      Step.tick (Nat.le_max_left _ _)
    have hlater := hperiod _ _ (Run.single htick) (by
      intro t ht
      rw [List.mem_singleton.mp ht]
      exact tick_keeps _ _)
    rw [if_pos (.inl (by omega))] at hlater
    obtain ⟨expiry, hshown, hforce⟩ := getDelegate_eq_some.mp hlater.shown
    have hpair := Option.some.inj (hreg.symm.trans hshown)
    have hexpiry : expiryAfter w id e = expiry := congrArg Prod.snd hpair
    have hbefore := hforce stale (hexpiry ▸ hkept) hpositive
    have hpast : stale ≤ max w'.now stale := Nat.le_max_right _ _
    exact absurd hpast (Nat.not_le.mpr hbefore)
  · intro hfresh tr' u hrun hkeeps
    have hlasting := run_lasting hrun hw hkeeps (.inl hreg)
    -- without a stale entry the stored expiry is the one the call names
    have hforce : InForce u.now (expiryAfter w id e) ↔ e = 0 ∨ u.now < e := by
      unfold expiryAfter InForce
      by_cases hpos : 0 < e
      · simp [hpos, hpos.ne']
      · have hnone := hfresh.resolve_left hpos
        simp [hnone]
        omega
    split
    · rename_i hin
      apply authorised_of_getDelegate
      exact hlasting.getDelegate.1 (hforce.mpr hin)
    · rename_i hout
      apply lapsed_of_getDelegate
      exact hlasting.getDelegate.2 fun hin => hout (hforce.mp hin)

def delegateUntil150 : List (Move Balances) := [
  .call [] (.init ⟨1⟩),
  .call [⟨1⟩] (.fund ⟨9⟩ ⟨1⟩ 10),
  .call [⟨1⟩] (.createPackage ⟨1⟩ 0 ⟨2⟩ 10 ⟨9⟩ 0 ∅),
  .call [⟨1⟩] (.setDelegateWithExpiry ⟨1⟩ 0 ⟨4⟩ 150)]

/-- A second delegate until 300 has exactly this period, the first one's expiry notwithstanding. -/
theorem registration_has_own_period_delegateUntil150 : ∃ w w' : World Balances, Reaches (plainHost ⟨0⟩)
        (played (plainHost ⟨0⟩) 100 [((⟨9⟩, ⟨1⟩), 100)] delegateUntil150).1 w ∧
      Step (plainHost ⟨0⟩) w (.call [⟨1⟩] (.setDelegateWithExpiry ⟨1⟩ 0 ⟨6⟩ 300)) w' ∧
      HasOwnPeriod (plainHost ⟨0⟩) w' 0 ⟨6⟩ 300 := by
  have hreach := played_reaches (H := plainHost ⟨0⟩) 100 [((⟨9⟩, ⟨1⟩), 100)] delegateUntil150
  have hcall : (exec (plainHost ⟨0⟩) [⟨1⟩]
      (played (plainHost ⟨0⟩) 100 [((⟨9⟩, ⟨1⟩), 100)] delegateUntil150).2
      (.setDelegateWithExpiry ⟨1⟩ 0 ⟨6⟩ 300)).toOption.isSome = true := by
    decide +kernel
  obtain ⟨w', h⟩ := exists_ok_iff.mpr hcall
  exact ⟨_, w', hreach, Step.call h,
    (registration_has_own_period hreach rfl h).mpr (.inl (by decide))⟩

/-- A second delegate, with a zero for no expiry, is gone when the period of the first is over. -/
theorem delegateUntil150_cuts_period : ∃ w w' : World Balances, Reaches (plainHost ⟨0⟩)
        (played (plainHost ⟨0⟩) 100 [((⟨9⟩, ⟨1⟩), 100)] delegateUntil150).1 w ∧
      Step (plainHost ⟨0⟩) w (.call [⟨1⟩] (.setDelegateWithExpiry ⟨1⟩ 0 ⟨6⟩ 0)) w' ∧
      ¬ HasOwnPeriod (plainHost ⟨0⟩) w' 0 ⟨6⟩ 0 := by
  have hcall : ((exec (plainHost ⟨0⟩) [⟨1⟩]
      (played (plainHost ⟨0⟩) 100 [((⟨9⟩, ⟨1⟩), 100)] delegateUntil150).2
      (.setDelegateWithExpiry ⟨1⟩ 0 ⟨6⟩ 0)).toOption.map fun w' =>
        (w'.now, Delegate.getDelegate { w' with now := 150 } 0)) = some (100, none) := by
    decide +kernel
  obtain ⟨w', hsome, hseen⟩ := Option.map_eq_some_iff.mp hcall
  obtain ⟨hnow, hnone⟩ := Prod.mk.inj hseen
  have h := toOption_eq_some.mp hsome
  refine ⟨_, w', played_reaches _ _ _, Step.call h, fun hperiod => ?_⟩
  have hwait : Step (plainHost ⟨0⟩) w' (.tick 150) { w' with now := 150 } :=
    Step.tick (by omega)
  have hlater := hperiod _ _ (Run.single hwait) (by
    intro t ht
    rw [List.mem_singleton.mp ht]
    exact tick_keeps _ _)
  rw [if_pos (.inl rfl)] at hlater
  rw [hlater.shown] at hnone
  cases hnone

end Soter.AidEscrow
