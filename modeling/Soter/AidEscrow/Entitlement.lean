import Soter.AidEscrow.ClaimRuns

/-! Who is paid by a claim: the recipient, or a delegate that somebody registered. -/
namespace Soter.AidEscrow
open Std Soter.Fallible Soter.MapSum Soter.Runs

variable {τ : Type} {H : Host τ} {w w' u : World τ} {a : Act} {m : Move τ}

/-- The transition is a call that registers `delegate` for the package in the name of `admin`, who
signed it. -/
def RegistersAs (t : Transition (World τ) (Move τ)) (admin : Address) (id : ℕ)
    (delegate : Address) : Prop :=
  ∃ signers, admin ∈ signers ∧ (t.label = .call signers (.setDelegate admin id delegate) ∨
    ∃ expiresAt, t.label = .call signers (.setDelegateWithExpiry admin id delegate expiresAt))

def RegisteredByAdmin (t : Transition (World τ) (Move τ)) (id : ℕ) (delegate : Address) : Prop :=
  ∃ admin, t.pre.settings.admin = some admin ∧ RegistersAs t admin id delegate

/-- Every claim of a package without a Merkle root pays the recipient of that moment, or an address
that the stored admin had registered as its delegate. -/
def PaysEntitled (tr : Trace τ) : Prop :=
  ∀ before t after, tr = before ++ t :: after → ∀ id payee, (id, payee) ∈ claimsOf t →
    ∃ p, t.pre.store.packages[id]? = some p ∧ (merkleRootFromMetadata p.metadata = none →
      payee = p.recipient ∨ ∃ r ∈ before, RegisteredByAdmin r id payee)

def NamesStoredAdmin (t : Transition (World τ) (Move τ)) : Prop :=
  ∀ admin id delegate, RegistersAs t admin id delegate → t.pre.settings.admin = some admin

variable {id : ℕ} {d admin : Address}

theorem Atom.delegate_origin (h : Atom H w a w') (hd : w'.delegation.delegates[id]? = some d) :
    w.delegation.delegates[id]? = some d ∨ ∃ admin expiresAt, a = .setDelegate admin id d expiresAt := by
  have herase : ∀ k : ℕ, (w.delegation.delegates.erase k)[id]? = some d → w.delegation.delegates[id]? = some d := by
    intro k hk
    rw [get_erase] at hk
    split at hk
    · cases hk
    · exact hk
  cases h with
  | backfill _ h =>
    obtain ⟨totals, rfl⟩ := backfill_only_totals h
    exact .inl hd
  | claim | clearDelegate | dropDelegate => exact .inl (herase _ hd)
  | @setDelegate admin k _ delegate expiresAt =>
    change (w.delegation.delegates.insert k delegate)[id]? = some d at hd
    rw [get_insert] at hd
    split at hd
    · rename_i hk
      cases hd
      exact .inr ⟨admin, expiresAt, hk ▸ rfl⟩
    · exact .inl hd
  | _ => exact .inl hd

theorem Move.registers {expiresAt : ℕ} (h : m.permits (.setDelegate admin id d expiresAt)) (w w' : World τ) :
    RegistersAs ⟨w, m, w'⟩ admin id d := by
  cases m with
  | tick | outside => cases h
  | call signers c =>
    cases c with
    | setDelegate admin' id' d' =>
      obtain ⟨hact, hsigned⟩ := h
      cases hact
      exact ⟨signers, hsigned, .inl rfl⟩
    | setDelegateWithExpiry admin' id' d' expiresAt' =>
      obtain ⟨hact, hsigned⟩ := h
      cases hact
      exact ⟨signers, hsigned, .inr ⟨_, rfl⟩⟩
    | _ => simp [Move.permits, Call.permits] at h

theorem Step.delegate_origin (h : Step H w m w') (hw : WellFormed w) (hd : w'.delegation.delegates[id]? = some d) :
    w.delegation.delegates[id]? = some d ∨ ∃ admin, RegistersAs ⟨w, m, w'⟩ admin id d := by
  refine h.invariant (I := fun u => u.delegation.delegates[id]? = some d →
    w.delegation.delegates[id]? = some d ∨ ∃ admin, RegistersAs ⟨w, m, w'⟩ admin id d) hw .inl ?_ hd
  intro u a v hatom hpermits hI hd
  rcases hatom.delegate_origin hd with hold | ⟨admin, expiresAt, ha⟩
  · exact hI hold
  · rw [ha] at hpermits
    exact .inr ⟨admin, Move.registers hpermits w w'⟩

theorem Reaches.delegate_origin {tr : Trace τ} (h : Reaches H tr w)
    (hd : w.delegation.delegates[id]? = some d) : ∃ t ∈ tr, ∃ admin, RegistersAs t admin id d := by
  obtain ⟨now, tokens, hrun⟩ := h
  induction hrun with
  | nil => simp [World.deployed] at hd
  | @snoc tr u m v hrun hstep ih =>
    have hw : WellFormed u := Reaches.wellFormed ⟨now, tokens, hrun⟩
    rcases hstep.delegate_origin hw hd with hold | hnew
    · obtain ⟨t, ht, hreg⟩ := ih hold
      exact ⟨t, List.mem_append_left _ ht, hreg⟩
    · exact ⟨⟨u, m, v⟩, by simp, hnew⟩

theorem Step.claim_payee (h : Step H w m w') (hw : WellFormed w) {payee : Address}
    (hmem : (id, payee) ∈ claimsOf ⟨w, m, w'⟩) : ∃ p, w.store.packages[id]? = some p ∧
      (merkleRootFromMetadata p.metadata = none →
        payee = p.recipient ∨ w.delegation.delegates[id]? = some payee) := by
  obtain ⟨u, u', hframe, hatom⟩ := h.claim_of_mem hw hmem
  cases hatom with
  | claim hq _ _ _ hentitled =>
    obtain ⟨p, hp, hrecipient, hmetadata⟩ := hframe.package hq
    refine ⟨p, hp, fun hroot => ?_⟩
    rw [Entitled, ← hmetadata, hroot] at hentitled
    simp only [Delegate.isAuthorisedClaimer, Delegate.getDelegate] at hentitled
    split at hentitled
    · rename_i hpayee
      exact .inl (hpayee.trans hrecipient.symm)
    · right
      apply hframe.delegates
      cases hd : u.delegation.delegates[id]? with
      | none => simp [hd] at hentitled
      | some d =>
        by_cases hexpired : Delegate.isDelegateExpired u id = true
        · simp [hd, hexpired] at hentitled
        · simp only [hd, hexpired, Bool.false_eq_true, ↓reduceIte, decide_eq_true_eq] at hentitled
          rw [hentitled]

/-- A run whose registrations of delegates all name the stored admin pays the entitled only; and
the recipient only, if the stored admin registered nobody. -/
theorem claims_pay_entitled {tr : Trace τ} (h : Reaches H tr w) (hC : ∀ t ∈ tr, NamesStoredAdmin t) :
    PaysEntitled tr ∧ ((∀ t ∈ tr, ∀ id d, ¬ RegisteredByAdmin t id d) → ∀ t ∈ tr, ∀ id payee,
      (id, payee) ∈ claimsOf t → ∃ p, t.pre.store.packages[id]? = some p ∧
        (merkleRootFromMetadata p.metadata = none → payee = p.recipient)) := by
  have hmain : PaysEntitled tr := by
    rintro before t after rfl id payee hmem
    obtain ⟨hbefore, hstep⟩ := h.split
    obtain ⟨p, hp, hpayee⟩ := hstep.claim_payee hbefore.wellFormed hmem
    refine ⟨p, hp, fun hroot => (hpayee hroot).imp_right fun hd => ?_⟩
    obtain ⟨r, hr, admin, hreg⟩ := hbefore.delegate_origin hd
    exact ⟨r, hr, admin, hC r (List.mem_append_left _ hr) admin id payee hreg, hreg⟩
  refine ⟨hmain, fun hnobody t ht id payee hmem => ?_⟩
  obtain ⟨before, after, rfl⟩ := List.append_of_mem ht
  obtain ⟨p, hp, hpayee⟩ := hmain before t after rfl id payee hmem
  refine ⟨p, hp, fun hroot => (hpayee hroot).resolve_right ?_⟩
  rintro ⟨r, hr, hreg⟩
  exact hnobody r (List.mem_append_left _ hr) id payee hreg

def delegateClaims : List (Move Balances) := [
  .call [] (.init ⟨1⟩),
  .call [⟨1⟩] (.fund ⟨9⟩ ⟨1⟩ 10),
  .call [⟨1⟩] (.createPackage ⟨1⟩ 0 ⟨2⟩ 10 ⟨9⟩ 0 ∅),
  .call [⟨1⟩] (.setDelegate ⟨1⟩ 0 ⟨4⟩),
  .call [⟨4⟩, ⟨5⟩] (.claimWithRelayer 0 ⟨4⟩ ⟨5⟩)]

def Move.registrar : Move τ → Option Address
  | .call _ (.setDelegate admin _ _) => some admin
  | .call _ (.setDelegateWithExpiry admin _ _ _) => some admin
  | _ => none

theorem RegistersAs.registrar {t : Transition (World τ) (Move τ)}
    (h : RegistersAs t admin id d) : t.label.registrar = some admin := by
  obtain ⟨signers, -, hlabel | ⟨expiresAt, hlabel⟩⟩ := h <;> rw [hlabel] <;> rfl

theorem claims_pay_entitled_delegateClaims :
    (claimsOf <$> (played (plainHost ⟨0⟩) 100 [((⟨9⟩, ⟨1⟩), 100)] delegateClaims).1[4]?) = some [(0, ⟨4⟩)] ∧
    PaysEntitled (played (plainHost ⟨0⟩) 100 [((⟨9⟩, ⟨1⟩), 100)] delegateClaims).1 := by
  refine ⟨by decide +kernel, (claims_pay_entitled (played_reaches (H := plainHost ⟨0⟩) 100
    [((⟨9⟩, ⟨1⟩), 100)] delegateClaims) fun t ht admin id d hreg => ?_).1⟩
  have hall : ∀ t ∈ (played (plainHost ⟨0⟩) 100 [((⟨9⟩, ⟨1⟩), 100)] delegateClaims).1,
      t.label.registrar ≠ none → t.pre.settings.admin = t.label.registrar := by
    decide +kernel
  exact (hall t ht (by simp [hreg.registrar])).trans hreg.registrar

def selfAppointedClaims : List (Move Balances) := [
  .call [] (.init ⟨1⟩),
  .call [⟨1⟩] (.fund ⟨9⟩ ⟨1⟩ 10),
  .call [⟨1⟩] (.createPackage ⟨1⟩ 0 ⟨2⟩ 10 ⟨9⟩ 0 ∅),
  .call [⟨7⟩] (.setDelegate ⟨7⟩ 0 ⟨7⟩),
  .call [⟨7⟩] (.claimWithProof 0 ⟨7⟩ [])]

/-- The tokens go to an address that neither is the recipient nor was chosen by the admin. -/
theorem selfAppointedClaims_not_entitled : ∃ w : World Balances, Reaches (plainHost ⟨0⟩)
        (played (plainHost ⟨0⟩) 100 [((⟨9⟩, ⟨1⟩), 100)] selfAppointedClaims).1 w ∧
      ¬ PaysEntitled (played (plainHost ⟨0⟩) 100 [((⟨9⟩, ⟨1⟩), 100)] selfAppointedClaims).1 := by
  refine ⟨_, played_reaches _ _ _, fun h => ?_⟩
  generalize htr : (played (plainHost ⟨0⟩) 100 [((⟨9⟩, ⟨1⟩), 100)] selfAppointedClaims).1 = tr at h
  have hnobody : ∀ t ∈ tr, t.label.registrar ≠ none →
      t.pre.settings.admin ≠ t.label.registrar := by
    subst htr
    decide +kernel
  have hlast : tr[4]?.map (fun t => (claimsOf t, (t.pre.store.packages[0]?).map fun p =>
      (p.recipient, (merkleRootFromMetadata p.metadata).isNone))) =
      some ([(0, ⟨7⟩)], some (⟨2⟩, true)) := by
    subst htr
    decide +kernel
  obtain ⟨t, ht, hseen⟩ := Option.map_eq_some_iff.mp hlast
  obtain ⟨hclaims, hpackage⟩ := Prod.mk.inj hseen
  obtain ⟨_, rfl⟩ := List.getElem?_eq_some_iff.mp ht
  obtain ⟨p, hp, hpayee⟩ := h (tr.take 4) tr[4] (tr.drop 5)
    (by rw [List.getElem_cons_drop, List.take_append_drop]) 0 ⟨7⟩ (by simp [hclaims])
  rw [hp, Option.map_some, Option.some.injEq, Prod.mk.injEq, Option.isNone_iff_eq_none] at hpackage
  rcases hpayee hpackage.2 with hrecipient | ⟨r, hr, admin, hadmin, hreg⟩
  · rw [hpackage.1] at hrecipient
    exact absurd hrecipient (by decide)
  · refine hnobody r (List.mem_of_mem_take hr) (by simp [hreg.registrar]) ?_
    rw [hadmin, hreg.registrar]

end Soter.AidEscrow
