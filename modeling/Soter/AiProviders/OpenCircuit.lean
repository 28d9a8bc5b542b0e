import Mathlib.Tactic.Linarith
import Soter.AiProviders.CircuitBreaker

/-! While the circuit of a provider is open no call of it is started, and the health queries make no difference: as long as no call
goes on with a permission from before the opening, and none reports to a breaker that a query has made half-open. -/
namespace Soter.AiProviders
open Soter.Parties Soter.Runs Function ProviderWorld

variable {P : Type}
section Statement
variable [DecidableEq P] (settings : BreakerSettings) (fallbackProvider : P → Option P)

/-- `llm_chat` of the provider is called. -/
def StartsCall (t : ProviderTransition P) (provider : P) : Prop :=
  ∃ i exceeded permission variant attempt pending, t.label = .turn i exceeded ∧
    t.pre.calls[i]? = some (.starting provider permission variant attempt pending)

def ProviderEvent.isRequest : ProviderEvent P → Bool
  | .query _ _ | .ask _ => false
  | _ => true

def ProviderWorld.replay (w : ProviderWorld P) (events : List (ProviderEvent P)) : Option (ProviderWorld P) :=
  events.foldlM (take settings fallbackProvider) w

/-- No call is started before the recovery time is over, and without the queries the calls would be where they are. -/
structure OpenMeansNoCalls (tr : List (ProviderTransition P)) (w : ProviderWorld P) : Prop where
  quiet : ∀ t ∈ tr, ∀ provider, StartsCall t provider → ∀ opened, t.pre.store.openedAt provider = some opened →
    opened + settings.recoveryTimeout ≤ t.pre.store.now
  harmless : ∃ w', initial.replay settings fallbackProvider ((tr.map (·.label)).filter (·.isRequest)) = some w' ∧
    w'.calls = w.calls

/-- The permission of a call that is about to be made is from after the last opening, and what is reported to a breaker is not
reported to one that a query has made half-open. -/
def VerifyPhase.IsCurrent (s : ProviderStore P) : VerifyPhase P → Prop
  | .starting provider permission _ _ _ => s.openings provider = permission
  | .succeeding provider | .failing provider _ _ _ => s.probed provider = false
  | _ => True

instance (s : ProviderStore P) : ∀ phase, Decidable (VerifyPhase.IsCurrent s phase)
  | .starting provider permission _ _ _ => inferInstanceAs (Decidable (s.openings provider = permission))
  | .succeeding provider | .failing provider _ _ _ => inferInstanceAs (Decidable (s.probed provider = false))
  | .choosing _ | .awaiting _ _ _ _ _ | .ended _ => inferInstanceAs (Decidable True)

def Admits (t : ProviderTransition P) : Prop :=
  match t.label with
  | .turn i _ => ∀ phase ∈ t.pre.calls[i]?, phase.IsCurrent t.pre.store
  | _ => True

instance (t : ProviderTransition P) : Decidable (Admits t) :=
  match t with
  | ⟨pre, .turn i _, _⟩ => inferInstanceAs (Decidable (∀ phase ∈ pre.calls[i]?, phase.IsCurrent pre.store))
  | ⟨_, .verifyClaim _, _⟩ | ⟨_, .answer _ _, _⟩ | ⟨_, .query _ _, _⟩ | ⟨_, .ask _, _⟩ | ⟨_, .reset _, _⟩ | ⟨_, .pass _, _⟩ =>
    inferInstanceAs (Decidable True)

end Statement
section Invariant
variable (settings : BreakerSettings)

def ProviderStore.IsRecovered (s : ProviderStore P) (provider : P) : Prop :=
  ∀ opened, s.openedAt provider = some opened → opened + settings.recoveryTimeout ≤ s.now

def ProviderStore.IsTimed (s : ProviderStore P) : Prop :=
  ∀ provider, (s.breakers provider).state = .opened ∧ s.openedAt provider = some (s.breakers provider).lastStateChange ∨
    (s.breakers provider).state ≠ .opened ∧ s.IsRecovered settings provider

/-- A permission was given for a provider that had recovered, and it is worth something until the breaker is opened again. -/
def ProviderStore.HasPermission (s : ProviderStore P) (provider : P) (permission : ℕ) : Prop :=
  permission ≤ s.openings provider ∧ (s.openings provider = permission → s.IsRecovered settings provider)

def VerifyPhase.Knows (s : ProviderStore P) : VerifyPhase P → Prop
  | .starting provider permission _ _ _ | .awaiting provider permission _ _ _ | .failing provider permission _ _ =>
    s.HasPermission settings provider permission
  | _ => True

structure ProviderWorld.IsSound (w : ProviderWorld P) : Prop where
  timed : w.store.IsTimed settings
  calls : ∀ (i : ℕ) (phase : VerifyPhase P), w.calls[i]? = some phase → phase.Knows settings w.store

structure ProviderStore.Leads (s s' : ProviderStore P) : Prop where
  now : s.now ≤ s'.now
  provider : ∀ provider, s.openings provider < s'.openings provider ∨
    s.openings provider = s'.openings provider ∧
      (s'.openedAt provider = s.openedAt provider ∨ s'.openedAt provider = none)

end Invariant
variable {s' s : ProviderStore P} {provider : P} {w' w : ProviderWorld P}
section Permissions
variable {settings : BreakerSettings} {phase phase' : VerifyPhase P} {i permission : ℕ}

theorem ProviderStore.Leads.refl (s : ProviderStore P) : s.Leads s := ⟨le_rfl, fun _ => .inr ⟨rfl, .inl rfl⟩⟩

theorem ProviderStore.IsRecovered.of_leads (h : s.IsRecovered settings provider) (hnow : s.now ≤ s'.now)
    (hopened : s'.openedAt provider = s.openedAt provider ∨ s'.openedAt provider = none) :
    s'.IsRecovered settings provider := by
  intro opened hsome
  rcases hopened with hsame | hnone
  · exact (h opened (hsame.symm.trans hsome)).trans hnow
  · rw [hnone] at hsome
    cases hsome

theorem ProviderStore.Leads.hasPermission (h : s.Leads s') (hpermission : s.HasPermission settings provider permission) :
    s'.HasPermission settings provider permission := by
  obtain ⟨hle, hrecovered⟩ := hpermission
  rcases h.provider provider with hlt | ⟨hsame, hopened⟩
  · refine ⟨by omega, fun heq => ?_⟩
    omega
  · refine ⟨by omega, fun heq => ?_⟩
    exact (hrecovered (hsame.trans heq)).of_leads h.now hopened

theorem ProviderStore.Leads.knows (h : s.Leads s') (hknows : phase.Knows settings s) : phase.Knows settings s' := by
  cases phase with
  | starting provider permission variant attempt pending | awaiting provider permission variant attempt pending
  | failing provider permission variant pending => exact h.hasPermission hknows
  | _ => trivial

theorem put_sound (hw : w.IsSound settings) (hi : w.calls[i]? = some phase) (htimed : s'.IsTimed settings)
    (hleads : w.store.Leads s') (hknows : phase'.Knows settings s') :
    IsSound settings (w.put i (phase', s')) where
  timed := htimed
  calls k d hd := by
    rcases Party.put_cases hi hd with ⟨-, rfl⟩ | ⟨-, hd⟩
    · exact hknows
    · exact hleads.knows (hw.calls k d hd)

theorem setStore_sound (hw : w.IsSound settings) (htimed : s'.IsTimed settings) (hleads : w.store.Leads s') :
    IsSound settings (w.setStore s') where
  timed := htimed
  calls k d hd := hleads.knows (hw.calls k d hd)

theorem next_knows (hpermission : s.HasPermission settings provider permission) (pending : List P) (variant : PromptVariant) :
    (VerifyPhase.next provider permission pending variant).Knows settings s := by
  cases variant with
  | primary => exact hpermission
  | fallback => trivial

theorem receive_knows {answer : Answer} (hknows : phase.Knows settings s) (h : phase.receive answer = some phase') :
    phase'.Knows settings s := by
  cases phase with
  | awaiting provider permission variant attempt pending =>
    cases answer with
    | valid =>
      cases h
      trivial
    | malformed =>
      simp only [VerifyPhase.receive] at h
      split at h
      · cases h
        exact hknows
      · cases h
        exact next_knows hknows pending variant
    | refusal =>
      cases h
      exact next_knows hknows pending variant
    | failure =>
      cases h
      exact hknows
  | _ => cases h

theorem allowRequest_cases (settings : BreakerSettings) (now : ℚ) (b : Breaker) :
    b.allowRequest settings now = (true, b) ∧ b.state ≠ .opened ∨
    b.allowRequest settings now = (false, b) ∧ b.state = .opened ∨
    b.allowRequest settings now = (true, b.transition now .halfOpen) ∧ b.state = .opened ∧
      b.lastStateChange + settings.recoveryTimeout ≤ now := by
  unfold Breaker.allowRequest
  by_cases hopened : b.state = .opened
  · by_cases helapsed : settings.recoveryTimeout ≤ now - b.lastStateChange
    · refine .inr (.inr ⟨by rw [if_pos hopened, if_pos helapsed], hopened, ?_⟩)
      linarith
    · exact .inr (.inl ⟨by rw [if_pos hopened, if_neg helapsed], hopened⟩)
  · exact .inl ⟨by rw [if_neg hopened], hopened⟩

theorem recovered_of_allowed (hs : s.IsTimed settings) (h : ((s.breakers provider).allowRequest settings s.now).1 = true) :
    s.IsRecovered settings provider := by
  rcases hs provider with ⟨hopened, hsome⟩ | ⟨-, hrecovered⟩
  · rcases allowRequest_cases settings s.now (s.breakers provider) with ⟨-, hnot⟩ | ⟨hask, -⟩ | ⟨-, -, helapsed⟩
    · exact absurd hopened hnot
    · rw [hask] at h
      cases h
    · intro opened hat
      cases hsome.symm.trans hat
      exact helapsed
  · exact hrecovered

theorem initial_sound : (initial : ProviderWorld P).IsSound settings where
  timed _ := .inr ⟨nofun, nofun⟩
  calls i phase h := by cases h

variable [DecidableEq P]

theorem timed_update (provider : P) (hs : s.IsTimed settings) (hnow : s'.now = s.now) {b : Breaker}
    (hbreakers : s'.breakers = update s.breakers provider b) (hother : ∀ p, p ≠ provider → s'.openedAt p = s.openedAt p)
    (hb : b.state = .opened ∧ s'.openedAt provider = some b.lastStateChange ∨
      b.state ≠ .opened ∧ s'.IsRecovered settings provider) : s'.IsTimed settings := by
  intro p
  rw [hbreakers]
  by_cases hp : p = provider
  · subst hp
    rw [update_self]
    exact hb
  · rw [update_of_ne hp, hother p hp]
    apply (hs p).imp_right
    rintro ⟨hstate, hrecovered⟩
    exact ⟨hstate, hrecovered.of_leads hnow.ge (.inl (hother p hp))⟩

theorem timed_asked (hs : s.IsTimed settings) (hnow : s'.now = s.now)
    (hbreakers : s'.breakers = update s.breakers provider ((s.breakers provider).allowRequest settings s.now).2)
    (hopenedAt : s'.openedAt = s.openedAt) : s'.IsTimed settings := by
  have hrecovered : ∀ p, s.IsRecovered settings p → s'.IsRecovered settings p := by
    intro p h
    exact h.of_leads hnow.ge (.inl (by rw [hopenedAt]))
  apply timed_update provider hs hnow hbreakers (fun p _ => by rw [hopenedAt])
  rw [hopenedAt]
  rcases allowRequest_cases settings s.now (s.breakers provider) with ⟨hask, hnot⟩ | ⟨hask, hopened⟩ | ⟨hask, -, -⟩
  · rw [hask]
    exact (hs provider).imp_right fun h => ⟨h.1, hrecovered provider h.2⟩
  · rw [hask]
    exact (hs provider).imp_right fun h => ⟨h.1, hrecovered provider h.2⟩
  · rw [hask]
    refine .inr ⟨nofun, hrecovered provider (recovered_of_allowed hs ?_)⟩
    rw [hask]

theorem timed_setBreaker (hs : s.IsTimed settings) {b : Breaker}
    (hb : b.state = .opened ∧ s.openedAt provider = some b.lastStateChange ∨
      b.state ≠ .opened ∧ s.IsRecovered settings provider) : (s.setBreaker provider b).IsTimed settings :=
  timed_update provider hs rfl rfl (fun _ _ => rfl) hb

theorem leads_setBreaker (s : ProviderStore P) (provider : P) (b : Breaker) : s.Leads (s.setBreaker provider b) :=
  ⟨le_rfl, fun _ => .inr ⟨rfl, .inl rfl⟩⟩

theorem timed_recordSuccess (hs : s.IsTimed settings) :
    (s.setBreaker provider ((s.breakers provider).recordSuccess s.now)).IsTimed settings := by
  apply timed_setBreaker hs
  rcases hs provider with ⟨hopened, hsome⟩ | ⟨hnot, hrecovered⟩
  · left
    rw [Breaker.recordSuccess, hopened]
    exact ⟨hopened, hsome⟩
  · right
    refine ⟨?_, hrecovered⟩
    unfold Breaker.recordSuccess
    cases hstate : (s.breakers provider).state with
    | closed => simp
    | opened => exact absurd hstate hnot
    | halfOpen => simp [Breaker.transition]

theorem recordFailure_cases (settings : BreakerSettings) (now : ℚ) (b : Breaker) :
    (b.recordFailure settings now).state = .opened ∧ b.state ≠ .opened ∧ (b.recordFailure settings now).lastStateChange = now ∨
    (b.recordFailure settings now).state = b.state ∧ (b.recordFailure settings now).lastStateChange = b.lastStateChange := by
  unfold Breaker.recordFailure
  cases hstate : b.state with
  | closed =>
    dsimp only
    split
    · exact .inl ⟨rfl, nofun, rfl⟩
    · exact .inr ⟨rfl, rfl⟩
  | opened => exact .inr ⟨rfl, rfl⟩
  | halfOpen => exact .inl ⟨rfl, nofun, rfl⟩

theorem timed_recordFailure (provider : P) (hs : s.IsTimed settings) : (s.recordFailure settings provider).IsTimed settings ∧
    s.Leads (s.recordFailure settings provider) := by
  unfold ProviderStore.recordFailure
  dsimp only
  split
  · rename_i hopens
    have hat : ((s.breakers provider).recordFailure settings s.now).lastStateChange = s.now := by
      rcases recordFailure_cases settings s.now (s.breakers provider) with ⟨-, -, hat⟩ | ⟨hstate, -⟩
      · exact hat
      · exact absurd (hstate.symm.trans hopens.1) hopens.2
    refine ⟨timed_update provider hs rfl rfl (fun p hp => update_of_ne hp _ _) (.inl ⟨hopens.1, ?_⟩), le_rfl, fun p => ?_⟩
    · exact (update_self _ _ _).trans (congrArg some hat.symm)
    · by_cases hp : p = provider
      · subst hp
        left
        simp
      · right
        simp [update_of_ne hp]
  · rename_i hopens
    refine ⟨timed_setBreaker hs ?_, leads_setBreaker s provider _⟩
    rcases recordFailure_cases settings s.now (s.breakers provider) with ⟨hstate, hnot, -⟩ | ⟨hstate, hat⟩
    · exact absurd ⟨hstate, hnot⟩ hopens
    · rw [hstate, hat]
      exact hs provider

theorem timed_reset (provider : P) (hs : s.IsTimed settings) : (s.reset provider).IsTimed settings ∧ s.Leads (s.reset provider) := by
  have hnone : (s.reset provider).openedAt provider = none := update_self _ _ _
  refine ⟨timed_update provider hs rfl rfl (fun p hp => update_of_ne hp _ _) (.inr ⟨nofun, ?_⟩),
    le_rfl, fun p => .inr ⟨rfl, ?_⟩⟩
  · intro opened hsome
    rw [hnone] at hsome
    cases hsome
  · by_cases hp : p = provider
    · rw [hp]
      exact .inr hnone
    · exact .inl (update_of_ne hp _ _)

variable {fallbackProvider : P → Option P} {t : ProviderTransition P}

theorem turn_sound {exceeded : Bool} {result : VerifyPhase P × ProviderStore P} (hw : w.IsSound settings)
    (hi : w.calls[i]? = some phase) (h : phase.turn settings fallbackProvider exceeded w.store = some result) :
    IsSound settings (w.put i result) := by
  have hknows := hw.calls i phase hi
  cases phase with
  | choosing pending =>
    cases pending with
    | nil =>
      cases h
      exact put_sound hw hi hw.timed (.refl _) trivial
    | cons provider pending =>
      simp only [VerifyPhase.turn] at h
      split at h
      · split at h
        · cases h
          exact put_sound hw hi hw.timed (.refl _) trivial
        · cases h
          exact put_sound hw hi hw.timed (.refl _) trivial
      · cases h
        have htimed : (w.store.setBreaker provider ((w.store.breakers provider).allowRequest settings w.store.now).2).IsTimed
            settings := timed_asked hw.timed rfl rfl rfl
        apply put_sound hw hi htimed (leads_setBreaker _ _ _)
        split
        · rename_i hallowed
          exact ⟨le_rfl, fun _ => (recovered_of_allowed hw.timed hallowed).of_leads le_rfl (.inl rfl)⟩
        · trivial
  | starting provider permission variant attempt pending =>
    cases h
    exact put_sound hw hi hw.timed (.refl _) hknows
  | awaiting provider permission variant attempt pending => cases h
  | succeeding provider =>
    cases h
    exact put_sound hw hi (timed_recordSuccess hw.timed) (leads_setBreaker _ _ _) trivial
  | failing provider permission variant pending =>
    cases h
    obtain ⟨htimed, hleads⟩ := timed_recordFailure provider hw.timed
    exact put_sound hw hi htimed hleads (next_knows (hleads.hasPermission hknows) pending variant)
  | ended result => cases h

theorem ask_timed {query : QueryPhase P} {result : QueryPhase P × ProviderStore P} (hs : s.IsTimed settings)
    (h : s.ask settings query = some result) : result.2.IsTimed settings ∧ s.Leads result.2 := by
  cases query with
  | asking query pending =>
    cases pending with
    | nil =>
      cases h
      exact ⟨hs, .refl s⟩
    | cons provider pending =>
      have hresult : result.2.now = s.now ∧ result.2.openedAt = s.openedAt ∧ result.2.openings = s.openings ∧
          result.2.breakers = update s.breakers provider ((s.breakers provider).allowRequest settings s.now).2 := by
        simp only [ProviderStore.ask] at h
        split at h
        · cases h
          exact ⟨rfl, rfl, rfl, rfl⟩
        · split at h <;> cases h <;> exact ⟨rfl, rfl, rfl, rfl⟩
      obtain ⟨hnow, hopenedAt, hopenings, hbreakers⟩ := hresult
      exact ⟨timed_asked hs hnow hbreakers hopenedAt, hnow.ge, fun p => .inr ⟨by rw [hopenings], .inl (by rw [hopenedAt])⟩⟩
  | answered answer => cases h

theorem take_sound {event : ProviderEvent P} (hw : w.IsSound settings) (h : w.take settings fallbackProvider event = some w') :
    w'.IsSound settings := by
  cases event with
  | verifyClaim providers =>
    cases h
    refine ⟨hw.timed, fun k d hd => ?_⟩
    rcases Party.join_cases hd with hd | ⟨-, rfl⟩
    · exact hw.calls k d hd
    · split <;> trivial
  | turn i exceeded =>
    obtain ⟨phase, hi, h⟩ := Option.bind_eq_some_iff.mp h
    obtain ⟨result, hresult, rfl⟩ := Option.map_eq_some_iff.mp h
    exact turn_sound hw hi hresult
  | answer i answer =>
    obtain ⟨phase, hi, h⟩ := Option.bind_eq_some_iff.mp h
    obtain ⟨phase', hphase', rfl⟩ := Option.map_eq_some_iff.mp h
    exact put_sound hw hi hw.timed (.refl _) (receive_knows (hw.calls i phase hi) hphase')
  | query query providers =>
    cases h
    exact setStore_sound hw hw.timed ⟨le_rfl, fun _ => .inr ⟨rfl, .inl rfl⟩⟩
  | ask k =>
    obtain ⟨phase, -, h⟩ := Option.bind_eq_some_iff.mp h
    obtain ⟨result, hresult, rfl⟩ := Option.map_eq_some_iff.mp h
    obtain ⟨htimed, hleads⟩ := ask_timed hw.timed hresult
    exact setStore_sound hw htimed ⟨hleads.now, hleads.provider⟩
  | reset provider =>
    cases h
    obtain ⟨htimed, hleads⟩ := timed_reset provider hw.timed
    exact setStore_sound hw htimed hleads
  | pass duration =>
    simp only [take] at h
    split at h
    · rename_i hduration
      cases h
      have hnow : w.store.now ≤ w.store.now + duration := by linarith
      refine setStore_sound hw (fun p => ?_) ⟨hnow, fun _ => .inr ⟨rfl, .inl rfl⟩⟩
      exact (hw.timed p).imp_right fun hp => ⟨hp.1, hp.2.of_leads hnow (.inl rfl)⟩
    · cases h

end Permissions
section Shadow
variable {settings : BreakerSettings} {fallbackProvider : P → Option P} {now now' : ℚ} {probed : Bool} {b b' : Breaker}
  {w₁ : ProviderWorld P}

/-- The breaker beside the one that no query has asked: they are the same, but for what a query has made half-open already. -/
structure Breaker.Matches (settings : BreakerSettings) (now : ℚ) (probed : Bool) (b b' : Breaker) : Prop where
  failureCount : b.failureCount = b'.failureCount
  same : probed = false → b.state = b'.state ∧ (b.state = .opened → b.lastStateChange = b'.lastStateChange)
  early : probed = true → b.state = .halfOpen ∧ b'.state = .opened ∧ b'.lastStateChange + settings.recoveryTimeout ≤ now

theorem Breaker.Matches.mono (h : b.Matches settings now probed b') (hnow : now ≤ now') :
    b.Matches settings now' probed b' where
  failureCount := h.failureCount
  same := h.same
  early hprobed := by
    obtain ⟨hhalf, hopened, helapsed⟩ := h.early hprobed
    exact ⟨hhalf, hopened, helapsed.trans hnow⟩

theorem Breaker.Matches.allowRequest (h : b.Matches settings now probed b') :
    (b.allowRequest settings now).1 = (b'.allowRequest settings now).1 ∧
      (b.allowRequest settings now).2.Matches settings now false (b'.allowRequest settings now).2 := by
  cases probed with
  | true =>
    obtain ⟨hhalf, hopened, helapsed⟩ := h.early rfl
    have hask : b.allowRequest settings now = (true, b) := if_neg (by rw [hhalf]; decide)
    have hask' : b'.allowRequest settings now = (true, b'.transition now .halfOpen) := by
      rw [Breaker.allowRequest, if_pos hopened, if_pos (by linarith)]
    rw [hask, hask']
    exact ⟨rfl, h.failureCount, fun _ => ⟨hhalf, fun hstate => absurd (hhalf.symm.trans hstate) (by decide)⟩, nofun⟩
  | false =>
    obtain ⟨hstate, hlast⟩ := h.same rfl
    by_cases hopened : b.state = .opened
    · have hlast := hlast hopened
      rw [Breaker.allowRequest, Breaker.allowRequest, if_pos hopened, if_pos (hstate.symm.trans hopened), hlast]
      split
      · exact ⟨rfl, h.failureCount, fun _ => ⟨rfl, nofun⟩, nofun⟩
      · exact ⟨rfl, h⟩
    · rw [Breaker.allowRequest, Breaker.allowRequest, if_neg hopened, if_neg (by rw [← hstate]; exact hopened)]
      exact ⟨rfl, h⟩

theorem Breaker.Matches.asked (h : b.Matches settings now probed b') :
    (b.allowRequest settings now).2.Matches settings now (probed || (b.allowRequest settings now).2 ≠ b) b' := by
  rcases allowRequest_cases settings now b with ⟨hask, -⟩ | ⟨hask, -⟩ | ⟨hask, hopened, helapsed⟩
  · rw [hask]
    simpa using h
  · rw [hask]
    simpa using h
  · cases probed with
    | true => exact absurd ((h.early rfl).1.symm.trans hopened) (by decide)
    | false =>
      obtain ⟨hstate, hlast⟩ := h.same rfl
      have hne : b.transition now .halfOpen ≠ b := by
        intro heq
        have hhalf : (b.transition now .halfOpen).state = .opened := (congrArg Breaker.state heq).trans hopened
        cases hhalf
      rw [hask]
      simp only [ne_eq, hne, not_false_eq_true, decide_true, Bool.or_true]
      exact ⟨h.failureCount, nofun, fun _ => ⟨rfl, hstate.symm.trans hopened, by rw [← hlast hopened]; exact helapsed⟩⟩

theorem Breaker.Matches.recordSuccess (h : b.Matches settings now false b') :
    (b.recordSuccess now).Matches settings now false (b'.recordSuccess now) := by
  obtain ⟨hstate, -⟩ := h.same rfl
  unfold Breaker.recordSuccess
  rw [← hstate]
  cases hb : b.state with
  | closed => exact ⟨rfl, fun _ => ⟨rfl, fun hopened => by cases hopened⟩, nofun⟩
  | opened => exact h
  | halfOpen => exact ⟨rfl, fun _ => ⟨rfl, nofun⟩, nofun⟩

theorem Breaker.Matches.recordFailure (h : b.Matches settings now false b') :
    (b.recordFailure settings now).Matches settings now false (b'.recordFailure settings now) := by
  obtain ⟨hstate, hlast⟩ := h.same rfl
  have hcount : b.failureCount + 1 = b'.failureCount + 1 := congrArg (· + 1) h.failureCount
  unfold Breaker.recordFailure
  rw [← hstate]
  cases hb : b.state with
  | closed =>
    dsimp only
    rw [hcount]
    split
    · exact ⟨rfl, fun _ => ⟨rfl, fun _ => rfl⟩, nofun⟩
    · exact ⟨rfl, fun _ => ⟨rfl, fun hopened => by cases hopened⟩, nofun⟩
  | opened => exact ⟨hcount, fun _ => ⟨rfl, fun _ => hlast hb⟩, nofun⟩
  | halfOpen => exact ⟨hcount, fun _ => ⟨rfl, fun _ => rfl⟩, nofun⟩

theorem Breaker.Matches.reset (settings : BreakerSettings) (now now' : ℚ) (b b' : Breaker) :
    (b.reset now).Matches settings now false (b'.reset now') :=
  ⟨rfl, fun _ => ⟨rfl, nofun⟩, nofun⟩

structure ProviderStore.Shadows (settings : BreakerSettings) (s s' : ProviderStore P) : Prop where
  now : s.now = s'.now
  openings : s.openings = s'.openings
  openedAt : s.openedAt = s'.openedAt
  breakers : ∀ provider, (s.breakers provider).Matches settings s.now (s.probed provider) (s'.breakers provider)

structure ProviderWorld.Shadows (settings : BreakerSettings) (w w' : ProviderWorld P) : Prop where
  store : w.store.Shadows settings w'.store
  calls : w'.calls = w.calls

theorem initial_shadows : (initial : ProviderWorld P).Shadows settings initial :=
  ⟨⟨rfl, rfl, rfl, fun _ => ⟨rfl, fun _ => ⟨rfl, fun _ => rfl⟩, nofun⟩⟩, rfl⟩

variable [DecidableEq P]

theorem ProviderStore.Shadows.setBreaker (provider : P) (h : s.Shadows settings s') (hb : b.Matches settings s.now false b') :
    (s.setBreaker provider b).Shadows settings (s'.setBreaker provider b') := by
  refine ⟨h.now, h.openings, h.openedAt, fun p => ?_⟩
  unfold ProviderStore.setBreaker
  by_cases hp : p = provider
  · subst hp
    simpa only [update_self] using hb
  · simpa only [update_of_ne hp] using h.breakers p

theorem ProviderStore.Shadows.recordFailure (h : s.Shadows settings s') (hprobed : s.probed provider = false) :
    (s.recordFailure settings provider).Shadows settings (s'.recordFailure settings provider) := by
  have hmatches := h.breakers provider
  rw [hprobed] at hmatches
  have hstate : (s.breakers provider).state = (s'.breakers provider).state := (hmatches.same rfl).1
  have hrecorded := hmatches.recordFailure
  have hstate' := (hrecorded.same rfl).1
  have hset := h.setBreaker provider hrecorded
  rw [h.now] at hset hstate'
  unfold ProviderStore.recordFailure
  dsimp only
  rw [h.now, hstate, hstate', h.openings, h.openedAt]
  split
  · exact ⟨hset.now, rfl, rfl, hset.breakers⟩
  · exact hset

theorem turn_shadows {exceeded : Bool} {phase phase₁ : VerifyPhase P} {s₁ : ProviderStore P} (hs : s.Shadows settings s')
    (hphase : phase.IsCurrent s) (h : phase.turn settings fallbackProvider exceeded s = some (phase₁, s₁)) :
    ∃ s₁', phase.turn settings fallbackProvider exceeded s' = some (phase₁, s₁') ∧ s₁.Shadows settings s₁' := by
  cases phase with
  | choosing pending =>
    cases pending with
    | nil =>
      cases h
      exact ⟨s', rfl, hs⟩
    | cons provider pending =>
      simp only [VerifyPhase.turn] at h ⊢
      split at h
      · rename_i hexceeded
        rw [if_pos hexceeded]
        split at h
        · cases h
          exact ⟨s', rfl, hs⟩
        · cases h
          exact ⟨s', rfl, hs⟩
      · rename_i hexceeded
        obtain ⟨hallowed, hasked⟩ := (hs.breakers provider).allowRequest
        cases h
        rw [if_neg hexceeded, ← hs.now, hallowed, hs.openings]
        exact ⟨_, rfl, hs.setBreaker provider hasked⟩
  | starting provider permission variant attempt pending =>
    cases h
    exact ⟨s', rfl, hs⟩
  | succeeding provider =>
    cases h
    have hmatches := hs.breakers provider
    rw [show s.probed provider = false from hphase] at hmatches
    refine ⟨_, rfl, ?_⟩
    rw [← hs.now]
    exact hs.setBreaker provider hmatches.recordSuccess
  | failing provider permission variant pending =>
    cases h
    exact ⟨_, rfl, hs.recordFailure hphase⟩
  | awaiting provider permission variant attempt pending | ended result => cases h

theorem ask_shadows {query : QueryPhase P} {result : QueryPhase P × ProviderStore P} (hs : s.Shadows settings s')
    (h : s.ask settings query = some result) : result.2.Shadows settings s' := by
  cases query with
  | asking query pending =>
    cases pending with
    | nil =>
      cases h
      exact hs
    | cons provider pending =>
      have hasked : ProviderStore.Shadows settings
          { s with
            breakers := update s.breakers provider ((s.breakers provider).allowRequest settings s.now).2
            probed := update s.probed provider
              (s.probed provider || ((s.breakers provider).allowRequest settings s.now).2 ≠ s.breakers provider) } s' := by
        refine ⟨hs.now, hs.openings, hs.openedAt, fun p => ?_⟩
        by_cases hp : p = provider
        · subst hp
          simpa only [update_self] using (hs.breakers p).asked
        · simpa only [update_of_ne hp] using hs.breakers p
      simp only [ProviderStore.ask] at h
      split at h
      · cases h
        exact hasked
      · split at h <;> cases h <;> exact hasked
  | answered answer => cases h

theorem take_shadows {event : ProviderEvent P} (hw : w.Shadows settings w') (hadmits : Admits ⟨w, event, w₁⟩)
    (h : w.take settings fallbackProvider event = some w₁) :
    if event.isRequest then ∃ w₁', w'.take settings fallbackProvider event = some w₁' ∧ w₁.Shadows settings w₁'
    else w₁.Shadows settings w' := by
  obtain ⟨hstore, hcalls⟩ := hw
  cases event with
  | verifyClaim providers =>
    cases h
    exact ⟨_, rfl, hstore, congrArg (· ++ [_]) hcalls⟩
  | turn i exceeded =>
    obtain ⟨phase, hi, h⟩ := Option.bind_eq_some_iff.mp h
    obtain ⟨⟨phase₁, s₁⟩, hresult, rfl⟩ := Option.map_eq_some_iff.mp h
    obtain ⟨s₁', hturn, hs₁⟩ := turn_shadows hstore (hadmits phase hi) hresult
    refine ⟨w'.put i (phase₁, s₁'), ?_, hs₁, congrArg (List.set · i phase₁) hcalls⟩
    simp [take, hcalls, hi, hturn]
  | answer i answer =>
    obtain ⟨phase, hi, h⟩ := Option.bind_eq_some_iff.mp h
    obtain ⟨phase₁, hphase₁, rfl⟩ := Option.map_eq_some_iff.mp h
    refine ⟨w'.put i (phase₁, w'.store), ?_, hstore, congrArg (List.set · i phase₁) hcalls⟩
    simp [take, hcalls, hi, hphase₁]
  | query query providers =>
    cases h
    exact ⟨⟨hstore.now, hstore.openings, hstore.openedAt, hstore.breakers⟩, hcalls⟩
  | ask k =>
    obtain ⟨phase, -, h⟩ := Option.bind_eq_some_iff.mp h
    obtain ⟨result, hresult, rfl⟩ := Option.map_eq_some_iff.mp h
    obtain ⟨hnow, hopenings, hopenedAt, hbreakers⟩ := ask_shadows hstore hresult
    exact ⟨⟨hnow, hopenings, hopenedAt, hbreakers⟩, hcalls⟩
  | reset provider =>
    cases h
    have hset := hstore.setBreaker provider (.reset settings _ w'.store.now (w.store.breakers provider) (w'.store.breakers provider))
    refine ⟨_, rfl, ⟨hset.now, hset.openings, ?_, hset.breakers⟩, hcalls⟩
    exact congrArg (update · provider none) hstore.openedAt
  | pass duration =>
    simp only [take] at h
    split at h
    · rename_i hduration
      cases h
      have hnow : w.store.now ≤ w.store.now + duration := by linarith
      refine ⟨_, if_pos hduration, ⟨?_, hstore.openings, hstore.openedAt, fun p => (hstore.breakers p).mono hnow⟩, hcalls⟩
      exact congrArg (· + duration) hstore.now
    · cases h

variable {tr : List (ProviderTransition P)}

theorem runs_shadow (hrun : Run (Step settings fallbackProvider) .initial tr w) (hadmits : ∀ t ∈ tr, Admits t) :
    ∃ w', initial.replay settings fallbackProvider ((tr.map (·.label)).filter (·.isRequest)) = some w' ∧
      w.Shadows settings w' := by
  induction hrun with
  | nil => exact ⟨_, rfl, initial_shadows⟩
  | @snoc tr w event w₁ _ hstep ih =>
    obtain ⟨w', hreplay, hw⟩ := ih fun t ht => hadmits t (List.mem_append_left _ ht)
    have hlast := take_shadows hw (hadmits ⟨w, event, w₁⟩ (by simp)) hstep
    rw [List.map_append, List.filter_append, replay, List.foldlM_append]
    rw [replay] at hreplay
    rw [hreplay]
    split at hlast
    · rename_i hrequest
      obtain ⟨w₁', htake, hw₁⟩ := hlast
      exact ⟨w₁', by simpa [hrequest] using htake, hw₁⟩
    · rename_i hquery
      exact ⟨w', by simp [hquery], hlast⟩

theorem openMeansNoCalls (hrun : Run (Step settings fallbackProvider) .initial tr w)
    (hadmits : ∀ t ∈ tr, Admits t) : OpenMeansNoCalls settings fallbackProvider tr w where
  quiet t ht provider hstarts := by
    obtain ⟨i, exceeded, permission, variant, attempt, pending, hlabel, hi⟩ := hstarts
    have hsound := hrun.invariant_at initial_sound hadmits (fun _ hstep _ hpre => take_sound hpre hstep) ht
    have hcurrent := hadmits t ht
    rw [Admits, hlabel] at hcurrent
    exact (hsound.1.calls i _ hi).2 (hcurrent _ hi)
  harmless := by
    obtain ⟨w', hreplay, hw⟩ := runs_shadow hrun hadmits
    exact ⟨w', hreplay, hw.calls⟩

end Shadow

/-- Providers 0 and 1, and a breaker that opens for half a minute when it has seen two failures. -/
def halfMinute : BreakerSettings where
  failureThreshold := 2
  recoveryTimeout := 30

abbrev providerRun (events : List (ProviderEvent ℕ)) : List (ProviderTransition ℕ) × ProviderWorld ℕ :=
  play (take halfMinute fun _ => none) initial events

/-- Both prompts of the first provider fail, and the second one answers. Half a minute later a query and then a request find the
first one ready again. -/
def recoveringProvider : List (ProviderEvent ℕ) :=
  [.verifyClaim [0, 1], .turn 0 false, .turn 0 false, .answer 0 .failure, .turn 0 false, .turn 0 false, .answer 0 .failure,
    .turn 0 false, .query .allProvidersUnavailable [0, 1], .ask 0, .ask 0, .turn 0 false, .turn 0 false, .answer 0 .valid,
    .turn 0 false, .pass 30, .query .checkRecovery [0, 1], .ask 1, .verifyClaim [0, 1], .turn 1 false, .turn 1 false,
    .answer 1 .malformed, .turn 1 false, .answer 1 .valid, .turn 1 false]

theorem openMeansNoCalls_recovering :
    OpenMeansNoCalls halfMinute (fun _ => none) (providerRun recoveringProvider).1 (providerRun recoveringProvider).2 :=
  openMeansNoCalls (play_run (fun _ _ _ h => h) recoveringProvider initial) (by decide +kernel)

/-- The primary prompt of the second request opens the breaker, and its fallback prompt is sent all the same. -/
def openedBetweenPrompts : List (ProviderEvent ℕ) :=
  [.verifyClaim [0], .turn 0 false, .turn 0 false, .answer 0 .failure, .turn 0 false, .turn 0 false, .answer 0 .refusal,
    .verifyClaim [0], .turn 1 false, .turn 1 false, .answer 1 .failure, .turn 1 false, .turn 1 false]

/-- A query makes the breaker half-open, and a request from before the opening fails: the next request is turned away, which it
would not have been without the query. -/
def probedTooEarly : List (ProviderEvent ℕ) :=
  [.verifyClaim [0], .turn 0 false, .turn 0 false, .verifyClaim [0], .turn 1 false, .turn 1 false, .verifyClaim [0],
    .turn 2 false, .turn 2 false, .answer 0 .failure, .turn 0 false, .answer 1 .failure, .turn 1 false, .pass 30,
    .query .checkRecovery [0], .ask 0, .answer 2 .failure, .turn 2 false, .verifyClaim [0], .turn 3 false]

theorem open_circuit_called :
    ¬ OpenMeansNoCalls halfMinute (fun _ => none) (providerRun openedBetweenPrompts).1 (providerRun openedBetweenPrompts).2 ∧
    ¬ OpenMeansNoCalls halfMinute (fun _ => none) (providerRun probedTooEarly).1 (providerRun probedTooEarly).2 := by
  constructor
  · intro h
    obtain ⟨t, ht⟩ : ∃ t, (providerRun openedBetweenPrompts).1[12]? = some t := ⟨_, rfl⟩
    have hstarts : StartsCall t 0 := by
      cases ht
      exact ⟨1, false, 0, .fallback, 1, [], rfl, rfl⟩
    have hopened : t.pre.store.openedAt 0 = some 0 ∧ t.pre.store.now = 0 := by
      cases ht
      decide +kernel
    have hrecovered := h.quiet t (List.mem_of_getElem? ht) 0 hstarts 0 hopened.1
    rw [hopened.2] at hrecovered
    exact absurd hrecovered (by decide +kernel)
  · intro h
    obtain ⟨w', hreplay, hcalls⟩ := h.harmless
    have hallowed : ((initial.replay halfMinute (fun _ => none)
        (((providerRun probedTooEarly).1.map (·.label)).filter (·.isRequest))).map (·.calls[3]?)) =
        some (some (.starting 0 1 .primary 1 [])) := by
      decide +kernel
    have hdenied : (providerRun probedTooEarly).2.calls[3]? = some (.choosing []) := by
      decide +kernel
    rw [hreplay, Option.map_some, hcalls, hdenied] at hallowed
    cases hallowed

end Soter.AiProviders
