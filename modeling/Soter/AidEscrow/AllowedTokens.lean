import Soter.AidEscrow.Pauses

/-! The list of allowed tokens over whole runs. An empty list is no list: it lets every token in. -/
namespace Soter.AidEscrow
open Std Soter.Fallible Soter.Runs Ensures

variable {τ : Type} {H : Host τ} {signers : List Address} {w w' u v : World τ} {m : Move τ} {token : Address}

def Call.allowlist (tokens : List Address) : Call → List Address
  | .init _ => []
  | .setConfig config => config.allowedTokens
  | .addAllowedToken token => tokens ++ [token]
  | .removeAllowedToken token => tokens.filter fun t => t ≠ token
  | _ => tokens

def Move.lists (token : Address) : Move τ → Prop
  | .call _ (.setConfig config) => token ∈ config.allowedTokens
  | .call _ (.addAllowedToken t) => t = token
  | _ => False

def Call.creates (token : Address) : Call → Prop
  | .createPackage _ _ _ _ t _ _ => t = token
  | .batchCreatePackages _ _ _ t _ _ => t = token
  | _ => False

theorem exec_allowlist {c : Call} (h : exec H signers w c = .ok w') (hw : WellFormed w) :
    (getConfig w').allowedTokens = c.allowlist (getConfig w).allowedTokens := by
  have hkept (hc : ¬ c.permits signers .settings) :
      (getConfig w').allowedTokens = (getConfig w).allowedTokens := by
    have hsettings := (Step.call h).settings_kept hw hc
    rw [getConfig, getConfig, hsettings]
  -- the calls about settings are read off, the others have no say in the matter
  by_cases hc : c.permits signers .settings
  · suffices hcall : Ensures (fun u => (getConfig u).allowedTokens = c.allowlist (getConfig w).allowedTokens)
        (exec H signers w c) from hcall w' h
    cases c with
    | init => exact after fun _ => Ensures.pure rfl
    | setConfig | addDistributor | addAllowedToken =>
      exact after fun _ => after fun _ => after fun _ => Ensures.pure rfl
    | transferAdmin | acceptAdmin | cancelAdminTransfer | removeDistributor | setMaxDistributors
    | removeAllowedToken => exact after fun _ => after fun _ => Ensures.pure rfl
    | pause | unpause | pauseCampaign | unpauseCampaign => exact after fun _ => Ensures.pure rfl
    | pauseAction | unpauseAction =>
      refine after fun _ => after fun key => Ensures.pure ?_
      cases key <;> rfl
    | migrate =>
      refine after fun _ => Ensures.bind (Q := fun u => u.settings = w.settings) ?_ fun u hu => ?_
      · split
        · intro u hu
          obtain ⟨totals, rfl⟩ := backfill_only_totals hu
          rfl
        · exact Ensures.ok rfl
      · apply Ensures.pure
        change (u.settings.config.getD defaultConfig).allowedTokens = _
        rw [hu]
        rfl
    | _ => simp [Call.permits] at hc
  · have hsame := hkept hc
    cases c with
    | init | setConfig | addAllowedToken | removeAllowedToken => exact absurd rfl hc
    | _ => exact hsame

theorem Step.unlisted_kept (h : Step H w m w') (hw : WellFormed w) (hm : ¬ m.lists token)
    (hout : token ∉ (getConfig w).allowedTokens) : token ∉ (getConfig w').allowedTokens := by
  cases h with
  | tick | outside => exact hout
  | @call _ signers c hexec =>
    rw [exec_allowlist hexec hw]
    cases c with
    | init => exact List.not_mem_nil
    | setConfig config => exact hm
    | addAllowedToken t =>
      intro hmem
      rcases List.mem_append.mp hmem with hbefore | hnew
      · exact hout hbefore
      · exact hm (List.mem_singleton.mp hnew).symm
    | removeAllowedToken t => exact fun hmem => hout (List.mem_of_mem_filter hmem)
    | _ => exact hout

theorem creates_allowed {c : Call} (hc : c.creates token) (h : exec H signers w c = .ok w') :
    (getConfig w).allowedTokens = [] ∨ token ∈ (getConfig w).allowedTokens := by
  cases c with
  | createPackage =>
    obtain rfl := hc
    obtain ⟨-, -, -, _, -, -, -, hallowed, -⟩ := createPackage_eq_ok.mp h
    exact hallowed
  | batchCreatePackages =>
    obtain rfl := hc
    obtain ⟨ids, hbatch⟩ := fst_map_eq_ok.mp h
    simp only [batchCreatePackages, bind_eq_ok, require_eq_ok, exists_unit] at hbatch
    exact hbatch.2.2.2.1
  | _ => cases hc

/-- After its removal and until it is listed again, a token is on no list, and packages of it are created only
while the list is empty. -/
theorem removed_token_refused {tr tr' : Trace τ} (h : Reaches H tr w)
    (hremove : exec H signers w (.removeAllowedToken token) = .ok u) (hrun : Run (Step H) u tr' v)
    (hlists : ∀ t ∈ tr', ¬ t.label.lists token) : token ∉ (getConfig v).allowedTokens ∧
      ∀ (signers' : List Address) (c : Call) (v' : World τ), c.creates token → exec H signers' v c = .ok v' →
        (getConfig v).allowedTokens = [] := by
  have hu : Reaches H (tr ++ [⟨w, .call signers (.removeAllowedToken token), u⟩]) u := by
    obtain ⟨now, tokens, hdeployed⟩ := h
    exact ⟨now, tokens, hdeployed.snoc (.call hremove)⟩
  have hout : token ∉ (getConfig u).allowedTokens := by
    rw [exec_allowlist hremove h.wellFormed]
    simp [Call.allowlist]
  have hkept : WellFormed v ∧ token ∉ (getConfig v).allowedTokens := by
    apply hrun.invariant (I := fun v => WellFormed v ∧ token ∉ (getConfig v).allowedTokens)
      (C := fun t => ¬ t.label.lists token) ⟨hu.wellFormed, hout⟩ hlists
    intro t hstep hlabel hpre
    exact ⟨hstep.wellFormed hpre.1, hstep.unlisted_kept hpre.1 hlabel hpre.2⟩
  refine ⟨hkept.2, ?_⟩
  intro signers' c v' hc hexec
  exact (creates_allowed hc hexec).resolve_right hkept.2

def oneOfTwo : List (Move Balances) := [
  .call [] (.init ⟨1⟩),
  .call [⟨1⟩] (.fund ⟨9⟩ ⟨1⟩ 100),
  .call [⟨1⟩] (.addAllowedToken ⟨8⟩),
  .call [⟨1⟩] (.addAllowedToken ⟨9⟩)]

theorem removed_token_refused_oneOfTwo :
    ∃ u, exec (plainHost ⟨0⟩) [⟨1⟩] (played (plainHost ⟨0⟩) 100 [((⟨9⟩, ⟨1⟩), 100)] oneOfTwo).2
        (.removeAllowedToken ⟨9⟩) = .ok u ∧ (getConfig u).allowedTokens = [⟨8⟩] ∧
      ∀ v', exec (plainHost ⟨0⟩) [⟨1⟩] u (.createPackage ⟨1⟩ 0 ⟨2⟩ 10 ⟨9⟩ 0 ∅) ≠ .ok v' := by
  have hreach := played_reaches (H := plainHost ⟨0⟩) 100 [((⟨9⟩, ⟨1⟩), 100)] oneOfTwo
  have hlist : (getConfig (played (plainHost ⟨0⟩) 100 [((⟨9⟩, ⟨1⟩), 100)] oneOfTwo).2).allowedTokens = [⟨8⟩, ⟨9⟩] := by
    decide +kernel
  obtain ⟨u, hexec⟩ := exists_of_isOk (x := exec (plainHost ⟨0⟩) [⟨1⟩]
    (played (plainHost ⟨0⟩) 100 [((⟨9⟩, ⟨1⟩), 100)] oneOfTwo).2 (.removeAllowedToken ⟨9⟩)) (by decide +kernel)
  have hafter : (getConfig u).allowedTokens = [⟨8⟩] := by
    rw [exec_allowlist hexec hreach.wellFormed, hlist]
    decide
  refine ⟨u, hexec, hafter, fun v' hcreate => ?_⟩
  have hempty := (removed_token_refused hreach hexec Run.nil (fun _ ht => absurd ht List.not_mem_nil)).2
    [⟨1⟩] (.createPackage ⟨1⟩ 0 ⟨2⟩ 10 ⟨9⟩ 0 ∅) v' rfl hcreate
  rw [hafter] at hempty
  cases hempty

def oneToken : List (Move Balances) := [
  .call [] (.init ⟨1⟩),
  .call [⟨1⟩] (.fund ⟨9⟩ ⟨1⟩ 100),
  .call [⟨1⟩] (.addAllowedToken ⟨9⟩)]

/-- Taking the last token off the list lets it back in, by either way of creating packages. -/
theorem removed_token_accepted :
    ∃ w u v v', Reaches (plainHost ⟨0⟩) (played (plainHost ⟨0⟩) 100 [((⟨9⟩, ⟨1⟩), 100)] oneToken).1 w ∧
      exec (plainHost ⟨0⟩) [⟨1⟩] w (.removeAllowedToken ⟨9⟩) = .ok u ∧
      exec (plainHost ⟨0⟩) [⟨1⟩] u (.createPackage ⟨1⟩ 0 ⟨2⟩ 10 ⟨9⟩ 0 ∅) = .ok v ∧
      exec (plainHost ⟨0⟩) [⟨1⟩] v (.batchCreatePackages ⟨1⟩ [⟨2⟩] [10] ⟨9⟩ 50 [∅]) = .ok v' := by
  have hok : ((exec (plainHost ⟨0⟩) [⟨1⟩] (played (plainHost ⟨0⟩) 100 [((⟨9⟩, ⟨1⟩), 100)] oneToken).2
      (.removeAllowedToken ⟨9⟩) >>= fun u =>
        exec (plainHost ⟨0⟩) [⟨1⟩] u (.createPackage ⟨1⟩ 0 ⟨2⟩ 10 ⟨9⟩ 0 ∅) >>= fun v =>
          exec (plainHost ⟨0⟩) [⟨1⟩] v (.batchCreatePackages ⟨1⟩ [⟨2⟩] [10] ⟨9⟩ 50 [∅]))).isOk = true := by
    decide +kernel
  obtain ⟨v', hv'⟩ := exists_of_isOk hok
  obtain ⟨u, hu, v, hv, hbatch⟩ : ∃ u, _ ∧ ∃ v, _ := by simpa only [bind_eq_ok] using hv'
  exact ⟨_, u, v, v', played_reaches 100 [((⟨9⟩, ⟨1⟩), 100)] oneToken, hu, hv, hbatch⟩

end Soter.AidEscrow
