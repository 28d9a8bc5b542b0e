import Mathlib.Tactic.IntervalCases
import Soter.AiCache.Keys

/-! Which verifications share a key of the AI cache, and with whose results a verification can be answered. -/
namespace Soter.AiCache
open Soter.Json (Text Value Numerals)
open Soter.Parties Soter.PyJson Soter.Runs List

section Origins
variable {Req Key V Raw E : Type} {f : CachedFunction Req Key V Raw} {R : Req → Req → Prop}
  {w w' : FlightWorld Req Key V Raw E} {s s' : CacheStore Req Key V Raw E} {c : FlightCall Req V E}
  {key : Key} {r r' : Req} {result : Computed Req V}

structure CachedFunction.Relates (f : CachedFunction Req Key V Raw) (R : Req → Req → Prop) : Prop where
  equivalence : Equivalence R
  keys : ∀ r r' key, key ∈ f.keys r → key ∈ f.keys r' → R r r'

/-- What is in the cache or on record under a key was computed for a request related to all that have the key. -/
structure CacheStore.IsFrom (f : CachedFunction Req Key V Raw) (R : Req → Req → Prop) (s : CacheStore Req Key V Raw E) : Prop where
  entries : ∀ key entry, s.entries key = some entry → ∀ r, key ∈ f.keys r → R r entry.origin
  results : ∀ key result, s.results key = some result → ∀ r, f.flightKey r = key → R r result.origin

def FlightCall.IsFrom (R : Req → Req → Prop) (c : FlightCall Req V E) : Prop :=
  match c.phase with
  | .storing _ result | .returned result => R c.request result.origin
  | _ => True

def FlightWorld.IsFrom (f : CachedFunction Req Key V Raw) (R : Req → Req → Prop) (w : FlightWorld Req Key V Raw E) : Prop :=
  w.store.IsFrom f R ∧ ∀ (i : ℕ) (c : FlightCall Req V E), w.calls[i]? = some c → c.IsFrom R

variable {answers : Bool} {i : ℕ} {redis : ℕ → Bool} {next : FlightCall Req V E × CacheStore Req Key V Raw E}

theorem cacheKey_mem (f : CachedFunction Req Key V Raw) (r : Req) : f.cacheKey r ∈ f.keys r := mem_cons_self

theorem contentKey_mem (h : f.contentKey r = some key) : key ∈ f.keys r := by
  rw [CachedFunction.keys, h]
  exact mem_cons_of_mem _ (mem_singleton_self key)

theorem flightKey_mem (f : CachedFunction Req Key V Raw) (r : Req) : f.flightKey r ∈ f.keys r := by
  rw [CachedFunction.flightKey]
  cases hkey : f.contentKey r with
  | none => exact cacheKey_mem f r
  | some key => exact contentKey_mem hkey

theorem get_from (hs : s.IsFrom f R) (h : s.get f answers key = some result) (hkey : key ∈ f.keys r) :
    R r result.origin := by
  rw [CacheStore.get] at h
  split at h
  · obtain ⟨entry, hentry, hresult⟩ := Option.bind_eq_some_iff.mp h
    obtain ⟨value, -, rfl⟩ := Option.map_eq_some_iff.mp hresult
    exact hs.entries key entry hentry r hkey
  · cases h

theorem recorded_from (hs : s.IsFrom f R) (h : s.results (f.flightKey c.request) = some result) :
    R c.request result.origin :=
  hs.results _ result h c.request rfl

theorem put_from {c' : FlightCall Req V E} (hw : FlightWorld.IsFrom f R w) (hi : w.calls[i]? = some c)
    (hs : s'.IsFrom f R) (hc : c'.IsFrom R) : FlightWorld.IsFrom f R (w.put i (c', s')) := by
  refine ⟨hs, fun k d hd => ?_⟩
  rcases Party.put_cases hi hd with ⟨-, rfl⟩ | ⟨-, hd⟩
  · exact hc
  · exact hw.2 k d hd

theorem from_same (hs : s.IsFrom f R) (hentries : s'.entries = s.entries) (hresults : s'.results = s.results) :
    s'.IsFrom f R where
  entries := by
    rw [hentries]
    exact hs.entries
  results := by
    rw [hresults]
    exact hs.results

theorem initial_from : FlightWorld.IsFrom f R (FlightWorld.initial : FlightWorld Req Key V Raw E) :=
  ⟨⟨nofun, nofun⟩, fun i c h => by cases h⟩

variable [DecidableEq Key]

theorem set_from (hf : f.Relates R) (hs : s.IsFrom f R) (hkey : key ∈ f.keys r) (hresult : R r result.origin) :
    (s.set f answers key result).IsFrom f R := by
  unfold CacheStore.set
  split
  · rename_i raw _
    refine ⟨fun key' entry hentry r' hkey' => ?_, hs.results⟩
    by_cases heq : key' = key
    · subst heq
      have hentry : some { result with value := raw } = some entry := by simpa using hentry
      cases hentry
      exact hf.equivalence.trans (hf.keys r' r _ hkey' hkey) hresult
    · exact hs.entries key' entry (by simpa [Function.update_of_ne heq] using hentry) r' hkey'
  · exact hs

theorem backfill_from (hf : f.Relates R) (hs : s.IsFrom f R) (hresult : R r result.origin) :
    (s.backfill f answers r result).IsFrom f R := by
  unfold CacheStore.backfill
  split
  · exact set_from hf hs (cacheKey_mem f r) hresult
  · exact hs

theorem setKeys_from (redis : ℕ → Bool) (hf : f.Relates R) (hs : s.IsFrom f R) (hresult : R r result.origin) :
    (s.setKeys f redis r result).IsFrom f R := by
  unfold CacheStore.setKeys
  split
  · exact set_from hf hs (cacheKey_mem f r) hresult
  · rename_i contentKey hkey
    exact set_from hf (set_from hf hs (cacheKey_mem f r) hresult) (contentKey_mem hkey) hresult

theorem record_from (hf : f.Relates R) (hs : s.IsFrom f R) (hresult : R r result.origin) :
    (s.record (f.flightKey r) result).IsFrom f R := by
  refine ⟨hs.entries, fun key' result' hresult' r' hkey' => ?_⟩
  by_cases heq : key' = f.flightKey r
  · subst heq
    have hresult' : some result = some result' := by simpa [CacheStore.record] using hresult'
    cases hresult'
    have hmem : f.flightKey r ∈ f.keys r' := by
      rw [← hkey']
      exact flightKey_mem f r'
    exact hf.equivalence.trans (hf.keys r' r _ hmem (flightKey_mem f r)) hresult
  · exact hs.results key' result' (by simpa [CacheStore.record, Function.update_of_ne heq] using hresult') r' hkey'

theorem cleanup_from (hs : s.IsFrom f R) : (s.cleanup key).IsFrom f R := by
  refine ⟨hs.entries, fun key' result hresult => ?_⟩
  by_cases heq : key' = key
  · simp [CacheStore.cleanup, heq] at hresult
  · exact hs.results key' result (by simpa [CacheStore.cleanup, Function.update_of_ne heq] using hresult)

theorem lookup_from (redis : ℕ → Bool) (r : Req) (hf : f.Relates R) (hs : s.IsFrom f R) :
    (∀ result, (s.lookup f redis r).1 = some result → R r result.origin) ∧ (s.lookup f redis r).2.IsFrom f R := by
  unfold CacheStore.lookup
  split
  · rename_i found hfound
    refine ⟨fun result hresult => ?_, hs⟩
    cases hresult
    exact get_from hs hfound (cacheKey_mem f r)
  · split
    · rename_i found hfound
      obtain ⟨contentKey, hkey, hfound⟩ := Option.bind_eq_some_iff.mp hfound
      have horigin := get_from hs hfound (contentKey_mem hkey)
      refine ⟨fun result hresult => ?_, backfill_from hf hs horigin⟩
      cases hresult
      exact horigin
    · exact ⟨nofun, hs⟩

theorem arrive_from (redis : ℕ → Bool) (r : Req) (hf : f.Relates R) (hs : s.IsFrom f R) :
    (s.arrive f redis r : FlightCall Req V E × _).1.IsFrom R ∧ (s.arrive f redis r).2.IsFrom f R := by
  obtain ⟨hfound, hstore⟩ := lookup_from redis r hf hs
  unfold CacheStore.arrive
  cases hlookup : s.lookup f redis r with
  | mk found s' =>
    rw [hlookup] at hfound hstore
    cases found with
    | some result =>
      split
      · exact ⟨hfound result rfl, hstore⟩
      · exact ⟨trivial, hs⟩
    | none =>
      split
      · exact ⟨trivial, hstore⟩
      · exact ⟨trivial, hs⟩

theorem turn_from (hf : f.Relates R) (hs : s.IsFrom f R)
    (hc : c.IsFrom R) (h : c.turn f redis s = some next) : next.1.IsFrom R ∧ next.2.IsFrom f R := by
  unfold FlightCall.turn at h
  split at h
  · cases h
    unfold FlightCall.join
    split
    · exact ⟨trivial, from_same hs rfl rfl⟩
    · split
      · split
        · rename_i result hresult
          exact ⟨recorded_from hs hresult, backfill_from hf hs (recorded_from hs hresult)⟩
        · exact ⟨trivial, hs⟩
        · exact ⟨trivial, hs⟩
      · exact ⟨trivial, hs⟩
  · split at h
    · cases h
      unfold FlightCall.wake
      split
      · rename_i result hresult
        exact ⟨recorded_from hs hresult, backfill_from hf hs (recorded_from hs hresult)⟩
      · exact ⟨trivial, hs⟩
      · exact ⟨trivial, hs⟩
    · cases h
  · rename_i event result hphase
    cases h
    have horigin : R c.request result.origin := by
      rw [FlightCall.IsFrom, hphase] at hc
      exact hc
    have hstored := setKeys_from redis hf (record_from hf hs horigin) horigin
    exact ⟨horigin, from_same hstored rfl rfl⟩
  · cases h
    exact ⟨trivial, from_same hs rfl rfl⟩
  · cases h

theorem finish_from {outcome : Outcome V E} (hf : f.Relates R)
    (hs : s.IsFrom f R) (h : c.finish f redis s outcome = some next) : next.1.IsFrom R ∧ next.2.IsFrom f R := by
  have horigin : R c.request c.request := hf.equivalence.refl c.request
  unfold FlightCall.finish at h
  cases outcome with
  | returns value =>
    dsimp only at h
    split at h
    · cases h
      exact ⟨horigin, hs⟩
    · cases h
      exact ⟨horigin, setKeys_from redis hf hs horigin⟩
    · cases h
      exact ⟨horigin, hs⟩
    · cases h
  | raises error =>
    dsimp only at h
    split at h <;> cases h <;> exact ⟨trivial, hs⟩
  | cancelled =>
    dsimp only at h
    split at h <;> cases h <;> exact ⟨trivial, hs⟩

theorem act_from {label : FlightEvent Req Key V E} (hf : f.Relates R) (hw : FlightWorld.IsFrom f R w)
    (h : FlightWorld.act f w label = some w') : FlightWorld.IsFrom f R w' := by
  cases label with
  | arrive r redis =>
    cases h
    obtain ⟨hcall, hstore⟩ := arrive_from redis r hf hw.1
    refine ⟨hstore, fun k d hd => ?_⟩
    rcases Party.join_cases hd with hd | ⟨-, rfl⟩
    · exact hw.2 k d hd
    · exact hcall
  | turn i redis =>
    obtain ⟨c, hi, h⟩ := Option.bind_eq_some_iff.mp h
    obtain ⟨next, hnext, rfl⟩ := Option.map_eq_some_iff.mp h
    obtain ⟨hcall, hstore⟩ := turn_from hf hw.1 (hw.2 i c hi) hnext
    exact put_from hw hi hstore hcall
  | finish i outcome redis =>
    obtain ⟨c, hi, h⟩ := Option.bind_eq_some_iff.mp h
    obtain ⟨next, hnext, rfl⟩ := Option.map_eq_some_iff.mp h
    obtain ⟨hcall, hstore⟩ := finish_from hf hw.1 hnext
    exact put_from hw hi hstore hcall
  | cancel i =>
    obtain ⟨c, hi, h⟩ := Option.bind_eq_some_iff.mp h
    obtain ⟨c', hc', rfl⟩ := Option.map_eq_some_iff.mp h
    apply put_from hw hi hw.1
    unfold FlightCall.cancel at hc'
    split at hc' <;> cases hc' <;> trivial
  | cleanup key =>
    rw [FlightWorld.act] at h
    split at h
    · cases h
      exact ⟨cleanup_from hw.1, hw.2⟩
    · cases h
  | deletePattern isMatch =>
    cases h
    refine ⟨⟨fun key entry hentry => ?_, hw.1.results⟩, hw.2⟩
    change (if isMatch key then none else w.store.entries key) = some entry at hentry
    split at hentry
    · cases hentry
    · exact hw.1.entries key entry hentry
  | expire gone =>
    cases h
    refine ⟨⟨fun key entry hentry => ?_, hw.1.results⟩, hw.2⟩
    change (if gone key then none else w.store.entries key) = some entry at hentry
    split at hentry
    · cases hentry
    · exact hw.1.entries key entry hentry

theorem answered_from {tr : List (FlightTransition Req Key V Raw E)} (hf : f.Relates R)
    (hrun : Run (FlightWorld.Step f) FlightWorld.initial tr w) (hi : w.calls[i]? = some c)
    (hreturned : c.phase = .returned result) : R c.request result.origin := by
  have hw : FlightWorld.IsFrom f R w := by
    apply hrun.invariant (C := fun _ => True) initial_from (fun _ _ => trivial)
    intro t hstep _ hpre
    have hticked : FlightWorld.IsFrom f R (t.pre.setStore t.pre.store.tick) := ⟨from_same hpre.1 rfl rfl, hpre.2⟩
    exact act_from hf hticked hstep
  have hc := hw.2 i c hi
  rw [FlightCall.IsFrom, hreturned] at hc
  exact hc

end Origins
section Verification
variable {Num : Type} {sha256 : Text → Text} {numerals : Numerals Num} {c d : VerifyCall Num} {key : Text}

structure SameQuestion (c d : VerifyCall Num) : Prop where
  orgId : c.orgId = d.orgId
  aidClaim : c.aidClaim = d.aidClaim
  supportingEvidence : c.supportingEvidence = d.supportingEvidence
  contextFactors : (Value.obj c.contextFactors).Same (.obj d.contextFactors)
  providerPreference : c.providerPreference = d.providerPreference
  timeout : c.timeout = d.timeout
  modelVersion : c.modelVersion = d.modelVersion
  promptVersion : c.promptVersion = d.promptVersion

variable {V Raw : Type} {enabled : Bool} {dumps : V → Option Raw} {loads : Raw → Option V}

theorem sameQuestion_equivalence : Equivalence (@SameQuestion Num) where
  refl _ := ⟨rfl, rfl, rfl, rfl, rfl, rfl, rfl, rfl⟩
  symm h := ⟨h.orgId.symm, h.aidClaim.symm, h.supportingEvidence.symm, h.contextFactors.symm, h.providerPreference.symm,
    h.timeout.symm, h.modelVersion.symm, h.promptVersion.symm⟩
  trans h h' := ⟨h.orgId.trans h'.orgId, h.aidClaim.trans h'.aidClaim, h.supportingEvidence.trans h'.supportingEvidence,
    h.contextFactors.trans h'.contextFactors, h.providerPreference.trans h'.providerPreference,
    h.timeout.trans h'.timeout, h.modelVersion.trans h'.modelVersion, h.promptVersion.trans h'.promptVersion⟩

theorem ordered_timeout_inj {t t' : Option Num} (h : ordered (t.elim .null .num) = ordered (t'.elim .null .num)) : t = t' := by
  cases t with
  | none =>
    cases t' with
    | none => rfl
    | some n => cases h
  | some n =>
    cases t' with
    | none => cases h
    | some n' =>
      cases h
      rfl

theorem ordered_texts_inj {ts ts' : List Text} (h : ordered (.arr (ts.map .str) : Value Num) = ordered (.arr (ts'.map .str))) :
    ts = ts' := by
  simp only [ordered, orderedItems_eq, map_map, Value.arr.injEq] at h
  have hstr : (ordered ∘ Value.str : Text → Value Num) = Value.str := funext fun _ => rfl
  rw [hstr] at h
  apply map_injective_iff.mpr _ h
  intro t t' ht
  exact Value.str.inj ht

theorem ordered_factors_same (h : ordered (.obj c.contextFactors) = ordered (.obj d.contextFactors)) :
    (Value.obj c.contextFactors).Same (.obj d.contextFactors) :=
  (ordered_same c.contextFactors_wf).symm.trans ((congrArg Value.sorted h).trans (ordered_same d.contextFactors_wf))

theorem orderedValues_content (c : VerifyCall Num) : orderedValues c.contentKwargs =
    [("aid_claim".toList, ordered (.str c.aidClaim)), ("context_factors".toList, ordered (.obj c.contextFactors)),
      ("model_version".toList, ordered (.str c.modelVersion)), ("org_id".toList, ordered (.str c.orgId)),
      ("prompt_version".toList, ordered (.str c.promptVersion)),
      ("provider_preference".toList, ordered (.str c.providerPreference)),
      ("supporting_evidence".toList, ordered (.arr (c.supportingEvidence.map .str))),
      ("timeout".toList, ordered (c.timeout.elim .null .num))] := rfl

theorem orderedValues_primary (c : VerifyCall Num) : orderedValues c.primaryKwargs =
    [("aid_claim".toList, ordered (.str c.aidClaim)), ("artifact_tag".toList, ordered (.str c.artifactTag)),
      ("context_factors".toList, ordered (.obj c.contextFactors)),
      ("model_version".toList, ordered (.str c.modelVersion)), ("org_id".toList, ordered (.str c.orgId)),
      ("prompt_version".toList, ordered (.str c.promptVersion)),
      ("provider_preference".toList, ordered (.str c.providerPreference)),
      ("supporting_evidence".toList, ordered (.arr (c.supportingEvidence.map .str))),
      ("timeout".toList, ordered (c.timeout.elim .null .num))] := rfl

theorem sameQuestion_of_content (h : orderedValues c.contentKwargs = orderedValues d.contentKwargs) : SameQuestion c d := by
  simp only [orderedValues_content, cons.injEq, Prod.mk.injEq, true_and, and_true] at h
  obtain ⟨haid, hfactors, hmodel, horg, hprompt, hprovider, hevidence, htimeout⟩ := h
  exact ⟨Value.str.inj horg, Value.str.inj haid, ordered_texts_inj hevidence, ordered_factors_same hfactors,
    Value.str.inj hprovider, ordered_timeout_inj htimeout, Value.str.inj hmodel, Value.str.inj hprompt⟩

theorem sameQuestion_of_primary (h : orderedValues c.primaryKwargs = orderedValues d.primaryKwargs) :
    SameQuestion c d ∧ c.artifactTag = d.artifactTag := by
  simp only [orderedValues_primary, cons.injEq, Prod.mk.injEq, true_and, and_true] at h
  obtain ⟨haid, hartifact, hfactors, hmodel, horg, hprompt, hprovider, hevidence, htimeout⟩ := h
  exact ⟨⟨Value.str.inj horg, Value.str.inj haid, ordered_texts_inj hevidence, ordered_factors_same hfactors,
    Value.str.inj hprovider, ordered_timeout_inj htimeout, Value.str.inj hmodel, Value.str.inj hprompt⟩,
    Value.str.inj hartifact⟩

theorem primary_ne_content : orderedValues c.primaryKwargs ≠ orderedValues d.contentKwargs := by
  intro h
  have hlength := congrArg length h
  rw [orderedValues_primary, orderedValues_content] at hlength
  simp at hlength

def VerifyCall.laterTags (c : VerifyCall Num) : Text :=
  ([("model_version".toList, c.modelVersion), ("org_id".toList, c.orgId), ("prompt_version".toList, c.promptVersion)].filter
    (·.2 ≠ [])).flatMap tagText

theorem tagSegment_content (h : c.contentHash ≠ []) : tagSegment c.contentTags =
    ':' :: ("content_hash".toList ++ '=' :: (sanitizeTagValue c.contentHash ++ c.laterTags)) := by
  have hsorted : sortKeys c.contentTags = [("content_hash".toList, c.contentHash), ("model_version".toList, c.modelVersion),
      ("org_id".toList, c.orgId), ("prompt_version".toList, c.promptVersion)] := rfl
  rw [tagSegment, hsorted, filter_cons_of_pos (by simpa using h), flatMap_cons, tagText, cons_append,
    append_assoc, cons_append]
  rfl

theorem contentKey_update (sha256 : Text → Text) (numerals : Numerals Num) (c : VerifyCall Num) (artifactTag : Text)
    {contentHash : Text} (hne : c.contentHash ≠ []) (hne' : contentHash ≠ [])
    (h : sanitizeTagValue c.contentHash = sanitizeTagValue contentHash) :
    VerifyCall.contentKey { c with artifactTag, contentHash } sha256 numerals = c.contentKey sha256 numerals := by
  have htags : tagSegment (VerifyCall.contentTags { c with artifactTag, contentHash }) = tagSegment c.contentTags := by
    calc
      _ = ':' :: ("content_hash".toList ++ '=' :: (sanitizeTagValue contentHash ++ c.laterTags)) := tagSegment_content hne'
      _ = ':' :: ("content_hash".toList ++ '=' :: (sanitizeTagValue c.contentHash ++ c.laterTags)) := by rw [h]
      _ = tagSegment c.contentTags := (tagSegment_content hne).symm
  have hkwargs : VerifyCall.contentKwargs { c with artifactTag, contentHash } = c.contentKwargs := rfl
  calc
    _ = some (generateKey sha256 numerals "humanitarian_verification" [.str c.service]
        (VerifyCall.contentTags { c with artifactTag, contentHash })
        (VerifyCall.contentKwargs { c with artifactTag, contentHash })) := if_neg hne'
    _ = some (generateKey sha256 numerals "humanitarian_verification" [.str c.service] c.contentTags c.contentKwargs) :=
      congrArg some (generateKey_congr htags hkwargs)
    _ = c.contentKey sha256 numerals := (if_neg hne).symm

theorem sanitize_append_inj {value value' rest rest' : Text} (hrest : ∀ x ∈ rest.head?, x = ':')
    (hrest' : ∀ x ∈ rest'.head?, x = ':') (h : sanitizeTagValue value ++ rest = sanitizeTagValue value' ++ rest') :
    sanitizeTagValue value = sanitizeTagValue value' := by
  have htake : ∀ (value rest : Text), (∀ x ∈ rest.head?, x = ':') →
      (sanitizeTagValue value ++ rest).takeWhile (· ≠ ':') = sanitizeTagValue value := by
    intro value rest hrest
    rw [takeWhile_append_of_pos]
    · cases rest with
      | nil => rw [takeWhile_nil, append_nil]
      | cons x rest =>
        rw [hrest x rfl]
        simp
    · intro x hx
      have hplain := sanitizeTagValue_plain value x hx
      apply decide_eq_true
      rintro rfl
      cases hplain
  rw [← htake value rest hrest, ← htake value' rest' hrest', h]

structure SameKey (c d : VerifyCall Num) : Prop where
  question : SameQuestion c d
  artifacts : c.artifactTag = d.artifactTag ∨ sanitizeTagValue c.contentHash = sanitizeTagValue d.contentHash
  plain : (∀ x ∈ c.contentHash, isTagSeparator x = false) → (∀ x ∈ d.contentHash, isTagSeparator x = false) →
    c.artifactTag = d.artifactTag ∨ c.contentHash = d.contentHash

theorem mem_keys : key ∈ (verifyClaimCached sha256 numerals enabled dumps loads).keys c ↔
      key = c.cacheKey sha256 numerals ∨ c.contentKey sha256 numerals = some key := by
  rw [CachedFunction.keys, mem_cons, Option.mem_toList]
  rfl

theorem contentKey_eq_some (h : c.contentKey sha256 numerals = some key) : c.contentHash ≠ [] ∧
    key = generateKey sha256 numerals "humanitarian_verification" [.str c.service] c.contentTags c.contentKwargs := by
  rw [VerifyCall.contentKey] at h
  split at h
  · cases h
  · rename_i hne
    cases h
    exact ⟨hne, rfl⟩

theorem cacheKey_ne_contentKey (hsha : Function.Injective sha256) (hplain : ∀ t, ':' ∉ sha256 t)
    (hkey : key = c.cacheKey sha256 numerals) (hkey' : d.contentKey sha256 numerals = some key) : False := by
  obtain ⟨-, hdata⟩ := generateKey_inj hsha hplain (hkey.symm.trans (contentKey_eq_some hkey').2)
  exact primary_ne_content (keyData_inj hdata)

theorem same_of_contentKey (hsha : Function.Injective sha256) (hplain : ∀ t, ':' ∉ sha256 t)
    (hkey : c.contentKey sha256 numerals = some key) (hkey' : d.contentKey sha256 numerals = some key) :
    SameQuestion c d ∧ sanitizeTagValue c.contentHash = sanitizeTagValue d.contentHash := by
  obtain ⟨hne, hkey⟩ := contentKey_eq_some hkey
  obtain ⟨hne', hkey'⟩ := contentKey_eq_some hkey'
  obtain ⟨htags, hdata⟩ := generateKey_inj hsha hplain (hkey.symm.trans hkey')
  rw [tagSegment_content hne, tagSegment_content hne'] at htags
  have hhash := (cons.inj (append_cancel_left (cons.inj htags).2)).2
  exact ⟨sameQuestion_of_content (keyData_inj hdata), sanitize_append_inj (tags_head _) (tags_head _) hhash⟩

theorem sameKey_of_mem (hsha : Function.Injective sha256) (hplain : ∀ t, ':' ∉ sha256 t) (hc : key ∈ (verifyClaimCached sha256 numerals enabled dumps loads).keys c)
    (hd : key ∈ (verifyClaimCached sha256 numerals enabled dumps loads).keys d) : SameKey c d := by
  rcases mem_keys.mp hc with hkey | hkey <;> rcases mem_keys.mp hd with hkey' | hkey'
  · obtain ⟨-, hdata⟩ := generateKey_inj hsha hplain (hkey.symm.trans hkey')
    obtain ⟨hquestion, hartifact⟩ := sameQuestion_of_primary (keyData_inj hdata)
    exact ⟨hquestion, .inl hartifact, fun _ _ => .inl hartifact⟩
  · exact (cacheKey_ne_contentKey hsha hplain hkey hkey').elim
  · exact (cacheKey_ne_contentKey hsha hplain hkey' hkey).elim
  · obtain ⟨hquestion, hsanitized⟩ := same_of_contentKey hsha hplain hkey hkey'
    refine ⟨hquestion, .inr hsanitized, fun hc hd => .inr ?_⟩
    rw [← sanitizeTagValue_of_plain hc, ← sanitizeTagValue_of_plain hd, hsanitized]

theorem verifyClaimCached_relates (hsha : Function.Injective sha256) (hplain : ∀ t, ':' ∉ sha256 t)
    (enabled : Bool) (dumps : V → Option Raw) (loads : Raw → Option V) :
    (verifyClaimCached sha256 numerals enabled dumps loads).Relates SameQuestion where
  equivalence := sameQuestion_equivalence
  keys _ _ _ hc hd := (sameKey_of_mem hsha hplain hc hd).question

/-- Calls with a key in common ask the same; and whatever a call is answered with was computed for one that asks the same. -/
theorem keys_isolate (hsha : Function.Injective sha256) (hplain : ∀ t, ':' ∉ sha256 t) (numerals : Numerals Num)
    {V Raw E : Type} (enabled : Bool) (dumps : V → Option Raw) (loads : Raw → Option V) :
    (∀ (c d : VerifyCall Num) (key : Text), key ∈ (verifyClaimCached sha256 numerals enabled dumps loads).keys c →
      key ∈ (verifyClaimCached sha256 numerals enabled dumps loads).keys d → SameKey c d) ∧
    ∀ (tr : List (FlightTransition (VerifyCall Num) Text V Raw E)) (w : FlightWorld (VerifyCall Num) Text V Raw E),
      Run (FlightWorld.Step (verifyClaimCached sha256 numerals enabled dumps loads)) FlightWorld.initial tr w →
      ∀ (i : ℕ) (call : FlightCall (VerifyCall Num) V E) (result : Computed (VerifyCall Num) V), w.calls[i]? = some call →
        call.phase = .returned result → SameQuestion call.request result.origin := by
  refine ⟨fun c d key hc hd => sameKey_of_mem hsha hplain hc hd, fun tr w hrun i call result hi hreturned => ?_⟩
  exact answered_from (verifyClaimCached_relates hsha hplain enabled dumps loads) hrun hi hreturned

end Verification

def hexText (t : Text) : Text := t.flatMap fun c => hex4 (c.toNat / 0x10000) ++ hex4 (c.toNat % 0x10000)

theorem hexText_injective : Function.Injective hexText := by
  intro t
  induction t with
  | nil =>
    intro t' h
    cases t' with
    | nil => rfl
    | cons c t' => cases h
  | cons c t ih =>
    intro t' h
    cases t' with
    | nil => cases h
    | cons c' t' =>
      have hvalid : ∀ c : Char, c.toNat / 0x10000 < 0x10000 := by
        intro c
        have hsize : c.toNat < 0x110000 := by
          rcases c.valid with hlow | ⟨-, hhigh⟩
          · exact hlow.trans (by decide)
          · exact hhigh
        omega
      simp only [hexText, flatMap_cons, append_assoc] at h
      have hhigh := congrArg Json.codeUnit h
      rw [codeUnit_hex4 (hvalid c), codeUnit_hex4 (hvalid c'), Option.some.injEq, Prod.mk.injEq] at hhigh
      have hlow := congrArg Json.codeUnit hhigh.2
      rw [codeUnit_hex4 (Nat.mod_lt _ (by decide)), codeUnit_hex4 (Nat.mod_lt _ (by decide)), Option.some.injEq,
        Prod.mk.injEq] at hlow
      have hchar : c.toNat = c'.toNat := by
        have hhigh := hhigh.1
        have hlow := hlow.1
        omega
      rw [Char.toNat_inj.mp hchar, ih hlow.2]

theorem hex4_plain (n : ℕ) : ':' ∉ hex4 n := by
  have hdigit : ∀ n, Json.hexDigit n ≠ ':' := by
    intro n
    by_cases hn : n < 16
    · interval_cases n <;> decide
    · rw [Json.hexDigit, getD_eq_getElem?_getD, getElem?_eq_none (Nat.le_of_not_lt hn)]
      decide
  simp [hex4, Ne.symm (hdigit _)]

theorem hexText_plain (t : Text) : ':' ∉ hexText t := by
  intro h
  obtain ⟨c, -, hc⟩ := mem_flatMap.mp h
  rcases mem_append.mp hc with hc | hc
  · exact hex4_plain _ hc
  · exact hex4_plain _ hc

def floodClaim (artifactTag contentHash : String) : VerifyCall ℕ where
  service := "service".toList
  aidClaim := "flood".toList
  supportingEvidence := []
  contextFactors := []
  providerPreference := "auto".toList
  timeout := none
  modelVersion := "openai:gpt-4o-mini".toList
  artifactTag := artifactTag.toList
  orgId := "org-alpha".toList
  promptVersion := "v1".toList
  contentHash := contentHash.toList
  contextFactors_wf := Value.wf_empty

def floodText : Text := dumps Numerals.nat (keyData [.str "service".toList] (floodClaim "" "").contentKwargs)

def floodDigest (t : Text) : Text :=
  if t = floodText then "e6f653bdf10ab569a5313eddb7741077ec20550c73443211b71420e8c1fdae3f".toList else 'x' :: hexText t

theorem floodDigest_injective : Function.Injective floodDigest := by
  intro t t' h
  unfold floodDigest at h
  split at h
  · split at h
    · rename_i ht ht'
      rw [ht, ht']
    · cases h
  · split at h
    · cases h
    · exact hexText_injective (cons.inj h).2

theorem floodDigest_plain (t : Text) : ':' ∉ floodDigest t := by
  unfold floodDigest
  split
  · decide
  · intro h
    rcases mem_cons.mp h with h | h
    · cases h
    · exact hexText_plain t h

abbrev floodFunction : CachedFunction (VerifyCall ℕ) Text ℕ ℕ :=
  verifyClaimCached floodDigest Numerals.nat true some some

theorem floodClaim_shares (artifactTag artifactTag' hash hash' : String) (hne : hash.toList ≠ []) (hne' : hash'.toList ≠ [])
    (h : sanitizeTagValue hash.toList = sanitizeTagValue hash'.toList) :
    ∃ key, key ∈ floodFunction.keys (floodClaim artifactTag hash) ∧ key ∈ floodFunction.keys (floodClaim artifactTag' hash') := by
  have hkey := contentKey_update floodDigest Numerals.nat (floodClaim artifactTag hash) artifactTag'.toList hne hne' h
  have hsome : ∃ key, (floodClaim artifactTag hash).contentKey floodDigest Numerals.nat = some key := ⟨_, if_neg hne⟩
  obtain ⟨key, hsome⟩ := hsome
  exact ⟨key, mem_keys.mpr (.inr hsome), mem_keys.mpr (.inr (hkey.trans hsome))⟩

theorem keys_isolate_flood : SameKey (floodClaim "a1" "ab") (floodClaim "a2" "ab") := by
  obtain ⟨key, hkey, hkey'⟩ := floodClaim_shares "a1" "a2" "ab" "ab" (by decide) (by decide) rfl
  exact (keys_isolate floodDigest_injective floodDigest_plain Numerals.nat (E := String) true some some).1 _ _ key hkey hkey'

/-- Hashes that are not plain are merged by the tags, and the artifacts are not compared. -/
theorem sanitized_hashes_collide : ¬ ∀ (c d : VerifyCall ℕ) (key : Text), key ∈ floodFunction.keys c → key ∈ floodFunction.keys d →
    SameQuestion c d ∧ (c.artifactTag = d.artifactTag ∨ c.contentHash = d.contentHash) := by
  intro h
  obtain ⟨key, hkey, hkey'⟩ := floodClaim_shares "a1" "a2" "a*" "a?" (by decide) (by decide) (by decide)
  rcases (h _ _ key hkey hkey').2 with hartifact | hhash
  · exact absurd hartifact (by decide)
  · exact absurd hhash (by decide)

end Soter.AiCache
