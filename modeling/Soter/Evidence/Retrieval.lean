import Soter.Evidence.Queue

/-! A queued piece of evidence stays retrievable whatever happens. That its status is honest, and that the storage keeps one
object of it, holds as long as calls do not act on what another one has overtaken. -/
namespace Soter.Evidence
open Soter.Parties Soter.Runs List EvidencePhase EvidenceWorld

section Statement
variable (encrypted : Buffer)

/-- The encrypted bytes can be had; an item with a storage key is completed; and the storage keeps one object at most, the
one under the key or the one whose key is about to be recorded. -/
structure EvidenceWorld.IsKept (w : EvidenceWorld) : Prop where
  retrievable : (∃ key, w.store.item.storageKey = some key ∧ (key, encrypted) ∈ w.store.objects) ∨
    w.store.item.filePath ≠ none ∧ w.store.staged = some encrypted
  honest : w.store.item.storageKey ≠ none → w.store.item.status = .completed
  single : w.store.objects.length ≤ 1
  recorded : ∀ object ∈ w.store.objects, w.store.item.storageKey = some object.1 ∨
    w.store.item.storageKey = none ∧ ∃ phase ∈ w.calls, phase = .completing object.1

/-- Queued evidence: it is kept at every moment, and an item with a storage key stays completed. -/
structure EvidenceKept (tr : List EvidenceTransition) : Prop where
  kept : ∀ t ∈ tr, t.post.IsKept encrypted
  stays : tr.Pairwise fun t u => t.post.store.item.storageKey ≠ none → u.post.store.item.status = .completed

/-- A status is written while no storage key is recorded, an upload goes through while nothing is stored, and the key of
what was stored is recorded. -/
def EvidencePhase.IsTimely (fails : Option String) (s : EvidenceStore) : EvidencePhase → Prop
  | .requeueing | .marking _ | .failing _ _ => fails = none → s.item.storageKey = none
  | .uploading _ _ => fails = none → s.objects = []
  | .completing _ => fails = none
  | _ => True

instance (fails : Option String) (s : EvidenceStore) : ∀ phase, Decidable (IsTimely fails s phase)
  | .requeueing | .marking _ | .failing _ _ => inferInstanceAs (Decidable (fails = none → s.item.storageKey = none))
  | .uploading _ _ => inferInstanceAs (Decidable (fails = none → s.objects = []))
  | .completing _ => inferInstanceAs (Decidable (fails = none))
  | .retrying _ | .finding | .reading _ | .unlinking | .ended _ => inferInstanceAs (Decidable True)

def InTurn (t : EvidenceTransition) : Prop :=
  match t.label with
  | .advance i fails => ∀ phase, t.pre.calls[i]? = some phase → phase.IsTimely fails t.pre.store
  | .processUpload | .retry _ => True

instance (t : EvidenceTransition) : Decidable (InTurn t) :=
  match t with
  | ⟨pre, .advance i fails, _⟩ =>
    inferInstanceAs (Decidable (∀ phase ∈ pre.calls[i]?, phase.IsTimely fails pre.store))
  | ⟨_, .processUpload, _⟩ | ⟨_, .retry _, _⟩ => inferInstanceAs (Decidable True)

end Statement
section Invariant
variable {encrypted : Buffer} {w w' : EvidenceWorld} {s s' : EvidenceStore} {i k : ℕ} {phase : EvidencePhase}
  {key : StorageKey}

def EvidenceStore.IsFresh (s : EvidenceStore) (name : ℕ) : Prop := ∀ object ∈ s.objects, object.1.name ≠ name

/-- What a call at the place `name` knows, whoever comes in between. -/
def EvidencePhase.Knows (encrypted : Buffer) (s : EvidenceStore) (name : ℕ) : EvidencePhase → Prop
  | .retrying _ | .requeueing | .finding | .marking _ | .reading _ => s.IsFresh name
  | .uploading _ encryptedBuffer => encryptedBuffer = encrypted ∧ s.IsFresh name
  | .completing key => (key, encrypted) ∈ s.objects ∧ key.name = name ∧ s.item.storageKey ≠ some key
  | .unlinking => s.item.storageKey ≠ none
  | .failing _ _ | .ended _ => True

variable (encrypted) in
structure EvidenceStore.IsSafe (s : EvidenceStore) : Prop where
  filePath : s.item.filePath ≠ none
  staged : s.staged = some encrypted ∨ s.staged = none ∧ s.item.storageKey ≠ none
  stored : ∀ key, s.item.storageKey = some key → (key, encrypted) ∈ s.objects
  bytes : ∀ object ∈ s.objects, object.2 = encrypted

variable (encrypted) in
/-- What a turn of the call at the place `name` leads to. -/
structure EvidenceStore.Leads (name : ℕ) (s s' : EvidenceStore) : Prop where
  kept : ∀ object ∈ s.objects, object ∈ s'.objects
  new : ∀ object ∈ s'.objects, object ∈ s.objects ∨ object.1.name = name
  key : s'.item.storageKey = s.item.storageKey ∨ ∃ key, s'.item.storageKey = some key ∧ key.name = name
  safe : s.IsSafe encrypted → s'.IsSafe encrypted

variable {name : ℕ} {item : EvidenceItem} {event : EvidenceEvent} {next : EvidencePhase}

theorem EvidenceStore.Leads.refl (name : ℕ) (s : EvidenceStore) : Leads encrypted name s s :=
  ⟨fun _ h => h, fun _ h => .inl h, .inl rfl, id⟩

theorem EvidenceStore.Leads.storageKey (h : Leads encrypted name s s') (hkey : s.item.storageKey ≠ none) :
    s'.item.storageKey ≠ none := by
  rcases h.key with hsame | ⟨key, hnew, -⟩
  · rw [hsame]
    exact hkey
  · rw [hnew]
    exact Option.some_ne_none key

theorem EvidenceStore.Leads.knows (h : Leads encrypted name s s') (hne : k ≠ name)
    (hknows : phase.Knows encrypted s k) : phase.Knows encrypted s' k := by
  have hfresh : s.IsFresh k → s'.IsFresh k := by
    intro hfresh object hobject hname
    rcases h.new object hobject with hold | hnew
    · exact hfresh object hold hname
    · exact hne (hname.symm.trans hnew)
  cases phase with
  | retrying ownerId | requeueing | finding | marking item | reading item => exact hfresh hknows
  | uploading item encryptedBuffer => exact ⟨hknows.1, hfresh hknows.2⟩
  | completing key =>
    obtain ⟨hobject, hname, hkey⟩ := hknows
    refine ⟨h.kept _ hobject, hname, fun hrecorded => ?_⟩
    rcases h.key with hsame | ⟨key', hnew, hname'⟩
    · exact hkey (hsame.symm.trans hrecorded)
    · cases hnew.symm.trans hrecorded
      exact hne (hname.symm.trans hname')
  | unlinking => exact h.storageKey hknows
  | failing message thrown | ended failure => trivial

theorem leads_of_item (name : ℕ) (hpath : item.filePath = s.item.filePath)
    (hkey : item.storageKey = s.item.storageKey) : EvidenceStore.Leads encrypted name s { s with item := item } where
  kept _ h := h
  new _ h := .inl h
  key := .inl hkey
  safe h := by
    refine ⟨?_, ?_, ?_, h.bytes⟩
    · change item.filePath ≠ none
      rw [hpath]
      exact h.filePath
    · change s.staged = some encrypted ∨ s.staged = none ∧ item.storageKey ≠ none
      rw [hkey]
      exact h.staged
    · intro key hrecorded
      exact h.stored key (hkey.symm.trans hrecorded)

theorem upload_eq (hfresh : s.IsFresh key.name) (data : Buffer) : (s.upload key data).objects = (key, data) :: s.objects := by
  have hkept : s.objects.filter (fun object => object.1 ≠ key) = s.objects := by
    apply filter_eq_self.mpr
    intro object hobject
    refine decide_eq_true fun hsame => hfresh object hobject ?_
    rw [hsame]
  change (key, data) :: s.objects.filter (fun object => object.1 ≠ key) = _
  rw [hkept]

theorem leads_upload (key : StorageKey) (hfresh : s.IsFresh key.name) : EvidenceStore.Leads encrypted key.name s (s.upload key encrypted) where
  kept object hobject := by
    rw [upload_eq hfresh]
    exact mem_cons_of_mem _ hobject
  new object hobject := by
    rw [upload_eq hfresh] at hobject
    rcases mem_cons.mp hobject with rfl | hobject
    · exact .inr rfl
    · exact .inl hobject
  key := .inl rfl
  safe h := by
    refine ⟨h.filePath, h.staged, fun key' hrecorded => ?_, fun object hobject => ?_⟩
    · rw [upload_eq hfresh]
      exact mem_cons_of_mem _ (h.stored key' hrecorded)
    · rw [upload_eq hfresh] at hobject
      rcases mem_cons.mp hobject with rfl | hobject
      · rfl
      · exact h.bytes object hobject

theorem leads_complete (hobject : (key, encrypted) ∈ s.objects) :
    EvidenceStore.Leads encrypted key.name s (s.complete key) where
  kept _ h := h
  new _ h := .inl h
  key := .inr ⟨key, rfl, rfl⟩
  safe h := by
    refine ⟨h.filePath, ?_, fun key' hrecorded => ?_, h.bytes⟩
    · exact h.staged.imp_right fun hgone => ⟨hgone.1, Option.some_ne_none key⟩
    · cases hrecorded
      exact hobject

theorem leads_unlink (hkey : s.item.storageKey ≠ none) (name : ℕ) :
    EvidenceStore.Leads encrypted name s { s with staged := none } where
  kept _ h := h
  new _ h := .inl h
  key := .inl rfl
  safe h := ⟨h.filePath, .inr ⟨rfl, hkey⟩, h.stored, h.bytes⟩

theorem act_leads (fails : Option String) (h : s.IsSafe encrypted) (hknows : phase.Knows encrypted s k) :
    EvidenceStore.Leads encrypted k s (phase.act k fails s).2 ∧
      (phase.act k fails s).1.Knows encrypted (phase.act k fails s).2 k := by
  cases phase with
  | retrying ownerId =>
    cases fails with
    | some e => exact ⟨.refl k s, trivial⟩
    | none =>
      rw [act]
      split
      · exact ⟨.refl k s, trivial⟩
      · split
        · exact ⟨.refl k s, trivial⟩
        · exact ⟨.refl k s, hknows⟩
  | requeueing =>
    cases fails with
    | some e => exact ⟨.refl k s, trivial⟩
    | none => exact ⟨leads_of_item k rfl rfl, hknows⟩
  | finding =>
    cases fails with
    | some e => exact ⟨.refl k s, trivial⟩
    | none =>
      rw [act]
      split
      · exact ⟨.refl k s, trivial⟩
      · exact ⟨.refl k s, hknows⟩
  | marking item =>
    cases fails with
    | some e => exact ⟨.refl k s, trivial⟩
    | none =>
      refine ⟨leads_of_item k rfl rfl, ?_⟩
      rw [act]
      dsimp only
      split
      · trivial
      · exact hknows
  | reading item =>
    cases fails with
    | some e => exact ⟨.refl k s, trivial⟩
    | none =>
      -- a file that is there has the bytes that were staged
      obtain ⟨row, staged, objects⟩ := s
      cases staged with
      | none => exact ⟨.refl k _, trivial⟩
      | some encryptedBuffer =>
        refine ⟨.refl k _, ?_, hknows⟩
        rcases h.staged with hsome | ⟨hgone, -⟩
        · exact Option.some.inj hsome
        · cases hgone
  | uploading item encryptedBuffer =>
    obtain ⟨rfl, hfresh⟩ := hknows
    cases fails with
    | some e => exact ⟨.refl k s, trivial⟩
    | none =>
      have hleads : EvidenceStore.Leads encryptedBuffer k s (s.upload (generateKey item.orgId k) encryptedBuffer) :=
        leads_upload (generateKey item.orgId k) hfresh
      refine ⟨hleads, ?_, rfl, fun hrecorded => ?_⟩
      · exact mem_cons_self
      · exact hfresh _ (h.stored _ hrecorded) rfl
  | completing key =>
    obtain ⟨hobject, rfl, -⟩ := hknows
    cases fails with
    | some e => exact ⟨.refl _ s, trivial⟩
    | none => exact ⟨leads_complete hobject, Option.some_ne_none key⟩
  | unlinking =>
    cases fails with
    | some e => exact ⟨.refl k s, trivial⟩
    | none => exact ⟨leads_unlink hknows k, trivial⟩
  | failing message thrown =>
    cases fails with
    | some e => exact ⟨.refl k s, trivial⟩
    | none => exact ⟨leads_of_item k rfl rfl, trivial⟩
  | ended failure => exact ⟨.refl k s, trivial⟩

variable (encrypted) in
/-- The store is safe, every call knows what it has to, and no object is of a call that is yet to come. -/
structure EvidenceWorld.IsSound (w : EvidenceWorld) : Prop where
  safe : w.store.IsSafe encrypted
  knows : ∀ (k : ℕ) (phase : EvidencePhase), w.calls[k]? = some phase → phase.Knows encrypted w.store k
  early : ∀ object ∈ w.store.objects, object.1.name < w.calls.length

theorem sound_join (h : w.IsSound encrypted) (hphase : ∀ k, w.store.IsFresh k → phase.Knows encrypted w.store k) :
    IsSound encrypted (w.join phase) where
  safe := h.safe
  knows := Party.forall_join h.knows (hphase _ fun object hobject => (h.early object hobject).ne)
  early object hobject := by
    have hlt := h.early object hobject
    change _ < (w.calls ++ [phase]).length
    rw [length_append]
    omega

theorem step_sound_queue (hstep : w.Step event w') (h : w.IsSound encrypted) :
    w'.IsSound encrypted ∧ (w.store.item.storageKey ≠ none → w'.store.item.storageKey ≠ none) := by
  cases event with
  | processUpload =>
    cases hstep
    exact ⟨sound_join h fun _ hfresh => hfresh, id⟩
  | retry ownerId =>
    cases hstep
    exact ⟨sound_join h fun _ hfresh => hfresh, id⟩
  | advance i fails =>
    obtain ⟨phase, hi, rfl⟩ := Option.map_eq_some_iff.mp hstep
    obtain ⟨hleads, hknows⟩ := act_leads fails h.safe (h.knows i phase hi)
    refine ⟨⟨hleads.safe h.safe, ?_, fun object hobject => ?_⟩, hleads.storageKey⟩
    · exact Party.forall_put hi h.knows hknows fun k d hki hd => hleads.knows hki hd
    · rw [Party.put_length]
      rcases hleads.new object hobject with hold | hname
      · exact h.early object hold
      · rw [hname]
        exact (List.getElem?_eq_some_iff.mp hi).1

theorem retrievable_of_safe (h : s.IsSafe encrypted) : (∃ key, s.item.storageKey = some key ∧ (key, encrypted) ∈ s.objects) ∨
      s.item.filePath ≠ none ∧ s.staged = some encrypted := by
  rcases h.staged with hstaged | ⟨-, hkey⟩
  · exact .inr ⟨h.filePath, hstaged⟩
  · obtain ⟨key, hkey⟩ := Option.ne_none_iff_exists'.mp hkey
    exact .inl ⟨key, hkey, h.stored key hkey⟩

theorem isKept_of_calls {calls : List EvidencePhase} (hkept : w.IsKept encrypted)
    (hcalls : ∀ key, (∃ phase ∈ w.calls, phase = .completing key) → ∃ phase ∈ calls, phase = .completing key) :
    IsKept encrypted { w with calls := calls } where
  retrievable := hkept.retrievable
  honest := hkept.honest
  single := hkept.single
  recorded object hobject := (hkept.recorded object hobject).imp_right fun h => ⟨h.1, hcalls object.1 h.2⟩

theorem completing_put {s' : EvidenceStore} (hi : w.calls[i]? = some phase)
    (hphase : ∀ key, phase ≠ .completing key) (h : ∃ d ∈ w.calls, d = completing key) :
    ∃ d ∈ (w.put i (next, s')).calls, d = completing key := by
  obtain ⟨d, hd, rfl⟩ := h
  obtain ⟨j, hj⟩ := mem_iff_getElem?.mp hd
  by_cases hji : j = i
  · subst hji
    exact absurd (Option.some.inj (hi.symm.trans hj)) (hphase key)
  · exact ⟨_, mem_of_getElem? ((Party.get_put_ne hji).trans hj), rfl⟩

theorem isKept_put_iff (hkept : w.IsKept encrypted) (hi : w.calls[i]? = some phase) (hphase : ∀ key, phase ≠ .completing key)
    (hpath : item.filePath = w.store.item.filePath) (hkey : item.storageKey = w.store.item.storageKey) :
    IsKept encrypted (w.put i (next, { w.store with item := item })) ↔
      (item.storageKey ≠ none → item.status = .completed) := by
  constructor
  · intro h
    exact h.honest
  · intro hhonest
    refine ⟨?_, hhonest, hkept.single, fun object hobject => ?_⟩
    · change (∃ key, item.storageKey = some key ∧ _) ∨ item.filePath ≠ none ∧ _
      rw [hkey, hpath]
      exact hkept.retrievable
    · change item.storageKey = _ ∨ item.storageKey = none ∧ _
      rw [hkey]
      exact (hkept.recorded object hobject).imp_right fun h => ⟨h.1, completing_put hi hphase h.2⟩

theorem isKept_stays (hkept : w.IsKept encrypted) (hi : w.calls[i]? = some phase)
    (hphase : ∀ key, phase ≠ .completing key) : IsKept encrypted (w.put i (next, w.store)) :=
  (isKept_put_iff hkept hi hphase rfl rfl).mpr hkept.honest

theorem isKept_status_iff (item : EvidenceItem) (hkept : w.IsKept encrypted)
    (hi : w.calls[i]? = some phase) (hphase : ∀ key, phase ≠ .completing key)
    (hpath : item.filePath = w.store.item.filePath) (hkey : item.storageKey = w.store.item.storageKey)
    (hstatus : item.status ≠ .completed) :
    IsKept encrypted (w.put i (next, { w.store with item := item })) ↔ w.store.item.storageKey = none := by
  rw [isKept_put_iff hkept hi hphase hpath hkey, hkey]
  constructor
  · intro h
    by_contra hne
    exact hstatus (h hne)
  · intro hnone hne
    exact absurd hnone hne

theorem uploading_iff (h : w.IsSound encrypted) (hkept : w.IsKept encrypted)
    (hi : w.calls[i]? = some (.uploading item encrypted)) :
    IsKept encrypted (w.put i (.completing (generateKey item.orgId i),
      w.store.upload (generateKey item.orgId i) encrypted)) ↔ w.store.objects = [] := by
  have hfresh : w.store.IsFresh i := (h.knows i _ hi).2
  have hobjects : (w.store.upload (generateKey item.orgId i) encrypted).objects =
      (generateKey item.orgId i, encrypted) :: w.store.objects := upload_eq hfresh encrypted
  constructor
  · intro hafter
    have hsingle := hafter.single
    rw [Party.put_store, hobjects, length_cons] at hsingle
    exact length_eq_zero_iff.mp (by omega)
  · intro hnone
    -- nothing is stored, and so no key is on record
    have hkey : w.store.item.storageKey = none := by
      by_contra hne
      obtain ⟨key, hkey⟩ := Option.ne_none_iff_exists'.mp hne
      have hstored := h.safe.stored key hkey
      rw [hnone] at hstored
      cases hstored
    rw [hnone] at hobjects
    refine ⟨?_, hkept.honest, ?_, fun object hobject => .inr ⟨hkey, _, mem_of_getElem? (Party.get_put hi), ?_⟩⟩
    · refine hkept.retrievable.imp_left fun hthere => ?_
      obtain ⟨key, hrecorded, -⟩ := hthere
      cases hkey.symm.trans hrecorded
    · exact (congrArg length hobjects).le
    · have hmem : object ∈ [(generateKey item.orgId i, encrypted)] := hobjects ▸ hobject
      rw [mem_singleton.mp hmem]

theorem completing_kept (h : w.IsSound encrypted) (hkept : w.IsKept encrypted) (hi : w.calls[i]? = some (.completing key)) :
    IsKept encrypted (w.put i (.unlinking, w.store.complete key)) := by
  obtain ⟨hobject, -, -⟩ := h.knows i _ hi
  refine ⟨.inl ⟨key, rfl, hobject⟩, fun _ => rfl, hkept.single, fun object hobject' => .inl ?_⟩
  -- there is one object only
  obtain ⟨only, honly⟩ : ∃ only, w.store.objects = [only] := by
    have hpos : 0 < w.store.objects.length := length_pos_of_mem hobject
    exact length_eq_one_iff.mp (le_antisymm hkept.single hpos)
  have hmem : object ∈ w.store.objects := hobject'
  rw [honly] at hobject hmem
  rw [mem_singleton.mp hmem, ← mem_singleton.mp hobject]
  rfl

theorem completing_lost (h : w.IsSound encrypted) (hi : w.calls[i]? = some (.completing key))
    (hnext : ∀ key, next ≠ .completing key) : ¬ IsKept encrypted (w.put i (next, w.store)) := by
  intro hafter
  obtain ⟨hobject, hname, hkey⟩ := h.knows i _ hi
  rcases hafter.recorded _ hobject with hrecorded | ⟨-, d, hd, hphase⟩
  · exact hkey hrecorded
  · subst hphase
    obtain ⟨j, hj⟩ := mem_iff_getElem?.mp hd
    rcases Party.put_cases hi hj with ⟨-, hsame⟩ | ⟨hji, hj⟩
    · exact hnext key hsame.symm
    · exact hji ((h.knows j _ hj).2.1.symm.trans hname)

theorem step_kept_iff (hstep : w.Step event w') (h : w.IsSound encrypted)
    (hkept : w.IsKept encrypted) : w'.IsKept encrypted ↔ InTurn ⟨w, event, w'⟩ := by
  cases event with
  | processUpload =>
    cases hstep
    refine iff_of_true (isKept_of_calls hkept fun key ⟨d, hd, hphase⟩ => ⟨d, ?_, hphase⟩) trivial
    exact mem_append_left _ hd
  | retry ownerId =>
    cases hstep
    refine iff_of_true (isKept_of_calls hkept fun key ⟨d, hd, hphase⟩ => ⟨d, ?_, hphase⟩) trivial
    exact mem_append_left _ hd
  | advance i fails =>
    obtain ⟨phase, hi, rfl⟩ := Option.map_eq_some_iff.mp hstep
    have hturn : InTurn ⟨w, .advance i fails, w.put i (phase.act i fails w.store)⟩ ↔ phase.IsTimely fails w.store := by
      constructor
      · intro hall
        exact hall phase hi
      · intro hadmits phase' hphase'
        rw [← Option.some.inj (hi.symm.trans hphase')]
        exact hadmits
    rw [hturn]
    have hadmits : w.store.item.storageKey = none ↔ ((none : Option String) = none → w.store.item.storageKey = none) :=
      ⟨fun hnone _ => hnone, fun hall => hall rfl⟩
    cases phase with
    | retrying ownerId =>
      have hstays : (retrying ownerId).act i fails w.store = (((retrying ownerId).act i fails w.store).1, w.store) := by
        cases fails with
        | some e => rfl
        | none =>
          rw [act]
          split
          · rfl
          · split <;> rfl
      rw [hstays]
      exact iff_of_true (isKept_stays hkept hi nofun) trivial
    | requeueing =>
      cases fails with
      | some e => exact iff_of_true (isKept_stays hkept hi nofun) nofun
      | none =>
        refine Iff.trans ?_ hadmits
        exact isKept_status_iff { w.store.item with status := .pending } hkept hi nofun rfl rfl nofun
    | finding =>
      have hstays : finding.act i fails w.store = ((finding.act i fails w.store).1, w.store) := by
        cases fails with
        | some e => rfl
        | none =>
          rw [act]
          split <;> rfl
      rw [hstays]
      exact iff_of_true (isKept_stays hkept hi nofun) trivial
    | marking item =>
      cases fails with
      | some e => exact iff_of_true (isKept_stays hkept hi nofun) nofun
      | none =>
        refine Iff.trans ?_ hadmits
        exact isKept_status_iff { w.store.item with status := .uploading } hkept hi nofun rfl rfl nofun
    | reading item =>
      have hstays : (reading item).act i fails w.store = (((reading item).act i fails w.store).1, w.store) := by
        obtain ⟨⟨row, staged, objects⟩, calls⟩ := w
        cases fails with
        | some e => rfl
        | none => cases staged <;> rfl
      rw [hstays]
      exact iff_of_true (isKept_stays hkept hi nofun) trivial
    | uploading item encryptedBuffer =>
      have hbytes : encryptedBuffer = encrypted := (h.knows i _ hi).1
      subst hbytes
      cases fails with
      | some e => exact iff_of_true (isKept_stays hkept hi nofun) nofun
      | none => exact (uploading_iff h hkept hi).trans ⟨fun hnone _ => hnone, fun hall => hall rfl⟩
    | completing key =>
      cases fails with
      | some e => exact iff_of_false (completing_lost h hi nofun) nofun
      | none => exact iff_of_true (completing_kept h hkept hi) rfl
    | unlinking =>
      cases fails with
      | some e => exact iff_of_true (isKept_stays hkept hi nofun) trivial
      | none =>
        refine iff_of_true ⟨?_, hkept.honest, hkept.single, fun object hobject => ?_⟩ trivial
        · have hkey : w.store.item.storageKey ≠ none := h.knows i _ hi
          exact retrievable_of_safe ((leads_unlink hkey i).safe h.safe)
        · exact (hkept.recorded object hobject).imp_right fun hthere =>
            ⟨hthere.1, completing_put hi nofun hthere.2⟩
    | failing message thrown =>
      cases fails with
      | some e => exact iff_of_true (isKept_stays hkept hi nofun) nofun
      | none =>
        refine Iff.trans ?_ hadmits
        exact isKept_status_iff (w.store.fail message).item hkept hi nofun rfl rfl nofun
    | ended failure => exact iff_of_true (isKept_stays hkept hi nofun) trivial

end Invariant
section Runs
variable {encrypted : Buffer} {w : EvidenceWorld} {tr : List EvidenceTransition} {ownerId stagingPath : String}
  {orgId : Option String}

def EvidenceWorld.queued (ownerId : String) (orgId : Option String) (stagingPath : String) (encrypted : Buffer) :
    EvidenceWorld := { store := .queued ownerId orgId stagingPath encrypted, calls := [] }

theorem sound_queued : IsSound encrypted (.queued ownerId orgId stagingPath encrypted) where
  safe := ⟨Option.some_ne_none _, .inl rfl, fun _ h => (by cases h), fun _ h => absurd h not_mem_nil⟩
  knows _ _ h := by cases h
  early _ h := absurd h not_mem_nil

theorem kept_queued : IsKept encrypted (.queued ownerId orgId stagingPath encrypted) where
  retrievable := .inr ⟨Option.some_ne_none _, rfl⟩
  honest h := absurd rfl h
  single := Nat.zero_le _
  recorded _ h := absurd h not_mem_nil

/-- Queued evidence is kept in a run exactly when no call acts on what another one has overtaken: none writes a status once a
storage key is recorded, none uploads once something is stored, and the key of what was stored is recorded. -/
theorem evidenceKept_iff (hrun : Run Step (.queued ownerId orgId stagingPath encrypted) tr w) :
    EvidenceKept encrypted tr ↔ ∀ t ∈ tr, InTurn t := by
  have hsound : ∀ t ∈ tr, t.pre.IsSound encrypted ∧ t.post.IsSound encrypted := fun t ht =>
    hrun.invariant_at (C := fun _ => True) sound_queued (fun _ _ => trivial)
      (fun _ hstep _ hpre => (step_sound_queue hstep hpre).1) ht
  have hiff : (∀ t ∈ tr, t.post.IsKept encrypted) ↔ ∀ t ∈ tr, InTurn t :=
    hrun.forall_post_iff kept_queued fun t ht hpre =>
      step_kept_iff (hrun.step_of_mem ht) (hsound t ht).1 hpre
  constructor
  · intro h
    exact hiff.mp h.kept
  · intro hturn
    have hkept := hiff.mpr hturn
    refine ⟨hkept, ?_⟩
    -- a storage key is never taken away
    let R (a b : EvidenceWorld) : Prop := a.store.item.storageKey ≠ none → b.store.item.storageKey ≠ none
    have hpairs : tr.Pairwise fun t u => R t.post u.post :=
      hrun.pairwise_post (R := R) (fun _ h => h) (fun _ _ _ hab hbc h => hbc (hab h)) fun t ht =>
        (step_sound_queue (hrun.step_of_mem ht) (hsound t ht).1).2
    exact hpairs.imp_of_mem fun _ hu hR hkey => (hkept _ hu).honest (hR hkey)

def letter : EvidenceWorld := .queued "owner" none "uploads/evidence/letter.enc" [1, 2, 3]

/-- The upload that begins when the letter is queued, and a retry of its owner, have their turns in this order. -/
def uploadingTwice (turns : List ℕ) : List EvidenceTransition × EvidenceWorld :=
  play take letter ([.processUpload, .retry "owner"] ++ turns.map fun i => .advance i none)

theorem uploadingTwice_run (turns : List ℕ) :
    Run Step letter (uploadingTwice turns).1 (uploadingTwice turns).2 :=
  play_run (fun _ _ _ h => h) _ _

theorem evidenceKept_turns : EvidenceKept [1, 2, 3] (uploadingTwice [0, 0, 0, 0, 0, 0, 1]).1 :=
  (evidenceKept_iff (uploadingTwice_run _)).mpr (by decide +kernel)

theorem retry_fails_completed : ¬ EvidenceKept [1, 2, 3] (uploadingTwice [0, 0, 0, 0, 1, 1, 1, 1, 0, 0, 1, 1]).1 := by
  intro h
  have hfailed : ∃ t ∈ (uploadingTwice [0, 0, 0, 0, 1, 1, 1, 1, 0, 0, 1, 1]).1,
      t.post.store.item.storageKey ≠ none ∧ t.post.store.item.status = .failed := by decide +kernel
  obtain ⟨t, ht, hkey, hstatus⟩ := hfailed
  have hcompleted := (h.kept t ht).honest hkey
  rw [hstatus] at hcompleted
  cases hcompleted

end Runs
end Soter.Evidence
