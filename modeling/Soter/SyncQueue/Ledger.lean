import Soter.SyncQueue.Queue

/-! What the offline queue keeps about its actions, whatever is done to it: how often each has been attempted, that what waits has
not come to an end, and that no two submissions wait under one key. -/
namespace Soter.SyncQueue

open List QueuedSyncAction QueueStore

variable {K : Type}
section Notions

def QueueStore.attempted (s : QueueStore K) : Option (QueuedSyncAction K) :=
  s.flush.bind fun f => match f.phase with
    | .attempting action => some action
    | .saving _ => none

def QueuedSyncAction.SharesKey (a b : QueuedSyncAction K) : Prop := a.isClaimSubmission = true ∧ a.payload = b.payload

def IsWaitingNext (next : Option (QueuedSyncAction K × List (QueuedSyncAction K))) : Prop := ∀ p ∈ next, p.1.isWaiting = true

def QueueStore.CanRequeue (s : QueueStore K) (id : ℕ) : Prop :=
  ∀ a ∈ s.items, a.id = id → ∀ b ∈ s.items, b.isWaiting = true → a.SharesKey b → b.id = id

variable [DecidableEq K]

instance (a b : QueuedSyncAction K) : Decidable (a.SharesKey b) := inferInstanceAs (Decidable (_ ∧ _))

instance (next : Option (QueuedSyncAction K × List (QueuedSyncAction K))) : Decidable (IsWaitingNext next) :=
  inferInstanceAs (Decidable (∀ _ ∈ next, _))

instance (s : QueueStore K) (id : ℕ) : Decidable (s.CanRequeue id) := inferInstanceAs (Decidable (∀ _ ∈ _, _))

end Notions

def QueueStore.underWay (s : QueueStore K) (id : ℕ) : ℕ := if s.attempted.any (·.id = id) then 1 else 0

structure QueueStore.Allows (s : QueueStore K) (a : QueuedSyncAction K) : Prop where
  issued : a.id < s.issued
  retries : 0 < a.maxRetries
  bounded : s.executions a.id ≤ a.maxRetries
  waiting : a.isWaiting = true → s.finished a.id = false ∧ a.retryCount < a.maxRetries ∧
    s.executions a.id ≤ a.retryCount + s.underWay a.id

structure QueueStore.IsGood (s : QueueStore K) (l : List (QueuedSyncAction K)) : Prop where
  allows : ∀ a ∈ l, s.Allows a
  nodup : (l.map (·.id)).Nodup
  unique : ∀ a ∈ l, ∀ b ∈ l, a.isWaiting = true → b.isWaiting = true → a.SharesKey b → a.id = b.id

structure FlushRun.IsSound (s : QueueStore K) (f : FlushRun K) : Prop where
  good : s.IsGood f.items
  remaining : ∀ a ∈ f.remaining, a ∈ f.items
  nodup : (f.remaining.map (·.id)).Nodup
  attempting : ∀ a, f.phase = .attempting a → a ∈ f.items ∧ a.isWaiting = true ∧ ∀ b ∈ f.remaining, b.id ≠ a.id

structure QueueStore.IsSound (s : QueueStore K) : Prop where
  fresh : ∀ id, s.issued ≤ id → s.executions id = 0 ∧ s.finished id = false
  good : s.IsGood s.items
  marked : ∀ a ∈ s.items, a.isWaiting = false → s.finished a.id = true
  flush : ∀ f, s.flush = some f → f.IsSound s
  /-- Before the first hydration there is nothing but the storage. -/
  closed : s.hydrated = false → s.items = [] ∧ s.writes = [] ∧ s.flush = none ∧ s.IsGood s.storage
  stored : s.hydrated = true → s.writes.getLast?.getD s.storage = s.items

section Lists
variable {s s' : QueueStore K} {a b : QueuedSyncAction K} {l l' : List (QueuedSyncAction K)} {id : ℕ}

theorem QueuedSyncAction.SharesKey.symm (h : a.SharesKey b) : b.SharesKey a := by
  refine ⟨?_, h.2.symm⟩
  rw [isClaimSubmission, ← h.2]
  exact h.1

theorem QueueStore.Allows.mono (h : s.Allows a) (hissued : s.issued ≤ s'.issued) (hexecutions : s'.executions a.id ≤ s.executions a.id)
    (hfinished : a.isWaiting = true → s.finished a.id = false → s'.finished a.id = false)
    (hunderWay : s'.executions a.id ≠ 0 → s.underWay a.id ≤ s'.underWay a.id) : s'.Allows a where
  issued := h.issued.trans_le hissued
  retries := h.retries
  bounded := hexecutions.trans h.bounded
  waiting hwaiting := by
    obtain ⟨hfree, hcount, hexec⟩ := h.waiting hwaiting
    refine ⟨hfinished hwaiting hfree, hcount, ?_⟩
    by_cases hzero : s'.executions a.id = 0
    · omega
    · have hunder := hunderWay hzero
      omega

theorem QueueStore.Allows.congr (h : s.Allows a)
    (hsame : s'.issued = s.issued ∧ s'.executions = s.executions ∧ s'.finished = s.finished ∧ s'.flush = s.flush) : s'.Allows a := by
  obtain ⟨hissued, hexecutions, hfinished, hflush⟩ := hsame
  apply h.mono hissued.ge (by rw [hexecutions]) (fun _ hfree => by rwa [hfinished])
  intro _
  rw [underWay, underWay, attempted, attempted, hflush]

theorem QueueStore.IsGood.mono (h : s.IsGood l) (hallows : ∀ a ∈ l, s.Allows a → s'.Allows a) : s'.IsGood l :=
  ⟨fun a ha => hallows a ha (h.allows a ha), h.nodup, h.unique⟩

theorem QueueStore.IsGood.sublist (h : s.IsGood l) (hsub : l'.Sublist l) : s.IsGood l' where
  allows a ha := h.allows a (hsub.subset ha)
  nodup := (hsub.map (·.id)).nodup h.nodup
  unique a ha b hb := h.unique a (hsub.subset ha) b (hsub.subset hb)

theorem QueueStore.IsGood.eq_of_id (h : s.IsGood l) (ha : a ∈ l) (hb : b ∈ l) (hid : a.id = b.id) : a = b :=
  inj_on_of_nodup_map h.nodup ha hb hid

theorem QueueStore.IsGood.pairwise (h : s.IsGood l) : l.Pairwise fun a b => a.isWaiting = true → b.isWaiting = true → ¬ a.SharesKey b := by
  have hdistinct : l.Pairwise fun a b => a.id ≠ b.id := pairwise_map.mp h.nodup
  apply hdistinct.imp_of_mem
  intro a b ha hb hne hwa hwb hshares
  exact hne (h.unique a ha b hb hwa hwb hshares)

theorem QueueStore.IsGood.concat (h : s.IsGood l) (ha : s.Allows a) (hnew : ∀ b ∈ l, b.id ≠ a.id)
    (halone : a.isWaiting = true → ∀ b ∈ l, b.isWaiting = true → ¬ a.SharesKey b) : s.IsGood (l ++ [a]) where
  allows b hb := by
    rcases mem_append.mp hb with hb | hb
    · exact h.allows b hb
    · rw [mem_singleton.mp hb]
      exact ha
  nodup := by
    rw [map_append, map_singleton, nodup_append]
    refine ⟨h.nodup, nodup_singleton _, ?_⟩
    rintro _ hid _ hid' rfl
    obtain ⟨b, hb, rfl⟩ := mem_map.mp hid
    exact hnew b hb (mem_singleton.mp hid')
  unique b hb c hc hwb hwc hshares := by
    rcases mem_append.mp hb with hb | hb
    · rcases mem_append.mp hc with hc | hc
      · exact h.unique b hb c hc hwb hwc hshares
      · rw [mem_singleton.mp hc] at hwc hshares
        exact absurd hshares.symm (halone hwc b hb hwb)
    · rw [mem_singleton.mp hb] at hwb hshares ⊢
      rcases mem_append.mp hc with hc | hc
      · exact absurd hshares (halone hwb c hc hwc)
      · rw [mem_singleton.mp hc]

theorem QueueStore.IsGood.replace {g : QueuedSyncAction K → QueuedSyncAction K} (h : s.IsGood l) (hid : ∀ a, (g a).id = a.id)
    (hpayload : ∀ a, (g a).payload = a.payload) (hothers : ∀ a ∈ l, a.id ≠ id → s'.Allows a)
    (hreplaced : ∀ a ∈ l, a.id = id → s'.Allows (g a))
    (halone : ∀ a ∈ l, a.id = id → (g a).isWaiting = true → ∀ b ∈ l, b.isWaiting = true → a.SharesKey b → b.id = id) :
    s'.IsGood (l.map fun item => if item.id = id then g item else item) where
  allows a ha := by
    obtain ⟨item, hitem, rfl⟩ := mem_map.mp ha
    split
    · rename_i heq
      exact hreplaced item hitem heq
    · rename_i hne
      exact hothers item hitem hne
  nodup := by
    have hsame : (l.map fun item => if item.id = id then g item else item).map (·.id) = l.map (·.id) := by
      rw [map_map]
      apply map_congr_left
      intro item _
      show (if item.id = id then g item else item).id = item.id
      split
      · exact hid item
      · rfl
    rw [hsame]
    exact h.nodup
  unique a ha b hb hwa hwb hshares := by
    obtain ⟨item, hitem, rfl⟩ := mem_map.mp ha
    obtain ⟨other, hother, rfl⟩ := mem_map.mp hb
    have hshares' : item.SharesKey other := by
      obtain ⟨hclaim, hsame⟩ := hshares
      have hkeeps : ∀ c : QueuedSyncAction K, (if c.id = id then g c else c).payload = c.payload := by
        intro c
        split
        · exact hpayload c
        · rfl
      rw [isClaimSubmission, hkeeps] at hclaim
      rw [hkeeps, hkeeps] at hsame
      exact ⟨hclaim, hsame⟩
    by_cases heq : item.id = id
    · by_cases heq' : other.id = id
      · rw [if_pos heq, if_pos heq', hid, hid, heq, heq']
      · rw [if_pos heq] at hwa
        rw [if_neg heq'] at hwb
        exact absurd (halone item hitem heq hwa other hother hwb hshares') heq'
    · rw [if_neg heq] at hwa ⊢
      by_cases heq' : other.id = id
      · rw [if_pos heq'] at hwb
        exact absurd (halone other hother heq' hwb item hitem hwa hshares'.symm) heq
      · rw [if_neg heq'] at hwb ⊢
        exact h.unique item hitem other hother hwa hwb hshares'

variable {f : FlushRun K}

variable {request : SyncActionRequest K} {options : FlushOptions} {rest : List (QueuedSyncAction K)}

theorem FlushRun.IsSound.mono (hf : f.IsSound s) (hallows : ∀ a ∈ f.items, s.Allows a → s'.Allows a) : f.IsSound s' :=
  ⟨hf.good.mono hallows, hf.remaining, hf.nodup, hf.attempting⟩

theorem waiting_of_flush (hs : s.IsSound) (hf : s.flush = some f) (ha : a ∈ f.items) (hwa : a.isWaiting = true) (hb : b ∈ s.items)
    (hid : b.id = a.id) : b.isWaiting = true := by
  by_contra hwb
  have hfinished := hs.marked b hb (by simpa using hwb)
  have hfree := (((hs.flush f hf).good.allows a ha).waiting hwa).1
  rw [hid, hfree] at hfinished
  cases hfinished

theorem finished_setItems (hfree : s.finished a.id = false) (hwaits : ∀ b ∈ l, b.id = a.id → b.isWaiting = true) :
    (s.setItems l).finished a.id = false := by
  show (s.finished a.id || _) = false
  rw [hfree, Bool.false_or, any_eq_false]
  intro b hb
  by_cases hid : b.id = a.id
  · simp [hwaits b hb hid]
  · simp [hid]

theorem allows_setItems (h : s.Allows a) (hwaits : a.isWaiting = true → ∀ b ∈ l, b.id = a.id → b.isWaiting = true) :
    (s.setItems l).Allows a :=
  h.mono le_rfl le_rfl (fun hwa hfree => finished_setItems hfree (hwaits hwa)) fun _ => le_rfl

theorem good_setItems (h : s.IsGood l) : (s.setItems l).IsGood l :=
  h.mono fun a ha hallows => allows_setItems hallows fun hwa b hb hid => by
    rw [h.eq_of_id hb ha hid]
    exact hwa

theorem fresh_setItems (hfresh : ∀ id, s.issued ≤ id → s.executions id = 0 ∧ s.finished id = false) (hl : s.IsGood l) :
    ∀ id, s.issued ≤ id → s.executions id = 0 ∧ (s.setItems l).finished id = false := by
  intro id hid
  obtain ⟨hzero, hfree⟩ := hfresh id hid
  refine ⟨hzero, ?_⟩
  show (s.finished id || _) = false
  rw [hfree, Bool.false_or, any_eq_false]
  intro b hb
  have hlt := (hl.allows b hb).issued
  have hne : b.id ≠ id := by omega
  simp [hne]

theorem marked_setItems : ∀ a ∈ l, a.isWaiting = false → (s.setItems l).finished a.id = true := by
  intro a ha hwa
  show (s.finished a.id || _) = true
  rw [Bool.or_eq_true]
  refine .inr (any_eq_true.mpr ⟨a, ha, ?_⟩)
  simp [hwa]

theorem replaceItems_sound (hfresh : ∀ id, s.issued ≤ id → s.executions id = 0 ∧ s.finished id = false) (hgood : s.IsGood l)
    (hflush : ∀ f, s.flush = some f → f.IsSound s) (hhydrated : s.hydrated = true)
    (hwaits : ∀ f, s.flush = some f → ∀ a ∈ f.items, a.isWaiting = true → ∀ b ∈ l, b.id = a.id → b.isWaiting = true) :
    (s.replaceItems l).IsSound where
  fresh := fresh_setItems hfresh hgood
  good := (good_setItems hgood).mono fun a _ ha => ha.congr ⟨rfl, rfl, rfl, rfl⟩
  marked := marked_setItems
  flush f hf := (hflush f hf).mono fun a ha hallows =>
    (allows_setItems hallows (hwaits f hf a ha)).congr ⟨rfl, rfl, rfl, rfl⟩
  closed h := by
    rw [show s.hydrated = false from h] at hhydrated
    cases hhydrated
  stored _ := by
    show ((s.writes ++ [l]).getLast?).getD s.storage = l
    rw [getLast?_concat, Option.getD_some]

theorem hydrate_sound (hs : s.IsSound) {raw : List (QueuedSyncAction K)} (hclosed : s.hydrated = false → raw = s.storage)
    (hadmits : s.hydrated = true → raw = s.items) : (s.hydrate raw).IsSound := by
  have hgood : s.IsGood raw := by
    cases h : s.hydrated with
    | false =>
      rw [hclosed h]
      exact (hs.closed h).2.2.2
    | true =>
      rw [hadmits h]
      exact hs.good
  have hflush : ∀ f, s.flush = some f → ∀ a ∈ f.items, a.isWaiting = true → ∀ b ∈ raw, b.id = a.id → b.isWaiting = true := by
    intro f hf a ha hwa b hb hid
    cases h : s.hydrated with
    | false =>
      rw [(hs.closed h).2.2.1] at hf
      cases hf
    | true =>
      rw [hadmits h] at hb
      exact waiting_of_flush hs hf ha hwa hb hid
  refine ⟨fresh_setItems hs.fresh hgood, (good_setItems hgood).mono fun a _ ha => ha.congr ⟨rfl, rfl, rfl, rfl⟩, marked_setItems,
    ?_, nofun, fun _ => ?_⟩
  · intro f hf
    exact (hs.flush f hf).mono fun a ha hallows =>
      (allows_setItems hallows (hflush f hf a ha)).congr ⟨rfl, rfl, rfl, rfl⟩
  · show s.writes.getLast?.getD s.storage = raw
    cases h : s.hydrated with
    | false =>
      rw [(hs.closed h).2.1, hclosed h]
      rfl
    | true =>
      rw [hadmits h]
      exact hs.stored h

theorem concat_sound (hs : s.IsSound) (hhydrated : s.hydrated = true) (hid : a.id = s.issued) (hretries : 0 < a.maxRetries)
    (hcount : a.retryCount < a.maxRetries ∨ a.isWaiting = false)
    (halone : a.isWaiting = true → ∀ b ∈ s.items, b.isWaiting = true → ¬ a.SharesKey b) :
    (({ s with issued := s.issued + 1 } : QueueStore K).replaceItems (s.items ++ [a])).IsSound := by
  obtain ⟨hzero, hfree⟩ := hs.fresh s.issued le_rfl
  have hissue : ∀ b, s.Allows b → ({ s with issued := s.issued + 1 } : QueueStore K).Allows b := by
    intro b hb
    exact hb.mono (Nat.le_succ _) le_rfl (fun _ hfree => hfree) fun _ => le_rfl
  have hallows : ({ s with issued := s.issued + 1 } : QueueStore K).Allows a := by
    rw [← hid] at hzero hfree
    refine ⟨?_, hretries, ?_, fun hwa => ⟨hfree, ?_, ?_⟩⟩
    · show a.id < s.issued + 1
      omega
    · show s.executions a.id ≤ _
      omega
    · rcases hcount with hcount | hcount
      · exact hcount
      · rw [hwa] at hcount
        cases hcount
    · show s.executions a.id ≤ _
      omega
  have hnew : ∀ b, s.Allows b → b.id ≠ a.id := by
    intro b hb
    have hlt := hb.issued
    omega
  apply replaceItems_sound
  · intro id hle
    exact hs.fresh id (Nat.le_of_succ_le hle)
  · exact (hs.good.mono fun b _ => hissue b).concat hallows (fun b hb => hnew b (hs.good.allows b hb)) halone
  · intro f hf
    exact (hs.flush f hf).mono fun b _ => hissue b
  · exact hhydrated
  · intro f hf b hb hwb c hc hcid
    rcases mem_append.mp hc with hc | hc
    · exact waiting_of_flush hs hf hb hwb hc hcid
    · rw [mem_singleton.mp hc] at hcid
      exact absurd hcid.symm (hnew b ((hs.flush f hf).good.allows b hb))

theorem action_maxRetries (hvalid : request.maxRetries ≠ some 0) (id : ℕ) (now : ℤ) :
    0 < (request.action id now).maxRetries := by
  show 0 < request.maxRetries.getD defaultMaxRetries
  cases h : request.maxRetries with
  | none => decide
  | some n =>
    rw [Option.getD_some]
    refine Nat.pos_of_ne_zero ?_
    rintro rfl
    exact hvalid h

theorem enqueue_sound [DecidableEq K] (hs : s.IsSound) (hhydrated : s.hydrated = true)
    (hvalid : request.maxRetries ≠ some 0) : (s.enqueue request).IsSound := by
  unfold enqueue
  split
  · exact hs
  · rename_i hnone
    apply concat_sound hs hhydrated rfl (action_maxRetries hvalid _ _) (.inl (action_maxRetries hvalid s.issued s.now))
    -- the queue has no action under the key, unless it has failed or been submitted
    rintro - b hb hwb ⟨hclaim, hpayload⟩
    cases hkey : request.payload with
    | claimSubmission key =>
      rw [hkey] at hnone
      have hother := find?_eq_none.mp hnone b hb
      have hsame : b.hasKey key = true := by
        rw [hasKey, decide_eq_true_eq, ← hpayload]
        exact hkey
      simp only [isWaiting] at hwb
      cases hstate : b.state <;> simp_all [SyncActionState.isWaiting]
    | _ =>
      simp only [isClaimSubmission, SyncActionRequest.action, hkey] at hclaim
      cases hclaim

theorem recordConflict_sound (hs : s.IsSound) (hhydrated : s.hydrated = true)
    (hvalid : request.maxRetries ≠ some 0) : (s.recordConflict request).IsSound :=
  concat_sound hs hhydrated rfl (action_maxRetries hvalid s.issued s.now) (.inr rfl) nofun

theorem sublist_sound (hs : s.IsSound) (hhydrated : s.hydrated = true) (hl : l.Sublist s.items) (removed : ℕ → Bool) :
    (({ s with removed } : QueueStore K).replaceItems l).IsSound := by
  have hkeeps : ∀ a, s.Allows a → ({ s with removed } : QueueStore K).Allows a := fun a ha => ha.congr ⟨rfl, rfl, rfl, rfl⟩
  apply replaceItems_sound
  · exact hs.fresh
  · exact (hs.good.sublist hl).mono fun a _ => hkeeps a
  · intro f hf
    exact (hs.flush f hf).mono fun a _ => hkeeps a
  · exact hhydrated
  · intro f hf a ha hwa b hb hid
    exact waiting_of_flush hs hf ha hwa (hl.subset hb) hid

theorem requeue_sound (hs : s.IsSound) (hhydrated : s.hydrated = true) (hadmits : s.CanRequeue id) : (s.requeueAction id).IsSound := by
  unfold requeueAction
  set s₁ : QueueStore K := { s with
    executions := Function.update s.executions id 0
    finished := Function.update s.finished id false
    removed := fun i => s.removed i && !(i = id && s.items.any (·.id = id)) } with hs₁
  have hexecutions : ∀ i, s₁.executions i ≤ s.executions i := by
    intro i
    by_cases h : i = id
    · rw [h]
      simp [hs₁]
    · simp [hs₁, h]
  have hfinished : ∀ i, s.finished i = false → s₁.finished i = false := by
    intro i hfree
    by_cases h : i = id
    · rw [h]
      simp [hs₁]
    · simp [hs₁, h, hfree]
  have hkeeps : ∀ a, s.Allows a → s₁.Allows a := fun a ha =>
    ha.mono le_rfl (hexecutions a.id) (fun _ => hfinished a.id) fun _ => le_rfl
  have hrequeued : ∀ a ∈ s.items, a.id = id → s₁.Allows (a.requeue s.now) := by
    intro a ha hid
    have hallows := hkeeps a (hs.good.allows a ha)
    refine ⟨hallows.issued, hallows.retries, hallows.bounded, fun _ => ⟨?_, hallows.retries, ?_⟩⟩
    · show Function.update s.finished id false a.id = false
      rw [hid, Function.update_self]
    · show Function.update s.executions id 0 a.id ≤ _
      rw [hid, Function.update_self]
      exact Nat.zero_le _
  apply replaceItems_sound
  · intro i hle
    obtain ⟨hzero, hfree⟩ := hs.fresh i hle
    have hless := hexecutions i
    exact ⟨by omega, hfinished i hfree⟩
  · apply hs.good.replace
    · exact fun _ => rfl
    · exact fun _ => rfl
    · exact fun a ha _ => hkeeps a (hs.good.allows a ha)
    · exact hrequeued
    · intro a ha hid _ b hb hwb hshares
      exact hadmits a ha hid b hb hwb hshares
  · intro f hf
    exact (hs.flush f hf).mono fun a _ => hkeeps a
  · exact hhydrated
  · intro f hf a ha hwa b hb hid
    obtain ⟨item, hitem, rfl⟩ := mem_map.mp hb
    by_cases h : item.id = id
    · rw [if_pos h]
      rfl
    · rw [if_neg h] at hid ⊢
      exact waiting_of_flush hs hf ha hwa hitem hid

theorem nextAttempt_suffix {startedAt : ℤ} {processed : ℕ} :
    ∀ {l : List (QueuedSyncAction K)}, nextAttempt options startedAt processed l = some (a, rest) → a :: rest <:+ l
  | [], h => by cases h
  | b :: l, h => by
    rw [nextAttempt] at h
    split at h
    · exact (nextAttempt_suffix h).trans (suffix_cons b l)
    split at h
    · exact (nextAttempt_suffix h).trans (suffix_cons b l)
    split at h
    · cases h
    · cases h
      exact suffix_rfl

theorem underWay_of_none (h : s.attempted = none) : s.underWay id = 0 := by
  rw [underWay, h]
  rfl

theorem attempted_of_flush (hf : s.flush = some f) : s.attempted = match f.phase with
    | .attempting action => some action
    | .saving _ => none := by
  rw [attempted, hf]
  rfl

theorem last_replicate {α : Type*} {writes : List α} {last a : α} (n : ℕ) (h : writes.getLast?.getD last = a) :
    (writes ++ replicate n a).getLast?.getD last = a := by
  cases n with
  | zero => simpa using h
  | succ n =>
    rw [replicate_succ', ← append_assoc, getLast?_concat]
    rfl

theorem endFlush_sound (hs : s.IsSound) (hhydrated : s.hydrated = true) (hidle : s.attempted = none) (n : ℕ) :
    ({ s with flush := none, writes := s.writes ++ replicate n s.items } : QueueStore K).IsSound := by
  set s' : QueueStore K := { s with flush := none, writes := s.writes ++ replicate n s.items }
  have hkeeps : ∀ a, s.Allows a → s'.Allows a := by
    intro a ha
    refine ha.mono le_rfl le_rfl (fun _ hfree => hfree) fun _ => ?_
    rw [underWay_of_none hidle]
    exact Nat.zero_le _
  refine ⟨hs.fresh, hs.good.mono fun a _ => hkeeps a, hs.marked, fun f hf => ?_, fun hclosed => ?_,
    fun _ => last_replicate n (hs.stored hhydrated)⟩
  · have hnone : none = some f := hf
    cases hnone
  · rw [show s.hydrated = false from hclosed] at hhydrated
    cases hhydrated

theorem attempt_sound (hs : s.IsSound) (hhydrated : s.hydrated = true) (hidle : s.attempted = none)
    (hf : f.IsSound s) (hsuffix : a :: rest <:+ f.remaining) (hwaits : a.isWaiting = true) (n processed : ℕ) :
    ({ s with
        writes := s.writes ++ replicate n s.items
        flush := some { f with processed, remaining := rest, phase := .attempting a }
        executions := Function.update s.executions a.id (s.executions a.id + 1) } : QueueStore K).IsSound := by
  set s' : QueueStore K := { s with
    writes := s.writes ++ replicate n s.items
    flush := some { f with processed, remaining := rest, phase := .attempting a }
    executions := Function.update s.executions a.id (s.executions a.id + 1) }
  have hmem : a ∈ f.items := hf.remaining a (hsuffix.subset mem_cons_self)
  obtain ⟨hfree, -, -⟩ := (hf.good.allows a hmem).waiting hwaits
  have hnodup : ((a :: rest).map (·.id)).Nodup := (hsuffix.sublist.map _).nodup hf.nodup
  rw [map_cons, nodup_cons] at hnodup
  have hunder : s'.underWay a.id = 1 := by
    show (if (some a).any (·.id = a.id) then 1 else 0) = 1
    simp
  -- the attempt counts for what has its id, which waits, too
  have hkeeps : ∀ b, (b.id = a.id → b.isWaiting = true) → s.Allows b → s'.Allows b := by
    intro b hsame hb
    by_cases hid : b.id = a.id
    · obtain ⟨hfree, hcount, hexec⟩ := hb.waiting (hsame hid)
      rw [underWay_of_none hidle] at hexec
      have hmore : s'.executions b.id = s.executions b.id + 1 := by
        rw [hid]
        exact Function.update_self ..
      refine ⟨hb.issued, hb.retries, by omega, fun _ => ⟨hfree, hcount, ?_⟩⟩
      rw [hid, hunder, ← hid]
      omega
    · have hsame : s'.executions b.id = s.executions b.id := Function.update_of_ne hid _ _
      refine hb.mono le_rfl hsame.le (fun _ hfree => hfree) fun _ => ?_
      rw [underWay_of_none hidle]
      exact Nat.zero_le _
  have hqueue : ∀ b ∈ s.items, b.id = a.id → b.isWaiting = true := by
    intro b hb hid
    by_contra hwb
    have hmarked := hs.marked b hb (by simpa using hwb)
    rw [hid, hfree] at hmarked
    cases hmarked
  refine ⟨?_, hs.good.mono fun b hb => hkeeps b (hqueue b hb), hs.marked, ?_, fun hclosed => ?_,
    fun _ => last_replicate n (hs.stored hhydrated)⟩
  · intro id hle
    have hle : s.issued ≤ id := hle
    obtain ⟨hzero, hfree⟩ := hs.fresh id hle
    have hlt := (hf.good.allows a hmem).issued
    have hne : id ≠ a.id := by omega
    exact ⟨(Function.update_of_ne hne _ _).trans hzero, hfree⟩
  · rintro _ ⟨⟩
    refine ⟨hf.good.mono fun b hb => hkeeps b fun hid => ?_, ?_, hnodup.2, ?_⟩
    · rw [hf.good.eq_of_id hb hmem hid]
      exact hwaits
    · exact fun b hb => hf.remaining b (hsuffix.subset (mem_cons_of_mem _ hb))
    · rintro _ ⟨⟩
      exact ⟨hmem, hwaits, fun b hb hid => hnodup.1 (mem_map.mpr ⟨b, hb, hid⟩)⟩
  · rw [show s.hydrated = false from hclosed] at hhydrated
    cases hhydrated

theorem goOn_sound (hs : s.IsSound) (hhydrated : s.hydrated = true) (hidle : s.attempted = none) (hf : f.IsSound s)
    (hadmits : IsWaitingNext f.next) : (s.goOn f).IsSound := by
  unfold goOn
  split
  · exact endFlush_sound hs hhydrated hidle _
  · rename_i action rest hnext
    exact attempt_sound hs hhydrated hidle hf (nextAttempt_suffix hnext) (hadmits _ hnext) _ _

theorem startFlush_sound (hs : s.IsSound) (hhydrated : s.hydrated = true)
    (hadmits : options.online = true → s.flush.isNone = true → IsWaitingNext (nextAttempt options s.now 0 s.items)) :
    (s.startFlush options).IsSound := by
  unfold startFlush
  split
  · rename_i hstarts
    rw [Bool.and_eq_true] at hstarts
    have hnone : s.flush = none := Option.isNone_iff_eq_none.mp hstarts.2
    apply goOn_sound hs hhydrated
    · rw [attempted, hnone]
      rfl
    · exact ⟨hs.good, fun _ ha => ha, hs.good.nodup, nofun⟩
    · exact hadmits hstarts.1 hstarts.2
  · exact hs

theorem state_of_fail {now : ℤ} {saverMode : Bool} {error : SyncError} (h : (a.fail now saverMode error b).isWaiting = true) :
    a.retryCount + 1 < a.maxRetries := by
  simp only [isWaiting, fail, nextState] at h
  split at h
  · cases h
  · split at h
    · cases h
    · rename_i hretries
      simp only [Bool.or_eq_true, decide_eq_true_eq, not_or, not_le] at hretries
      exact hretries.1

theorem settle_cases (f : FlushRun K) (now : ℤ) (a : QueuedSyncAction K) (outcome : Except SyncError Unit) (l : List (QueuedSyncAction K)) :
    f.settle now a outcome l = l.filter (·.id ≠ a.id) ∨
      ∃ g : QueuedSyncAction K → QueuedSyncAction K, f.settle now a outcome l = l.map (fun item => if item.id = a.id then g item else item) ∧
        ∀ b, (g b).id = b.id ∧ (g b).payload = b.payload ∧ (g b).maxRetries = b.maxRetries ∧
          ((g b).isWaiting = true → (g b).retryCount = a.retryCount + 1 ∧ a.retryCount + 1 < a.maxRetries) := by
  cases outcome with
  | ok u =>
    cases u
    cases hclaim : a.isClaimSubmission with
    | true =>
      refine .inr ⟨fun item => { item with state := .submitted }, ?_, fun b => ⟨rfl, rfl, rfl, nofun⟩⟩
      simp only [FlushRun.settle, hclaim, if_true]
    | false =>
      refine .inl ?_
      simp only [FlushRun.settle, hclaim, Bool.false_eq_true, if_false]
  | error error =>
    exact .inr ⟨a.fail now f.options.saverMode error, rfl, fun b => ⟨rfl, rfl, rfl, fun hwaits => ⟨rfl, state_of_fail hwaits⟩⟩⟩

theorem receive_sound {outcome : Except SyncError Unit} (hs : s.IsSound) (hf : s.flush = some f) (hphase : f.phase = .attempting a) :
    (s.receive f a outcome).IsSound := by
  have hsound := hs.flush f hf
  obtain ⟨hmem, hwaits, hothers⟩ := hsound.attempting a hphase
  obtain ⟨hfree, hcount, hexec⟩ := (hsound.good.allows a hmem).waiting hwaits
  have hattempted : s.attempted = some a := by
    rw [attempted_of_flush hf, hphase]
  have hhydrated : s.hydrated = true := by
    by_contra h
    have hnone := (hs.closed (by simpa using h)).2.2.1
    rw [hf] at hnone
    cases hnone
  have hunder : s.underWay a.id = 1 := by simp [underWay, hattempted]
  rw [hunder] at hexec
  set l := f.settle s.now a outcome f.items with hl
  set s₁ : QueueStore K := { s with
    flush := some { f with items := l, phase := .saving (s.writes.length + 1) }
    removed := fun id => s.removed id || outcome.isOk && id = a.id }
  have hkeeps : ∀ b ∈ f.items, b.id ≠ a.id → s₁.Allows b := by
    intro b hb hid
    refine (hsound.good.allows b hb).mono le_rfl le_rfl (fun _ hfree => hfree) fun _ => ?_
    simp [underWay, hattempted, Ne.symm hid]
  have hgood : s₁.IsGood l ∧ ∀ b ∈ f.items, b.id ≠ a.id → b ∈ l := by
    rcases settle_cases f s.now a outcome f.items with hfilter | ⟨g, hmap, hg⟩
    · rw [hl, hfilter]
      have hsub : s.IsGood (f.items.filter (·.id ≠ a.id)) := hsound.good.sublist filter_sublist
      refine ⟨⟨fun b hb => ?_, hsub.nodup, hsub.unique⟩, fun b hb hid => mem_filter.mpr ⟨hb, by simpa using hid⟩⟩
      obtain ⟨hb, hid⟩ := mem_filter.mp hb
      exact hkeeps b hb (by simpa using hid)
    · rw [hl, hmap]
      refine ⟨?_, fun b hb hid => mem_map.mpr ⟨b, hb, if_neg hid⟩⟩
      apply hsound.good.replace
      · exact fun b => (hg b).1
      · exact fun b => (hg b).2.1
      · exact hkeeps
      · intro b hb hid
        obtain ⟨hgid, -, hgmax, hgwaits⟩ := hg b
        have hallows := hsound.good.allows b hb
        have hmax : b.maxRetries = a.maxRetries := by rw [hsound.good.eq_of_id hb hmem hid]
        refine ⟨by rw [hgid]; exact hallows.issued, by rw [hgmax]; exact hallows.retries, ?_, fun hwb => ?_⟩
        · rw [hgid, hgmax]
          exact hallows.bounded
        · obtain ⟨hgcount, hless⟩ := hgwaits hwb
          rw [hgid, hid, hgcount, hgmax, hmax]
          exact ⟨hfree, hless, hexec.trans (Nat.le_add_right _ _)⟩
      · intro b hb hid _ c hc hwc hshares
        obtain rfl := hsound.good.eq_of_id hb hmem hid
        exact (hsound.good.unique b hb c hc hwaits hwc hshares).symm
  show (s₁.replaceItems l).IsSound
  apply replaceItems_sound
  · exact hs.fresh
  · exact hgood.1
  · rintro _ ⟨⟩
    exact ⟨hgood.1, fun b hb => hgood.2 b (hsound.remaining b hb) (hothers b hb), hsound.nodup, nofun⟩
  · exact hhydrated
  · rintro _ ⟨⟩ b hb hwb c hc hid
    rw [hgood.1.eq_of_id hc hb hid]
    exact hwb

theorem write_allows (h : s.write = some s') (ha : s.Allows a) : s'.Allows a := by
  have hattempted : s'.attempted = s.attempted := by
    unfold write at h
    split at h
    · cases h
    · cases h
      simp only [attempted]
      cases s.flush with
      | none => rfl
      | some f =>
        cases hphase : f.phase with
        | attempting action | saving left => simp [hphase]
  have hunderWay : s'.underWay a.id = s.underWay a.id := by
    rw [underWay, underWay, hattempted]
  unfold write at h
  split at h
  · cases h
  · cases h
    exact ha.mono le_rfl le_rfl (fun _ hfree => hfree) fun _ => hunderWay.ge

theorem write_sound (hs : s.IsSound) (h : s.write = some s') : s'.IsSound := by
  have hkeeps : ∀ a, s.Allows a → s'.Allows a := fun a => write_allows h
  unfold write at h
  split at h
  · cases h
  · rename_i items rest hwrites
    cases h
    have hopen : s.hydrated = true := by
      by_contra hclosed
      have hnone := (hs.closed (by simpa using hclosed)).2.1
      rw [hwrites] at hnone
      cases hnone
    refine ⟨hs.fresh, hs.good.mono fun a _ => hkeeps a, hs.marked, ?_, fun hclosed => ?_, fun _ => ?_⟩
    · intro f' hf'
      obtain ⟨f, hf, rfl⟩ := Option.map_eq_some_iff.mp hf'
      have hsound := hs.flush f hf
      have hgood := hsound.good.mono fun a _ => hkeeps a
      cases hphase : f.phase with
      | attempting action => exact ⟨hgood, hsound.remaining, hsound.nodup, hsound.attempting⟩
      | saving left => exact ⟨hgood, hsound.remaining, hsound.nodup, by rintro _ ⟨⟩⟩
    · rw [show s.hydrated = false from hclosed] at hopen
      cases hopen
    · have hstored := hs.stored hopen
      rw [hwrites] at hstored
      cases rest with
      | nil => exact hstored
      | cons next rest =>
        rw [getLast?_cons_cons] at hstored
        rw [getLast?_cons] at hstored
        show (getLast? (next :: rest)).getD items = s.items
        rw [getLast?_cons]
        exact hstored

theorem relaunch_sound (hs : s.IsSound) (h : s.relaunch = some s') : s'.IsSound := by
  unfold relaunch at h
  split at h
  · rename_i hquiet
    cases h
    have hnone : s.flush = none := Option.isNone_iff_eq_none.mp hquiet.2
    have hgood : s.IsGood s.storage := by
      cases hhydrated : s.hydrated with
      | false => exact (hs.closed hhydrated).2.2.2
      | true =>
        have hstored := hs.stored hhydrated
        rw [hquiet.1] at hstored
        rw [show s.storage = s.items from hstored]
        exact hs.good
    have hkeeps : ∀ a, s.Allows a → ({ s with hydrated := false, items := [] } : QueueStore K).Allows a := fun a ha =>
      ha.congr ⟨rfl, rfl, rfl, rfl⟩
    refine ⟨hs.fresh, ⟨nofun, nodup_nil, nofun⟩, nofun, ?_, fun _ => ⟨rfl, hquiet.1, hnone, hgood.mono fun a _ => hkeeps a⟩, nofun⟩
    intro f hf
    rw [show s.flush = some f from hf] at hnone
    cases hnone
  · cases h

end Lists
end Soter.SyncQueue
