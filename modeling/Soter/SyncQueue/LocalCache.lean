import Soter.SyncQueue.Actions

/-! The bounded cache of the phone (`localCache.ts`): what it evicts. -/
namespace Soter.LocalCache

open List
open Soter.SyncQueue (SyncActionState)

section Service

structure LocalFlags where
  hasLocalChanges : Option Bool := none
  localOnly : Option Bool := none
  dirty : Option Bool := none
  isDirty : Option Bool := none
  isSynced : Option Bool := none
  synced : Option Bool := none
  syncStatus : Option String := none

def hasLocalChangeFlag (record : LocalFlags) : Bool :=
  record.hasLocalChanges = some true ∨ record.localOnly = some true ∨ record.dirty = some true ∨
    record.isDirty = some true ∨ record.isSynced = some false ∨ record.synced = some false ∨
    record.syncStatus ∈ [some "pending", some "retrying", some "failed", some "conflict"]

/-- How items are read: `getIdentity`, `getEvictionTimestamp`, the fields that flag local changes, and the length of the text of
an item, whether or not there is a `TextEncoder`. -/
structure CacheOptions (Item : Type) where
  id : Item → String
  relatedAidId : Item → Option String
  timestamp : Item → ℚ
  flags : Item → LocalFlags
  itemBytes : Item → ℕ+

/-- What is read of an action of the queue; `aidId` is that of its payload, where it is a string. -/
structure QueuedAction where
  state : SyncActionState
  aidId : Option String

def getUnsyncedAidIds (queue : List QueuedAction) : List String :=
  ((queue.filter (·.state ≠ .submitted)).filterMap (·.aidId)).filter (· ≠ "")

variable {Item : Type} (options : CacheOptions Item) (queue : List QueuedAction)

def isProtected (item : Item) : Bool :=
  hasLocalChangeFlag (options.flags item) ∨ options.id item ∈ getUnsyncedAidIds queue ∨
    ∃ aidId ∈ options.relatedAidId item, aidId ∈ getUnsyncedAidIds queue

def getProtectedIds (items : List Item) : List String := (items.filter (isProtected options queue)).map options.id

def getSerializedSizeBytes (items : List Item) : ℕ :=
  2 + (items.map fun item => (options.itemBytes item : ℕ)).sum + (items.length - 1)

def evictable (items : List Item) : List Item :=
  items.filter fun item => options.id item ∉ getProtectedIds options queue items

def oldestFirst (items : List Item) : List Item :=
  (evictable options queue items).insertionSort fun a b => options.timestamp a ≤ options.timestamp b

def evict (maxBytes : ℤ) : List Item → List Item → List Item × ℕ
  | boundedItems, [] => (boundedItems, 0)
  | boundedItems, candidate :: candidates =>
    if getSerializedSizeBytes options boundedItems ≤ maxBytes then (boundedItems, 0)
    else
      let rest := evict maxBytes (boundedItems.filter fun item => options.id item ≠ options.id candidate) candidates
      (rest.1, rest.2 + 1)

structure CacheWriteResult (Item : Type) where
  items : List Item
  sizeBytes : ℕ
  maxBytes : ℤ
  evictedCount : ℕ
  protectedCount : ℕ
  isOverLimit : Bool
  isNearLimit : Bool

/-- `warningRatio` is the one of the call or of the configuration. -/
def getWarningRatio (warningRatio : Option ℚ) : ℚ :=
  match warningRatio with
  | none => mkRat 8 10
  | some ratio => if ratio ≤ 0 ∨ 1 < ratio then mkRat 8 10 else ratio

def boundCacheItems (maxBytes : ℤ) (warningRatio : Option ℚ) (items : List Item) : CacheWriteResult Item :=
  let evicted := evict options maxBytes items (oldestFirst options queue items)
  let sizeBytes := getSerializedSizeBytes options evicted.1
  { items := evicted.1
    sizeBytes
    maxBytes
    evictedCount := evicted.2
    protectedCount := (getProtectedIds options queue items).dedup.length
    isOverLimit := maxBytes < sizeBytes
    isNearLimit := maxBytes * getWarningRatio warningRatio ≤ sizeBytes }

end Service
section Loop
variable {Item : Type} (options : CacheOptions Item) (queue : List QueuedAction) (items : List Item)

def protectedItems : List Item := items.filter fun item => ! decide (options.id item ∉ getProtectedIds options queue items)

def withoutIds (candidates : List Item) (n : ℕ) : List Item :=
  items.filter fun item => options.id item ∉ (candidates.take n).map options.id

variable {options queue items} {maxBytes : ℤ} {n : ℕ}

variable {xs ys : List Item} {item : Item}

theorem evict_eq (items candidates : List Item) : ∃ n ≤ candidates.length,
    (evict options maxBytes items candidates).1 = withoutIds options items candidates n ∧
      (∀ k < n, maxBytes < getSerializedSizeBytes options (withoutIds options items candidates k)) ∧
      (n = candidates.length ∨ getSerializedSizeBytes options (withoutIds options items candidates n) ≤ maxBytes) := by
  induction candidates generalizing items with
  | nil => exact ⟨0, le_rfl, by simp [evict, withoutIds], fun k hk => absurd hk (Nat.not_lt_zero k), .inl rfl⟩
  | cons candidate candidates ih =>
    have hzero : withoutIds options items (candidate :: candidates) 0 = items := by simp [withoutIds]
    rw [evict]
    split
    · rename_i hfits
      exact ⟨0, Nat.zero_le _, hzero.symm, fun k hk => absurd hk (Nat.not_lt_zero k), .inr (by rw [hzero]; exact hfits)⟩
    · rename_i hover
      have hsucc (k : ℕ) : withoutIds options (items.filter fun item => options.id item ≠ options.id candidate) candidates k =
          withoutIds options items (candidate :: candidates) (k + 1) := by
        simp only [withoutIds, filter_filter, take_succ_cons, map_cons, mem_cons, not_or]
        apply filter_congr
        intro item _
        simp [Bool.and_comm]
      obtain ⟨n, hn, heq, hbefore, hend⟩ := ih (items.filter fun item => options.id item ≠ options.id candidate)
      simp only [hsucc] at heq hbefore hend
      refine ⟨n + 1, Nat.succ_le_succ hn, heq, fun k hk => ?_, hend.imp_left (congrArg (· + 1))⟩
      cases k with
      | zero =>
        rw [hzero]
        omega
      | succ k => exact hbefore k (by omega)

theorem oldestFirst_perm : (oldestFirst options queue items).Perm (evictable options queue items) :=
  perm_insertionSort _ _

theorem items_perm (n : ℕ) : items.Perm ((oldestFirst options queue items).take n ++
    ((oldestFirst options queue items).drop n ++ protectedItems options queue items)) := by
  rw [← append_assoc, take_append_drop]
  exact (filter_append_perm _ items).symm.trans (oldestFirst_perm.symm.append_right _)

theorem withoutIds_perm_sublist (n : ℕ) : ∃ ys, (withoutIds options items (oldestFirst options queue items) n).Perm ys ∧
    ys.Sublist ((oldestFirst options queue items).drop n ++ protectedItems options queue items) := by
  have htaken : ((oldestFirst options queue items).take n).filter (fun item =>
      options.id item ∉ ((oldestFirst options queue items).take n).map options.id) = [] := by
    apply filter_eq_nil_iff.mpr
    intro item hitem
    simp only [decide_eq_true_eq, not_not]
    exact mem_map_of_mem hitem
  refine ⟨_, (@items_perm Item options queue items n).filter _, ?_⟩
  rw [filter_append, htaken, nil_append]
  exact filter_sublist

theorem size_perm (h : xs.Perm ys) : getSerializedSizeBytes options xs = getSerializedSizeBytes options ys := by
  rw [getSerializedSizeBytes, getSerializedSizeBytes, h.length_eq, (h.map _).sum_eq]

theorem size_sublist (h : xs.Sublist ys) :
    getSerializedSizeBytes options xs ≤ getSerializedSizeBytes options ys := by
  have hlength := h.length_le
  have hsum := (h.map fun item => (options.itemBytes item : ℕ)).sum_le_sum fun _ _ => Nat.zero_le _
  unfold getSerializedSizeBytes
  omega

theorem filter_id_eq {c : Item} : ∀ {xs : List Item}, (xs.map options.id).Nodup → c ∈ xs →
    xs.filter (fun item => options.id item = options.id c) = [c]
  | x :: xs, hnodup, hc => by
    obtain ⟨hx, hnodup⟩ := nodup_cons.mp hnodup
    rcases mem_cons.mp hc with rfl | hc
    · rw [filter_cons_of_pos (by simp), filter_eq_nil_iff.mpr]
      intro item hitem hid
      exact hx (mem_map.mpr ⟨item, hitem, of_decide_eq_true hid⟩)
    · have hne : options.id x ≠ options.id c := fun h => hx (h ▸ mem_map_of_mem hc)
      rw [filter_cons_of_neg (by simpa using hne), filter_id_eq hnodup hc]

theorem mem_protectedIds (hitem : item ∈ items) (h : isProtected options queue item) :
    options.id item ∈ getProtectedIds options queue items :=
  mem_map_of_mem (mem_filter.mpr ⟨hitem, h⟩)

theorem not_mem_take_ids (h : options.id item ∈ getProtectedIds options queue items) :
    options.id item ∉ ((oldestFirst options queue items).take n).map options.id := by
  intro hmem
  obtain ⟨c, hc, hid⟩ := mem_map.mp hmem
  have hevictable := oldestFirst_perm.subset (mem_of_mem_take hc)
  exact of_decide_eq_true (mem_filter.mp hevictable).2 (hid ▸ h)

end Loop
section Eviction
variable {Item : Type} [DecidableEq Item] (options : CacheOptions Item) (queue : List QueuedAction) (maxBytes : ℤ)
  (warningRatio : Option ℚ) (items : List Item)

def withoutOldest (n : ℕ) : List Item := items.diff ((oldestFirst options queue items).take n)

structure EvictsOldest : Prop where
  keeps_protected : (boundCacheItems options queue maxBytes warningRatio items).items.filter (isProtected options queue) =
    items.filter (isProtected options queue)
  oldest : ∃ n ≤ (oldestFirst options queue items).length,
    (boundCacheItems options queue maxBytes warningRatio items).items = withoutOldest options queue items n ∧
      ∀ k < n, maxBytes < getSerializedSizeBytes options (withoutOldest options queue items k)
  fits : getSerializedSizeBytes options (boundCacheItems options queue maxBytes warningRatio items).items ≤ maxBytes ∨
    ∀ item ∈ (boundCacheItems options queue maxBytes warningRatio items).items,
      options.id item ∈ getProtectedIds options queue items
  order : (boundCacheItems options queue maxBytes warningRatio items).items.Sublist items

variable {options queue maxBytes warningRatio items} {candidates : List Item} {n : ℕ}

theorem append_diff_left (xs ys : List Item) : (xs ++ ys).diff xs = ys := by
  induction xs with
  | nil => rfl
  | cons x xs ih => simpa using ih

theorem withoutOldest_perm (n : ℕ) : (withoutOldest options queue items n).Perm ((oldestFirst options queue items).drop n ++
    protectedItems options queue items) := by
  exact ((items_perm n).diff_right _).trans (.of_eq (append_diff_left _ _))

theorem length_withoutOldest (hn : n ≤ (oldestFirst options queue items).length) :
    (withoutOldest options queue items n).length + n = (withoutOldest options queue items 0).length := by
  rw [(withoutOldest_perm n).length_eq, (withoutOldest_perm 0).length_eq, length_append, length_append,
    length_drop, length_drop]
  omega

theorem size_withoutOldest_succ (hn : n < (oldestFirst options queue items).length) :
    getSerializedSizeBytes options (withoutOldest options queue items (n + 1)) <
      getSerializedSizeBytes options (withoutOldest options queue items n) := by
  rw [size_perm (withoutOldest_perm n), size_perm (withoutOldest_perm (n + 1)), drop_eq_getElem_cons hn]
  have := (options.itemBytes (oldestFirst options queue items)[n]).pos
  simp only [getSerializedSizeBytes, cons_append, map_cons, sum_cons, length_cons]
  omega

theorem size_withoutOldest_lt {k : ℕ} (hk : k < n) (hn : n ≤ (oldestFirst options queue items).length) :
    getSerializedSizeBytes options (withoutOldest options queue items n) <
      getSerializedSizeBytes options (withoutOldest options queue items k) := by
  induction hk with
  | refl => exact size_withoutOldest_succ (by omega)
  | step _ ih => exact (size_withoutOldest_succ (by omega)).trans (ih (by omega))

theorem erase_eq_filter {p : Item → Bool} {c : Item} : ∀ {xs : List Item}, xs.filter p = [c] →
    xs.erase c = xs.filter fun item => ¬ p item
  | [], h => by cases h
  | x :: xs, h => by
    cases hx : p x with
    | true =>
      rw [filter_cons_of_pos hx, cons.injEq] at h
      obtain ⟨rfl, hnone⟩ := h
      rw [erase_cons_head, filter_cons_of_neg (by simp [hx]), filter_eq_self.mpr]
      intro item hitem
      simpa using filter_eq_nil_iff.mp hnone item hitem
    | false =>
      rw [filter_cons_of_neg (by simp [hx])] at h
      have hne : x ≠ c := by
        rintro rfl
        have hmem : x ∈ xs.filter p := by simp [h]
        simp [hx] at hmem
      rw [erase_cons_tail (by simpa using hne), filter_cons_of_pos (by simp [hx]), erase_eq_filter h]

theorem diff_eq_withoutIds (hnodup : (candidates.map options.id).Nodup)
    (honly : ∀ c ∈ candidates, items.filter (fun item => options.id item = options.id c) = [c]) :
    items.diff candidates = items.filter fun item => options.id item ∉ candidates.map options.id := by
  induction candidates generalizing items with
  | nil => simp
  | cons c candidates ih =>
    obtain ⟨hc, hnodup⟩ := nodup_cons.mp hnodup
    rw [diff_cons, erase_eq_filter (honly c mem_cons_self), ih hnodup]
    · rw [filter_filter]
      apply filter_congr
      intro item _
      simp [Bool.and_comm]
    · intro c' hc'
      rw [filter_filter, ← honly c' (mem_cons_of_mem c hc')]
      apply filter_congr
      intro item _
      have hne : options.id c' ≠ options.id c := fun h => hc (h ▸ mem_map_of_mem hc')
      by_cases hid : options.id item = options.id c'
      · simp [hid, hne]
      · simp [hid]

theorem withoutOldest_eq (hnodup : ((evictable options queue items).map options.id).Nodup) (n : ℕ) :
    withoutOldest options queue items n = withoutIds options items (oldestFirst options queue items) n := by
  have hall : ((oldestFirst options queue items).map options.id).Nodup :=
    (oldestFirst_perm.map options.id).nodup_iff.mpr hnodup
  apply diff_eq_withoutIds (hall.sublist ((take_sublist _ _).map _))
  intro c hc
  have hevictable := oldestFirst_perm.subset (mem_of_mem_take hc)
  rw [← filter_id_eq hnodup hevictable, evictable, filter_filter]
  apply filter_congr
  intro item _
  by_cases hid : options.id item = options.id c
  · have hc' : options.id c ∉ getProtectedIds options queue items := of_decide_eq_true (mem_filter.mp hevictable).2
    simp [hid, hc']
  · simp [hid]

theorem evictsOldest_of_nodup (hnodup : ((evictable options queue items).map options.id).Nodup) :
    EvictsOldest options queue maxBytes warningRatio items := by
  obtain ⟨n, hn, heq, hbefore, hend⟩ := @evict_eq Item options maxBytes items (oldestFirst options queue items)
  have hitems : (boundCacheItems options queue maxBytes warningRatio items).items =
      withoutIds options items (oldestFirst options queue items) n := heq
  constructor
  · rw [hitems, withoutIds, filter_filter]
    apply filter_congr
    intro item hitem
    by_cases hprotected : isProtected options queue item = true
    · have hnot := not_mem_take_ids (n := n) (mem_protectedIds hitem hprotected)
      simp only [hprotected, hnot, not_false_eq_true, decide_true, Bool.and_true]
    · simp [hprotected]
  · refine ⟨n, hn, hitems.trans (withoutOldest_eq hnodup n).symm, fun k hk => ?_⟩
    rw [withoutOldest_eq hnodup]
    exact hbefore k hk
  · rw [hitems]
    apply hend.symm.imp_right
    intro hall item hitem
    obtain ⟨hitem, hkept⟩ := mem_filter.mp hitem
    by_contra hnot
    have hold : item ∈ oldestFirst options queue items :=
      oldestFirst_perm.mem_iff.mpr (mem_filter.mpr ⟨hitem, decide_eq_true hnot⟩)
    rw [hall, take_length] at hkept
    exact of_decide_eq_true hkept (mem_map_of_mem hold)
  · rw [hitems]
    exact filter_sublist

/-- By induction on the candidates: at the limit that the next removal reaches, the loop removes that item and nothing else. -/
theorem withoutIds_eq (h : ∀ maxBytes, EvictsOldest options queue maxBytes warningRatio items) :
    ∀ n ≤ (oldestFirst options queue items).length,
      withoutIds options items (oldestFirst options queue items) n = withoutOldest options queue items n := by
  intro n
  induction n using Nat.strong_induction_on with
  | _ n ih =>
    intro hn
    obtain ⟨ys, hperm, hsublist⟩ := @withoutIds_perm_sublist Item options queue items n
    have hsize : getSerializedSizeBytes options (withoutIds options items (oldestFirst options queue items) n) ≤
        getSerializedSizeBytes options (withoutOldest options queue items n) := by
      rw [size_perm hperm, size_perm (withoutOldest_perm n)]
      exact size_sublist hsublist
    have hlength : (withoutIds options items (oldestFirst options queue items) n).length ≤
        (withoutOldest options queue items n).length := by
      rw [hperm.length_eq, (withoutOldest_perm n).length_eq]
      exact hsublist.length_le
    obtain ⟨m, hm, heq, hbefore, hend⟩ := @evict_eq Item options
      (getSerializedSizeBytes options (withoutOldest options queue items n)) items (oldestFirst options queue items)
    obtain ⟨j, hj, hresult, hfewest⟩ := (h (getSerializedSizeBytes options (withoutOldest options queue items n))).oldest
    -- The loop does not stop before the candidate, nor go on after it.
    have hmn : m = n := by
      rcases lt_trichotomy m n with hlt | heq | hgt
      · have hmore := size_withoutOldest_lt hlt hn
        rw [← ih m hlt (by omega)] at hmore
        rcases hend with hall | hfits
        · omega
        · omega
      · exact heq
      · have := hbefore n hgt
        omega
    subst hmn
    have hjle : j ≤ m := by
      by_contra hlt
      have := hfewest m (by omega)
      omega
    have hsame : withoutIds options items (oldestFirst options queue items) m = withoutOldest options queue items j :=
      heq.symm.trans hresult
    rw [hsame] at hlength
    have hlong := @length_withoutOldest Item _ options queue items _ hj
    have hshort := @length_withoutOldest Item _ options queue items _ hn
    rw [hsame, show j = m by omega]

theorem evictsOldest_iff (options : CacheOptions Item) (queue : List QueuedAction) (warningRatio : Option ℚ)
    (items : List Item) : (∀ maxBytes, EvictsOldest options queue maxBytes warningRatio items) ↔
      ((evictable options queue items).map options.id).Nodup := by
  constructor
  · intro h
    rw [← (oldestFirst_perm.map options.id).nodup_iff, nodup_iff_pairwise_ne, pairwise_map,
      pairwise_iff_getElem]
    intro i k hi hk hik hsame
    -- The later item is not among those removed first, but its id is.
    have hkept : (oldestFirst options queue items)[k] ∈ withoutOldest options queue items (i + 1) := by
      apply (withoutOldest_perm (i + 1)).mem_iff.mpr
      apply mem_append_left
      exact mem_drop_iff_getElem.mpr ⟨k - (i + 1), by omega, by congr 1; omega⟩
    rw [← withoutIds_eq h (i + 1) (by omega)] at hkept
    apply of_decide_eq_true (mem_filter.mp hkept).2
    rw [← hsame]
    exact mem_map_of_mem (mem_take_iff_getElem.mpr ⟨i, by omega, rfl⟩)
  · intro hnodup maxBytes
    exact evictsOldest_of_nodup hnodup

def plainOptions : CacheOptions (String × ℕ × ℕ+) where
  id := (·.1)
  relatedAidId _ := none
  timestamp item := item.2.1
  flags _ := {}
  itemBytes := (·.2.2)

theorem newest_evicted : ¬ EvictsOldest plainOptions [] 23 none [("a", 1, 10), ("b", 2, 10), ("a", 3, 10)] := by
  intro h
  obtain ⟨n, -, hresult, hfewest⟩ := h.oldest
  have hitems : (boundCacheItems plainOptions [] 23 none [("a", 1, 10), ("b", 2, 10), ("a", 3, 10)]).items =
      [("b", 2, 10)] := by decide +kernel
  have hone : withoutOldest plainOptions [] [("a", 1, 10), ("b", 2, 10), ("a", 3, 10)] 1 =
      [("b", 2, 10), ("a", 3, 10)] := by decide +kernel
  have hzero : withoutOldest plainOptions [] [("a", 1, 10), ("b", 2, 10), ("a", 3, 10)] 0 =
      [("a", 1, 10), ("b", 2, 10), ("a", 3, 10)] := by decide +kernel
  rw [hitems] at hresult
  match n with
  | 0 =>
    rw [hzero] at hresult
    exact absurd hresult (by decide)
  | 1 =>
    rw [hone] at hresult
    exact absurd hresult (by decide)
  | n + 2 =>
    have hover := hfewest 1 (by omega)
    rw [hone] at hover
    exact absurd hover (by decide)

end Eviction
end Soter.LocalCache
