import Soter.AidEscrow.PackageIndex

/-! The sweep of expired packages takes the expired ones in the order of the index, and does not depend on how it is cut
into calls. -/
namespace Soter.AidEscrow
open Std Soter.Fallible Soter.Runs Soter.MapSum Soter.Listing List

variable {τ : Type} {H : Host τ} {w w' : World τ} {ids : List ℕ}

def sweepLimit (limit : ℕ) : ℕ := if limit = 0 then 50 else min limit 100

def isExpired (w : World τ) (id : ℕ) : Bool :=
  w.store.packages[id]?.any fun p => p.status = .created ∧ 0 < p.expiresAt ∧ p.expiresAt < w.now

def expiredIds (w : World τ) : List ℕ := (scan w.store.index w.store.pkgIdx).filter (isExpired w)

/-- `decrement_locked` for one of the packages of `w`. -/
def unlocked (w : World τ) (totals : Totals) (id : ℕ) : Result Totals :=
  match w.store.packages[id]? with
  | none => .ok totals
  | some p => decrementLocked totals p.token p.metadata p.amount

def sweptEvents (H : Host τ) (w : World τ) (id : ℕ) : List Published :=
  w.store.packages[id]?.toList.map fun p =>
    ⟨eventSchemaVersion, .packageSwept id p.recipient p.amount H.contract w.now⟩

/-- Exactly these packages have become expired and were unlocked, one after the other; nothing else has changed. -/
structure Swept (H : Host τ) (w w' : World τ) (ids : List ℕ) : Prop where
  packages : ∀ id : ℕ, w'.store.packages[id]?
    = if id ∈ ids then w.store.packages[id]?.map ({ · with status := .expired }) else w.store.packages[id]?
  totals : ids.foldlM (unlocked w) w.totals = .ok w'.totals
  rest : w' = { w with
    store := { w.store with packages := w'.store.packages }
    totals := w'.totals
    events := w.events ++ ids.flatMap (sweptEvents H w) }

def sweeps (H : Host τ) (w : World τ) (limits : List ℕ) : Result (World τ) :=
  limits.foldlM (fun w limit => Prod.fst <$> sweepExpiredPackages H w limit) w

section OnePackage

def expireOne (H : Host τ) (w : World τ) (id : ℕ) : Result (World τ) :=
  match w.store.packages[id]? with
  | none => .ok w
  | some p => do
    let p' := { p with status := .expired }
    let w ← unlockPackage (putPackage w id p') p'
    return publish w (.packageSwept id p.recipient p.amount H.contract w.now)

variable {id : ℕ} {p : Package}

theorem isExpired_of_get (hp : w.store.packages[id]? = some p) :
    isExpired w id = true ↔ p.status = .created ∧ 0 < p.expiresAt ∧ p.expiresAt < w.now := by
  rw [isExpired, hp]
  exact decide_eq_true_iff

theorem sweepPosition_eq {maxLimit n i : ℕ} (hn : n < maxLimit) (hi : w.store.index[i]? = some id) :
    sweepPosition H maxLimit (w, n) i
      = if isExpired w id then (fun w' => (w', n + 1)) <$> expireOne H w id else .ok (w, n) := by
  unfold sweepPosition expireOne
  rw [if_neg (show ¬ maxLimit ≤ n by omega)]
  dsimp only
  rw [hi]
  dsimp only
  cases hp : w.store.packages[id]? with
  | none =>
    have hnot : isExpired w id = false := by
      rw [isExpired, hp]
      rfl
    rw [hnot]
    rfl
  | some p =>
    dsimp only
    by_cases hexpired : isExpired w id = true
    · obtain ⟨hstatus, hpos, hlate⟩ := (isExpired_of_get hp).mp hexpired
      rw [if_pos hexpired, if_neg (not_not.mpr hstatus), if_neg (by omega)]
      cases unlockPackage (putPackage w id { p with status := .expired }) { p with status := .expired } <;> rfl
    · rw [if_neg hexpired]
      by_cases hstatus : p.status = .created
      · have hearly : p.expiresAt = 0 ∨ w.now ≤ p.expiresAt := by
          by_contra hlate
          exact hexpired ((isExpired_of_get hp).mpr ⟨hstatus, by omega, by omega⟩)
        rw [if_neg (not_not.mpr hstatus), if_pos hearly]
      · rw [if_pos hstatus]

theorem expireOne_spec (hp : w.store.packages[id]? = some p) (hamount : 0 < p.amount) :
    ∃ w', expireOne H w id = .ok w' ∧ Swept H w w' [id] := by
  obtain ⟨totals, htotals, -⟩ := decrementLocked_total w.totals hamount
  have hunlock : unlockPackage (putPackage w id { p with status := .expired }) { p with status := .expired }
      = .ok { putPackage w id { p with status := .expired } with totals } :=
    unlockPackage_eq_ok.mpr ⟨totals, htotals, rfl⟩
  refine ⟨publish { putPackage w id { p with status := .expired } with totals }
    (.packageSwept id p.recipient p.amount H.contract w.now), ?_, ?_, ?_, ?_⟩
  · rw [expireOne, hp]
    dsimp only
    rw [hunlock]
    rfl
  · intro k
    change (w.store.packages.insert id _)[k]? = _
    rw [get_insert]
    by_cases hk : k = id
    · rw [if_pos hk, if_pos (hk ▸ mem_singleton_self id), hk, hp]
      rfl
    · rw [if_neg hk, if_neg (fun h => hk (mem_singleton.mp h))]
  · rw [foldlM_cons, unlocked, hp]
    dsimp only
    rw [htotals]
    rfl
  · have hevents : [id].flatMap (sweptEvents H w)
        = [⟨eventSchemaVersion, .packageSwept id p.recipient p.amount H.contract w.now⟩] := by
      rw [flatMap_singleton, sweptEvents, hp]
      rfl
    rw [hevents]
    rfl

end OnePackage

structure Sweepable (w : World τ) : Prop where
  nodup : (scan w.store.index w.store.pkgIdx).Nodup
  amount_pos : ∀ (id : ℕ) (p : Package), w.store.packages[id]? = some p → 0 < p.amount

theorem Reaches.sweepable {tr : Trace τ} (h : Reaches H tr w) : Sweepable w :=
  ⟨h.indexExact.scan_nodup, h.wellFormed.amount_pos⟩

theorem Swept.index (h : Swept H w w' ids) : w'.store.index = w.store.index := by
  rw [h.rest]

theorem Swept.pkgIdx (h : Swept H w w' ids) : w'.store.pkgIdx = w.store.pkgIdx := by
  rw [h.rest]

theorem Swept.now (h : Swept H w w' ids) : w'.now = w.now := by
  rw [h.rest]

theorem Swept.amount_pos (h : Swept H w w' ids)
    (hamounts : ∀ (id : ℕ) (p : Package), w.store.packages[id]? = some p → 0 < p.amount) (id : ℕ) (p : Package)
    (hp : w'.store.packages[id]? = some p) : 0 < p.amount := by
  rw [h.packages] at hp
  split at hp
  · obtain ⟨q, hq, rfl⟩ := Option.map_eq_some_iff.mp hp
    exact hamounts id q hq
  · exact hamounts id p hp

theorem Swept.sweepable (h : Swept H w w' ids) (hw : Sweepable w) : Sweepable w' where
  nodup := by
    rw [h.index, h.pkgIdx]
    exact hw.nodup
  amount_pos := h.amount_pos hw.amount_pos

theorem Swept.isExpired (h : Swept H w w' ids) (id : ℕ) :
    AidEscrow.isExpired w' id = (decide (id ∉ ids) && AidEscrow.isExpired w id) := by
  rw [AidEscrow.isExpired, AidEscrow.isExpired, h.packages, h.now]
  by_cases hid : id ∈ ids
  · rw [if_pos hid, decide_eq_false (not_not.mpr hid), Bool.false_and]
    cases w.store.packages[id]? with
    | none => rfl
    | some p =>
      change decide (PackageStatus.expired = .created ∧ 0 < p.expiresAt ∧ p.expiresAt < w.now) = false
      apply decide_eq_false
      intro ⟨hstatus, _⟩
      cases hstatus
  · rw [if_neg hid, decide_eq_true hid, Bool.true_and]

theorem Swept.nil (H : Host τ) (w : World τ) : Swept H w w [] := by
  refine ⟨fun id => (if_neg not_mem_nil).symm, rfl, ?_⟩
  rw [flatMap_nil, append_nil]

theorem Swept.trans {u : World τ} {ids' : List ℕ} (h : Swept H w u ids) (h' : Swept H u w' ids')
    (hout : ∀ id ∈ ids', id ∉ ids) : Swept H w w' (ids ++ ids') := by
  have hsame : ∀ id ∈ ids', u.store.packages[id]? = w.store.packages[id]? := by
    intro id hid
    rw [h.packages, if_neg (hout id hid)]
  have hevents : ids'.flatMap (sweptEvents H u) = ids'.flatMap (sweptEvents H w) := by
    rw [flatMap_def, flatMap_def]
    refine congrArg flatten (map_congr_left fun id hid => ?_)
    rw [sweptEvents, sweptEvents, hsame id hid, h.now]
  have hunlocked (totals : Totals) : ids'.foldlM (unlocked u) totals = ids'.foldlM (unlocked w) totals := by
    clear hevents hout h'
    induction ids' generalizing totals with
    | nil => rfl
    | cons id ids' ih =>
      have hone : unlocked u totals id = unlocked w totals id := by
        rw [unlocked, unlocked, hsame id (mem_cons_self ..)]
      rw [foldlM_cons, foldlM_cons, hone]
      exact bind_congr fun totals => ih (fun id hid => hsame id (mem_cons_of_mem _ hid)) totals
  refine ⟨fun id => ?_, ?_, ?_⟩
  · rw [h'.packages, h.packages]
    by_cases hid : id ∈ ids
    · rw [if_neg (fun hid' => hout id hid' hid), if_pos hid, if_pos (mem_append_left _ hid)]
    · by_cases hid' : id ∈ ids'
      · rw [if_pos hid', if_neg hid, if_pos (mem_append_right _ hid')]
      · rw [if_neg hid', if_neg hid, if_neg (by simp only [mem_append, hid, hid', or_self, not_false_eq_true])]
  · rw [foldlM_append, h.totals]
    change ids'.foldlM (unlocked w) u.totals = _
    rw [← hunlocked, h'.totals]
  · have hrest := h'.rest
    have hfirst := h.rest
    rw [hevents] at hrest
    rw [flatMap_append, ← append_assoc]
    generalize ids'.flatMap (sweptEvents H w) = events' at hrest ⊢
    rw [hrest]
    dsimp only
    rw [hfirst]

theorem expireAll_spec (hamounts : ∀ (id : ℕ) (p : Package), w.store.packages[id]? = some p → 0 < p.amount) :
    ∀ (ids : List ℕ), ids.Nodup → (∀ id ∈ ids, isExpired w id = true) →
      ∃ w', ids.foldlM (expireOne H) w = .ok w' ∧ Swept H w w' ids := by
  intro ids
  induction ids generalizing w with
  | nil => exact fun _ _ => ⟨w, rfl, Swept.nil H w⟩
  | cons id ids ih =>
    intro hnodup hexpired
    obtain ⟨p, hp, -⟩ := (Option.any_eq_true ..).mp (hexpired id (mem_cons_self ..))
    obtain ⟨u, hu, hswept⟩ := expireOne_spec (H := H) hp (hamounts id p hp)
    have hout : ∀ k ∈ ids, k ∉ [id] := by
      intro k hk hmem
      rw [mem_singleton.mp hmem] at hk
      exact (nodup_cons.mp hnodup).1 hk
    have hstill : ∀ k ∈ ids, isExpired u k = true := by
      intro k hk
      rw [hswept.isExpired, decide_eq_true (hout k hk), Bool.true_and]
      exact hexpired k (mem_cons_of_mem _ hk)
    obtain ⟨v, hv, hrest⟩ := ih (hswept.amount_pos hamounts) (nodup_cons.mp hnodup).2 hstill
    refine ⟨v, ?_, hswept.trans hrest hout⟩
    rw [foldlM_cons, hu]
    exact hv

/-- The scan, by induction on the positions that are left: it takes expired packages until the limit is reached. -/
theorem foldlM_sweepPosition (maxLimit : ℕ) : ∀ (positions : List ℕ) (w : World τ) (n : ℕ),
    (∀ (id : ℕ) (p : Package), w.store.packages[id]? = some p → 0 < p.amount) →
    (positions.filterMap fun i : ℕ => w.store.index[i]?).Nodup →
    let ids := ((positions.filterMap fun i : ℕ => w.store.index[i]?).filter (isExpired w)).take (maxLimit - n)
    ∃ w', positions.foldlM (sweepPosition H maxLimit) (w, n) = .ok (w', n + ids.length) ∧ ids.foldlM (expireOne H) w = .ok w'
  | [], w, n, _, _ => ⟨w, by rw [filterMap_nil, filter_nil, take_nil]; rfl, by rw [filterMap_nil, filter_nil, take_nil]; rfl⟩
  | i :: positions, w, n, hamounts, hnodup => by
    dsimp only
    rw [foldlM_cons]
    by_cases hfull : maxLimit ≤ n
    · -- the limit is reached
      have hone : sweepPosition H maxLimit (w, n) i = .ok (w, n) := by
        unfold sweepPosition
        exact if_pos hfull
      have hrest := foldlM_sweepPosition maxLimit positions w n hamounts
        (hnodup.sublist ((sublist_cons_self i positions).filterMap _))
      have hzero : maxLimit - n = 0 := Nat.sub_eq_zero_of_le hfull
      rw [hone, ok_bind]
      simp only [hzero, take_zero] at hrest ⊢
      exact hrest
    · cases hi : w.store.index[i]? with
      | none =>
        have hone : sweepPosition H maxLimit (w, n) i = .ok (w, n) := by
          unfold sweepPosition
          rw [if_neg hfull]
          dsimp only
          rw [hi]
        have hskip : (i :: positions).filterMap (fun i : ℕ => w.store.index[i]?)
            = positions.filterMap fun i : ℕ => w.store.index[i]? := filterMap_cons_none hi
        rw [hskip] at hnodup ⊢
        rw [hone, ok_bind]
        exact foldlM_sweepPosition maxLimit positions w n hamounts hnodup
      | some id =>
        have hcons : (i :: positions).filterMap (fun i : ℕ => w.store.index[i]?)
            = id :: positions.filterMap fun i : ℕ => w.store.index[i]? := filterMap_cons_some hi
        rw [hcons] at hnodup ⊢
        rw [sweepPosition_eq (Nat.lt_of_not_le hfull) hi]
        by_cases hexpired : isExpired w id = true
        · -- the package is swept, and the rest of the scan sees the others as they were
          obtain ⟨p, hp, -⟩ := (Option.any_eq_true ..).mp hexpired
          obtain ⟨u, hu, hswept⟩ := expireOne_spec (H := H) hp (hamounts id p hp)
          have hindex : (fun i : ℕ => u.store.index[i]?) = fun i : ℕ => w.store.index[i]? := by rw [hswept.index]
          have hsame : (positions.filterMap fun i : ℕ => w.store.index[i]?).filter (isExpired u)
              = (positions.filterMap fun i : ℕ => w.store.index[i]?).filter (isExpired w) := by
            refine filter_congr fun k hk => ?_
            have hne : k ∉ [id] := by
              intro hmem
              rw [mem_singleton.mp hmem] at hk
              exact (nodup_cons.mp hnodup).1 hk
            rw [hswept.isExpired, decide_eq_true hne, Bool.true_and]
          have hrest := foldlM_sweepPosition maxLimit positions u (n + 1) (hswept.amount_pos hamounts)
            (by rw [hindex]; exact (nodup_cons.mp hnodup).2)
          dsimp only at hrest
          rw [hindex, hsame] at hrest
          obtain ⟨w', hscan, hall⟩ := hrest
          have hsub : maxLimit - n = maxLimit - (n + 1) + 1 := by omega
          rw [if_pos hexpired, hu, filter_cons_of_pos hexpired, hsub, take_succ_cons, foldlM_cons, hu, length_cons]
          refine ⟨w', ?_, hall⟩
          change foldlM _ (u, n + 1) positions = _
          rw [hscan]
          congr 2
          omega
        · rw [if_neg hexpired, filter_cons_of_neg hexpired, ok_bind]
          exact foldlM_sweepPosition maxLimit positions w n hamounts (nodup_cons.mp hnodup).2

theorem sweepExpiredPackages_eq (hw : Sweepable w) (limit : ℕ) :
    ∃ w', sweepExpiredPackages H w limit = .ok (w', min (sweepLimit limit) (expiredIds w).length) ∧
      ((expiredIds w).take (sweepLimit limit)).foldlM (expireOne H) w = .ok w' := by
  have hscan := foldlM_sweepPosition (H := H) (sweepLimit limit) (range w.store.pkgIdx) w 0 hw.amount_pos hw.nodup
  dsimp only at hscan
  rw [Nat.sub_zero, Nat.zero_add, length_take] at hscan
  exact hscan

theorem expiredIds_nodup (hw : Sweepable w) : (expiredIds w).Nodup := hw.nodup.filter _

theorem expiredIds_expired {id : ℕ} (hid : id ∈ expiredIds w) : isExpired w id = true := (mem_filter.mp hid).2

theorem Swept.expiredIds_drop {n : ℕ} (hw : Sweepable w) (h : Swept H w w' ((expiredIds w).take n)) :
    expiredIds w' = (expiredIds w).drop n := by
  have hfilter : expiredIds w' = (expiredIds w).filter (· ∉ (expiredIds w).take n) := by
    conv_lhs => rw [expiredIds, h.index, h.pkgIdx]
    conv_rhs => rw [expiredIds, filter_filter]
    exact filter_congr fun id _ => h.isExpired id
  have hsplit := take_append_drop n (expiredIds w)
  have hnodup := expiredIds_nodup hw
  rw [hfilter]
  generalize (expiredIds w).take n = first at hsplit ⊢
  generalize (expiredIds w).drop n = rest at hsplit ⊢
  rw [← hsplit] at hnodup ⊢
  have hfirst : first.filter (· ∉ first) = [] :=
    filter_eq_nil_iff.mpr fun id hid hout => of_decide_eq_true hout hid
  have hrest : rest.filter (· ∉ first) = rest := by
    refine filter_eq_self.mpr fun id hid => decide_eq_true fun hmem => ?_
    exact (nodup_append.mp hnodup).2.2 id hmem id hid rfl
  rw [filter_append, hfirst, hrest, nil_append]

/-- Calls at the same time, by induction on them: they take as many packages as they allow in all. -/
theorem sweeps_eq (limits : List ℕ) : ∀ (w : World τ), Sweepable w →
    sweeps H w limits = ((expiredIds w).take (limits.map sweepLimit).sum).foldlM (expireOne H) w := by
  induction limits with
  | nil =>
    intro w _
    rw [sweeps, map_nil, sum_nil, take_zero]
    rfl
  | cons limit limits ih =>
    intro w hw
    obtain ⟨u, hcall, hall⟩ := sweepExpiredPackages_eq (H := H) hw limit
    obtain ⟨v, hv, hswept⟩ := expireAll_spec (H := H) hw.amount_pos ((expiredIds w).take (sweepLimit limit))
      ((expiredIds_nodup hw).sublist (take_sublist ..))
      fun id hid => expiredIds_expired (mem_of_mem_take hid)
    obtain rfl : u = v := Except.ok.inj (hall.symm.trans hv)
    have hrest := ih u (hswept.sweepable hw)
    rw [hswept.expiredIds_drop hw] at hrest
    have htake : (expiredIds w).take (sweepLimit limit + (limits.map sweepLimit).sum)
        = (expiredIds w).take (sweepLimit limit) ++ ((expiredIds w).drop (sweepLimit limit)).take (limits.map sweepLimit).sum :=
      take_add
    rw [map_cons, sum_cons, htake, foldlM_append, hall, ok_bind, ← hrest]
    change (Prod.fst <$> sweepExpiredPackages H w limit) >>= _ = _
    rw [hcall]
    rfl

/-- Every call sweeps exactly the first of the expired packages, and calls that allow enough of them in all end in one
state, in which there is nothing left to sweep. -/
theorem sweep_drains {tr : Trace τ} (h : Reaches H tr w) : (∀ limit : ℕ, ∃ w',
      sweepExpiredPackages H w limit = .ok (w', min (sweepLimit limit) (expiredIds w).length) ∧
      Swept H w w' ((expiredIds w).take (min (sweepLimit limit) (expiredIds w).length))) ∧
    ∃ drained, Swept H w drained (expiredIds w) ∧
      (∀ limits : List ℕ, (expiredIds w).length ≤ (limits.map sweepLimit).sum → sweeps H w limits = .ok drained) ∧
      ∀ limit : ℕ, sweepExpiredPackages H drained limit = .ok (drained, 0) := by
  have hw := h.sweepable
  constructor
  · intro limit
    obtain ⟨w', hcall, hall⟩ := sweepExpiredPackages_eq (H := H) hw limit
    obtain ⟨v, hv, hswept⟩ := expireAll_spec (H := H) hw.amount_pos ((expiredIds w).take (sweepLimit limit))
      ((expiredIds_nodup hw).sublist (take_sublist ..))
      fun id hid => expiredIds_expired (mem_of_mem_take hid)
    obtain rfl : w' = v := Except.ok.inj (hall.symm.trans hv)
    refine ⟨w', hcall, ?_⟩
    rw [← take_eq_take_min]
    exact hswept
  · obtain ⟨drained, hall, hswept⟩ := expireAll_spec (H := H) hw.amount_pos (expiredIds w) (expiredIds_nodup hw)
      fun id hid => expiredIds_expired hid
    refine ⟨drained, hswept, fun limits hlimits => ?_, fun limit => ?_⟩
    · rw [sweeps_eq limits w hw, take_of_length_le hlimits, hall]
    · have hnone : expiredIds drained = [] := by
        have htake : Swept H w drained ((expiredIds w).take (expiredIds w).length) := by
          rw [take_length]
          exact hswept
        rw [htake.expiredIds_drop hw, drop_length]
      obtain ⟨w', hcall, hrest⟩ := sweepExpiredPackages_eq (H := H) (hswept.sweepable hw) limit
      rw [hnone] at hcall hrest
      rw [take_nil] at hrest
      obtain rfl : drained = w' := Except.ok.inj hrest
      rw [hcall, length_nil, Nat.min_zero]

def twoExpired : List (Move Balances) := [
  .call [] (.init ⟨1⟩),
  .call [⟨1⟩] (.fund ⟨9⟩ ⟨1⟩ 100),
  .call [⟨1⟩] (.createPackage ⟨1⟩ 4 ⟨2⟩ 10 ⟨9⟩ 150 ∅),
  .call [⟨1⟩] (.createPackage ⟨1⟩ 1 ⟨2⟩ 20 ⟨9⟩ 0 ∅),
  .call [⟨1⟩] (.createPackage ⟨1⟩ 2 ⟨3⟩ 30 ⟨9⟩ 150 ∅),
  .call [⟨1⟩] (.createPackage ⟨1⟩ 3 ⟨2⟩ 5 ⟨9⟩ 160 ∅),
  .call [⟨3⟩] (.claim 2),
  .tick 200]

theorem sweep_drains_twoExpired :
    ∃ w', sweepExpiredPackages (plainHost ⟨0⟩) (played (plainHost ⟨0⟩) 100 [((⟨9⟩, ⟨1⟩), 100)] twoExpired).2 1
        = .ok (w', 1) ∧
      Swept (plainHost ⟨0⟩) (played (plainHost ⟨0⟩) 100 [((⟨9⟩, ⟨1⟩), 100)] twoExpired).2 w' [4] := by
  have hids : expiredIds (played (plainHost ⟨0⟩) 100 [((⟨9⟩, ⟨1⟩), 100)] twoExpired).2 = [4, 3] := by
    decide +kernel
  have hcall := (sweep_drains (played_reaches (H := plainHost ⟨0⟩) 100 [((⟨9⟩, ⟨1⟩), 100)] twoExpired)).1 1
  rw [hids] at hcall
  exact hcall

end Soter.AidEscrow
