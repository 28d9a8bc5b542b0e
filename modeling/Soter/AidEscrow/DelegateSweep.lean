import Soter.AidEscrow.DelegateActs
import Soter.AidEscrow.Sweep

/-! The sweep of delegates takes the registrations whose expiry has passed, in key order, and cannot get stuck: an
expiry is never stored without a delegate. -/
namespace Soter.AidEscrow.Delegate
open Std Soter.Runs Soter.MapSum List

variable {τ : Type} {H : Host τ} {w w' u : World τ} {entries entries' : List (ℕ × Address)}

def overdue (w : World τ) : List ℕ :=
  (w.delegation.expiry.toList.filter fun entry => 0 < entry.2 ∧ entry.2 ≤ w.now).map Prod.fst

def dropRecord (H : Host τ) (w : World τ) (entry : ℕ × Address) : DelegateHistory :=
  ⟨entry.1, some entry.2, H.contract, H.contract, w.now, delegateExpired⟩

def dropEvent (H : Host τ) (w : World τ) (entry : ℕ × Address) : Published :=
  let recipient := (w.store.packages[entry.1]?).elim H.contract (·.recipient)
  ⟨eventSchemaVersion, .delegateRevoked entry.1 recipient entry.2 H.contract w.now⟩

def logged (H : Host τ) (w : World τ) (entries : List (ℕ × Address)) : World τ :=
  { w with
    delegation := { w.delegation with history := w.delegation.history ++ entries.map (dropRecord H w) }
    events := w.events ++ entries.map (dropEvent H w) }

/-- Exactly these registrations have been removed, each with a record and an event; nothing else has changed. -/
structure Dropped (H : Host τ) (w w' : World τ) (entries : List (ℕ × Address)) : Prop where
  held : ∀ entry ∈ entries, w.delegation.delegates[entry.1]? = some entry.2
  delegates : ∀ id : ℕ, w'.delegation.delegates[id]?
    = if id ∈ entries.map Prod.fst then none else w.delegation.delegates[id]?
  expiry : ∀ id : ℕ, w'.delegation.expiry[id]?
    = if id ∈ entries.map Prod.fst then none else w.delegation.expiry[id]?
  rest : w' = { logged H w entries with
    delegation := { (logged H w entries).delegation with
      delegates := w'.delegation.delegates, expiry := w'.delegation.expiry } }

def sweeps (H : Host τ) (w : World τ) (limits : List ℕ) : World τ :=
  limits.foldl (fun w limit => (sweepExpiredDelegates H w limit).1) w

def NoOrphan (w : World τ) : Prop :=
  ∀ id expiresAt : ℕ, w.delegation.expiry[id]? = some expiresAt →
    ∃ delegate, w.delegation.delegates[id]? = some delegate

theorem registration_eq_some {id : ℕ} {delegate : Address} {expiry : Option ℕ}
    (h : w.registration id = some (delegate, expiry)) : w.delegation.delegates[id]? = some delegate := by
  unfold World.registration at h
  cases hd : w.delegation.delegates[id]? with
  | none =>
    rw [hd] at h
    cases h
  | some d =>
    rw [hd] at h
    exact congrArg some (congrArg Prod.fst (Option.some.inj h))

theorem noOrphan_atom {a : Act} (h : Atom H w a w') (hw : NoOrphan w) : NoOrphan w' := by
  intro id expiresAt he
  rcases h.registration_cases id with ⟨hsame, hexpiry⟩ | ⟨_, d, e, -, hnew, -⟩ | ⟨-, hnone, -⟩
  · obtain ⟨d, hd⟩ := hw id expiresAt (hexpiry.symm.trans he)
    have hreg : w'.registration id = some (d, w.delegation.expiry[id]?) := by
      rw [hsame, World.registration, hd]
      rfl
    exact ⟨d, registration_eq_some hreg⟩
  · exact ⟨d, registration_eq_some hnew⟩
  · rw [hnone] at he
    cases he

theorem noOrphan {tr : Trace τ} (h : Reaches H tr w) : NoOrphan w := by
  apply h.invariant
  · intro now tokens id expiresAt he
    simp [World.deployed] at he
  · intro u a v _ hatom hI
    exact noOrphan_atom hatom hI

theorem mem_overdue {id : ℕ} :
    id ∈ overdue w ↔ ∃ expiresAt, w.delegation.expiry[id]? = some expiresAt ∧ 0 < expiresAt ∧ expiresAt ≤ w.now := by
  simp only [overdue, mem_map, mem_filter, decide_eq_true_eq, Prod.exists, exists_and_right,
    exists_eq_right, ExtTreeMap.mem_toList_iff_getElem?_eq_some]

theorem overdue_sorted (w : World τ) : (overdue w).Pairwise (· < ·) := by
  have hkeys := ExtTreeMap.ordered_keys_toList (t := w.delegation.expiry)
  rw [overdue, pairwise_map]
  exact (hkeys.filter _).imp fun h => Nat.compare_eq_lt.mp h

theorem overdue_nodup (w : World τ) : (overdue w).Nodup := (overdue_sorted w).imp Nat.ne_of_lt

theorem overdue_entries (hw : NoOrphan w) (ids : List ℕ) (hids : ∀ id ∈ ids, id ∈ overdue w) :
    ∃ entries : List (ℕ × Address), entries.map Prod.fst = ids ∧
      ∀ entry ∈ entries, w.delegation.delegates[entry.1]? = some entry.2 := by
  induction ids with
  | nil => exact ⟨[], rfl, fun _ h => absurd h not_mem_nil⟩
  | cons id ids ih =>
    obtain ⟨entries, hmap, hheld⟩ := ih fun k hk => hids k (mem_cons_of_mem _ hk)
    obtain ⟨expiresAt, hexpiry, -⟩ := mem_overdue.mp (hids id (mem_cons_self ..))
    obtain ⟨delegate, hdelegate⟩ := hw id expiresAt hexpiry
    refine ⟨(id, delegate) :: entries, by rw [map_cons, hmap], ?_⟩
    intro entry hentry
    rcases mem_cons.mp hentry with rfl | hentry
    · exact hdelegate
    · exact hheld entry hentry

theorem logged_append (H : Host τ) (w : World τ) (entries entries' : List (ℕ × Address)) :
    logged H (logged H w entries) entries' = logged H w (entries ++ entries') := by
  unfold logged
  rw [map_append, map_append, ← append_assoc, ← append_assoc]
  rfl

theorem sweepOne_eq {s : Sweep τ} {id : ℕ} {delegate : Address} (hd : s.delegateMap[id]? = some delegate) :
    sweepOne H s id = ⟨logged H s.world [(id, delegate)], s.delegateMap.erase id, s.expiryMap.erase id,
      s.cleanedCount + 1⟩ := by
  rw [sweepOne, hd]
  simp only [logged, map_cons, map_nil, dropEvent]
  cases s.world.store.packages[id]? with
  | none | some package => rfl

theorem foldl_sweepOne (entries : List (ℕ × Address)) : ∀ s : Sweep τ, (entries.map Prod.fst).Nodup →
    (∀ entry ∈ entries, s.delegateMap[entry.1]? = some entry.2) →
      (entries.map Prod.fst).foldl (sweepOne H) s = ⟨logged H s.world entries,
        (entries.map Prod.fst).foldl ExtTreeMap.erase s.delegateMap,
        (entries.map Prod.fst).foldl ExtTreeMap.erase s.expiryMap, s.cleanedCount + entries.length⟩ := by
  induction entries with
  | nil =>
    intro s _ _
    simp only [map_nil, foldl_nil, logged, append_nil, length_nil, Nat.add_zero]
  | cons entry entries ih =>
    intro s hnodup hheld
    have hfresh := (nodup_cons.mp hnodup).1
    rw [map_cons, foldl_cons, sweepOne_eq (hheld entry (mem_cons_self ..)), ih _ (nodup_cons.mp hnodup).2]
    · dsimp only
      rw [logged_append, foldl_cons, foldl_cons, length_cons]
      congr 1
      omega
    · intro entry' hentry'
      have hne : entry'.1 ≠ entry.1 := fun he => hfresh (he ▸ mem_map_of_mem hentry')
      change (s.delegateMap.erase entry.1)[entry'.1]? = _
      rw [get_erase, if_neg hne]
      exact hheld entry' (mem_cons_of_mem _ hentry')

theorem get_foldl_erase {V : Type} (ids : List ℕ) (id : ℕ) : ∀ m : ExtTreeMap ℕ V,
    (ids.foldl ExtTreeMap.erase m)[id]? = if id ∈ ids then none else m[id]? := by
  induction ids with
  | nil => exact fun m => (if_neg not_mem_nil).symm
  | cons k ids ih =>
    intro m
    rw [foldl_cons, ih, get_erase]
    by_cases hmem : id ∈ ids
    · rw [if_pos hmem, if_pos (mem_cons_of_mem _ hmem)]
    · rw [if_neg hmem]
      exact if_congr (by simp [hmem]) rfl rfl

theorem sweepExpiredDelegates_eq (hw : NoOrphan w) (limit : ℕ) :
    ∃ w' entries, sweepExpiredDelegates H w limit = (w', min (sweepLimit limit) (overdue w).length) ∧
      entries.map Prod.fst = (overdue w).take (sweepLimit limit) ∧ Dropped H w w' entries := by
  obtain ⟨entries, hids, hheld⟩ := overdue_entries hw ((overdue w).take (sweepLimit limit)) fun id hid => mem_of_mem_take hid
  have hnodup : (entries.map Prod.fst).Nodup := by
    rw [hids]
    exact (overdue_nodup w).sublist (take_sublist ..)
  have hcount : entries.length = min (sweepLimit limit) (overdue w).length := by
    rw [← length_map (f := Prod.fst), hids, length_take]
  have hloop := foldl_sweepOne (H := H) entries ⟨w, w.delegation.delegates, w.delegation.expiry, 0⟩ hnodup hheld
  rw [Nat.zero_add] at hloop
  dsimp only at hloop
  have hcall : sweepExpiredDelegates H w limit
      = if 0 < entries.length then
          ({ logged H w entries with
            delegation := { (logged H w entries).delegation with
              delegates := (entries.map Prod.fst).foldl ExtTreeMap.erase w.delegation.delegates
              expiry := (entries.map Prod.fst).foldl ExtTreeMap.erase w.delegation.expiry } }, entries.length)
        else (logged H w entries, entries.length) := by
    have hfirst : Delegate.expiredIds w (sweepLimit limit) = entries.map Prod.fst := hids.symm
    have hloop' := (congrArg (foldl (sweepOne H) _) hfirst).trans hloop
    exact congrArg (fun s : Sweep τ =>
      if 0 < s.cleanedCount then
        ({ s.world with delegation := { s.world.delegation with
            delegates := s.delegateMap, expiry := s.expiryMap } }, s.cleanedCount)
      else (s.world, s.cleanedCount)) hloop'
  by_cases hsome : 0 < entries.length
  · rw [if_pos hsome, hcount] at hcall
    refine ⟨_, entries, hcall, hids, ⟨hheld, ?_, ?_, rfl⟩⟩
    · exact fun id => get_foldl_erase _ id _
    · exact fun id => get_foldl_erase _ id _
  · obtain rfl : entries = [] := length_eq_zero_iff.mp (by omega)
    rw [if_neg hsome, hcount] at hcall
    exact ⟨_, [], hcall, hids, ⟨hheld, fun id => (if_neg not_mem_nil).symm, fun id => (if_neg not_mem_nil).symm, rfl⟩⟩

theorem Dropped.now (h : Dropped H w w' entries) : w'.now = w.now := by
  rw [h.rest]
  rfl

theorem Dropped.noOrphan (h : Dropped H w w' entries) (hw : NoOrphan w) : NoOrphan w' := by
  intro id expiresAt he
  rw [h.expiry] at he
  rw [h.delegates]
  by_cases hid : id ∈ entries.map Prod.fst
  · rw [if_pos hid] at he
    cases he
  · rw [if_neg hid] at he ⊢
    exact hw id expiresAt he

theorem Dropped.nil (H : Host τ) (w : World τ) : Dropped H w w [] := by
  refine ⟨fun _ h => absurd h not_mem_nil, fun id => (if_neg not_mem_nil).symm, fun id => (if_neg not_mem_nil).symm, ?_⟩
  simp only [logged, map_nil, append_nil]

theorem Dropped.trans (h : Dropped H w u entries) (h' : Dropped H u w' entries') : Dropped H w w' (entries ++ entries') where
  held entry hentry := by
    rcases mem_append.mp hentry with hfirst | hlater
    · exact h.held entry hfirst
    · have hget := h'.held entry hlater
      rw [h.delegates] at hget
      split at hget
      · cases hget
      · exact hget
  delegates id := by
    rw [h'.delegates, h.delegates, map_append]
    by_cases hid : id ∈ entries'.map Prod.fst
    · rw [if_pos hid, if_pos (mem_append_right _ hid)]
    · rw [if_neg hid]
      exact if_congr (by simp only [mem_append, hid, or_false]) rfl rfl
  expiry id := by
    rw [h'.expiry, h.expiry, map_append]
    by_cases hid : id ∈ entries'.map Prod.fst
    · rw [if_pos hid, if_pos (mem_append_right _ hid)]
    · rw [if_neg hid]
      exact if_congr (by simp only [mem_append, hid, or_false]) rfl rfl
  rest := by
    have hlater := h'.rest
    have hfirst := h.rest
    have hrecord : dropRecord H u = dropRecord H w := by
      unfold dropRecord
      rw [h.now]
    have hevent : dropEvent H u = dropEvent H w := by
      unfold dropEvent
      rw [hfirst]
      rfl
    rw [logged, hrecord, hevent] at hlater
    rw [logged, map_append, map_append, ← append_assoc, ← append_assoc]
    generalize entries'.map (dropRecord H w) = records at hlater ⊢
    generalize entries'.map (dropEvent H w) = events at hlater ⊢
    rw [logged] at hfirst
    generalize entries.map (dropRecord H w) = records' at hfirst ⊢
    generalize entries.map (dropEvent H w) = events' at hfirst ⊢
    rw [hlater]
    dsimp only
    rw [hfirst]

theorem Dropped.unique {v : World τ} (h : Dropped H w w' entries) (h' : Dropped H w v entries')
    (hids : entries.map Prod.fst = entries'.map Prod.fst) : w' = v := by
  have hentries : entries = entries' := by
    apply ext_getElem
    · simpa only [length_map] using congrArg length hids
    · intro i hi hi'
      have hfst : entries[i].1 = entries'[i].1 := by
        have hget := getElem_of_eq hids (length_map (f := Prod.fst) ▸ hi)
        simpa only [getElem_map] using hget
      have hsnd := h.held entries[i] (getElem_mem hi)
      rw [hfst, h'.held entries'[i] (getElem_mem hi')] at hsnd
      exact Prod.ext hfst (Option.some.inj hsnd).symm
  have hdelegates : w'.delegation.delegates = v.delegation.delegates := by
    apply ExtTreeMap.ext_getElem?
    intro id
    rw [h.delegates, h'.delegates, hids]
  have hexpiry : w'.delegation.expiry = v.delegation.expiry := by
    apply ExtTreeMap.ext_getElem?
    intro id
    rw [h.expiry, h'.expiry, hids]
  rw [h.rest, h'.rest, hentries, hdelegates, hexpiry]

theorem Dropped.overdue_drop {n : ℕ} (h : Dropped H w w' entries)
    (hids : entries.map Prod.fst = (overdue w).take n) : overdue w' = (overdue w).drop n := by
  apply (overdue_sorted w').eq_of_mem_iff ((overdue_sorted w).sublist (drop_sublist ..))
  intro id
  have hsplit := take_append_drop n (overdue w)
  have hnodup := overdue_nodup w
  rw [← hsplit] at hnodup
  have hapart := (nodup_append.mp hnodup).2.2
  have hmem : id ∈ overdue w' ↔ id ∉ (overdue w).take n ∧ id ∈ overdue w := by
    rw [mem_overdue, mem_overdue, h.expiry, h.now, hids]
    by_cases hid : id ∈ (overdue w).take n
    · simp [hid]
    · simp [hid]
  rw [hmem]
  constructor
  · intro ⟨hout, hin⟩
    rw [← hsplit] at hin
    exact (mem_append.mp hin).resolve_left hout
  · intro hin
    exact ⟨fun hfirst => hapart id hfirst id hin rfl, mem_of_mem_drop hin⟩

theorem Dropped.getDelegate (h : Dropped H w w' entries) (hids : ∀ id ∈ entries.map Prod.fst, id ∈ overdue w) (id : ℕ) :
    Delegate.getDelegate w' id = Delegate.getDelegate w id := by
  unfold Delegate.getDelegate isDelegateExpired
  rw [h.delegates, h.expiry, h.now]
  by_cases hid : id ∈ entries.map Prod.fst
  · obtain ⟨expiresAt, hexpiry, hlate⟩ := mem_overdue.mp (hids id hid)
    rw [if_pos hid, hexpiry]
    cases w.delegation.delegates[id]? with
    | none => rfl
    | some delegate => simp [hlate]
  · rw [if_neg hid, if_neg hid]

theorem sweeps_eq (limits : List ℕ) : ∀ w : World τ, NoOrphan w →
    ∃ entries, entries.map Prod.fst = (overdue w).take (limits.map sweepLimit).sum ∧
      Dropped H w (sweeps H w limits) entries := by
  induction limits with
  | nil => exact fun w _ => ⟨[], rfl, Dropped.nil H w⟩
  | cons limit limits ih =>
    intro w hw
    obtain ⟨u, entries, hcall, hids, hdropped⟩ := sweepExpiredDelegates_eq (H := H) hw limit
    obtain ⟨entries', hids', hdropped'⟩ := ih u (hdropped.noOrphan hw)
    rw [hdropped.overdue_drop hids] at hids'
    refine ⟨entries ++ entries', ?_, ?_⟩
    · rw [map_append, hids, hids', map_cons, sum_cons, take_add]
    · have hsweeps : sweeps H w (limit :: limits) = sweeps H u limits := by
        rw [sweeps, foldl_cons, hcall]
        rfl
      rw [hsweeps]
      exact hdropped.trans hdropped'

/-- No expiry is stored without a delegate, so every call removes exactly the first overdue registrations and nobody
loses a delegate on show. Calls that allow enough of them in all end in one state, with nothing left to remove. -/
theorem delegate_sweep_drains {tr : Trace τ} (h : Reaches H tr w) : NoOrphan w ∧ (overdue w).Pairwise (· < ·) ∧
    (∀ limit : ℕ, ∃ w' entries,
      sweepExpiredDelegates H w limit = (w', min (sweepLimit limit) (overdue w).length) ∧
      entries.map Prod.fst = (overdue w).take (min (sweepLimit limit) (overdue w).length) ∧
      Dropped H w w' entries ∧ ∀ id : ℕ, Delegate.getDelegate w' id = Delegate.getDelegate w id) ∧
    ∃ drained entries, entries.map Prod.fst = overdue w ∧ Dropped H w drained entries ∧
      (∀ limits : List ℕ, (overdue w).length ≤ (limits.map sweepLimit).sum → sweeps H w limits = drained) ∧
      ∀ limit : ℕ, sweepExpiredDelegates H drained limit = (drained, 0) := by
  have hw := noOrphan h
  refine ⟨hw, overdue_sorted w, ?_, ?_⟩
  · intro limit
    obtain ⟨w', entries, hcall, hids, hdropped⟩ := sweepExpiredDelegates_eq (H := H) hw limit
    refine ⟨w', entries, hcall, ?_, hdropped, hdropped.getDelegate fun id hid => ?_⟩
    · rw [hids]
      exact take_eq_take_min
    · rw [hids] at hid
      exact mem_of_mem_take hid
  · obtain ⟨entries, hids, hdropped⟩ := sweeps_eq (H := H) (replicate (overdue w).length 1) w hw
    have hall : (overdue w).length ≤ ((replicate (overdue w).length 1).map sweepLimit).sum := by
      rw [map_replicate, sum_replicate]
      exact (Nat.mul_one _).ge
    rw [take_of_length_le hall] at hids
    refine ⟨_, entries, hids, hdropped, fun limits hlimits => ?_, fun limit => ?_⟩
    · obtain ⟨entries', hids', hdropped'⟩ := sweeps_eq (H := H) limits w hw
      rw [take_of_length_le hlimits] at hids'
      exact hdropped'.unique hdropped (hids'.trans hids.symm)
    · have hnone := hdropped.overdue_drop (n := (overdue w).length) (by rw [hids, take_length])
      rw [drop_length] at hnone
      obtain ⟨u, entries', hcall, hids', hdropped'⟩ := sweepExpiredDelegates_eq (H := H) (hdropped.noOrphan hw) limit
      rw [hnone, take_nil] at hids'
      rw [hnone, length_nil, Nat.min_zero] at hcall
      rw [hcall, hdropped'.unique (Dropped.nil H _) hids']

def twoOverdue : List (Move Balances) := [
  .call [] (.init ⟨1⟩),
  .call [⟨1⟩] (.fund ⟨9⟩ ⟨1⟩ 100),
  .call [⟨1⟩] (.batchCreatePackages ⟨1⟩ [⟨2⟩, ⟨2⟩, ⟨2⟩, ⟨3⟩] [10, 10, 10, 10] ⟨9⟩ 0 [∅, ∅, ∅, ∅]),
  .call [⟨1⟩] (.setDelegateWithExpiry ⟨1⟩ 3 ⟨5⟩ 150),
  .call [⟨1⟩] (.setDelegateWithExpiry ⟨1⟩ 1 ⟨4⟩ 160),
  .call [⟨1⟩] (.setDelegateWithExpiry ⟨1⟩ 0 ⟨4⟩ 300),
  .call [⟨1⟩] (.setDelegate ⟨1⟩ 2 ⟨4⟩),
  .tick 200]

theorem delegate_sweep_drains_twoOverdue : ∃ w' entries,
      sweepExpiredDelegates (plainHost ⟨0⟩) (played (plainHost ⟨0⟩) 100 [((⟨9⟩, ⟨1⟩), 100)] twoOverdue).2 1
        = (w', 1) ∧ entries.map Prod.fst = [1] ∧
      Dropped (plainHost ⟨0⟩) (played (plainHost ⟨0⟩) 100 [((⟨9⟩, ⟨1⟩), 100)] twoOverdue).2 w' entries := by
  have hids : overdue (played (plainHost ⟨0⟩) 100 [((⟨9⟩, ⟨1⟩), 100)] twoOverdue).2 = [1, 3] := by
    decide +kernel
  obtain ⟨w', entries, hcall, hfirst, hdropped, -⟩ := (delegate_sweep_drains
    (played_reaches (H := plainHost ⟨0⟩) 100 [((⟨9⟩, ⟨1⟩), 100)] twoOverdue)).2.2.1 1
  rw [hids] at hcall hfirst
  exact ⟨w', entries, hcall, hfirst, hdropped⟩

end Soter.AidEscrow.Delegate
