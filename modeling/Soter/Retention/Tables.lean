import Soter.Retention.Purge

/-! The writes of a purge to one table may be done in any batches. -/
namespace Soter.Retention
open Soter.Batches List Delegate ClaimReference

variable {ids : List String} {Row : Type}
section Keys
variable {id : Row → String} {rows : List Row} {p : Row → Bool}

theorem mem_selected_iff (hkeys : (rows.map id).Nodup) {row : Row} (hrow : row ∈ rows) :
    id row ∈ (rows.filter p).map id ↔ p row = true := by
  rw [mem_map]
  constructor
  · intro ⟨other, hother, hid⟩
    have ⟨hmem, hp⟩ := mem_filter.mp hother
    have heq : other = row := inj_on_of_nodup_map hkeys hmem hrow hid
    exact heq ▸ hp
  · intro hp
    exact ⟨row, mem_filter.mpr ⟨hrow, hp⟩, rfl⟩

theorem countP_keys (hkeys : (rows.map id).Nodup) (hids : ids.Nodup) (hsub : ∀ i ∈ ids, i ∈ rows.map id) :
    rows.countP (fun row => id row ∈ ids) = ids.length := by
  have hperm : ((rows.filter fun row => id row ∈ ids).map id).Perm ids := by
    have hsublist := (filter_sublist (p := fun row => decide (id row ∈ ids)) (l := rows)).map id
    refine (perm_ext_iff_of_nodup (hkeys.sublist hsublist) hids).mpr fun i => ?_
    constructor
    · intro hi
      obtain ⟨row, hrow, hid⟩ := mem_map.mp hi
      exact hid ▸ of_decide_eq_true (mem_filter.mp hrow).2
    · intro hi
      obtain ⟨row, hrow, hid⟩ := mem_map.mp (hsub i hi)
      exact mem_map.mpr ⟨row, mem_filter.mpr ⟨hrow, decide_eq_true (hid ▸ hi)⟩, hid⟩
  calc rows.countP (fun row => id row ∈ ids)
    _ = ((rows.filter fun row => id row ∈ ids).map id).length := by
      rw [length_map, countP_eq_length_filter]
    _ = ids.length := hperm.length_eq

end Keys

def Database.newer (cutoffDate : ℤ) (db : Database) : Database where
  auditLogs := db.auditLogs.filter (cutoffDate < ·.timestamp)
  verificationSessions := db.verificationSessions.filter (cutoffDate < ·.createdAt)
  sessions := db.sessions.filter (cutoffDate < ·.createdAt)
  steps := db.steps.filter (cutoffDate < ·.createdAt)
  submissions := db.submissions.filter (cutoffDate < ·.createdAt)
  claims := db.claims.filter (cutoffDate < ·.createdAt)
  references := db.references.filter (cutoffDate < ·.createdAt)
  verificationRequests := db.verificationRequests.filter (cutoffDate < ·.createdAt)

structure Delegate.Lawful (d : Delegate Row) : Prop where
  rows_set : ∀ rows db, d.rows (d.set rows db) = rows
  set_rows : ∀ db, d.set (d.rows db) db = db
  set_set : ∀ rows rows' db, d.set rows' (d.set rows db) = d.set rows' db
  newer_set : ∀ cutoffDate rows db,
    (d.set rows db).newer cutoffDate = d.set (rows.filter (cutoffDate < d.date ·)) (db.newer cutoffDate)
  recorded : ∀ cutoffDate db events, (∀ event ∈ events, cutoffDate ≤ event.timestamp) →
    (d.rows (db.record events)).filter (d.isOld cutoffDate) = (d.rows db).filter (d.isOld cutoffDate)
  rows_others : ∀ ids db, d.rows (d.others ids db) = d.rows db
  others_set : ∀ ids rows db, d.others ids (d.set rows db) = d.set rows (d.others ids db)
  others_nil : ∀ db, d.others [] db = db
  others_others : ∀ ids ids' db, d.others ids' (d.others ids db) = d.others (ids ++ ids') db
  others_congr : ∀ ids ids' db, (∀ i, i ∈ ids ↔ i ∈ ids') → d.others ids db = d.others ids' db
  id_detach : ∀ ids row, d.id (d.detach ids row) = d.id row
  date_detach : ∀ ids row, d.date (d.detach ids row) = d.date row
  detach_nil : ∀ row, d.detach [] row = row
  detach_detach : ∀ ids ids' row, d.detach ids' (d.detach ids row) = d.detach (ids ++ ids') row
  detach_congr : ∀ ids ids' row, (∀ i, i ∈ ids ↔ i ∈ ids') → d.detach ids row = d.detach ids' row

def Delegate.Keyed (d : Delegate Row) (db : Database) : Prop := ((d.rows db).map d.id).Nodup

structure Delegate.Marks (d : Delegate Row) (data : Row → Row) : Prop where
  id : ∀ row, d.id (data row) = d.id row
  date : ∀ row, d.date (data row) = d.date row
  deletedAt : ∀ row, (d.deletedAt (data row)).isSome

variable {ids' : List String}
section Updates
variable {d : Delegate Row} {where_ : Row → Bool} {data : Row → Row} {db : Database}

theorem Delegate.rows_updateMany (hd : d.Lawful) (where_ : Row → Bool) (data : Row → Row) (db : Database) :
    d.rows (d.updateMany where_ data db).2 = (d.rows db).map fun row => if where_ row then data row else row :=
  hd.rows_set _ _

theorem Delegate.keyed_updateMany (hd : d.Lawful) (hdata : d.Marks data) (where_ : Row → Bool) (hkeys : d.Keyed db) :
    d.Keyed (d.updateMany where_ data db).2 := by
  have hid : d.id ∘ (fun row => if where_ row then data row else row) = d.id := by
    funext row
    change d.id (if where_ row then data row else row) = d.id row
    split
    · exact hdata.id row
    · rfl
  rw [Keyed, d.rows_updateMany hd, map_map, hid]
  exact hkeys

theorem Delegate.findIds_updateMany (hd : d.Lawful) (hdata : d.Marks data)
    (hlive : ∀ row, where_ row → d.deletedAt row = none) (ids : List String) (db : Database) :
    d.findIds where_ (d.updateMany (d.among ids) data db).2 = (d.findIds where_ db).filter (· ∉ ids) := by
  have hdone (row : Row) : where_ (data row) = false := by
    by_contra hsome
    have hnone := hlive _ (Bool.eq_true_of_not_eq_false hsome)
    have hmarked := hdata.deletedAt row
    rw [hnone] at hmarked
    exact Bool.noConfusion hmarked
  rw [findIds, findIds, d.rows_updateMany hd]
  induction d.rows db with
  | nil => rfl
  | cons row rows ih =>
    rw [map_cons]
    by_cases hamong : d.id row ∈ ids
    · -- the row is written, and its id is taken from the list
      have hw : d.among ids row = true := decide_eq_true hamong
      rw [hw, if_pos rfl, filter_cons_of_neg (by rw [hdone]; exact Bool.false_ne_true), ih]
      by_cases hrow : where_ row = true
      · rw [filter_cons_of_pos hrow, map_cons, filter_cons_of_neg (by simpa using hamong)]
      · rw [filter_cons_of_neg hrow]
    · have hw : d.among ids row = false := decide_eq_false hamong
      rw [hw, if_neg Bool.false_ne_true]
      by_cases hrow : where_ row = true
      · rw [filter_cons_of_pos hrow, filter_cons_of_pos hrow, map_cons, map_cons, ih,
          filter_cons_of_pos (by simpa using hamong)]
      · rw [filter_cons_of_neg hrow, filter_cons_of_neg hrow, ih]

theorem Delegate.updateMany_nothing (hd : d.Lawful) (hnone : ∀ row ∈ d.rows db, where_ row = false) :
    d.updateMany where_ data db = (0, db) := by
  have hcount : d.count where_ db = 0 :=
    countP_eq_zero.mpr fun row hrow => by rw [hnone row hrow]; exact Bool.false_ne_true
  have hsame : ((d.rows db).map fun row => if where_ row then data row else row) = d.rows db := by
    refine (map_congr_left fun row hrow => ?_).trans (map_id _)
    rw [hnone row hrow]
    rfl
  rw [updateMany, hcount, hsame, hd.set_rows]

theorem Delegate.updateMany_congr {where' : Row → Bool} (h : ∀ row ∈ d.rows db, where_ row = where' row) :
    d.updateMany where_ data db = d.updateMany where' data db := by
  have hcount : d.count where_ db = d.count where' db := countP_congr fun row hrow => by rw [h row hrow]
  have hrows : ((d.rows db).map fun row => if where_ row then data row else row)
      = (d.rows db).map fun row => if where' row then data row else row :=
    map_congr_left fun row hrow => by rw [h row hrow]
  rw [updateMany, updateMany, hcount, hrows]

theorem map_map_key {α : Type} (key : α → String) {f : α → α} (hkey : ∀ row, key (f row) = key row)
    (hout : ∀ i ∈ ids', i ∉ ids) (rows : List α) :
    (rows.map fun row => if key row ∈ ids then f row else row).map (fun row => if key row ∈ ids' then f row else row)
      = rows.map fun row => if key row ∈ ids ++ ids' then f row else row := by
  rw [map_map]
  refine map_congr_left fun row _ => ?_
  simp only [Function.comp, mem_append]
  by_cases hids : key row ∈ ids
  · have hnot : key row ∉ ids' := fun h => hout _ h hids
    rw [if_pos hids, if_pos (Or.inl hids), hkey, if_neg hnot]
  · by_cases hids' : key row ∈ ids'
    · rw [if_neg hids, if_pos hids', if_pos (Or.inr hids')]
    · rw [if_neg hids, if_neg hids', if_neg (by simp only [hids, hids', or_self, not_false_eq_true])]

theorem Delegate.map_among (data : Row → Row) (ids : List String) (rows : List Row) :
    (rows.map fun row => if d.among ids row then data row else row)
      = rows.map fun row => if d.id row ∈ ids then data row else row :=
  map_congr_left fun row _ => by simp only [among, decide_eq_true_eq]

theorem Delegate.updateMany_append (hd : d.Lawful) (hdata : d.Marks data) (hout : ∀ i ∈ ids', i ∉ ids) :
    (d.updateMany (d.among ids') data (d.updateMany (d.among ids) data db).2).2
      = (d.updateMany (d.among (ids ++ ids')) data db).2 := by
  have hthen := d.rows_updateMany hd (d.among ids) data db
  rw [updateMany, hthen, d.map_among, d.map_among, map_map_key d.id hdata.id hout, ← d.map_among]
  rw [updateMany, updateMany, hd.set_set]

theorem Delegate.divisible_updating (hd : d.Lawful) (hdata : d.Marks data)
    (hlive : ∀ row, where_ row → d.deletedAt row = none) :
    Divisible (d.updating where_ data).pending (d.updating where_ data).batch d.Keyed where
  keeps _ ids hkeys := d.keyed_updateMany hd hdata (d.among ids) hkeys
  nodup _ hkeys := hkeys.sublist (filter_sublist.map _)
  count _ _ hkeys hids hsub :=
    countP_keys hkeys hids fun i hi => (filter_sublist.map _).subset (hsub i hi)
  left s ids _ := d.findIds_updateMany hd hdata hlive ids s
  nothing _ _ := congrArg Prod.snd (d.updateMany_nothing hd fun _ _ => decide_eq_false not_mem_nil)
  append _ _ _ hout := d.updateMany_append hd hdata hout
  same _ _ _ hsame := d.updateMany_congr fun _ _ => decide_eq_decide.mpr (hsame _)

theorem Delegate.updateMany_pending (where_ : Row → Bool) (data : Row → Row) (hkeys : d.Keyed db) :
    d.updateMany where_ data db = d.updateMany (d.among (d.findIds where_ db)) data db := by
  refine d.updateMany_congr fun row hrow => ?_
  have hiff := mem_selected_iff (p := where_) hkeys hrow
  exact (Bool.eq_iff_iff.mpr ((decide_eq_true_iff).trans hiff)).symm

theorem Delegate.newer_updateMany (hd : d.Lawful) (hdata : d.Marks data) (cutoffDate : ℤ)
    (hold : ∀ row ∈ d.rows db, where_ row → d.isOld cutoffDate row) :
    (d.updateMany where_ data db).2.newer cutoffDate = db.newer cutoffDate := by
  have hrows : ((d.rows db).map fun row => if where_ row then data row else row).filter (cutoffDate < d.date ·)
      = (d.rows db).filter (cutoffDate < d.date ·) := by
    revert hold
    induction d.rows db with
    | nil => intro _; rfl
    | cons row rows ih =>
      intro hold
      have ih := ih fun other hother => hold other (mem_cons_of_mem _ hother)
      rw [map_cons, filter_cons, filter_cons, ih]
      by_cases hrow : where_ row = true
      · -- an old row is written, and neither list has it
        have hdate := of_decide_eq_true (hold row (mem_cons_self ..) hrow)
        have hnot : ¬ cutoffDate < d.date row := by omega
        rw [if_pos hrow, hdata.date]
        simp only [hnot, decide_false, Bool.false_eq_true, if_false]
      · rw [if_neg hrow]
  change (d.set _ db).newer cutoffDate = _
  rw [hd.newer_set, hrows, ← hd.newer_set, hd.set_rows]

theorem Delegate.rows_deleteMany (hd : d.Lawful) (where_ : Row → Bool) (db : Database) : d.rows (d.deleteMany where_ db).2
      = ((d.rows db).filter fun row => ¬ where_ row).map (d.detach (d.findIds where_ db)) := by
  rw [deleteMany, hd.rows_others, hd.rows_set]

theorem Delegate.keys_deleteMany (hd : d.Lawful) (where_ : Row → Bool) (db : Database) :
    (d.rows (d.deleteMany where_ db).2).map d.id = ((d.rows db).filter fun row => ¬ where_ row).map d.id := by
  rw [d.rows_deleteMany hd, map_map]
  exact map_congr_left fun row _ => hd.id_detach _ row

theorem Delegate.findIds_deleteMany (hd : d.Lawful) (q : Row → Bool) (hq : ∀ ids row, q (d.detach ids row) = q row)
    (ids : List String) (db : Database) :
    d.findIds q (d.deleteMany (d.among ids) db).2 = (d.findIds q db).filter (· ∉ ids) := by
  rw [findIds, findIds, d.rows_deleteMany hd]
  generalize d.findIds (d.among ids) db = deleted
  induction d.rows db with
  | nil => rfl
  | cons row rows ih =>
    by_cases hamong : d.id row ∈ ids
    · have hw : ¬ (decide ¬ d.among ids row = true) = true := by simpa [among] using hamong
      rw [filter_cons_of_neg (p := fun row => decide ¬ d.among ids row = true) hw, ih]
      by_cases hrow : q row = true
      · rw [filter_cons_of_pos hrow, map_cons, filter_cons_of_neg (by simpa using hamong)]
      · rw [filter_cons_of_neg hrow]
    · have hw : (decide ¬ d.among ids row = true) = true := by simpa [among] using hamong
      rw [filter_cons_of_pos (p := fun row => decide ¬ d.among ids row = true) hw, map_cons]
      by_cases hrow : q row = true
      · have hdetached : q (d.detach deleted row) = true := (hq _ row).trans hrow
        rw [filter_cons_of_pos hdetached, filter_cons_of_pos hrow, map_cons, map_cons, ih,
          hd.id_detach, filter_cons_of_pos (by simpa using hamong)]
      · have hdetached : ¬ q (d.detach deleted row) = true := fun h => hrow ((hq _ row).symm.trans h)
        rw [filter_cons_of_neg hdetached, filter_cons_of_neg hrow, ih]

theorem Delegate.among_detach (hd : d.Lawful) (ids ids' : List String) (row : Row) :
    d.among ids' (d.detach ids row) = d.among ids' row := by
  rw [among, among, hd.id_detach]

theorem Delegate.deleteMany_nothing (hd : d.Lawful) (hnone : ∀ row ∈ d.rows db, where_ row = false) :
    d.deleteMany where_ db = (0, db) := by
  have hcount : d.count where_ db = 0 :=
    countP_eq_zero.mpr fun row hrow => by rw [hnone row hrow]; exact Bool.false_ne_true
  have hids : d.findIds where_ db = [] := by
    rw [findIds, filter_eq_nil_iff.mpr fun row hrow => by rw [hnone row hrow]; exact Bool.false_ne_true]
    rfl
  have hkept : ((d.rows db).filter fun row => ¬ where_ row) = d.rows db :=
    filter_eq_self.mpr fun row hrow => by rw [hnone row hrow]; rfl
  have hsame : (d.rows db).map (d.detach []) = d.rows db :=
    (map_congr_left fun row _ => hd.detach_nil row).trans (map_id _)
  rw [deleteMany, hcount, hids, hkept, hsame, hd.set_rows, hd.others_nil]

theorem Delegate.deleteMany_congr {where' : Row → Bool} (h : ∀ row ∈ d.rows db, where_ row = where' row) :
    d.deleteMany where_ db = d.deleteMany where' db := by
  have hcount : d.count where_ db = d.count where' db := countP_congr fun row hrow => by rw [h row hrow]
  have hids : d.findIds where_ db = d.findIds where' db := by
    rw [findIds, findIds, filter_congr h]
  have hkept : ((d.rows db).filter fun row => ¬ where_ row) = (d.rows db).filter fun row => ¬ where' row :=
    filter_congr fun row hrow => by rw [h row hrow]
  rw [deleteMany, deleteMany, hcount, hids, hkept]

theorem Delegate.mem_findIds_append (i : String) :
    i ∈ d.findIds (d.among ids) db ++ d.findIds (d.among ids') db ↔ i ∈ d.findIds (d.among (ids ++ ids')) db := by
  simp only [findIds, among, mem_append, mem_map, mem_filter, decide_eq_true_eq]
  constructor
  · rintro (⟨row, ⟨hrow, hids⟩, hid⟩ | ⟨row, ⟨hrow, hids⟩, hid⟩)
    · exact ⟨row, ⟨hrow, .inl hids⟩, hid⟩
    · exact ⟨row, ⟨hrow, .inr hids⟩, hid⟩
  · intro ⟨row, ⟨hrow, hids⟩, hid⟩
    exact hids.imp (fun h => ⟨row, ⟨hrow, h⟩, hid⟩) fun h => ⟨row, ⟨hrow, h⟩, hid⟩

theorem Delegate.deleteMany_append (hd : d.Lawful) (hout : ∀ i ∈ ids', i ∉ ids) :
    (d.deleteMany (d.among ids') (d.deleteMany (d.among ids) db).2).2 = (d.deleteMany (d.among (ids ++ ids')) db).2 := by
  have hids : d.findIds (d.among ids') (d.deleteMany (d.among ids) db).2 = d.findIds (d.among ids') db := by
    rw [d.findIds_deleteMany hd _ (d.among_detach hd · ids' ·)]
    refine filter_eq_self.mpr fun i hi => decide_eq_true ?_
    obtain ⟨row, hrow, hid⟩ := mem_map.mp hi
    exact hid ▸ hout _ (of_decide_eq_true (mem_filter.mp hrow).2)
  have hrows : (((d.rows db).filter fun row => ¬ d.among ids row).map (d.detach (d.findIds (d.among ids) db))).filter
        (fun row => ¬ d.among ids' row)
      = ((d.rows db).filter fun row => ¬ d.among (ids ++ ids') row).map (d.detach (d.findIds (d.among ids) db)) := by
    rw [filter_map, filter_filter]
    refine congrArg (map _) (filter_congr fun row _ => ?_)
    simp only [Function.comp, hd.id_detach, among, decide_eq_true_eq, mem_append, not_or, Bool.decide_and]
    exact Bool.and_comm ..
  have hthen := d.rows_deleteMany hd (d.among ids) db
  conv_lhs => rw [deleteMany]
  dsimp only
  rw [hthen, hids, hrows, map_map]
  have hdetach : d.detach (d.findIds (d.among ids') db) ∘ d.detach (d.findIds (d.among ids) db)
      = d.detach (d.findIds (d.among (ids ++ ids')) db) :=
    funext fun row => (hd.detach_detach _ _ row).trans (hd.detach_congr _ _ row d.mem_findIds_append)
  rw [hdetach, deleteMany, deleteMany]
  dsimp only
  rw [hd.others_set, hd.others_set, hd.others_set, hd.others_set, hd.others_others, hd.set_set,
    hd.others_congr _ _ db d.mem_findIds_append]

theorem Delegate.divisible_deleting (hd : d.Lawful) (hwhere : ∀ ids row, where_ (d.detach ids row) = where_ row) :
    Divisible (d.deleting where_).pending (d.deleting where_).batch d.Keyed where
  keeps s ids hkeys := by
    rw [Keyed]
    have hmap := d.keys_deleteMany hd (d.among ids) s
    exact hmap ▸ List.Nodup.sublist (filter_sublist.map _) hkeys
  nodup _ hkeys := hkeys.sublist (filter_sublist.map _)
  count _ _ hkeys hids hsub := countP_keys hkeys hids fun i hi => (filter_sublist.map _).subset (hsub i hi)
  left s ids _ := d.findIds_deleteMany hd where_ hwhere ids s
  nothing _ _ := congrArg Prod.snd (d.deleteMany_nothing hd fun _ _ => decide_eq_false not_mem_nil)
  append _ _ _ hout := d.deleteMany_append hd hout
  same _ _ _ hsame := d.deleteMany_congr fun _ _ => decide_eq_decide.mpr (hsame _)

theorem Delegate.deleteMany_pending (where_ : Row → Bool) (hkeys : d.Keyed db) :
    d.deleteMany where_ db = d.deleteMany (d.among (d.findIds where_ db)) db := by
  refine d.deleteMany_congr fun row hrow => ?_
  have hiff := mem_selected_iff (p := where_) hkeys hrow
  exact (Bool.eq_iff_iff.mpr ((decide_eq_true_iff).trans hiff)).symm

end Updates
section Tables

variable {α : Type}

theorem Delegate.lawful_of_alone {Row : Type} {d : Delegate Row} (hothers : ∀ ids db, d.others ids db = db)
    (hdetach : ∀ ids row, d.detach ids row = row) (rows_set : ∀ rows db, d.rows (d.set rows db) = rows)
    (set_rows : ∀ db, d.set (d.rows db) db = db) (set_set : ∀ rows rows' db, d.set rows' (d.set rows db) = d.set rows' db)
    (newer_set : ∀ cutoffDate rows db,
      (d.set rows db).newer cutoffDate = d.set (rows.filter (cutoffDate < d.date ·)) (db.newer cutoffDate))
    (recorded : ∀ cutoffDate db events, (∀ event ∈ events, cutoffDate ≤ event.timestamp) →
      (d.rows (db.record events)).filter (d.isOld cutoffDate) = (d.rows db).filter (d.isOld cutoffDate)) : d.Lawful where
  rows_set := rows_set
  set_rows := set_rows
  set_set := set_set
  newer_set := newer_set
  recorded := recorded
  rows_others ids db := congrArg d.rows (hothers ids db)
  others_set ids rows db := (hothers ids _).trans (congrArg (d.set rows) (hothers ids db).symm)
  others_nil := hothers []
  others_others ids ids' db := by rw [hothers, hothers, hothers]
  others_congr ids ids' db _ := by rw [hothers, hothers]
  id_detach ids row := congrArg d.id (hdetach ids row)
  date_detach ids row := congrArg d.date (hdetach ids row)
  detach_nil := hdetach []
  detach_detach ids ids' row := by rw [hdetach, hdetach, hdetach]
  detach_congr ids ids' row _ := by rw [hdetach, hdetach]

theorem filter_isOld_record (cutoffDate : ℤ) (db : Database) (events : List AuditLog)
    (hevents : ∀ event ∈ events, cutoffDate ≤ event.timestamp) :
    (db.record events).auditLogs.filter (auditLog.isOld cutoffDate) = db.auditLogs.filter (auditLog.isOld cutoffDate) := by
  have hnone : events.filter (auditLog.isOld cutoffDate) = [] := by
    refine filter_eq_nil_iff.mpr fun event hevent hold => ?_
    have hdate : event.timestamp < cutoffDate := of_decide_eq_true hold
    have hle := hevents event hevent
    omega
  rw [Database.record, filter_append, hnone, append_nil]

theorem auditLog_lawful : auditLog.Lawful :=
  lawful_of_alone (fun _ _ => rfl) (fun _ _ => rfl) (fun _ _ => rfl) (fun _ => rfl) (fun _ _ _ => rfl)
    (fun _ _ _ => rfl) filter_isOld_record

theorem verificationSession_lawful : verificationSession.Lawful :=
  lawful_of_alone (fun _ _ => rfl) (fun _ _ => rfl) (fun _ _ => rfl) (fun _ => rfl) (fun _ _ _ => rfl)
    (fun _ _ _ => rfl) fun _ _ _ _ => rfl

theorem sessionSubmission_lawful : sessionSubmission.Lawful :=
  lawful_of_alone (fun _ _ => rfl) (fun _ _ => rfl) (fun _ _ => rfl) (fun _ => rfl) (fun _ _ _ => rfl)
    (fun _ _ _ => rfl) fun _ _ _ _ => rfl

theorem verificationRequest_lawful : verificationRequest.Lawful :=
  lawful_of_alone (fun _ _ => rfl) (fun _ _ => rfl) (fun _ _ => rfl) (fun _ => rfl) (fun _ _ _ => rfl)
    (fun _ _ _ => rfl) fun _ _ _ _ => rfl

theorem filter_notMem_append (key : α → String) (ids ids' : List String) (rows : List α) :
    (rows.filter (key · ∉ ids)).filter (key · ∉ ids') = rows.filter (key · ∉ ids ++ ids') := by
  rw [filter_filter]
  refine filter_congr fun row _ => ?_
  simp only [mem_append, not_or, Bool.decide_and]
  exact Bool.and_comm ..

theorem filter_notMem_congr (key : α → String) (h : ∀ i, i ∈ ids ↔ i ∈ ids')
    (rows : List α) : rows.filter (key · ∉ ids) = rows.filter (key · ∉ ids') :=
  filter_congr fun row _ => decide_eq_decide.mpr (not_congr (h (key row)))

theorem filter_notMem_nil (key : α → String) (rows : List α) : rows.filter (key · ∉ []) = rows :=
  filter_eq_self.mpr fun _ _ => decide_eq_true not_mem_nil

theorem session_lawful : session.Lawful where
  rows_set _ _ := rfl
  set_rows _ := rfl
  set_set _ _ _ := rfl
  newer_set _ _ _ := rfl
  recorded _ _ _ _ := rfl
  rows_others _ _ := rfl
  others_set _ _ _ := rfl
  others_nil db := by
    change { db with steps := _, submissions := _ } = db
    rw [filter_notMem_nil, filter_notMem_nil]
  others_others ids ids' db :=
    congrArg₂ (fun steps submissions => { db with steps, submissions })
      (filter_notMem_append SessionStep.sessionId ids ids' db.steps)
      (filter_notMem_append SessionSubmission.sessionId ids ids' db.submissions)
  others_congr _ _ db h :=
    congrArg₂ (fun steps submissions => { db with steps, submissions })
      (filter_notMem_congr SessionStep.sessionId h db.steps)
      (filter_notMem_congr SessionSubmission.sessionId h db.submissions)
  id_detach _ _ := rfl
  date_detach _ _ := rfl
  detach_nil _ := rfl
  detach_detach _ _ _ := rfl
  detach_congr _ _ _ _ := rfl

theorem setNull_nil (reference : Option String) : setNull [] reference = reference := by
  cases reference with
  | none | some id => rfl

theorem setNull_setNull (ids ids' : List String) (reference : Option String) :
    setNull ids' (setNull ids reference) = setNull (ids ++ ids') reference := by
  cases reference with
  | none => rfl
  | some id =>
    by_cases h : id ∈ ids <;> by_cases h' : id ∈ ids' <;> simp [setNull, Option.filter, h, h']

theorem setNull_congr (h : ∀ i, i ∈ ids ↔ i ∈ ids') (reference : Option String) :
    setNull ids reference = setNull ids' reference := by
  have hsame : (fun i => decide (i ∉ ids)) = fun i => decide (i ∉ ids') :=
    funext fun i => decide_eq_decide.mpr (not_congr (h i))
  rw [setNull, setNull, hsame]

theorem ClaimReference.detach_nil (row : ClaimReference) : row.detach [] = row := by
  rw [detach, setNull_nil]

theorem ClaimReference.detach_detach (ids ids' : List String) (row : ClaimReference) :
    (row.detach ids).detach ids' = row.detach (ids ++ ids') := by
  rw [detach, detach, detach, setNull_setNull]

theorem ClaimReference.detach_congr (h : ∀ i, i ∈ ids ↔ i ∈ ids') (row : ClaimReference) :
    row.detach ids = row.detach ids' := by
  rw [detach, detach, setNull_congr h]

theorem claim_lawful : claim.Lawful where
  rows_set _ _ := rfl
  set_rows _ := rfl
  set_set _ _ _ := rfl
  newer_set _ _ _ := rfl
  recorded _ _ _ _ := rfl
  rows_others _ _ := rfl
  others_set _ _ _ := rfl
  others_nil db := by
    have hsame : db.references.map (detach []) = db.references :=
      (map_congr_left fun row _ => row.detach_nil).trans (map_id _)
    exact congrArg (fun references => { db with references }) hsame
  others_others ids ids' db := by
    have hsame : (db.references.map (detach ids)).map (detach ids') = db.references.map (detach (ids ++ ids')) := by
      rw [map_map]
      exact map_congr_left fun row _ => row.detach_detach ids ids'
    exact congrArg (fun references => { db with references }) hsame
  others_congr ids ids' db h := by
    have hsame : db.references.map (detach ids) = db.references.map (detach ids') :=
      map_congr_left fun row _ => row.detach_congr h
    exact congrArg (fun references => { db with references }) hsame
  id_detach _ _ := rfl
  date_detach _ _ := rfl
  detach_nil row := by
    change { row with reissuedFromId := _ } = row
    rw [setNull_nil]
  detach_detach ids ids' row := by
    change { row with reissuedFromId := setNull ids' (setNull ids row.reissuedFromId) } = { row with reissuedFromId := _ }
    rw [setNull_setNull]
  detach_congr ids ids' row h := by
    change { row with reissuedFromId := _ } = { row with reissuedFromId := _ }
    rw [setNull_congr h]

end Tables
end Soter.Retention
