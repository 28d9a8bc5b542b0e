import Soter.Retention.Tables

/-! Purges of any batch sizes, in one run or in several, end in the same data, unless a row hangs on one that is purged. -/
namespace Soter.Retention
open Soter.Batches List Database RetentionPolicy

section Plans
variable {Row : Type} {d : Delegate Row} {where_ : Row → Bool} {data : Row → Row} {cutoffDate now : ℤ}
  {plan : Plan} {I : Database → Prop} {db : Database} {opts : PurgeOptions} {affected : ℕ}

/-- A plan that counts what it selects, and selects nothing of what it has written or of the events of the purges. -/
structure Plan.Regular (plan : Plan) (cutoffDate : ℤ) (I : Database → Prop) : Prop where
  count : ∀ db, plan.count db = (plan.pending db).length
  divisible : Divisible plan.pending plan.batch I
  nothing : ∀ db, plan.pending db = [] → plan.all db = (0, db)
  recorded : ∀ db events, (∀ event ∈ events, cutoffDate ≤ event.timestamp) →
    plan.pending (db.record events) = plan.pending db

variable {row : Row} {ids ids' : List String}

theorem Delegate.count_eq (d : Delegate Row) (where_ : Row → Bool) (db : Database) :
    d.count where_ db = (d.findIds where_ db).length := by
  rw [Delegate.count, Delegate.findIds, length_map, countP_eq_length_filter]

theorem Delegate.none_of_findIds (h : d.findIds where_ db = []) : ∀ row ∈ d.rows db, where_ row = false := by
  intro row hrow
  have hnil := filter_eq_nil_iff.mp (map_eq_nil_iff.mp h) row hrow
  exact Bool.eq_false_of_not_eq_true hnil

theorem Delegate.findIds_record (hd : d.Lawful) (hold : ∀ row, where_ row → d.isOld cutoffDate row) (db : Database)
    (events : List AuditLog) (hevents : ∀ event ∈ events, cutoffDate ≤ event.timestamp) :
    d.findIds where_ (db.record events) = d.findIds where_ db := by
  have hfilter (rows : List Row) : rows.filter where_ = (rows.filter (d.isOld cutoffDate)).filter where_ := by
    rw [filter_filter]
    refine filter_congr fun row _ => ?_
    cases hrow : where_ row with
    | false => rfl
    | true => rw [hold row hrow]; rfl
  rw [Delegate.findIds, Delegate.findIds, hfilter, hd.recorded cutoffDate db events hevents, ← hfilter]

theorem Delegate.regular_updating (hd : d.Lawful) (hdata : d.Marks data)
    (hlive : ∀ row, where_ row → d.deletedAt row = none) (hold : ∀ row, where_ row → d.isOld cutoffDate row) :
    (d.updating where_ data).Regular cutoffDate d.Keyed where
  count := d.count_eq where_
  divisible := d.divisible_updating hd hdata hlive
  nothing _ hnil := d.updateMany_nothing hd (d.none_of_findIds hnil)
  recorded := d.findIds_record hd hold

theorem Delegate.regular_deleting (hd : d.Lawful) (cutoffDate : ℤ) :
    (d.deleting (d.isOld cutoffDate)).Regular cutoffDate d.Keyed where
  count := d.count_eq _
  divisible := d.divisible_deleting hd fun ids row => by rw [Delegate.isOld, Delegate.isOld, hd.date_detach]
  nothing _ hnil := d.deleteMany_nothing hd (d.none_of_findIds hnil)
  recorded := d.findIds_record hd fun _ hold => hold

theorem Delegate.isOldLive_old (h : d.isOldLive cutoffDate row) : d.isOld cutoffDate row :=
  decide_eq_true (of_decide_eq_true h).1

theorem Delegate.isOldLive_live (h : d.isOldLive cutoffDate row) : d.deletedAt row = none :=
  (of_decide_eq_true h).2

theorem session_marks (now : ℤ) : session.Marks (Session.redact now) :=
  ⟨fun _ => rfl, fun _ => rfl, fun _ => rfl⟩

theorem anonymizeSessionsById_congr (h : ∀ i, i ∈ ids ↔ i ∈ ids') :
    anonymizeSessionsById now ids db = anonymizeSessionsById now ids' db := by
  have hsessions : session.updateMany (session.among ids) (Session.redact now) db
      = session.updateMany (session.among ids') (Session.redact now) db :=
    session.updateMany_congr fun _ _ => decide_eq_decide.mpr (h _)
  have hsubmissions : (fun row : SessionSubmission => decide (row.sessionId ∈ ids)) = fun row => decide (row.sessionId ∈ ids') :=
    funext fun row => decide_eq_decide.mpr (h row.sessionId)
  rw [anonymizeSessionsById, anonymizeSessionsById, hsessions, hsubmissions]

def redactOf (now : ℤ) (ids : List String) (rows : List SessionSubmission) : List SessionSubmission :=
  rows.map fun row => if row.sessionId ∈ ids then row.redact now else row

theorem anonymizeSessionsById_eq (now : ℤ) (ids : List String) (db : Database) : (anonymizeSessionsById now ids db).2
      = { (session.updateMany (session.among ids) (Session.redact now) db).2 with
          submissions := redactOf now ids db.submissions } := by
  have hrows : (db.submissions.map fun row => if decide (row.sessionId ∈ ids) = true then row.redact now else row)
      = redactOf now ids db.submissions :=
    map_congr_left fun row _ => by simp only [decide_eq_true_eq]
  exact congrArg (fun submissions =>
    { (session.updateMany (session.among ids) (Session.redact now) db).2 with submissions }) hrows

theorem anonymizeSessionsById_append (hout : ∀ i ∈ ids', i ∉ ids) :
    (anonymizeSessionsById now ids' (anonymizeSessionsById now ids db).2).2
      = (anonymizeSessionsById now (ids ++ ids') db).2 := by
  have happend : (session.updateMany (session.among ids') (Session.redact now)
        (session.updateMany (session.among ids) (Session.redact now) db).2).2
      = (session.updateMany (session.among (ids ++ ids')) (Session.redact now) db).2 :=
    session.updateMany_append session_lawful (session_marks now) hout
  have hsessions := congrArg sessions happend
  have hsubmissions : redactOf now ids' (redactOf now ids db.submissions) = redactOf now (ids ++ ids') db.submissions :=
    map_map_key SessionSubmission.sessionId (f := SessionSubmission.redact now) (fun _ => rfl) hout db.submissions
  rw [anonymizeSessionsById_eq, anonymizeSessionsById_eq, anonymizeSessionsById_eq, ← hsubmissions]
  exact congrArg (fun sessions =>
    { db with sessions, submissions := redactOf now ids' (redactOf now ids db.submissions) }) hsessions

theorem regular_anonymizing (cutoffDate now : ℤ) : (anonymizing cutoffDate now).Regular cutoffDate session.Keyed where
  count := session.count_eq _
  divisible :=
    have hlive : ∀ row, session.isOldLive cutoffDate row → session.deletedAt row = none :=
      fun _ => session.isOldLive_live
    have hsessions := session.divisible_updating session_lawful (session_marks now) hlive
    { keeps := hsessions.keeps
      nodup := hsessions.nodup
      count := hsessions.count
      left := hsessions.left
      nothing := fun s hs => by
        have hsame : redactOf now [] s.submissions = s.submissions :=
          (map_congr_left fun row _ => if_neg not_mem_nil).trans (map_id _)
        have hnothing := hsessions.nothing s hs
        change (session.updateMany _ _ s).2 = s at hnothing
        change (anonymizeSessionsById now [] s).2 = s
        rw [anonymizeSessionsById_eq, hnothing, hsame]
      append := fun _ _ _ hout => anonymizeSessionsById_append hout
      same := fun _ _ _ => anonymizeSessionsById_congr }
  nothing db hnil := by
    have hnone := session.none_of_findIds hnil
    have hsessions : session.updateMany (session.isOldLive cutoffDate) (Session.redact now) db = (0, db) :=
      session.updateMany_nothing session_lawful hnone
    have hsubmissions : sessionSubmission.updateMany (ofOldLiveSession cutoffDate db) (SessionSubmission.redact now) db
        = (0, db) := by
      refine sessionSubmission.updateMany_nothing sessionSubmission_lawful fun row _ => any_eq_false.mpr fun s hs => ?_
      have hlive := hnone s hs
      simp only [hlive, Bool.false_eq_true, and_false, decide_false, not_false_eq_true]
    change anonymizeSessions cutoffDate now db = (0, db)
    rw [anonymizeSessions, hsessions]
    change ((0, _) : ℕ × Database) = _
    rw [hsubmissions]
  recorded := session.findIds_record session_lawful fun _ => session.isOldLive_old

structure PurgeOptions.Writes (opts : PurgeOptions) (affected : ℕ) : Prop where
  wet : opts.dryRun = false
  order : ∀ k ids, (opts.order k ids).Perm ids
  fuel : affected < opts.fuel

theorem Plan.Regular.run_dry (h : plan.Regular cutoffDate I) (hdry : opts.dryRun = true) :
    plan.run opts db = some ((plan.pending db).length, db) := by
  rw [Plan.run, if_pos hdry, h.count]

theorem Plan.Regular.run_batched (h : plan.Regular cutoffDate I) (hdb : I db) {take : ℕ}
    (htake : opts.batchSize.filter (· ≠ 0) = some take) (hopts : opts.Writes (plan.pending db).length) :
    plan.run opts db = some ((plan.pending db).length, (plan.batch (plan.pending db) db).2) := by
  have hpos : 0 < take := Nat.pos_of_ne_zero (of_decide_eq_true (Option.filter_eq_some_iff.mp htake).2)
  have hrun := batches_eq h.divisible hpos hopts.order opts.fuel 0 0 db hdb hopts.fuel
  rw [Nat.zero_add] at hrun
  rw [Plan.run, if_neg (by rw [hopts.wet]; exact Bool.false_ne_true), htake]
  exact hrun

theorem Plan.run_whole (hopts : opts.Writes affected) (htake : opts.batchSize.filter (· ≠ 0) = none) :
    plan.run opts db = some (plan.all db) := by
  rw [Plan.run, if_neg (by rw [hopts.wet]; exact Bool.false_ne_true), htake]

theorem Plan.Regular.run_eq (h : plan.Regular cutoffDate I) (hdb : I db)
    (hall : plan.all db = ((plan.pending db).length, (plan.batch (plan.pending db) db).2))
    (hopts : opts.Writes (plan.pending db).length) :
    plan.run opts db = some ((plan.pending db).length, (plan.batch (plan.pending db) db).2) := by
  cases htake : opts.batchSize.filter (· ≠ 0) with
  | none => exact (Plan.run_whole hopts htake).trans (congrArg some hall)
  | some take => exact h.run_batched hdb htake hopts

theorem Plan.Regular.run_nothing (h : plan.Regular cutoffDate I) (hnil : plan.pending db = [])
    (hopts : opts.Writes affected) : plan.run opts db = some (0, db) := by
  rw [Plan.run, if_neg (by rw [hopts.wet]; exact Bool.false_ne_true)]
  cases opts.batchSize.filter (· ≠ 0) with
  | none => exact congrArg some (h.nothing db hnil)
  | some take =>
    have hfuel := hopts.fuel
    obtain ⟨fuel, hfuel⟩ : ∃ fuel, opts.fuel = fuel + 1 := ⟨opts.fuel - 1, by omega⟩
    have hread : (opts.order 0 (plan.pending db)).take take = [] := by
      have hperm := hopts.order 0 (plan.pending db)
      rw [hnil] at hperm ⊢
      rw [hperm.eq_nil, take_nil]
    rw [hfuel]
    change batches _ _ _ _ _ _ _ _ = _
    rw [batches, hread]
    rfl

theorem Plan.Regular.pending_batch (h : plan.Regular cutoffDate I) (hdb : I db) :
    plan.pending (plan.batch (plan.pending db) db).2 = [] := by
  rw [h.divisible.left db _ hdb]
  exact filter_eq_nil_iff.mpr fun i hi hout => of_decide_eq_true hout hi

end Plans
section Runs
variable {policy : RetentionPolicy} {clock : Clock} {plan : Plan} {I : Database → Prop} {db data : Database}
  {opts : PurgeOptions} {affected : ℕ}

/-- What a policy deletes or redacts has nothing hanging on it: no submission that is not redacted already, and, where rows
are deleted, no newer row. -/
def RetentionPolicy.NothingAttached (policy : RetentionPolicy) (clock : Clock) (db : Database) : Prop :=
  (policy.strategy = "anonymize" → policy.entity = "Session" →
    ∀ row ∈ db.submissions, row.sessionId ∈ session.findIds (session.isOldLive (policy.cutoffDate clock)) db →
      row.redact clock.now = row) ∧
  (policy.strategy = "hard_delete" → policy.entity = "Session" →
    (∀ row ∈ db.steps, policy.cutoffDate clock < row.createdAt →
      row.sessionId ∉ session.findIds (session.isOld (policy.cutoffDate clock)) db) ∧
    ∀ row ∈ db.submissions, policy.cutoffDate clock < row.createdAt →
      row.sessionId ∉ session.findIds (session.isOld (policy.cutoffDate clock)) db) ∧
  (policy.strategy = "hard_delete" → policy.entity = "Claim" →
    (∀ row ∈ db.claims, policy.cutoffDate clock < row.createdAt →
      ∀ id ∈ row.reissuedFromId, id ∉ claim.findIds (claim.isOld (policy.cutoffDate clock)) db) ∧
    ∀ row ∈ db.references, policy.cutoffDate clock < row.createdAt →
      ∀ id ∈ row.claimId, id ∉ claim.findIds (claim.isOld (policy.cutoffDate clock)) db)

def RetentionPolicy.events (policy : RetentionPolicy) (clock : Clock) (runs : List (PurgeOptions × String))
    (affected : List ℕ) : List AuditLog :=
  zipWith (fun run affected => policy.purgeExecuted clock affected run.2) runs affected

/-- There are data in which every sequence of runs ends, whatever the batches: the rows that a dry run counts are affected,
none of them newer than the cutoff. -/
def RetentionPolicy.BatchFree (policy : RetentionPolicy) (clock : Clock) (db : Database) : Prop :=
  ∃ (affected : ℕ) (data : Database),
    (∀ opts id, opts.dryRun = true → policy.purgeEntity clock opts id db
      = some (policy.report clock affected, db.record [policy.purgeExecuted clock affected id])) ∧
    (∀ runs, runs ≠ [] → (∀ run ∈ runs, run.1.Writes affected) →
      ∃ counts, counts.length = runs.length ∧ counts.sum = affected ∧
        policy.purgeRuns clock runs db
          = some (counts.map (policy.report clock), data.record (policy.events clock runs counts))) ∧
    data.newer (policy.cutoffDate clock) = db.newer (policy.cutoffDate clock)

theorem Database.record_record (db : Database) (events events' : List AuditLog) :
    (db.record events).record events' = db.record (events ++ events') := by
  rw [record, record, record, append_assoc]

theorem Database.record_inj {db db' : Database} {events : List AuditLog} (h : db.record events = db'.record events) :
    db = db' := by
  have hlogs := append_cancel_right (congrArg auditLogs h)
  obtain ⟨auditLogs, verificationSessions, sessions, steps, submissions, claims, references, verificationRequests⟩ := db
  have hlogs : auditLogs = db'.auditLogs := hlogs
  have hrest := congrArg (fun db => { db with auditLogs := auditLogs }) h
  subst hlogs
  exact hrest

theorem RetentionPolicy.cutoff_le (policy : RetentionPolicy) (clock : Clock) : policy.cutoffDate clock ≤ clock.now :=
  clock.past _ policy.days

theorem RetentionPolicy.execute_eq (hplan : policy.plan clock = some plan) (opts : PurgeOptions) (db : Database) :
    policy.execute clock opts db = plan.run opts db := by
  rw [execute, hplan]

theorem RetentionPolicy.purgeRuns_nothing (execute : ∀ opts : PurgeOptions, ∀ events : List AuditLog,
      (∀ event ∈ events, policy.cutoffDate clock ≤ event.timestamp) → opts.Writes affected →
      policy.execute clock opts (db.record events) = some (0, db.record events)) :
    ∀ (runs : List (PurgeOptions × String)) (events : List AuditLog),
      (∀ event ∈ events, policy.cutoffDate clock ≤ event.timestamp) → (∀ run ∈ runs, run.1.Writes affected) →
      policy.purgeRuns clock runs (db.record events) = some ((runs.map fun _ => 0).map (policy.report clock),
            db.record (events ++ policy.events clock runs (runs.map fun _ => 0)))
  | [], events, _, _ => by
    rw [RetentionPolicy.events, map_nil, zipWith_nil_left, append_nil]
    rfl
  | (opts, id) :: runs, events, hevents, hruns => by
    have hfirst := execute opts events hevents (hruns _ (mem_cons_self ..))
    have hmore : ∀ event ∈ events ++ [policy.purgeExecuted clock 0 id], policy.cutoffDate clock ≤ event.timestamp := by
      intro event hevent
      rcases mem_append.mp hevent with hevent | hevent
      · exact hevents event hevent
      · exact eq_of_mem_singleton hevent ▸ policy.cutoff_le clock
    have hrest := purgeRuns_nothing execute runs _ hmore fun run hrun => hruns run (mem_cons_of_mem _ hrun)
    rw [purgeRuns, purgeEntity, hfirst]
    change (policy.purgeRuns clock runs ((db.record events).record _)).bind _ = _
    rw [record_record, hrest]
    change some _ = some _
    rw [append_assoc]
    rfl

theorem RetentionPolicy.purgeRuns_one (h : policy.execute clock opts db = some (affected, data)) (id : String) :
    policy.purgeRuns clock [(opts, id)] db
      = some ([policy.report clock affected], data.record [policy.purgeExecuted clock affected id]) := by
  rw [purgeRuns, purgeEntity, h]
  rfl

theorem RetentionPolicy.data_of_one {data' : Database} {id : String}
    (h : policy.execute clock opts db = some (affected, data))
    (hruns : ∃ counts : List ℕ, counts.length = [(opts, id)].length ∧ counts.sum = affected ∧
      policy.purgeRuns clock [(opts, id)] db
        = some (counts.map (policy.report clock), data'.record (policy.events clock [(opts, id)] counts))) :
    data = data' := by
  obtain ⟨counts, hlength, hsum, hrun⟩ := hruns
  obtain ⟨count, rfl⟩ := length_eq_one_iff.mp hlength
  have hcount : count = affected := by rw [← hsum, sum_singleton]
  rw [policy.purgeRuns_one h id, hcount] at hrun
  exact record_inj (congrArg Prod.snd (Option.some.inj hrun))

/-- The runs agree where the one statement writes what a batch of all that is selected writes. -/
theorem RetentionPolicy.batchFree_iff_of_plan (hplan : policy.plan clock = some plan)
    (h : plan.Regular (policy.cutoffDate clock) I) (hdb : I db) (hcount : (plan.all db).1 = (plan.pending db).length) :
    policy.BatchFree clock db ↔ (plan.all db).2 = (plan.batch (plan.pending db) db).2 ∧
      (plan.batch (plan.pending db) db).2.newer (policy.cutoffDate clock) = db.newer (policy.cutoffDate clock) := by
  constructor
  · -- a run without batches and one in batches of one row end in the same data
    intro ⟨affected, data, hdry, hruns, hnewer⟩
    have hcounted : (plan.pending db).length = affected := by
      have hdry := hdry ⟨true, none, fun _ ids => ids, 0⟩ "" rfl
      rw [purgeEntity, execute_eq hplan, h.run_dry rfl] at hdry
      exact congrArg (fun result => result.1.affected) (Option.some.inj hdry)
    have hwrites (batchSize : Option ℕ) :
        PurgeOptions.Writes ⟨false, batchSize, fun _ ids => ids, (plan.pending db).length + 1⟩ (plan.pending db).length :=
      ⟨rfl, fun _ ids => List.Perm.refl ids, Nat.lt_succ_self _⟩
    subst hcounted
    have hwhole : (plan.all db).2 = data := by
      have hone : policy.execute clock ⟨false, none, fun _ ids => ids, (plan.pending db).length + 1⟩ db
          = some ((plan.pending db).length, (plan.all db).2) := by
        rw [execute_eq hplan, Plan.run_whole (hwrites none) rfl, ← hcount]
      exact data_of_one hone (hruns [(_, "")] (cons_ne_nil _ _) fun run hrun => eq_of_mem_singleton hrun ▸ hwrites none)
    have hbatched : (plan.batch (plan.pending db) db).2 = data := by
      have hone : policy.execute clock ⟨false, some 1, fun _ ids => ids, (plan.pending db).length + 1⟩ db
          = some ((plan.pending db).length, (plan.batch (plan.pending db) db).2) := by
        rw [execute_eq hplan, h.run_batched hdb rfl (hwrites (some 1))]
      exact data_of_one hone (hruns [(_, "")] (cons_ne_nil _ _) fun run hrun => eq_of_mem_singleton hrun ▸ hwrites (some 1))
    exact ⟨hwhole.trans hbatched.symm, hbatched ▸ hnewer⟩
  · -- the first run writes all, and the others find nothing
    intro ⟨hwhole, hnewer⟩
    refine ⟨(plan.pending db).length, (plan.batch (plan.pending db) db).2, fun opts id hdry => ?_, fun runs hne hruns => ?_,
      hnewer⟩
    · rw [purgeEntity, execute_eq hplan, h.run_dry hdry]
      rfl
    · obtain ⟨⟨opts, id⟩, runs, rfl⟩ := exists_cons_of_ne_nil hne
      have hfirst : policy.execute clock opts db = some ((plan.pending db).length, (plan.batch (plan.pending db) db).2) := by
        rw [execute_eq hplan]
        exact h.run_eq hdb (Prod.ext hcount hwhole) (hruns _ (mem_cons_self ..))
      have hexecute : ∀ opts : PurgeOptions, ∀ events : List AuditLog,
          (∀ event ∈ events, policy.cutoffDate clock ≤ event.timestamp) → opts.Writes (plan.pending db).length →
          policy.execute clock opts ((plan.batch (plan.pending db) db).2.record events)
            = some (0, (plan.batch (plan.pending db) db).2.record events) := by
        intro opts events hevents hopts
        rw [execute_eq hplan]
        exact h.run_nothing ((h.recorded _ events hevents).trans (h.pending_batch hdb)) hopts
      have hrest := purgeRuns_nothing hexecute runs [policy.purgeExecuted clock (plan.pending db).length id]
        (fun event hevent => eq_of_mem_singleton hevent ▸ policy.cutoff_le clock)
        fun run hrun => hruns run (mem_cons_of_mem _ hrun)
      refine ⟨(plan.pending db).length :: runs.map fun _ => 0, ?_, ?_, ?_⟩
      · rw [length_cons, length_map, length_cons]
      · rw [sum_cons, map_const', sum_replicate_nat, Nat.mul_zero, Nat.add_zero]
      · rw [purgeRuns, purgeEntity, hfirst]
        change (policy.purgeRuns clock runs _).bind _ = _
        rw [hrest]
        rfl

theorem RetentionPolicy.batchFree_of_unknown (hplan : policy.plan clock = none) (db : Database) :
    policy.BatchFree clock db := by
  have hexecute (opts : PurgeOptions) (db : Database) : policy.execute clock opts db = some (0, db) := by
    rw [execute, hplan]
  refine ⟨0, db, fun opts id _ => ?_, fun runs _ hruns => ⟨runs.map fun _ => 0, length_map _, ?_, ?_⟩, rfl⟩
  · rw [purgeEntity, hexecute]
    rfl
  · rw [map_const', sum_replicate_nat, Nat.mul_zero]
  · have hrun := purgeRuns_nothing (fun opts events _ _ => hexecute opts (db.record events))
      runs [] (fun _ hevent => absurd hevent not_mem_nil) hruns
    have hnone : db.record [] = db := by rw [record, append_nil]
    rw [nil_append, hnone] at hrun
    exact hrun

end Runs
section Branches
variable {Row : Type} {d : Delegate Row} {where_ : Row → Bool} {data : Row → Row} {cutoffDate now : ℤ}
  {plan : Plan} {db : Database} {policy : RetentionPolicy} {clock : Clock} {entity : String}

structure Database.Keyed (db : Database) : Prop where
  auditLogs : auditLog.Keyed db
  verificationSessions : verificationSession.Keyed db
  sessions : session.Keyed db
  submissions : sessionSubmission.Keyed db
  claims : claim.Keyed db
  verificationRequests : verificationRequest.Keyed db

def Plan.Free (plan : Plan) (cutoffDate : ℤ) (db : Database) : Prop :=
  ∃ I : Database → Prop, plan.Regular cutoffDate I ∧ I db ∧ (plan.all db).1 = (plan.pending db).length ∧
    (plan.all db).2 = (plan.batch (plan.pending db) db).2 ∧
    (plan.batch (plan.pending db) db).2.newer cutoffDate = db.newer cutoffDate

theorem Delegate.free_updating (hd : d.Lawful) (hdata : d.Marks data) (hkeys : d.Keyed db) :
    (d.updating (d.isOldLive cutoffDate) data).Free cutoffDate db := by
  have hwhole := d.updateMany_pending (d.isOldLive cutoffDate) data hkeys
  refine ⟨d.Keyed, d.regular_updating hd hdata (fun _ => d.isOldLive_live) fun _ => d.isOldLive_old, hkeys,
    d.count_eq _ db, congrArg Prod.snd hwhole, ?_⟩
  change (d.updateMany (d.among (d.findIds _ db)) data db).2.newer cutoffDate = _
  rw [← hwhole]
  exact d.newer_updateMany hd hdata cutoffDate fun _ _ => d.isOldLive_old

theorem Delegate.newer_kept (hd : d.Lawful) (cutoffDate : ℤ) (ids : List String) (rows : List Row) :
    ((rows.filter fun row => ¬ d.isOld cutoffDate row).map (d.detach ids)).filter (cutoffDate < d.date ·)
      = (rows.filter (cutoffDate < d.date ·)).map (d.detach ids) := by
  rw [filter_map, filter_filter]
  refine congrArg (map _) (filter_congr fun row _ => ?_)
  simp only [Function.comp, hd.date_detach, Delegate.isOld, decide_eq_true_eq, not_lt]
  by_cases hnewer : cutoffDate < d.date row
  · simp only [hnewer, decide_true, Bool.true_and, decide_eq_true_eq]
    omega
  · simp only [hnewer, decide_false, Bool.false_and]

theorem Delegate.free_deleting (hd : d.Lawful) (hkeys : d.Keyed db) (hothers : ∀ ids db, d.others ids db = db)
    (hdetach : ∀ ids row, d.detach ids row = row) : (d.deleting (d.isOld cutoffDate)).Free cutoffDate db := by
  have hwhole := d.deleteMany_pending (d.isOld cutoffDate) hkeys
  refine ⟨d.Keyed, d.regular_deleting hd cutoffDate, hkeys, d.count_eq _ db, congrArg Prod.snd hwhole, ?_⟩
  change (d.deleteMany (d.among (d.findIds _ db)) db).2.newer cutoffDate = _
  have hsame (rows : List Row) (ids : List String) : rows.map (d.detach ids) = rows :=
    (map_congr_left fun row _ => hdetach ids row).trans (map_id _)
  rw [← hwhole, Delegate.deleteMany, hothers, hd.newer_set, d.newer_kept hd, hsame, ← hd.newer_set, hd.set_rows]

theorem softDelete_free (hplan : softDelete entity cutoffDate now = some plan) (hkeys : db.Keyed) :
    plan.Free cutoffDate db := by
  unfold softDelete at hplan
  split at hplan
  · cases hplan
    exact auditLog.free_updating auditLog_lawful ⟨fun _ => rfl, fun _ => rfl, fun _ => rfl⟩ hkeys.auditLogs
  · cases hplan
    exact verificationSession.free_updating verificationSession_lawful ⟨fun _ => rfl, fun _ => rfl, fun _ => rfl⟩
      hkeys.verificationSessions
  · cases hplan
    exact session.free_updating session_lawful ⟨fun _ => rfl, fun _ => rfl, fun _ => rfl⟩ hkeys.sessions
  · cases hplan
    exact sessionSubmission.free_updating sessionSubmission_lawful ⟨fun _ => rfl, fun _ => rfl, fun _ => rfl⟩
      hkeys.submissions
  · cases hplan
    exact claim.free_updating claim_lawful ⟨fun _ => rfl, fun _ => rfl, fun _ => rfl⟩ hkeys.claims
  · cases hplan
    exact verificationRequest.free_updating verificationRequest_lawful ⟨fun _ => rfl, fun _ => rfl, fun _ => rfl⟩
      hkeys.verificationRequests
  · cases hplan

theorem anonymize_free (hplan : anonymize entity cutoffDate now = some plan) (hentity : entity ≠ "Session")
    (hkeys : db.Keyed) : plan.Free cutoffDate db := by
  unfold anonymize at hplan
  split at hplan
  · cases hplan
    exact auditLog.free_updating auditLog_lawful ⟨fun _ => rfl, fun _ => rfl, fun _ => rfl⟩ hkeys.auditLogs
  · cases hplan
    exact verificationSession.free_updating verificationSession_lawful ⟨fun _ => rfl, fun _ => rfl, fun _ => rfl⟩
      hkeys.verificationSessions
  · exact absurd rfl hentity
  · cases hplan
    exact sessionSubmission.free_updating sessionSubmission_lawful ⟨fun _ => rfl, fun _ => rfl, fun _ => rfl⟩
      hkeys.submissions
  · cases hplan
    exact claim.free_updating claim_lawful ⟨fun _ => rfl, fun _ => rfl, fun _ => rfl⟩ hkeys.claims
  · cases hplan
    exact verificationRequest.free_updating verificationRequest_lawful ⟨fun _ => rfl, fun _ => rfl, fun _ => rfl⟩
      hkeys.verificationRequests
  · cases hplan

theorem hardDelete_free (hplan : hardDelete entity cutoffDate = some plan) (hsession : entity ≠ "Session")
    (hclaim : entity ≠ "Claim") (hkeys : db.Keyed) : plan.Free cutoffDate db := by
  unfold hardDelete at hplan
  split at hplan
  · cases hplan
    exact auditLog.free_deleting auditLog_lawful hkeys.auditLogs (fun _ _ => rfl) fun _ _ => rfl
  · cases hplan
    exact verificationSession.free_deleting verificationSession_lawful hkeys.verificationSessions (fun _ _ => rfl)
      fun _ _ => rfl
  · exact absurd rfl hsession
  · cases hplan
    exact sessionSubmission.free_deleting sessionSubmission_lawful hkeys.submissions (fun _ _ => rfl) fun _ _ => rfl
  · exact absurd rfl hclaim
  · cases hplan
    exact verificationRequest.free_deleting verificationRequest_lawful hkeys.verificationRequests (fun _ _ => rfl)
      fun _ _ => rfl
  · cases hplan

theorem RetentionPolicy.batchFree_of_free (hplan : policy.plan clock = some plan)
    (h : plan.Free (policy.cutoffDate clock) db) : policy.BatchFree clock db :=
  have ⟨_, hregular, hdb, hcount, hwhole, hnewer⟩ := h
  (batchFree_iff_of_plan hplan hregular hdb hcount).mpr ⟨hwhole, hnewer⟩

theorem filter_filter_eq_iff {α : Type} (p q : α → Bool) (rows : List α) :
    (rows.filter p).filter q = rows.filter q ↔ ∀ row ∈ rows, q row → p row := by
  constructor
  · intro heq row hrow hq
    have hmem : row ∈ (rows.filter p).filter q := heq ▸ mem_filter.mpr ⟨hrow, hq⟩
    exact (mem_filter.mp (mem_filter.mp hmem).1).2
  · intro h
    rw [filter_filter]
    refine filter_congr fun row hrow => ?_
    cases hq : q row with
    | false => rfl
    | true => rw [h row hrow hq]; rfl

theorem map_eq_self_iff {α : Type} (f : α → α) (rows : List α) : rows.map f = rows ↔ ∀ row ∈ rows, f row = row := by
  conv_lhs => rhs; rw [← map_id rows]
  exact map_inj_left

theorem newer_session_iff (cutoffDate : ℤ) (db : Database) :
    (session.deleteMany (session.isOld cutoffDate) db).2.newer cutoffDate = db.newer cutoffDate ↔
      (∀ row ∈ db.steps, cutoffDate < row.createdAt → row.sessionId ∉ session.findIds (session.isOld cutoffDate) db) ∧
      ∀ row ∈ db.submissions, cutoffDate < row.createdAt →
        row.sessionId ∉ session.findIds (session.isOld cutoffDate) db := by
  have hsteps := filter_filter_eq_iff (fun row => decide (row.sessionId ∉ session.findIds (session.isOld cutoffDate) db))
    (fun row : SessionStep => decide (cutoffDate < row.createdAt)) db.steps
  have hsubmissions := filter_filter_eq_iff
    (fun row => decide (row.sessionId ∉ session.findIds (session.isOld cutoffDate) db))
    (fun row : SessionSubmission => decide (cutoffDate < row.createdAt)) db.submissions
  simp only [decide_eq_true_eq] at hsteps hsubmissions
  rw [← hsteps, ← hsubmissions]
  have hsessions := session.newer_kept session_lawful cutoffDate (session.findIds (session.isOld cutoffDate) db) db.sessions
  have hsame : (db.sessions.filter (cutoffDate < session.date ·)).map
      (session.detach (session.findIds (session.isOld cutoffDate) db)) = db.sessions.filter (cutoffDate < ·.createdAt) :=
    map_id _
  constructor
  · intro heq
    exact ⟨congrArg steps heq, congrArg submissions heq⟩
  · intro ⟨hsteps, hsubmissions⟩
    exact Database.ext rfl rfl (hsessions.trans hsame) hsteps hsubmissions rfl rfl rfl

theorem setNull_eq_self_iff (ids : List String) (reference : Option String) :
    setNull ids reference = reference ↔ ∀ id ∈ reference, id ∉ ids := by
  cases reference with
  | none => exact ⟨fun _ _ h => (Option.some_ne_none _ h.symm).elim, fun _ => rfl⟩
  | some id =>
    by_cases hid : id ∈ ids <;> simp [setNull, Option.filter, hid]

theorem detach_eq_self_iff (ids : List String) (row : Claim) :
    claim.detach ids row = row ↔ ∀ id ∈ row.reissuedFromId, id ∉ ids := by
  rw [← setNull_eq_self_iff]
  exact ⟨fun h => congrArg Claim.reissuedFromId h, fun h => congrArg (fun reissuedFromId => { row with reissuedFromId }) h⟩

theorem ClaimReference.detach_eq_self_iff (ids : List String) (row : ClaimReference) :
    row.detach ids = row ↔ ∀ id ∈ row.claimId, id ∉ ids := by
  rw [← setNull_eq_self_iff]
  exact ⟨fun h => congrArg ClaimReference.claimId h, fun h => congrArg (fun claimId => { row with claimId }) h⟩

theorem newer_claim_iff (cutoffDate : ℤ) (db : Database) :
    (claim.deleteMany (claim.isOld cutoffDate) db).2.newer cutoffDate = db.newer cutoffDate ↔
      (∀ row ∈ db.claims, cutoffDate < row.createdAt →
        ∀ id ∈ row.reissuedFromId, id ∉ claim.findIds (claim.isOld cutoffDate) db) ∧
      ∀ row ∈ db.references, cutoffDate < row.createdAt →
        ∀ id ∈ row.claimId, id ∉ claim.findIds (claim.isOld cutoffDate) db := by
  generalize hids : claim.findIds (claim.isOld cutoffDate) db = ids
  have hclaims : (claim.deleteMany (claim.isOld cutoffDate) db).2.newer cutoffDate
      = { db.newer cutoffDate with
          claims := (db.newer cutoffDate).claims.map (claim.detach ids)
          references := (db.newer cutoffDate).references.map (ClaimReference.detach ids) } := by
    have hkept := claim.newer_kept claim_lawful cutoffDate ids db.claims
    have hreferences : (db.references.map (ClaimReference.detach ids)).filter (cutoffDate < ·.createdAt)
        = (db.references.filter (cutoffDate < ·.createdAt)).map (ClaimReference.detach ids) := by
      rw [filter_map]
      rfl
    subst hids
    exact Database.ext rfl rfl rfl rfl rfl hkept hreferences rfl
  have hselfs := map_eq_self_iff (claim.detach ids) (db.newer cutoffDate).claims
  have hreferences := map_eq_self_iff (ClaimReference.detach ids) (db.newer cutoffDate).references
  simp only [detach_eq_self_iff, newer, mem_filter, decide_eq_true_eq, and_imp] at hselfs
  simp only [ClaimReference.detach_eq_self_iff, newer, mem_filter, decide_eq_true_eq, and_imp] at hreferences
  rw [hclaims, ← hselfs, ← hreferences]
  constructor
  · intro heq
    exact ⟨congrArg claims heq, congrArg references heq⟩
  · intro ⟨hclaims, hreferences⟩
    exact Database.ext rfl rfl rfl rfl rfl hclaims hreferences rfl

theorem anonymizeSessions_eq (cutoffDate now : ℤ) (db : Database) :
    anonymizeSessions cutoffDate now db = session.updateMany (session.isOldLive cutoffDate) (Session.redact now) db := by
  have hnone : ∀ s ∈ (session.updateMany (session.isOldLive cutoffDate) (Session.redact now) db).2.sessions,
      session.isOldLive cutoffDate s = false := by
    intro s hs
    obtain ⟨row, -, rfl⟩ := mem_map.mp hs
    change session.isOldLive cutoffDate (if _ then _ else _) = false
    split
    · exact decide_eq_false fun h => Option.some_ne_none now h.2
    · rename_i hrow
      exact Bool.eq_false_of_not_eq_true hrow
  generalize hresult : session.updateMany (session.isOldLive cutoffDate) (Session.redact now) db = result at hnone ⊢
  have hsubmissions : sessionSubmission.updateMany (ofOldLiveSession cutoffDate result.2) (SessionSubmission.redact now)
      result.2 = (0, result.2) := by
    refine sessionSubmission.updateMany_nothing sessionSubmission_lawful fun row _ => any_eq_false.mpr fun s hs => ?_
    simp only [hnone s hs, Bool.false_eq_true, and_false, decide_false, not_false_eq_true]
  rw [anonymizeSessions, hresult, hsubmissions]

theorem anonymizing_agrees_iff (cutoffDate now : ℤ) (hkeys : session.Keyed db) : ((anonymizing cutoffDate now).all db).2
        = ((anonymizing cutoffDate now).batch ((anonymizing cutoffDate now).pending db) db).2 ↔
      ∀ row ∈ db.submissions, row.sessionId ∈ session.findIds (session.isOldLive cutoffDate) db → row.redact now = row := by
  have hself := map_eq_self_iff (fun row : SessionSubmission =>
    if row.sessionId ∈ session.findIds (session.isOldLive cutoffDate) db then row.redact now else row) db.submissions
  simp only [ite_eq_right_iff] at hself
  change (anonymizeSessions cutoffDate now db).2 = (anonymizeSessionsById now _ db).2 ↔ _
  rw [← hself, anonymizeSessions_eq, anonymizeSessionsById_eq, session.updateMany_pending _ _ hkeys]
  constructor
  · intro heq
    exact (congrArg submissions heq).symm
  · intro heq
    exact Database.ext rfl rfl rfl rfl heq.symm rfl rfl rfl

theorem RetentionPolicy.batchFree_iff_of_hardDelete (policy : RetentionPolicy) (clock : Clock) (hkeys : db.Keyed)
    (hstrategy : policy.strategy = "hard_delete") (hentity : policy.entity = "Session" ∨ policy.entity = "Claim") :
    policy.BatchFree clock db ↔ policy.NothingAttached clock db := by
  have hother : policy.strategy ≠ "anonymize" := by
    rw [hstrategy]
    decide
  rcases hentity with hentity | hentity
  · have hplan : policy.plan clock = some (session.deleting (session.isOld (policy.cutoffDate clock))) := by
      rw [plan, hstrategy, hentity]
      rfl
    have hwhole := session.deleteMany_pending (session.isOld (policy.cutoffDate clock)) hkeys.sessions
    have hnewer := newer_session_iff (policy.cutoffDate clock) db
    have hclaim : policy.entity ≠ "Claim" := by
      rw [hentity]
      decide
    rw [hwhole] at hnewer
    rw [batchFree_iff_of_plan hplan (session.regular_deleting session_lawful _) hkeys.sessions (session.count_eq _ db)]
    constructor
    · intro ⟨_, h⟩
      exact ⟨fun h' => absurd h' hother, fun _ _ => hnewer.mp h, fun _ h' => absurd h' hclaim⟩
    · intro ⟨_, h, _⟩
      exact ⟨congrArg Prod.snd hwhole, hnewer.mpr (h hstrategy hentity)⟩
  · have hplan : policy.plan clock = some (claim.deleting (claim.isOld (policy.cutoffDate clock))) := by
      rw [plan, hstrategy, hentity]
      rfl
    have hwhole := claim.deleteMany_pending (claim.isOld (policy.cutoffDate clock)) hkeys.claims
    have hnewer := newer_claim_iff (policy.cutoffDate clock) db
    have hsession : policy.entity ≠ "Session" := by
      rw [hentity]
      decide
    rw [hwhole] at hnewer
    rw [batchFree_iff_of_plan hplan (claim.regular_deleting claim_lawful _) hkeys.claims (claim.count_eq _ db)]
    constructor
    · intro ⟨_, h⟩
      exact ⟨fun h' => absurd h' hother, fun _ h' => absurd h' hsession, fun _ _ => hnewer.mp h⟩
    · intro ⟨_, _, h⟩
      exact ⟨congrArg Prod.snd hwhole, hnewer.mpr (h hstrategy hentity)⟩

/-- Purges do not depend on the batches exactly where nothing hangs on what they delete or redact. -/
theorem RetentionPolicy.batchFree_iff (policy : RetentionPolicy) (clock : Clock) (db : Database) (hkeys : db.Keyed) :
    policy.BatchFree clock db ↔ policy.NothingAttached clock db := by
  by_cases hanonymize : policy.strategy = "anonymize" ∧ policy.entity = "Session"
  · -- the submissions of the anonymized sessions
    have hplan : policy.plan clock = some (anonymizing (policy.cutoffDate clock) clock.now) := by
      rw [plan, hanonymize.1, hanonymize.2]
      rfl
    have hregular := regular_anonymizing (policy.cutoffDate clock) clock.now
    have hcount : ((anonymizing (policy.cutoffDate clock) clock.now).all db).1
        = ((anonymizing (policy.cutoffDate clock) clock.now).pending db).length := session.count_eq _ db
    have hnewer : ((anonymizing (policy.cutoffDate clock) clock.now).all db).2.newer (policy.cutoffDate clock)
        = db.newer (policy.cutoffDate clock) := by
      change (anonymizeSessions _ _ db).2.newer _ = _
      rw [anonymizeSessions_eq]
      exact session.newer_updateMany session_lawful (session_marks clock.now) _ fun _ _ => session.isOldLive_old
    have hagrees := anonymizing_agrees_iff (policy.cutoffDate clock) clock.now hkeys.sessions
    have hstrategy : policy.strategy ≠ "hard_delete" := by
      rw [hanonymize.1]
      decide
    rw [batchFree_iff_of_plan hplan hregular hkeys.sessions hcount, hagrees]
    constructor
    · intro ⟨hredacted, _⟩
      exact ⟨fun _ _ => hredacted, fun h => absurd h hstrategy, fun h => absurd h hstrategy⟩
    · intro ⟨hredacted, _⟩
      have hredacted := hredacted hanonymize.1 hanonymize.2
      exact ⟨hredacted, hagrees.mpr hredacted ▸ hnewer⟩
  · by_cases hdelete : policy.strategy = "hard_delete" ∧ (policy.entity = "Session" ∨ policy.entity = "Claim")
    · exact policy.batchFree_iff_of_hardDelete clock hkeys hdelete.1 hdelete.2
    · -- no other strategy reaches another row than those selected
      have hnothing : policy.NothingAttached clock db :=
        ⟨fun hs he => absurd ⟨hs, he⟩ hanonymize, fun hs he => absurd ⟨hs, .inl he⟩ hdelete,
          fun hs he => absurd ⟨hs, .inr he⟩ hdelete⟩
      refine iff_of_true ?_ hnothing
      cases hplan : policy.plan clock with
      | none => exact batchFree_of_unknown hplan db
      | some plan =>
        refine batchFree_of_free hplan ?_
        rw [RetentionPolicy.plan] at hplan
        split at hplan
        · exact softDelete_free hplan hkeys
        · rename_i hs
          exact hardDelete_free hplan (fun he => hdelete ⟨hs, .inl he⟩) (fun he => hdelete ⟨hs, .inr he⟩) hkeys
        · rename_i hs
          exact anonymize_free hplan (fun he => hanonymize ⟨hs, he⟩) hkeys
        · cases hplan

def yearOld : Database where
  sessions := [⟨"s1", some "\x7b\"code\":123456\x7d", 0, 0, none⟩]
  submissions := [⟨"b1", "s1", "\x7b\"phone\":\"555\"\x7d", none, 0, none⟩]

def utc : Clock where
  now := 400 * 86400000
  daysAgo days := (400 - days) * 86400000
  past days _ := by omega

def thirtyDays (strategy : String) : RetentionPolicy := ⟨"p1", "Session", 30, strategy, by decide⟩

theorem yearOld_keyed : yearOld.Keyed :=
  ⟨nodup_nil, nodup_nil, nodup_singleton _, nodup_singleton _, nodup_nil, nodup_nil⟩

theorem batchFree_softDelete : (thirtyDays "soft_delete").BatchFree utc yearOld :=
  ((thirtyDays "soft_delete").batchFree_iff utc yearOld yearOld_keyed).mpr
    ⟨fun h => absurd h (by decide), fun h => absurd h (by decide), fun h => absurd h (by decide)⟩

theorem anonymize_keeps_payload : ¬ (thirtyDays "anonymize").BatchFree utc yearOld := by
  intro ⟨affected, data, hdry, hruns, _⟩
  have haffected : affected = 1 := by
    have hcounted := congrArg (Option.map fun result : PurgeResult × Database => result.1.affected)
      (hdry ⟨true, none, fun _ ids => ids, 0⟩ "" rfl)
    exact (Option.some.inj hcounted).symm
  subst haffected
  have hpayloads (batchSize : Option ℕ) :
      some (data.submissions.map (·.payload)) = ((thirtyDays "anonymize").purgeRuns utc
        [(⟨false, batchSize, fun _ ids => ids, 2⟩, "")] yearOld).map fun result => result.2.submissions.map (·.payload) := by
    obtain ⟨counts, -, -, hrun⟩ := hruns [(⟨false, batchSize, fun _ ids => ids, 2⟩, "")] (cons_ne_nil _ _)
      fun run hrun => eq_of_mem_singleton hrun ▸ ⟨rfl, fun _ ids => List.Perm.refl ids, Nat.lt_succ_self 1⟩
    rw [hrun]
    rfl
  have hwhole := hpayloads none
  rw [hpayloads (some 1)] at hwhole
  revert hwhole
  decide +kernel

end Branches
end Soter.Retention
