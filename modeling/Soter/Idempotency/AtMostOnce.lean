import Soter.Lib.Exclusive
import Soter.Lib.JsonRoundTrip
import Soter.Idempotency.Service

/-! When the handler runs at most once for a key. -/
namespace Soter.Idempotency
open Soter.Json Soter.Tasks Soter.Runs List

variable {Num : Type} {config : Config Num}

def RunsOnce (later earlier : Event Num) : Prop :=
  match earlier, later with
  | .ran key _ expiresAt _, .ran key' time _ _ => key = key' → expiresAt ≤ time
  | _, _ => True

def Records (numerals : Numerals Num) (outcome : Except String (Response Num)) (record : IdempotencyKey) : Prop :=
  ∃ response data body, outcome = .ok response ∧ response.data = some data ∧
    record.responseStatus = response.statusCode ∧ parse numerals record.responseBody = some body ∧ body.Same data

/-- Within the lifetime of an earlier run for the key, a request is answered with the response of that run. -/
def RepliesOf (numerals : Numerals Num) (later earlier : Event Num) : Prop :=
  match earlier, later with
  | .ran key _ expiresAt outcome, .replied key' time record =>
    key = key' → time < expiresAt → Records numerals outcome record
  | _, _ => True

structure Idempotent (config : Config Num) (tr : List (KeyTransition Num)) : Prop where
  once : ∀ t ∈ tr, t.post.store.events.Pairwise RunsOnce
  replies : ∀ t ∈ tr, t.post.store.events.Pairwise (RepliesOf config.numerals)
  purged : ∀ t ∈ tr, ∀ row ∈ t.pre.store.rows, row ∉ t.post.store.rows → row.expiresAt ≤ t.pre.store.now

def Query.workKey : Query Num → Option Text
  | .deleteStale key _ => some key
  | .handle key _ => key.map Prod.fst
  | .create row => some row.key
  | _ => none

def nextQuery : Handler Num → Option (Query Num)
  | .ask q _ => some q
  | .done _ => none

def InProgress (p : KeyPool Num) (key : Text) : Prop :=
  ∃ thread ∈ p.threads, (nextQuery thread.2).bind Query.workKey = some key

/-- A run for the key whose lifetime goes beyond `now`. -/
def Event.IsAlive (key : Text) (now : ℤ) : Event Num → Prop
  | .ran key' _ expiresAt _ => key' = key ∧ now < expiresAt
  | .replied .. => False

def Query.IsSerial (p : KeyPool Num) : Query Num → Prop
  | .findFirst key now => (p.store.find key now).isSome = true ∨
      (¬ InProgress p key ∧ ∀ e ∈ p.store.events, ¬ e.IsAlive key now)
  | _ => True

def Serial (t : KeyTransition Num) : Prop := ∀ q ∈ t.pre.asked t.label, q.IsSerial t.pre

instance (later earlier : Event Num) : Decidable (RunsOnce later earlier) :=
  match earlier, later with
  | .ran key _ expiresAt _, .ran key' time _ _ => inferInstanceAs (Decidable (key = key' → expiresAt ≤ time))
  | .ran .., .replied .. | .replied .., .ran .. | .replied .., .replied .. => .isTrue trivial

instance (key : Text) (now : ℤ) (e : Event Num) : Decidable (e.IsAlive key now) :=
  match e with
  | .ran key' _ expiresAt _ => inferInstanceAs (Decidable (key' = key ∧ now < expiresAt))
  | .replied .. => .isFalse fun h => h

instance (p : KeyPool Num) (key : Text) : Decidable (InProgress p key) :=
  inferInstanceAs (Decidable (∃ thread ∈ p.threads, (nextQuery thread.2).bind Query.workKey = some key))

instance (p : KeyPool Num) (q : Query Num) : Decidable (q.IsSerial p) :=
  match q with
  | .findFirst key now => inferInstanceAs (Decidable ((p.store.find key now).isSome = true ∨
      (¬ InProgress p key ∧ ∀ e ∈ p.store.events, ¬ e.IsAlive key now)))
  | .clock | .elapse _ | .deleteStale .. | .handle .. | .create _ | .findExpired .. | .deleteIds _
  | .foresee _ => .isTrue trivial

instance (t : KeyTransition Num) : Decidable (Serial t) :=
  inferInstanceAs (Decidable (∀ q ∈ t.pre.asked t.label, q.IsSerial t.pre))

inductive Progress (Num : Type)
  | missed
  | cleared
  | ran (expiresAt : ℤ) (response : Response Num)

inductive Stage (Num : Type)
  | fresh
  | arrived (now : ℤ)
  /-- The key was looked up at `now` and not found. -/
  | working (key : Text) (now : ℤ) (progress : Progress Num)
  | purging (startedAt : ℤ) (ids : List ℕ)
  | ended

def newKey (numerals : Numerals Num) (key : Text) (expiresAt : ℤ) (response : Response Num) : NewKey where
  key := key
  responseStatus := response.statusCode
  responseBody := response.data.map (stringify numerals 0)
  expiresAt := expiresAt

def Stage.allowed (numerals : Numerals Num) : Stage Num → Query Num → Prop
  | .fresh, .clock | .fresh, .elapse _ | .fresh, .foresee _ | .fresh, .handle none _ => True
  | .arrived now, .findFirst _ now' => now' = now
  | .arrived now, .findExpired startedAt _ => startedAt = now
  | .arrived _, .clock | .purging .., .clock => True
  | .working key now .missed, .deleteStale key' now' => key' = key ∧ now' = now
  | .working key _ .cleared, .handle (some (key', _)) _ => key' = key
  | .working key _ (.ran expiresAt response), .create row => row = newKey numerals key expiresAt response
  | .purging _ ids, .deleteIds ids' => ids' = ids
  | _, _ => False

def Stage.next : Stage Num → (q : Query Num) → q.Reply → Stage Num
  | .fresh, .clock, (now : ℤ) => .arrived now
  | .arrived now, .findFirst key _, .ok none => .working key now .missed
  | .arrived now, .findExpired .., .ok ids => .purging now ids
  | .working key now .missed, .deleteStale .., .ok _ => .working key now .cleared
  | .working key now .cleared, .handle (some (_, expiresAt)) _, .ok response => .working key now (.ran expiresAt response)
  | .purging startedAt _, .deleteIds _, .ok _ => .arrived startedAt
  | _, _, _ => .ended

def Stage.IsAtRest : Stage Num → Prop
  | .working .. => False
  | _ => True

def protocol (numerals : Numerals Num) : Protocol (Query Num) Query.Reply (Stage Num) where
  allowed := Stage.allowed numerals
  next := Stage.next

abbrev Proceeds (config : Config Num) (σ : Stage Num) (t : Handler Num) : Prop :=
  t.Follows (protocol config.numerals) (fun σ _ => σ.IsAtRest) σ

theorem process_follows (key : Text) (now expiresAt : ℤ) (outcome : Except String (Response Num)) :
    Proceeds config (.working key now .cleared) (process config key expiresAt outcome) := by
  refine ⟨rfl, fun reply => ?_⟩
  rcases reply with e | response
  · exact trivial
  · exact ⟨rfl, fun _ => trivial⟩

theorem intercept_follows (idempotencyKey : Option Text) (outcome : Except String (Response Num)) :
    Proceeds config .fresh (intercept config idempotencyKey outcome) := by
  rw [intercept]
  split
  · refine ⟨trivial, fun reply => ?_⟩
    rcases reply with e | response
    · exact trivial
    · exact trivial
  · rename_i key _
    split
    · exact trivial
    · refine ⟨trivial, fun now => ⟨rfl, fun found => ?_⟩⟩
      rcases found with e | _ | existingRecord
      · exact trivial
      · refine ⟨⟨rfl, rfl⟩, fun cleared => ?_⟩
        rcases cleared with e | count
        · exact trivial
        · exact process_follows key now _ outcome
      · change Proceeds config .ended (replay config existingRecord)
        rw [replay]
        split
        · exact trivial
        · exact trivial

theorem purgeBatches_follows (batchSize : ℕ) (startedAt : ℤ) : ∀ n batchesRun recordsPurged : ℕ,
    Proceeds config (.arrived startedAt) (purgeBatches batchSize startedAt n batchesRun recordsPurged)
  | 0, _, _ => ⟨trivial, fun _ => trivial⟩
  | n + 1, batchesRun, recordsPurged => by
    refine ⟨rfl, fun found => ?_⟩
    rcases found with e | _ | ⟨id, ids⟩
    · exact trivial
    · exact ⟨trivial, fun _ => trivial⟩
    · refine ⟨rfl, fun deleted => ?_⟩
      rcases deleted with e | count
      · exact trivial
      · exact purgeBatches_follows batchSize startedAt n _ _

theorem body_follows (op : KeyOp Num) : Proceeds config .fresh (op.body config) := by
  cases op with
  | intercept idempotencyKey outcome => exact intercept_follows idempotencyKey outcome
  | purgeExpiredKeys batchSize maxBatches =>
    exact ⟨trivial, fun startedAt => purgeBatches_follows batchSize startedAt maxBatches 0 0⟩
  | elapse d | foresee db => exact ⟨trivial, fun _ => trivial⟩

variable {s' s : Store Num} {q : Query Num}

structure Moves (s s' : Store Num) : Prop where
  now : s.now ≤ s'.now
  created : s.created ≤ s'.created
  rows : ∀ row ∈ s'.rows, row ∈ s.rows ∨ s.created ≤ row.id

theorem Moves.refl (s : Store Num) : Moves s s := ⟨le_refl _, le_refl _, fun _ h => .inl h⟩

theorem findFirst_ok {key : Text} {now : ℤ} {record : Option IdempotencyKey} (h : s.findFirst key now = .ok (record, s')) :
    record = s.find key now ∧
      s' = { s with events := (record.map (.replied key s.now ·)).toList ++ s.events } := by
  cases hdb : s.db with
  | error e =>
    simp only [Store.findFirst, hdb] at h
    cases h
  | ok _ =>
    cases hfind : s.find key now with
    | none =>
      simp only [Store.findFirst, hdb, hfind] at h
      cases h
      exact ⟨rfl, by rw [Option.map_none, Option.toList_none, nil_append, ← hdb]⟩
    | some found =>
      simp only [Store.findFirst, hdb, hfind] at h
      cases h
      exact ⟨rfl, rfl⟩

theorem deleteWhere_ok {p : IdempotencyKey → Bool} {count : ℕ} (h : s.deleteWhere p = .ok (count, s')) :
    s' = { s with rows := s.rows.filter (!p ·) } := by
  rw [Store.deleteWhere, Store.ask] at h
  split at h
  · cases h
  · cases h
    rfl

theorem create_ok {row : NewKey} {a : Unit} (h : s.create row = .ok (a, s')) :
    ∃ responseBody, row.responseBody = some responseBody ∧ (∀ r ∈ s.rows, r.key ≠ row.key) ∧ s' = { s with
        rows := s.rows ++ [⟨s.created, row.key, row.responseStatus, responseBody, row.expiresAt⟩]
        created := s.created + 1 } := by
  cases hdb : s.db with
  | error e =>
    simp only [Store.create, hdb] at h
    cases h
  | ok _ =>
    cases hbody : row.responseBody with
    | none =>
      simp only [Store.create, hdb, hbody] at h
      cases h
    | some responseBody =>
      simp only [Store.create, hdb, hbody] at h
      split at h
      · cases h
      · rename_i hnone
        cases h
        refine ⟨responseBody, rfl, fun r hr hkey => hnone ?_, rfl⟩
        exact any_eq_true.mpr ⟨r, hr, decide_eq_true hkey⟩

theorem perform_moves (q : Query Num) (s : Store Num) : Moves s (perform q s).2 := by
  have hdelete : ∀ p : IdempotencyKey → Bool, Moves s (commit (s.deleteWhere p) s).2 := by
    intro p
    refine commit_keeps (P := Moves s) (Moves.refl s) fun count s' htx => ?_
    rw [deleteWhere_ok htx]
    exact ⟨le_refl _, le_refl _, fun row hrow => .inl (mem_filter.mp hrow).1⟩
  cases q with
  | clock => exact Moves.refl s
  | elapse d => exact ⟨Int.le_add_of_nonneg_right (Int.natCast_nonneg d), le_refl _, fun _ h => .inl h⟩
  | findFirst key now =>
    refine commit_keeps (P := Moves s) (Moves.refl s) fun record s' htx => ?_
    rw [(findFirst_ok htx).2]
    exact ⟨le_refl _, le_refl _, fun _ h => .inl h⟩
  | deleteStale key now => exact hdelete _
  | handle key outcome => exact ⟨le_refl _, le_refl _, fun _ h => .inl h⟩
  | create row =>
    refine commit_keeps (P := Moves s) (Moves.refl s) fun _ s' htx => ?_
    obtain ⟨responseBody, -, -, rfl⟩ := create_ok htx
    refine ⟨le_refl _, Nat.le_succ _, fun r hr => ?_⟩
    rcases mem_append.mp hr with hr | hr
    · exact .inl hr
    · rw [mem_singleton.mp hr]
      exact .inr (le_refl _)
  | findExpired startedAt batchSize => exact Moves.refl s
  | deleteIds ids => exact hdelete _
  | foresee db => exact ⟨le_refl _, le_refl _, fun _ h => .inl h⟩

structure Store.Numbered (s : Store Num) : Prop where
  below : ∀ row ∈ s.rows, row.id < s.created
  unique : (s.rows.map (·.id)).Nodup

theorem perform_numbered (h : s.Numbered) (q : Query Num) : (perform q s).2.Numbered := by
  have hdelete : ∀ p : IdempotencyKey → Bool, (commit (s.deleteWhere p) s).2.Numbered := by
    intro p
    refine commit_keeps (P := Store.Numbered) h fun count s' htx => ?_
    rw [deleteWhere_ok htx]
    exact ⟨fun row hrow => h.below row (mem_filter.mp hrow).1, h.unique.sublist (filter_sublist.map IdempotencyKey.id)⟩
  cases q with
  | findFirst key now =>
    refine commit_keeps (P := Store.Numbered) h fun record s' htx => ?_
    rw [(findFirst_ok htx).2]
    exact ⟨h.below, h.unique⟩
  | deleteStale key now | deleteIds ids => exact hdelete _
  | create row =>
    refine commit_keeps (P := Store.Numbered) h fun _ s' htx => ?_
    obtain ⟨responseBody, -, -, rfl⟩ := create_ok htx
    refine ⟨fun r hr => ?_, ?_⟩
    · rcases mem_append.mp hr with hr | hr
      · exact Nat.lt_succ_of_lt (h.below r hr)
      · rw [mem_singleton.mp hr]
        exact Nat.lt_succ_self _
    · rw [map_append, nodup_append]
      refine ⟨h.unique, nodup_singleton _, fun id hid id' hid' heq => ?_⟩
      obtain ⟨r, hr, rfl⟩ := mem_map.mp hid
      rw [mem_singleton.mp hid'] at heq
      exact absurd heq (h.below r hr).ne
  | clock => exact h
  | elapse d | handle key outcome => exact ⟨h.below, h.unique⟩
  | findExpired startedAt batchSize => exact h
  | foresee db => exact ⟨h.below, h.unique⟩

def Stage.Timely (s : Store Num) : Stage Num → Prop
  | .arrived now => now ≤ s.now
  | .working _ now _ => now ≤ s.now
  | .purging startedAt ids => startedAt ≤ s.now ∧
      ∀ id ∈ ids, id < s.created ∧ ∀ row ∈ s.rows, row.id = id → row.expiresAt ≤ startedAt
  | _ => True

theorem Stage.Timely.moves {σ : Stage Num} (h : σ.Timely s) (hmoves : Moves s s') : σ.Timely s' := by
  cases σ with
  | fresh | ended => trivial
  | arrived now | working key now progress => exact le_trans h hmoves.now
  | purging startedAt ids =>
    refine ⟨le_trans h.1 hmoves.now, fun id hid => ?_⟩
    obtain ⟨hbelow, hrows⟩ := h.2 id hid
    refine ⟨lt_of_lt_of_le hbelow hmoves.created, fun row hrow heq => ?_⟩
    rcases hmoves.rows row hrow with hold | hnew
    · exact hrows row hold heq
    · omega

theorem findExpired_timely (h : s.Numbered) (startedAt : ℤ) (batchSize : ℕ) :
    ∀ id ∈ s.findExpired startedAt batchSize, id < s.created ∧ ∀ row ∈ s.rows, row.id = id → row.expiresAt ≤ startedAt := by
  intro id hid
  obtain ⟨found, hfound, rfl⟩ := mem_map.mp hid
  have hmem := (perm_insertionSort _ _).mem_iff.mp (mem_of_mem_take hfound)
  obtain ⟨hrow, hexpired⟩ := mem_filter.mp hmem
  refine ⟨h.below found hrow, fun row hrow' heq => ?_⟩
  have hsame : row = found := inj_on_of_nodup_map h.unique hrow' hrow heq
  rw [hsame]
  exact of_decide_eq_true hexpired

theorem next_working (key : Text) (now : ℤ) (progress : Progress Num) (q : Query Num) (reply : q.Reply) :
    (Stage.working key now progress).next q reply = .ended ∨
      ∃ progress', (Stage.working key now progress).next q reply = .working key now progress' := by
  cases progress with
  | missed =>
    cases q with
    | deleteStale key' now' =>
      rcases reply with e | count
      · exact .inl rfl
      · exact .inr ⟨_, rfl⟩
    | _ => exact .inl rfl
  | cleared =>
    cases q with
    | handle key' outcome =>
      rcases key' with _ | key'
      · exact .inl rfl
      · rcases reply with e | response
        · exact .inl rfl
        · exact .inr ⟨_, rfl⟩
    | _ => exact .inl rfl
  | ran expiresAt response =>
    cases q with
    | _ => exact .inl rfl

theorem next_timely (h : s.Numbered) {σ : Stage Num} (hσ : σ.Timely s)
    (hallowed : σ.allowed config.numerals q) : (σ.next q (perform q s).1).Timely (perform q s).2 := by
  have hmoves := perform_moves q s
  cases σ with
  | fresh =>
    cases q with
    | clock => exact le_refl s.now
    | _ => trivial
  | ended => exact hallowed.elim
  | arrived now =>
    cases q with
    | clock => trivial
    | findFirst key now' =>
      generalize (perform (.findFirst key now') s).1 = reply
      rcases reply with e | _ | record
      · trivial
      · exact le_trans hσ hmoves.now
      · trivial
    | findExpired startedAt batchSize =>
      cases hallowed
      rcases hreply : (perform (.findExpired now batchSize) s).1 with e | ids
      · trivial
      · have hids : ids = s.findExpired now batchSize := by
          simp only [perform, Store.ask] at hreply
          split at hreply
          · cases hreply
          · cases hreply
            rfl
        rw [hids]
        exact ⟨hσ, findExpired_timely h now batchSize⟩
    | _ => exact hallowed.elim
  | working key now progress =>
    have hlater : now ≤ (perform q s).2.now := le_trans hσ hmoves.now
    rcases next_working key now progress q (perform q s).1 with hover | ⟨progress', hworking⟩
    · change (Stage.next _ q _).Timely _
      rw [hover]
      trivial
    · rw [hworking]
      exact hlater
  | purging startedAt ids =>
    cases q with
    | clock => trivial
    | deleteIds ids' =>
      generalize (perform (.deleteIds ids') s).1 = reply
      rcases reply with e | count
      · trivial
      · exact le_trans hσ.1 hmoves.now
    | _ => exact hallowed.elim

variable {σ : Stage Num} {p : KeyPool Num} {now : ℤ} {numerals : Numerals Num} {tr : List (KeyTransition Num)}
section Purge

def Known (stages : List (Stage Num)) (s : Store Num) : Prop := s.Numbered ∧ ∀ σ ∈ stages, σ.Timely s

variable {t : KeyTransition Num}

theorem known_start (stages : List (Stage Num)) (s : Store Num) (h : Known stages s) : Known (stages ++ [.fresh]) s := by
  refine ⟨h.1, fun σ hσ => ?_⟩
  rcases mem_append.mp hσ with hσ | hσ
  · exact h.2 σ hσ
  · rw [mem_singleton.mp hσ]
    trivial

theorem known_serve {stages : List (Stage Num)} {s : Store Num} {i : ℕ} {q : Query Num} (h : Known stages s)
    (hi : stages[i]? = some σ) (hallowed : σ.allowed config.numerals q) :
    Known (stages.set i (σ.next q (perform q s).1)) (perform q s).2 := by
  refine ⟨perform_numbered h.1 q, fun σ' hσ' => ?_⟩
  rcases mem_or_eq_of_mem_set hσ' with hσ' | rfl
  · exact (h.2 σ' hσ').moves (perform_moves q s)
  · exact next_timely h.1 (h.2 σ (mem_of_getElem? hi)) hallowed

theorem known_of_run (hrun : Run (KeyStep config) { store := { now := now } } tr p)
    (ht : t ∈ tr) : t.pre.Staged (protocol config.numerals) Known := by
  have hidle : Pool.Staged (protocol config.numerals) Known ({ store := { now := now } } : KeyPool Num) :=
    Pool.Staged.idle ⟨⟨fun _ h => absurd h not_mem_nil, nodup_nil⟩, fun _ h => absurd h not_mem_nil⟩
  exact (Pool.Staged.run (C := fun _ _ => True) (fun op => (body_follows op).mono fun _ _ _ => trivial) known_start
    (fun _ _ _ _ _ h hi hallowed _ => known_serve h hi hallowed) hrun hidle (fun _ _ _ _ => trivial) ht).1

theorem allowed_deleteStale {key : Text} {now : ℤ} (h : σ.allowed numerals (.deleteStale key now)) :
    σ = .working key now .missed := by
  cases σ with
  | working key' now' progress =>
    cases progress with
    | missed =>
      obtain ⟨rfl, rfl⟩ := h
      rfl
    | cleared | ran expiresAt response => exact h.elim
  | _ => exact h.elim

theorem allowed_deleteIds {ids : List ℕ} (h : σ.allowed numerals (.deleteIds ids)) :
    ∃ startedAt, σ = .purging startedAt ids := by
  cases σ with
  | purging startedAt ids' =>
    cases h
    exact ⟨startedAt, rfl⟩
  | working key now progress =>
    cases progress with
    | _ => exact h.elim
  | _ => exact h.elim

theorem expired_of_removed (hrun : Run (KeyStep config) { store := { now := now } } tr p)
    (ht : t ∈ tr) {row : IdempotencyKey} (hrow : row ∈ t.pre.store.rows) (hgone : row ∉ t.post.store.rows) :
    row.expiresAt ≤ t.pre.store.now := by
  have hdelete : ∀ p : IdempotencyKey → Bool,
      row ∉ (commit (t.pre.store.deleteWhere p) t.pre.store).2.rows → p row = true := by
    intro p hremoved
    rcases commit_cases (t.pre.store.deleteWhere p) t.pre.store with ⟨e, -, hcommit⟩ | ⟨count, s', htx, hcommit⟩
    · rw [hcommit] at hremoved
      exact absurd hrow hremoved
    · rw [hcommit, deleteWhere_ok htx] at hremoved
      by_contra hp
      exact hremoved (mem_filter.mpr ⟨hrow, by simp [hp]⟩)
  rcases (hrun.step_of_mem ht).request_cases with ⟨-, hstore⟩ | ⟨op, q, hq, hstore⟩
  · rw [hstore] at hgone
    exact absurd hrow hgone
  · rw [hstore] at hgone
    obtain ⟨stages, i, σ, hi, hallowed, hnumbered, htimely⟩ :=
      (known_of_run hrun ht).request (Pool.asked_of_request hq)
    have hσ := htimely σ (mem_of_getElem? hi)
    cases q with
    | deleteStale key now' =>
      have hstale := hdelete _ hgone
      rw [allowed_deleteStale hallowed] at hσ
      exact le_trans (of_decide_eq_true hstale).2 hσ
    | deleteIds ids =>
      have hin : row.id ∈ ids := of_decide_eq_true (hdelete _ hgone)
      obtain ⟨startedAt, rfl⟩ := allowed_deleteIds hallowed
      exact le_trans ((hσ.2 row.id hin).2 row hrow rfl) hσ.1
    | findFirst key now' =>
      refine absurd ?_ hgone
      refine commit_keeps (P := fun s : Store Num => row ∈ s.rows) hrow fun record s' htx => ?_
      rw [(findFirst_ok htx).2]
      exact hrow
    | create new =>
      refine absurd ?_ hgone
      refine commit_keeps (P := fun s : Store Num => row ∈ s.rows) hrow fun _ s' htx => ?_
      obtain ⟨responseBody, -, -, rfl⟩ := create_ok htx
      exact mem_append_left _ hrow
    | _ => exact absurd hrow hgone

end Purge
section Serial
variable {stages : List (Stage Num)} {σ' : Stage Num} {i : ℕ} {key : Text}

def Event.time : Event Num → ℤ
  | .ran _ time _ _ => time
  | .replied _ time _ => time

def Event.isRunOf (key : Text) : Event Num → Bool
  | .ran key' .. => key' = key
  | .replied .. => false

def lastRun (events : List (Event Num)) (key : Text) : Option (Event Num) := events.find? (·.isRunOf key)

def Stage.Holds (s : Store Num) : Stage Num → Prop
  | .working key now .missed => (∀ e ∈ s.events, ¬ e.IsAlive key now) ∧ ∀ row ∈ s.rows, row.key = key → row.expiresAt ≤ now
  | .working key now .cleared => (∀ e ∈ s.events, ¬ e.IsAlive key now) ∧ ∀ row ∈ s.rows, row.key ≠ key
  | .working key _ (.ran expiresAt response) =>
    (∃ time, lastRun s.events key = some (.ran key time expiresAt (.ok response))) ∧ ∀ row ∈ s.rows, row.key ≠ key
  | _ => True

def Stage.WorksOn (key : Text) : Stage Num → Prop
  | .working key' .. => key' = key
  | _ => False

structure Strict (config : Config Num) (stages : List (Stage Num)) (s : Store Num) : Prop where
  times : ∀ e ∈ s.events, e.time ≤ s.now
  records : ∀ row ∈ s.rows, ∃ time outcome, lastRun s.events row.key = some (.ran row.key time row.expiresAt outcome) ∧
    Records config.numerals outcome row
  single : ∀ (i j : ℕ) σ σ' key, stages[i]? = some σ → stages[j]? = some σ' → σ.WorksOn key → σ'.WorksOn key → i = j
  holds : ∀ σ ∈ stages, σ.Holds s
  once : s.events.Pairwise RunsOnce
  replies : s.events.Pairwise (RepliesOf config.numerals)

structure Untouched (key : Text) (s s' : Store Num) : Prop where
  rows : ∀ row ∈ s'.rows, row.key = key → row ∈ s.rows
  alive : ∀ now, ∀ e ∈ s'.events, e.IsAlive key now → e ∈ s.events
  lastRun : lastRun s'.events key = lastRun s.events key

variable {expiresAt : ℤ}

theorem Stage.Holds.untouched (h : σ.Holds s) (hkey : ∀ key, σ.WorksOn key → Untouched key s s') : σ.Holds s' := by
  cases σ with
  | working key now progress =>
    have hsame := hkey key rfl
    cases progress with
    | missed =>
      exact ⟨fun e he halive => h.1 e (hsame.alive now e he halive) halive,
        fun row hrow heq => h.2 row (hsame.rows row hrow heq) heq⟩
    | cleared =>
      exact ⟨fun e he halive => h.1 e (hsame.alive now e he halive) halive,
        fun row hrow heq => h.2 row (hsame.rows row hrow heq) heq⟩
    | ran expiresAt response =>
      obtain ⟨time, hlast⟩ := h.1
      exact ⟨⟨time, hsame.lastRun.trans hlast⟩, fun row hrow heq => h.2 row (hsame.rows row hrow heq) heq⟩
  | _ => trivial

def Query.writes : Query Num → Option Text
  | .handle key _ => key.map Prod.fst
  | .create row => some row.key
  | _ => none

theorem perform_untouched (q : Query Num) (s : Store Num) (h : q.writes ≠ some key) :
    Untouched key s (perform q s).2 := by
  have hsame : Untouched key s s := ⟨fun _ h _ => h, fun _ _ h _ => h, rfl⟩
  have hdelete : ∀ p : IdempotencyKey → Bool, Untouched key s (commit (s.deleteWhere p) s).2 := by
    intro p
    refine commit_keeps (P := Untouched key s) hsame fun count s' htx => ?_
    rw [deleteWhere_ok htx]
    exact ⟨fun row hrow _ => (mem_filter.mp hrow).1, fun _ _ h _ => h, rfl⟩
  cases q with
  | findFirst key' now =>
    refine commit_keeps (P := Untouched key s) hsame fun record s' htx => ?_
    rw [(findFirst_ok htx).2]
    cases record with
    | none => exact ⟨fun _ h _ => h, fun _ _ h _ => h, rfl⟩
    | some record =>
      refine ⟨fun _ h _ => h, fun now e he halive => ?_, rfl⟩
      rcases mem_cons.mp he with rfl | he
      · exact halive.elim
      · exact he
  | deleteStale key' now | deleteIds ids => exact hdelete _
  | create row =>
    refine commit_keeps (P := Untouched key s) hsame fun _ s' htx => ?_
    obtain ⟨responseBody, -, -, rfl⟩ := create_ok htx
    refine ⟨fun r hr heq => ?_, fun _ _ he _ => he, rfl⟩
    rcases mem_append.mp hr with hr | hr
    · exact hr
    · rw [mem_singleton.mp hr] at heq
      exact absurd (congrArg some heq) h
  | handle key' outcome =>
    cases key' with
    | none => exact ⟨fun _ h _ => h, fun _ _ h _ => h, rfl⟩
    | some key' =>
      have hne : key'.1 ≠ key := fun heq => h (congrArg some heq)
      refine ⟨fun _ h _ => h, fun now e he halive => ?_, ?_⟩
      · rcases mem_cons.mp he with rfl | he
        · exact absurd halive.1 hne
        · exact he
      · exact find?_cons_of_neg (by simp [Event.isRunOf, hne])
  | clock => exact hsame
  | elapse d => exact ⟨fun _ h _ => h, fun _ _ h _ => h, rfl⟩
  | findExpired startedAt batchSize => exact hsame
  | foresee db => exact ⟨fun _ h _ => h, fun _ _ h _ => h, rfl⟩

def SerialAt (stages : List (Stage Num)) (s : Store Num) (q : Query Num) : Prop :=
  ∀ key now, q = .findFirst key now → (s.find key now).isSome = true ∨
    ((∀ σ ∈ stages, ¬ σ.WorksOn key) ∧ ∀ e ∈ s.events, ¬ e.IsAlive key now)

theorem eq_lastRun {e e₀ : Event Num} : ∀ {events : List (Event Num)}, events.Pairwise RunsOnce →
    lastRun events key = some e₀ → e ∈ events → e.isRunOf key = true → e = e₀ ∨ RunsOnce e₀ e
  | [], _, _, he, _ => absurd he not_mem_nil
  | e' :: events, hpairs, hlast, he, hrun => by
    rw [pairwise_cons] at hpairs
    rw [lastRun, find?_cons] at hlast
    cases hrun' : e'.isRunOf key with
    | true =>
      rw [hrun', Option.some.injEq] at hlast
      subst hlast
      rcases mem_cons.mp he with rfl | he
      · exact .inl rfl
      · exact .inr (hpairs.1 e he)
    | false =>
      rw [hrun'] at hlast
      rcases mem_cons.mp he with rfl | he
      · rw [hrun] at hrun'
        cases hrun'
      · exact eq_lastRun hpairs.2 hlast he hrun

theorem perform_events (q : Query Num) (s : Store Num) : (perform q s).2.events = s.events ∨
    (∃ key now record, q = .findFirst key now ∧ s.find key now = some record ∧
      (perform q s).2.events = .replied key s.now record :: s.events) ∨
    ∃ key expiresAt outcome, q = .handle (some (key, expiresAt)) outcome ∧
      (perform q s).2.events = .ran key s.now expiresAt outcome :: s.events := by
  have hdelete : ∀ p : IdempotencyKey → Bool, (commit (s.deleteWhere p) s).2.events = s.events := by
    intro p
    refine commit_keeps (P := fun s' : Store Num => s'.events = s.events) rfl fun count s' htx => ?_
    rw [deleteWhere_ok htx]
  cases q with
  | findFirst key now =>
    rcases commit_cases (s.findFirst key now) s with ⟨e, -, hcommit⟩ | ⟨record, s', htx, hcommit⟩
    · exact .inl (by rw [perform, hcommit])
    · obtain ⟨hrecord, rfl⟩ := findFirst_ok htx
      cases record with
      | none => exact .inl (by rw [perform, hcommit]; rfl)
      | some record => exact .inr (.inl ⟨key, now, record, rfl, hrecord.symm, by rw [perform, hcommit]; rfl⟩)
  | deleteStale key now | deleteIds ids => exact .inl (hdelete _)
  | create row =>
    refine .inl (commit_keeps (P := fun s' : Store Num => s'.events = s.events) rfl fun _ s' htx => ?_)
    obtain ⟨responseBody, -, -, rfl⟩ := create_ok htx
    rfl
  | handle key outcome =>
    cases key with
    | none => exact .inl rfl
    | some key => exact .inr (.inr ⟨key.1, key.2, outcome, rfl, rfl⟩)
  | clock | elapse d | findExpired startedAt batchSize | foresee db => exact .inl rfl

theorem times_serve (h : Strict config stages s) (q : Query Num) :
    ∀ e ∈ (perform q s).2.events, e.time ≤ (perform q s).2.now := by
  have hnow := (perform_moves q s).now
  intro e he
  rcases perform_events q s with hsame | ⟨key, now, record, -, -, hevents⟩ | ⟨key, expiresAt, outcome, -, hevents⟩
  · rw [hsame] at he
    exact le_trans (h.times e he) hnow
  · rw [hevents] at he
    rcases mem_cons.mp he with rfl | he
    · exact hnow
    · exact le_trans (h.times e he) hnow
  · rw [hevents] at he
    rcases mem_cons.mp he with rfl | he
    · exact hnow
    · exact le_trans (h.times e he) hnow

theorem allowed_handle {outcome : Except String (Response Num)}
    (h : σ.allowed numerals (.handle (some (key, expiresAt)) outcome)) : ∃ now, σ = .working key now .cleared := by
  cases σ with
  | working key' now progress =>
    cases progress with
    | cleared =>
      cases h
      exact ⟨now, rfl⟩
    | missed | ran expiresAt response => exact h.elim
  | _ => exact h.elim

theorem allowed_create {row : NewKey} (h : σ.allowed numerals (.create row)) :
    ∃ key now expiresAt response, σ = .working key now (.ran expiresAt response) ∧
      row = newKey numerals key expiresAt response := by
  cases σ with
  | working key' now progress =>
    cases progress with
    | ran expiresAt response => exact ⟨key', now, expiresAt, response, rfl, h⟩
    | missed | cleared => exact h.elim
  | _ => exact h.elim

theorem once_serve (h : Strict config stages s) (hknown : Known stages s) (hi : stages[i]? = some σ)
    (hallowed : σ.allowed config.numerals q) : (perform q s).2.events.Pairwise RunsOnce := by
  rcases perform_events q s with hsame | ⟨key, now, record, -, -, hevents⟩ | ⟨key, expiresAt, outcome, rfl, hevents⟩
  · rw [hsame]
    exact h.once
  · rw [hevents, pairwise_cons]
    refine ⟨fun e _ => ?_, h.once⟩
    cases e with
    | ran | replied => trivial
  · rw [hevents, pairwise_cons]
    refine ⟨fun e he => ?_, h.once⟩
    obtain ⟨now, rfl⟩ := allowed_handle hallowed
    have hdead := (h.holds _ (mem_of_getElem? hi)).1 e he
    have hnow : now ≤ s.now := hknown.2 _ (mem_of_getElem? hi)
    cases e with
    | replied => trivial
    | ran key' time expiresAt' outcome' =>
      intro heq
      have hover : ¬ now < expiresAt' := fun halive => hdead ⟨heq, halive⟩
      omega

theorem replies_serve (h : Strict config stages s) (q : Query Num) :
    (perform q s).2.events.Pairwise (RepliesOf config.numerals) := by
  rcases perform_events q s with hsame | ⟨key, now, record, -, hfind, hevents⟩ | ⟨key, expiresAt, outcome, -, hevents⟩
  · rw [hsame]
    exact h.replies
  · rw [hevents, pairwise_cons]
    refine ⟨fun e he => ?_, h.replies⟩
    cases e with
    | replied => trivial
    | ran key' time expiresAt outcome =>
      intro heq hlive
      have hrecord : record ∈ s.rows := mem_of_find?_eq_some hfind
      have hkey : record.key = key := by
        have hfound := find?_some hfind
        exact (of_decide_eq_true hfound).1
      obtain ⟨time₀, outcome₀, hlast, hrecords⟩ := h.records record hrecord
      have hrun : (Event.ran key' time expiresAt outcome).isRunOf record.key = true := by
        rw [hkey, ← heq]
        exact decide_eq_true rfl
      rcases eq_lastRun h.once hlast he hrun with hsame | hbefore
      · cases hsame
        exact hrecords
      · -- an earlier run is over by the time of the latest one
        have hlast_mem : Event.ran record.key time₀ record.expiresAt outcome₀ ∈ s.events :=
          mem_of_find?_eq_some hlast
        have htime : time₀ ≤ s.now := h.times _ hlast_mem
        have hover : expiresAt ≤ time₀ := hbefore (heq.trans hkey.symm)
        omega
  · rw [hevents, pairwise_cons]
    refine ⟨fun e _ => ?_, h.replies⟩
    cases e with
    | ran | replied => trivial

theorem records_newKey {response : Response Num} {id : ℕ}
    {responseBody : Text} (h : (newKey numerals key expiresAt response).responseBody = some responseBody) :
    Records numerals (.ok response) ⟨id, key, response.statusCode, responseBody, expiresAt⟩ := by
  obtain ⟨data, hdata, rfl⟩ := Option.map_eq_some_iff.mp h
  have hwf := response.data_wf data hdata
  exact ⟨response, data, data.visited, rfl, hdata, rfl, parse_stringify hwf, visited_same hwf⟩

theorem records_serve (h : Strict config stages s) (hi : stages[i]? = some σ)
    (hallowed : σ.allowed config.numerals q) : ∀ row ∈ (perform q s).2.rows, ∃ time outcome,
      lastRun (perform q s).2.events row.key = some (.ran row.key time row.expiresAt outcome) ∧
        Records config.numerals outcome row := by
  intro row hrow
  have hholds := h.holds σ (mem_of_getElem? hi)
  by_cases hwrites : q.writes = some row.key
  · cases q with
    | handle key outcome =>
      obtain ⟨⟨key, expiresAt⟩, rfl, hkey⟩ := Option.map_eq_some_iff.mp hwrites
      obtain ⟨now, rfl⟩ := allowed_handle hallowed
      exact absurd hkey.symm (hholds.2 row hrow)
    | create new =>
      obtain ⟨key, now, expiresAt, response, rfl, rfl⟩ := allowed_create hallowed
      rcases commit_cases (s.create (newKey config.numerals key expiresAt response)) s with
        ⟨e, -, hcommit⟩ | ⟨a, s', htx, hcommit⟩
      · rw [perform, hcommit] at hrow
        exact absurd (Option.some.inj hwrites).symm (hholds.2 row hrow)
      · obtain ⟨responseBody, hbody, -, rfl⟩ := create_ok htx
        rw [perform, hcommit] at hrow ⊢
        rcases mem_append.mp hrow with hrow | hrow
        · exact absurd (Option.some.inj hwrites).symm (hholds.2 row hrow)
        · obtain ⟨time, hlast⟩ := hholds.1
          rw [mem_singleton.mp hrow]
          exact ⟨time, _, hlast, records_newKey hbody⟩
    | _ => cases hwrites
  · have hsame := perform_untouched q s hwrites
    obtain ⟨time, outcome, hlast, hrecords⟩ := h.records row (hsame.rows row hrow rfl)
    exact ⟨time, outcome, hsame.lastRun.trans hlast, hrecords⟩

theorem findFirst_miss (h : (perform (.findFirst key now) s).1 = .ok none) :
    s.find key now = none ∧ (perform (.findFirst key now) s).2 = s := by
  rcases commit_cases (s.findFirst key now) s with ⟨e, -, hcommit⟩ | ⟨record, s', htx, hcommit⟩
  · rw [perform, hcommit] at h
    cases h
  · rw [perform, hcommit] at h
    cases h
    obtain ⟨hnone, rfl⟩ := findFirst_ok htx
    refine ⟨hnone.symm, ?_⟩
    rw [perform, hcommit]
    rfl

theorem deleteStale_clears {count : ℕ} (h : (perform (.deleteStale key now) s).1 = .ok count)
    (hstale : ∀ row ∈ s.rows, row.key = key → row.expiresAt ≤ now) :
    ∀ row ∈ (perform (.deleteStale key now) s).2.rows, row.key ≠ key := by
  rcases commit_cases (s.deleteWhere (isStale key now)) s with ⟨e, -, hcommit⟩ | ⟨n, s', htx, hcommit⟩
  · rw [perform, hcommit] at h
    cases h
  · rw [perform, hcommit, deleteWhere_ok htx]
    intro row hrow hkey
    obtain ⟨hold, hkept⟩ := mem_filter.mp hrow
    have hgone : isStale key now row = true := decide_eq_true ⟨hkey, hstale row hold hkey⟩
    rw [hgone] at hkept
    cases hkept

theorem next_worksOn (h : (σ.next q (perform q s).1).WorksOn key) :
    σ.WorksOn key ∨ ∃ now, q = .findFirst key now ∧ s.find key now = none := by
  cases σ with
  | fresh =>
    cases q with
    | _ => exact h.elim
  | ended => exact h.elim
  | working key' now progress =>
    rcases next_working key' now progress q (perform q s).1 with hover | ⟨progress', hworking⟩
    · rw [hover] at h
      exact h.elim
    · rw [hworking] at h
      exact .inl h
  | purging startedAt ids =>
    cases q with
    | deleteIds ids' =>
      revert h
      generalize (perform (.deleteIds ids') s).1 = reply
      intro h
      rcases reply with e | count
      · exact h.elim
      · exact h.elim
    | _ => exact h.elim
  | arrived now =>
    cases q with
    | findFirst key' now' =>
      rcases hreply : (perform (.findFirst key' now') s).1 with e | _ | record
      · rw [hreply] at h
        exact h.elim
      · rw [hreply] at h
        cases h
        exact .inr ⟨now', rfl, (findFirst_miss hreply).1⟩
      · rw [hreply] at h
        exact h.elim
    | findExpired startedAt batchSize =>
      revert h
      generalize (perform (.findExpired startedAt batchSize) s).1 = reply
      intro h
      rcases reply with e | ids
      · exact h.elim
      · exact h.elim
    | _ => exact h.elim

theorem single_serve (h : Strict config stages s) (hserial : SerialAt stages s q) (hi : stages[i]? = some σ) :
    Exclusive (fun σ key => σ.WorksOn key) (stages.set i (σ.next q (perform q s).1)) := by
  apply Exclusive.set h.single hi
  intro key hnext
  rcases next_worksOn hnext with hσ | ⟨now, rfl, hmiss⟩
  · exact .inl hσ
  · rcases hserial key now rfl with hfound | ⟨halone, -⟩
    · rw [hmiss] at hfound
      cases hfound
    · exact .inr halone

theorem next_holds (h : Strict config stages s) (hserial : SerialAt stages s q) (hi : stages[i]? = some σ)
    (hallowed : σ.allowed config.numerals q) : (σ.next q (perform q s).1).Holds (perform q s).2 := by
  have hholds := h.holds σ (mem_of_getElem? hi)
  cases σ with
  | fresh =>
    cases q with
    | _ => trivial
  | ended => exact hallowed.elim
  | purging startedAt ids =>
    cases q with
    | deleteIds ids' =>
      generalize (perform (.deleteIds ids') s).1 = reply
      rcases reply with e | count
      · trivial
      · trivial
    | _ => trivial
  | arrived now =>
    cases q with
    | findFirst key' now' =>
      rcases hreply : (perform (.findFirst key' now') s).1 with e | _ | record
      · trivial
      · cases hallowed
        obtain ⟨hmiss, hstore⟩ := findFirst_miss hreply
        rcases hserial key' _ rfl with hfound | ⟨-, hdead⟩
        · rw [hmiss] at hfound
          cases hfound
        · rw [hstore]
          refine ⟨hdead, fun row hrow hkey => ?_⟩
          have hnot := find?_eq_none.mp hmiss row hrow
          by_contra hlive
          exact hnot (decide_eq_true ⟨hkey, not_le.mp hlive⟩)
      · trivial
    | findExpired startedAt batchSize =>
      generalize (perform (.findExpired startedAt batchSize) s).1 = reply
      rcases reply with e | ids
      · trivial
      · trivial
    | _ => trivial
  | working key' now progress =>
    cases progress with
    | missed =>
      cases q with
      | deleteStale key'' now' =>
        obtain ⟨rfl, rfl⟩ := hallowed
        rcases hreply : (perform (.deleteStale key'' now') s).1 with e | count
        · trivial
        · have hquiet : (perform (.deleteStale key'' now') s).2.events = s.events := by
            rcases perform_events (.deleteStale key'' now') s with hsame | ⟨_, _, _, hq, -⟩ | ⟨_, _, _, hq, -⟩
            · exact hsame
            · cases hq
            · cases hq
          refine ⟨?_, deleteStale_clears hreply hholds.2⟩
          rw [hquiet]
          exact hholds.1
      | _ => exact hallowed.elim
    | cleared =>
      cases q with
      | handle key'' outcome =>
        rcases key'' with _ | ⟨key'', expiresAt⟩
        · exact hallowed.elim
        · cases hallowed
          cases outcome with
          | error e => trivial
          | ok response =>
            exact ⟨⟨s.now, find?_cons_of_pos (decide_eq_true rfl)⟩, hholds.2⟩
      | _ => exact hallowed.elim
    | ran expiresAt response =>
      cases q with
      | _ => trivial

theorem others_hold (h : Strict config stages s) (hi : stages[i]? = some σ)
    (hallowed : σ.allowed config.numerals q) {j : ℕ} {τ : Stage Num} (hj : stages[j]? = some τ) (hne : j ≠ i) :
    τ.Holds (perform q s).2 := by
  refine (h.holds τ (mem_of_getElem? hj)).untouched fun key hworks => perform_untouched q s fun hwrites => ?_
  have hσ : σ.WorksOn key := by
    cases q with
    | handle key' outcome =>
      obtain ⟨⟨key', expiresAt⟩, rfl, rfl⟩ := Option.map_eq_some_iff.mp hwrites
      obtain ⟨now, rfl⟩ := allowed_handle hallowed
      rfl
    | create row =>
      obtain ⟨key', now, expiresAt, response, rfl, rfl⟩ := allowed_create hallowed
      exact Option.some.inj hwrites
    | _ => cases hwrites
  exact hne (h.single j i τ σ key hj hi hworks hσ)

theorem strict_serve (h : Strict config stages s) (hknown : Known stages s) (hserial : SerialAt stages s q)
    (hi : stages[i]? = some σ) (hallowed : σ.allowed config.numerals q) :
    Strict config (stages.set i (σ.next q (perform q s).1)) (perform q s).2 where
  times := times_serve h q
  records := records_serve h hi hallowed
  single := single_serve h hserial hi
  holds := forall_mem_set (next_holds h hserial hi hallowed) fun _ _ hji hj => others_hold h hi hallowed hj hji
  once := once_serve h hknown hi hallowed
  replies := replies_serve h q

theorem strict_start (h : Strict config stages s) : Strict config (stages ++ [.fresh]) s where
  times := h.times
  records := h.records
  single := Exclusive.snoc h.single fun _ hworks => hworks
  holds τ hτ := by
    rcases mem_append.mp hτ with hτ | hτ
    · exact h.holds τ hτ
    · rw [mem_singleton.mp hτ]
      trivial
  once := h.once
  replies := h.replies

end Serial
section Runs
variable {p' : KeyPool Num}

def Orderly (config : Config Num) (p : KeyPool Num) : Prop :=
  ∃ stages, p.At (protocol config.numerals) (fun σ _ => σ.IsAtRest) stages ∧ Known stages p.store ∧
    Strict config stages p.store

theorem inProgress_of_worksOn {stages : List (Stage Num)}
    (h : p.At (protocol config.numerals) (fun σ _ => σ.IsAtRest) stages) {σ : Stage Num} (hσ : σ ∈ stages)
    {key : Text} (hworks : σ.WorksOn key) : InProgress p key := by
  obtain ⟨i, hi⟩ := mem_iff_getElem?.mp hσ
  obtain ⟨⟨op, task⟩, hthread, hfollows⟩ := h.stage hi
  refine ⟨_, mem_of_getElem? hthread, ?_⟩
  cases σ with
  | working key' now progress =>
    cases hworks
    cases task with
    | done result => exact hfollows.elim
    | ask q next =>
      have hallowed := hfollows.1
      cases q with
      | deleteStale key'' now' =>
        have hstage := allowed_deleteStale hallowed
        cases hstage
        rfl
      | handle key'' outcome =>
        cases progress with
        | cleared =>
          rcases key'' with _ | ⟨key'', expiresAt⟩
          · exact hallowed.elim
          · exact congrArg some hallowed
        | missed | ran expiresAt response => exact hallowed.elim
      | create row =>
        obtain ⟨key'', now', expiresAt, response, hstage, rfl⟩ := allowed_create hallowed
        cases hstage
        rfl
      | _ =>
        cases progress with
        | _ => exact hallowed.elim
  | _ => exact hworks.elim

theorem orderly_of_run (hrun : Run (KeyStep config) { store := { now := now } } tr p) (hserial : ∀ t ∈ tr, Serial t)
    {t : KeyTransition Num} (ht : t ∈ tr) : Orderly config t.post := by
  have hidle : Orderly config ({ store := { now := now } } : KeyPool Num) :=
    ⟨[], List.Forall₂.nil, ⟨⟨fun _ h => absurd h not_mem_nil, nodup_nil⟩, fun _ h => absurd h not_mem_nil⟩,
      { times := fun _ h => absurd h not_mem_nil
        records := fun _ h => absurd h not_mem_nil
        single := fun _ _ _ _ _ h => by cases h
        holds := fun _ h => absurd h not_mem_nil
        once := List.Pairwise.nil
        replies := List.Pairwise.nil }⟩
  refine (hrun.invariant_at (I := Orderly config) (C := Serial) hidle hserial (fun t hstep hC hpre => ?_) ht).2
  obtain ⟨stages, hat, hknown, hstrict⟩ := hpre
  rcases hat.step body_follows hstep with ⟨-, hstore, hat'⟩ | ⟨i, σ, q, -, hq, hσ, hallowed, hstore, hat'⟩
  · refine ⟨_, hat', ?_, ?_⟩
    · rw [hstore]
      exact known_start stages _ hknown
    · rw [hstore]
      exact strict_start hstrict
  · have hserialAt : SerialAt stages t.pre.store q := by
      rintro key now rfl
      rcases hC _ hq with hfound | ⟨halone, hdead⟩
      · exact .inl hfound
      · exact .inr ⟨fun τ hτ hworks => halone (inProgress_of_worksOn hat hτ hworks), hdead⟩
    refine ⟨_, hat', ?_, ?_⟩
    · rw [hstore]
      exact known_serve hknown hσ hallowed
    · rw [hstore]
      exact strict_serve hstrict hknown hserialAt hσ hallowed

/-- Idempotency keys: in every run whose requests look their key up one after the other, each key executes
its request at most once, and whatever the requests do, the purge leaves the records that have not expired. -/
theorem idempotent_of_serial (hrun : Run (KeyStep config) { store := { now := now } } tr p)
    (hserial : ∀ t ∈ tr, Serial t) : Idempotent config tr where
  once t ht := by
    obtain ⟨stages, -, -, hstrict⟩ := orderly_of_run hrun hserial ht
    exact hstrict.once
  replies t ht := by
    obtain ⟨stages, -, -, hstrict⟩ := orderly_of_run hrun hserial ht
    exact hstrict.replies
  purged t ht _ hrow hgone := expired_of_removed hrun ht hrow hgone

def paid (receipt : ℕ) : Response ℕ := ⟨201, some (.num receipt), fun _ h => by cases h; exact .num receipt⟩

def paymentConfig : Config ℕ := { numerals := Numerals.nat }

def payment (receipt : ℕ) : KeyOp ℕ := .intercept (some "pay-1".toList) (.ok (paid receipt))

def payments (turns : List ℕ) : List (KeyTransition ℕ) × KeyPool ℕ :=
  play (Pool.take perform (KeyOp.body paymentConfig)) { store := { now := 0 } }
    ([.start (payment 1), .start (payment 2)] ++ turns.map .advance)

theorem payments_run (turns : List ℕ) :
    Run (KeyStep paymentConfig) { store := { now := 0 } } (payments turns).1 (payments turns).2 :=
  play_run (fun _ _ _ h => h) _ _

theorem idempotent_payments : Idempotent paymentConfig (payments [0, 0, 0, 0, 0, 1, 1]).1 :=
  idempotent_of_serial (payments_run _) (by decide +kernel)

theorem payments_runTwice : ¬ Idempotent paymentConfig (payments [0, 0, 1, 1, 0, 1, 0, 1]).1 := by
  intro h
  have htwice : ¬ ∀ t ∈ (payments [0, 0, 1, 1, 0, 1, 0, 1]).1, t.post.store.events.Pairwise RunsOnce := by
    decide +kernel
  exact htwice h.once

end Runs
end Soter.Idempotency
