import Mathlib.Data.Int.Order.Basic
import Mathlib.Data.List.Nodup
import Soter.Lib.Rely
import Soter.ApiKeys.Service

/-! When a rejected API key stays rejected, and the keys that replace each other form a line. -/
namespace Soter.ApiKeys
open Soter.Tasks Soter.Runs List

def Store.rejection (sha256 : String → String) (s : Store) (apiKey : String) : Option String :=
  (s.findCredential (sha256 apiKey) apiKey).bind (lifecycleError s.now)

inductive Descends (rows : List ApiKey) (k : String) : String → Prop
  | refl : Descends rows k k
  | rotation {a : String} {c : ApiKey} :
      Descends rows k a → c ∈ rows → c.rotatedFrom = some a → Descends rows k c.id

/-- The lifecycle of the keys in a run: what is rejected stays rejected, a key that is replaced keeps its
replacement, and of the keys that descend from one, at most one is not replaced. -/
structure Lifecycle (sha256 : String → String) (tr : List KeyTransition) : Prop where
  final : tr.Pairwise fun t t' => ∀ apiKey, (t.post.store.rejection sha256 apiKey).isSome = true →
    (t'.post.store.rejection sha256 apiKey).isSome = true
  once : ∀ t ∈ tr, ∀ row ∈ t.pre.store.rows, ∀ x, row.replacedById = some x →
    ∃ row' ∈ t.post.store.rows, row'.id = row.id ∧ row'.replacedById = some x
  linear : ∀ t ∈ tr, ∀ k, ∀ a ∈ t.post.store.rows, ∀ b ∈ t.post.store.rows,
    Descends t.post.store.rows k a.id → Descends t.post.store.rows k b.id →
      a.replacedById = none → b.replacedById = none → a = b

def Store.Takes (s : Store) (new : ApiKey) : Prop :=
  s.db.isOk = true ∧ ∀ row ∈ s.rows, ¬ new.Clashes row

def Query.RotatesOnce (q : Query) (s : Store) : Prop :=
  match q with
  | .commitRotation id replacement _ =>
    s.Takes replacement → ∀ row ∈ s.find id, row.replacedById = none
  | _ => True

def RotatesOnce (t : KeyTransition) : Prop :=
  ∀ q ∈ t.pre.asked t.label, q.RotatesOnce t.pre.store

instance (s : Store) (new : ApiKey) : Decidable (s.Takes new) :=
  inferInstanceAs (Decidable (s.db.isOk = true ∧ ∀ row ∈ s.rows, ¬ new.Clashes row))

instance (q : Query) (s : Store) : Decidable (q.RotatesOnce s) :=
  match q with
  | .commitRotation id replacement _ =>
    inferInstanceAs (Decidable (s.Takes replacement → ∀ row ∈ s.find id, row.replacedById = none))
  | .clock | .elapse _ | .findUnique _ | .create _ | .revoke .. | .authenticate .. | .touch .. | .record _
  | .foresee _ => .isTrue trivial

instance : DecidablePred RotatesOnce := fun t =>
  inferInstanceAs (Decidable (∀ q ∈ t.pre.asked t.label, q.RotatesOnce t.pre.store))

variable {added : List ApiKey} {f : ApiKey → ApiKey} {id : String}
section Table
variable {rows rows' : List ApiKey} {r r' : ApiKey} {now now' : Time}

structure Evolves (now : Time) (r r' : ApiKey) : Prop where
  id : r'.id = r.id
  credential : r'.keyHash = r.keyHash ∧ r'.key = r.key
  origin : r'.rotatedFrom = r.rotatedFrom
  replaced : ∀ x, r.replacedById = some x → r'.replacedById = some x
  rejected : (lifecycleError now r).isSome = true → (lifecycleError now r').isSome = true

theorem Evolves.refl (now : Time) (r : ApiKey) : Evolves now r r :=
  ⟨rfl, ⟨rfl, rfl⟩, rfl, fun _ h => h, fun h => h⟩

theorem lifecycleError_isSome : (lifecycleError now r).isSome = true ↔
    (∃ t, r.revokedAt = some t ∧ t ≤ now) ∨ (∃ t, r.expiresAt = some t ∧ t ≤ now) ∨
      ((∃ t, r.graceExpiresAt = some t ∧ t ≤ now) ∧ ∃ x, r.replacedById = some x ∧ x ≠ "") := by
  have hany : ∀ o : Option Time, o.any (· ≤ now) = true ↔ ∃ t, o = some t ∧ t ≤ now := by
    intro o
    cases o <;> simp
  have hreplaced : (r.replacedById.filter (· ≠ "")).isSome = true ↔ ∃ x, r.replacedById = some x ∧ x ≠ "" := by
    rw [Option.isSome_iff_exists]
    apply exists_congr
    intro x
    rw [Option.filter_eq_some_iff]
    simp
  rw [← hany, ← hany, ← hany, ← hreplaced, lifecycleError]
  by_cases hrevoked : r.revokedAt.any (· ≤ now) = true
  · simp [hrevoked]
  · by_cases hexpired : r.expiresAt.any (· ≤ now) = true
    · simp [hrevoked, hexpired]
    · rw [if_neg hrevoked, if_neg hexpired]
      split <;> simp_all

theorem lifecycleError_mono (h : (lifecycleError now r).isSome = true) (hnow : now ≤ now') :
    (lifecycleError now' r).isSome = true := by
  rw [lifecycleError_isSome] at h ⊢
  rcases h with ⟨t, ht, hle⟩ | ⟨t, ht, hle⟩ | ⟨⟨t, ht, hle⟩, hx⟩
  · exact .inl ⟨t, ht, le_trans hle hnow⟩
  · exact .inr (.inl ⟨t, ht, le_trans hle hnow⟩)
  · exact .inr (.inr ⟨⟨t, ht, le_trans hle hnow⟩, hx⟩)

theorem evolves_revoked {t : Time} (ht : t ≤ now) (revokedBy revokedReason : String) :
    Evolves now r (revoked t revokedBy revokedReason r) :=
  ⟨rfl, ⟨rfl, rfl⟩, rfl, fun _ h => h, fun _ => lifecycleError_isSome.mpr (.inl ⟨t, rfl, ht⟩)⟩

theorem evolves_rotated (hnew : r.replacedById = none) (replacementId : String) (graceExpiresAt : Time) :
    Evolves now r (rotated replacementId graceExpiresAt r) := by
  refine ⟨rfl, ⟨rfl, rfl⟩, rfl, fun x hx => ?_, fun h => ?_⟩
  · rw [hnew] at hx
    cases hx
  · rw [lifecycleError_isSome] at h ⊢
    rcases h with hrevoked | hexpired | ⟨-, x, hx, -⟩
    · exact .inl hrevoked
    · exact .inr (.inl hexpired)
    · rw [hnew] at hx
      cases hx

theorem evolves_updateRow (h : r.id = id → Evolves now r (f r)) : Evolves now r (updateRow id f r) := by
  rw [updateRow]
  split
  · exact h ‹_›
  · exact Evolves.refl now r

theorem map_ids (hid : ∀ row, (f row).id = row.id) : (rows.map f).map (·.id) = rows.map (·.id) := by
  rw [map_map]
  exact map_congr_left fun row _ => hid row

theorem find?_evolved {p : ApiKey → Bool} (hp : ∀ r ∈ rows, p (f r) = p r) (h : rows.find? p = some r) :
    (rows.map f ++ added).find? p = some (f r) := by
  induction rows with
  | nil => cases h
  | cons row rows ih =>
    rw [map_cons, cons_append, find?_cons, hp row mem_cons_self]
    rw [find?_cons] at h
    cases hrow : p row with
    | true =>
      rw [hrow] at h
      cases h
      rfl
    | false =>
      rw [hrow] at h
      exact ih (fun r hr => hp r (mem_cons_of_mem row hr)) h

end Table
variable {config : Config} {s : Store}
section Requests
variable {s' : Store} {q : Query}

def Query.Sane (q : Query) (s : Store) : Prop :=
  match q with
  | .create row => row.rotatedFrom = none ∧ row.replacedById = none
  | .revoke _ revokedAt _ _ => revokedAt ≤ s.now
  | .commitRotation id replacement _ =>
    replacement.rotatedFrom = some id ∧ replacement.replacedById = none ∧ replacement.id ≠ "" ∧
      ∃ row ∈ s.rows, row.id = id
  | _ => True

def Later (s s' : Store) : Prop :=
  s.now ≤ s'.now ∧ ∀ row ∈ s.rows, ∃ row' ∈ s'.rows, row'.id = row.id

variable {row : ApiKey}

theorem Later.refl (s : Store) : Later s s := ⟨le_refl _, fun row hrow => ⟨row, hrow, rfl⟩⟩

theorem Later.trans {a b c : Store} (h : Later a b) (h' : Later b c) : Later a c := by
  refine ⟨le_trans h.1 h'.1, fun row hrow => ?_⟩
  obtain ⟨row', hrow', hid⟩ := h.2 row hrow
  obtain ⟨row'', hrow'', hid'⟩ := h'.2 row' hrow'
  exact ⟨row'', hrow'', hid'.trans hid⟩

structure Store.Valid (s : Store) : Prop where
  ids : (s.rows.map (·.id)).Nodup
  replaced : ∀ row ∈ s.rows, ∀ x, row.replacedById = some x → ∃ c ∈ s.rows, c.id = x

theorem Store.Valid.eq_of_id (h : s.Valid) {r r' : ApiKey} (hr : r ∈ s.rows) (hr' : r' ∈ s.rows)
    (hid : r.id = r'.id) : r = r' :=
  inj_on_of_nodup_map h.ids hr hr' hid

theorem find_of_mem (h : s.Valid) (hrow : row ∈ s.rows) : s.find row.id = some row := by
  cases hfind : s.find row.id with
  | none =>
    have hnone := find?_eq_none.mp hfind row hrow
    simp at hnone
  | some found =>
    have hid : found.id = row.id := by simpa using find?_some hfind
    rw [h.eq_of_id (mem_of_find?_eq_some hfind) hrow hid]

theorem find_some (h : s.find id = some row) : row ∈ s.rows ∧ row.id = id :=
  ⟨mem_of_find?_eq_some h, by simpa using find?_some h⟩

theorem update_cases (s : Store) (id : String) (f : ApiKey → ApiKey) :
    (∃ e, s.update id f = .error e ∧ ¬ (s.db.isOk = true ∧ (s.find id).isSome = true)) ∨ ∃ row, s.find id = some row ∧
        s.update id f = .ok (f row, { s with rows := s.rows.map (updateRow id f) }) := by
  rw [Store.update]
  cases hdb : s.db with
  | error e => exact .inl ⟨_, rfl, fun h => by cases h.1⟩
  | ok _ =>
    cases hrow : s.find id with
    | none => exact .inl ⟨_, rfl, fun h => by cases h.2⟩
    | some row => exact .inr ⟨row, rfl, rfl⟩

theorem create_cases (s : Store) (new : ApiKey) : (∃ e, s.create new = .error e ∧ ¬ s.Takes new) ∨
      (s.Takes new ∧ s.create new = .ok (new, { s with rows := s.rows ++ [new] })) := by
  rw [Store.create]
  cases hdb : s.db with
  | error e =>
    refine .inl ⟨_, rfl, fun h => ?_⟩
    have hok := h.1
    rw [hdb] at hok
    cases hok
  | ok _ =>
    by_cases hclash : s.rows.any (new.Clashes ·) = true
    · rw [if_pos hclash]
      obtain ⟨row, hrow, hnew⟩ := any_eq_true.mp hclash
      exact .inl ⟨_, rfl, fun h => h.2 row hrow (of_decide_eq_true hnew)⟩
    · rw [if_neg hclash]
      refine .inr ⟨⟨by rw [hdb]; rfl, fun row hrow hnew => hclash ?_⟩, rfl⟩
      exact any_eq_true.mpr ⟨row, hrow, decide_eq_true hnew⟩

def rotatedRows (rows : List ApiKey) (id : String) (replacement : ApiKey) (graceExpiresAt : Time) : List ApiKey :=
  rows.map (updateRow id (rotated replacement.id graceExpiresAt)) ++ [replacement]

theorem commitRotation_cases {replacement : ApiKey} {graceExpiresAt : Time}
    (hsane : (Query.commitRotation id replacement graceExpiresAt).Sane s) :
    ((perform (.commitRotation id replacement graceExpiresAt) s).2 = s ∧ ¬ s.Takes replacement) ∨
      (s.Takes replacement ∧ (perform (.commitRotation id replacement graceExpiresAt) s).2 =
        { s with rows := rotatedRows s.rows id replacement graceExpiresAt }) := by
  obtain ⟨row, hrow, hid⟩ := hsane.2.2.2
  change ((commit (s.commitRotation id replacement graceExpiresAt) s).2 = s ∧ _) ∨
    (_ ∧ (commit (s.commitRotation id replacement graceExpiresAt) s).2 = _)
  rw [Store.commitRotation]
  rcases create_cases s replacement with ⟨e, he, htakes⟩ | ⟨htakes, hok⟩
  · rw [he]
    exact .inl ⟨rfl, htakes⟩
  · rw [hok]
    have hne : replacement.id ≠ id := fun heq => htakes.2 row hrow (.inl (hid.trans heq.symm))
    have hfound : (({ s with rows := s.rows ++ [replacement] } : Store).find id).isSome = true :=
      find?_isSome.mpr ⟨row, mem_append_left _ hrow, by simpa using hid⟩
    rcases update_cases { s with rows := s.rows ++ [replacement] } id (rotated replacement.id graceExpiresAt)
      with ⟨e, -, hfails⟩ | ⟨found, -, hupdate⟩
    · exact absurd ⟨htakes.1, hfound⟩ hfails
    · refine .inr ⟨htakes, ?_⟩
      change (commit (Except.bind (Store.update _ _ _) _) s).2 = _
      rw [hupdate]
      have hlast : updateRow id (rotated replacement.id graceExpiresAt) replacement = replacement := if_neg hne
      change ({ s with rows := (s.rows ++ [replacement]).map _ } : Store) = _
      rw [map_append, map_singleton, hlast, rotatedRows]

theorem updateRow_id (hf : ∀ row, (f row).id = row.id) (row : ApiKey) : (updateRow id f row).id = row.id := by
  rw [updateRow]
  split
  · exact hf row
  · rfl

def Query.IsRotation (q : Query) (replacement : ApiKey) : Prop :=
  ∃ id graceExpiresAt, q = .commitRotation id replacement graceExpiresAt

/-- What a sane request does to the table: nothing, one row is written anew, or a row is new, in a rotation
together with the key that it replaces. -/
inductive Effect (s : Store) (q : Query) (s' : Store) : Prop
  | same (rows : s'.rows = s.rows) (now : s.now ≤ s'.now)
      (rotation : ∀ replacement, q.IsRotation replacement → ¬ s.Takes replacement)
  | updated (id : String) (f : ApiKey → ApiKey) (evolves : ∀ row, Evolves s.now row (f row))
      (replaced : ∀ row, (f row).replacedById = row.replacedById)
      (store : s' = { s with rows := s.rows.map (updateRow id f) })
      (rotation : ∀ replacement, ¬ q.IsRotation replacement)
  | created (new : ApiKey) (query : q = .create new) (takes : s.Takes new)
      (store : s' = { s with rows := s.rows ++ [new] })
  | rotated (id : String) (replacement : ApiKey) (graceExpiresAt : Time)
      (query : q = .commitRotation id replacement graceExpiresAt) (takes : s.Takes replacement)
      (store : s' = { s with rows := rotatedRows s.rows id replacement graceExpiresAt })

theorem effect_update {s' : Store}
    (hf : ∀ row, Evolves s.now row (f row)) (hreplaced : ∀ row, (f row).replacedById = row.replacedById)
    (hq : ∀ replacement, ¬ q.IsRotation replacement)
    (herror : ∀ e, s.update id f = .error e → s' = s)
    (hok : ∀ row, s.update id f = .ok (f row, { s with rows := s.rows.map (updateRow id f) }) →
      s' = { s with rows := s.rows.map (updateRow id f) }) : Effect s q s' := by
  rcases update_cases s id f with ⟨e, he, -⟩ | ⟨row, -, hrow⟩
  · have hstays := herror e he
    exact .same (by rw [hstays]) (le_of_eq (by rw [hstays])) fun replacement h => absurd h (hq replacement)
  · exact .updated id f hf hreplaced (hok row hrow) hq

theorem perform_effect (hsane : q.Sane s) : Effect s q (perform q s).2 := by
  cases q with
  | create new =>
    rcases create_cases s new with ⟨e, he, -⟩ | ⟨htakes, hok⟩
    · have hstays : (perform (.create new) s).2 = s := by
        rw [perform, he]
        rfl
      refine .same (by rw [hstays]) (le_of_eq (by rw [hstays])) ?_
      rintro replacement ⟨_, _, heq⟩
      cases heq
    · refine .created new rfl htakes ?_
      rw [perform, hok]
      rfl
  | revoke id revokedAt revokedBy revokedReason =>
    refine effect_update (fun row => evolves_revoked hsane revokedBy revokedReason) (fun _ => rfl) ?_
      (fun e he => by rw [perform, he]; rfl) (fun row hok => by rw [perform, hok]; rfl)
    rintro replacement ⟨_, _, heq⟩
    cases heq
  | touch id lastUsedAt =>
    refine effect_update (f := fun row => { row with lastUsedAt := some lastUsedAt })
      (fun row => ⟨rfl, ⟨rfl, rfl⟩, rfl, fun _ h => h, fun h => h⟩) (fun _ => rfl) ?_
      (fun e he => by rw [perform, he]; rfl) (fun row hok => by rw [perform, hok]; rfl)
    rintro replacement ⟨_, _, heq⟩
    cases heq
  | commitRotation id replacement graceExpiresAt =>
    rcases commitRotation_cases hsane with ⟨hstays, htakes⟩ | ⟨htakes, hrotated⟩
    · refine .same (by rw [hstays]) (le_of_eq (by rw [hstays])) ?_
      rintro _ ⟨_, _, heq⟩
      cases heq
      exact htakes
    · exact .rotated id replacement graceExpiresAt rfl htakes hrotated
  | elapse d =>
    refine .same rfl (Int.le_add_of_nonneg_right (Int.natCast_nonneg d)) ?_
    rintro replacement ⟨_, _, heq⟩
    cases heq
  | _ =>
    refine .same rfl (le_refl _) ?_
    rintro replacement ⟨_, _, heq⟩
    cases heq

/-- Every key that was made by a rotation is the replacement of the key that was rotated. -/
def Store.Linear (s : Store) : Prop :=
  ∀ c ∈ s.rows, ∀ k, c.rotatedFrom = some k → ∃ r ∈ s.rows, r.id = k ∧ r.replacedById = some c.id

/-- Every row goes on as a row of its id, and a new row comes from a rotation of the key that it replaces. -/
structure Continues (s s' : Store) (f : ApiKey → ApiKey) (added : List ApiKey) : Prop where
  now : s.now ≤ s'.now
  rows : s'.rows = s.rows.map f ++ added
  evolves : ∀ row ∈ s.rows, Evolves s.now row (f row)
  origin : ∀ c ∈ added, ∀ k, c.rotatedFrom = some k →
    ∃ r ∈ s.rows, r.id = k ∧ (f r).replacedById = some c.id

theorem Effect.continues (h : Effect s q s') (hsane : q.Sane s) (hvalid : s.Valid) (honce : q.RotatesOnce s) :
    ∃ f added, Continues s s' f added := by
  cases h with
  | same hrows hnow _ =>
    exact ⟨id, [], hnow, by rw [hrows, map_id, append_nil], fun row _ => Evolves.refl s.now row,
      fun c hc => absurd hc not_mem_nil⟩
  | updated id f hf _ hstore _ =>
    subst hstore
    exact ⟨updateRow id f, [], le_refl _, (append_nil _).symm,
      fun row _ => evolves_updateRow fun _ => hf row, fun c hc => absurd hc not_mem_nil⟩
  | created new hq _ hstore =>
    subst hq hstore
    refine ⟨id, [new], le_refl _, by rw [map_id], fun row _ => Evolves.refl s.now row, fun c hc k hk => ?_⟩
    rw [mem_singleton.mp hc, hsane.1] at hk
    cases hk
  | rotated id replacement graceExpiresAt hq htakes hstore =>
    subst hq hstore
    refine ⟨_, _, le_refl _, rfl, fun row hrow => evolves_updateRow fun hid => ?_, fun c hc k hk => ?_⟩
    · have hnew := honce htakes row (hid ▸ find_of_mem hvalid hrow)
      exact evolves_rotated hnew replacement.id graceExpiresAt
    · rw [mem_singleton.mp hc] at hk ⊢
      rw [hsane.1] at hk
      cases hk
      obtain ⟨row, hrow, hid⟩ := hsane.2.2.2
      refine ⟨row, hrow, hid, ?_⟩
      rw [updateRow, if_pos hid]
      rfl

theorem Continues.mem (h : Continues s s' f added) (hrow : row ∈ s.rows) : f row ∈ s'.rows := by
  rw [h.rows]
  exact mem_append_left _ (mem_map_of_mem hrow)

theorem Continues.linear (h : Continues s s' f added) (hlinear : s.Linear) : s'.Linear := by
  intro c hc k hk
  rw [h.rows] at hc
  rcases mem_append.mp hc with hc | hc
  · obtain ⟨old, hold, rfl⟩ := mem_map.mp hc
    have hevolves := h.evolves old hold
    rw [hevolves.origin] at hk
    obtain ⟨r, hr, hid, hreplaced⟩ := hlinear old hold k hk
    refine ⟨f r, h.mem hr, (h.evolves r hr).id.trans hid, ?_⟩
    rw [hevolves.id]
    exact (h.evolves r hr).replaced old.id hreplaced
  · obtain ⟨r, hr, hid, hreplaced⟩ := h.origin c hc k hk
    exact ⟨f r, h.mem hr, (h.evolves r hr).id.trans hid, hreplaced⟩

theorem Continues.rejection {sha256 : String → String}
    (h : Continues s s' f added) {apiKey : String} (hrejected : (s.rejection sha256 apiKey).isSome = true) :
    (s'.rejection sha256 apiKey).isSome = true := by
  rw [Store.rejection, Option.isSome_bind, Option.any_eq_true] at hrejected ⊢
  obtain ⟨row, hfound, herror⟩ := hrejected
  have hrow : row ∈ s.rows := mem_of_find?_eq_some hfound
  refine ⟨f row, ?_, lifecycleError_mono ((h.evolves row hrow).rejected herror) h.now⟩
  rw [Store.findCredential, h.rows]
  refine find?_evolved (fun r hr => ?_) hfound
  rw [matchesCredential, matchesCredential, (h.evolves r hr).credential.1, (h.evolves r hr).credential.2]

theorem Effect.valid (h : Effect s q s') (hsane : q.Sane s) (hvalid : s.Valid) : s'.Valid := by
  have hadded : ∀ {f : ApiKey → ApiKey} {new : ApiKey}, (∀ row, (f row).id = row.id) → s.Takes new →
      new.replacedById = none →
      (∀ row ∈ s.rows, ∀ x, (f row).replacedById = some x → row.replacedById = some x ∨ new.id = x) →
        ({ s with rows := s.rows.map f ++ [new] } : Store).Valid := by
    intro f new hid htakes hnew hreplaced
    refine ⟨?_, fun row hrow x hx => ?_⟩
    · change ((s.rows.map f ++ [new]).map (·.id)).Nodup
      rw [map_append, map_ids hid, map_singleton]
      refine nodup_append.mpr ⟨hvalid.ids, nodup_singleton _, fun a ha b hb hab => ?_⟩
      obtain ⟨row, hrow, rfl⟩ := mem_map.mp ha
      rw [mem_singleton.mp hb] at hab
      exact htakes.2 row hrow (.inl hab)
    · rcases mem_append.mp hrow with hrow | hrow
      · obtain ⟨old, hold, rfl⟩ := mem_map.mp hrow
        rcases hreplaced old hold x hx with hx | hx
        · obtain ⟨c, hc, hcx⟩ := hvalid.replaced old hold x hx
          exact ⟨f c, mem_append_left _ (mem_map_of_mem hc), (hid c).trans hcx⟩
        · exact ⟨new, mem_append_right _ mem_cons_self, hx⟩
      · rw [mem_singleton.mp hrow, hnew] at hx
        cases hx
  cases h with
  | same hrows _ _ => exact ⟨by rw [hrows]; exact hvalid.ids, by rw [hrows]; exact hvalid.replaced⟩
  | updated id f hf hreplaced hstore _ =>
    subst hstore
    have hid : ∀ row, (updateRow id f row).id = row.id :=
      fun row => (evolves_updateRow fun _ => hf row).id
    refine ⟨?_, fun row hrow x hx => ?_⟩
    · change ((s.rows.map (updateRow id f)).map (·.id)).Nodup
      rw [map_ids hid]
      exact hvalid.ids
    · obtain ⟨old, hold, rfl⟩ := mem_map.mp hrow
      have hx : old.replacedById = some x := by
        rw [updateRow] at hx
        split at hx
        · exact (hreplaced old).symm.trans hx
        · exact hx
      obtain ⟨c, hc, hcx⟩ := hvalid.replaced old hold x hx
      exact ⟨updateRow id f c, mem_map_of_mem hc, (hid c).trans hcx⟩
  | created new hq htakes hstore =>
    subst hq hstore
    have hkept := hadded (f := id) (fun _ => rfl) htakes hsane.2 fun _ _ _ hx => .inl hx
    rw [map_id] at hkept
    exact hkept
  | rotated id replacement graceExpiresAt hq htakes hstore =>
    subst hq hstore
    refine hadded (fun row => ?_) htakes hsane.2.1 fun row hrow x hx => ?_
    · rw [updateRow]
      split <;> rfl
    · rw [updateRow] at hx
      split at hx
      · exact .inr (Option.some.inj hx)
      · exact .inl hx

theorem Effect.later (h : Effect s q s') : Later s s' := by
  cases h with
  | same hrows hnow _ => exact ⟨hnow, fun row hrow => ⟨row, hrows ▸ hrow, rfl⟩⟩
  | updated id f hf _ hstore _ =>
    subst hstore
    exact ⟨le_refl _, fun row hrow => ⟨updateRow id f row, mem_map_of_mem hrow, (evolves_updateRow fun _ => hf row).id⟩⟩
  | created new _ _ hstore =>
    subst hstore
    exact ⟨le_refl _, fun row hrow => ⟨row, mem_append_left _ hrow, rfl⟩⟩
  | rotated id replacement graceExpiresAt _ _ hstore =>
    subst hstore
    refine ⟨le_refl _, fun row hrow => ⟨_, mem_append_left _ (mem_map_of_mem hrow), ?_⟩⟩
    rw [updateRow]
    split <;> rfl

end Requests
section Descent
variable {k x y : String}

theorem Descends.first {rows : List ApiKey} (h : Descends rows x y) :
    y = x ∨ ∃ c ∈ rows, c.rotatedFrom = some x ∧ Descends rows c.id y := by
  induction h with
  | refl => exact .inl rfl
  | rotation _ hc horigin ih =>
    rcases ih with rfl | ⟨c', hc', horigin', hdescends⟩
    · exact .inr ⟨_, hc, horigin, .refl⟩
    · exact .inr ⟨c', hc', horigin', .rotation hdescends hc horigin⟩

theorem Store.Linear.unique (h : s.Linear) (hvalid : s.Valid) {c c' : ApiKey} (hc : c ∈ s.rows)
    (hc' : c' ∈ s.rows) (horigin : c.rotatedFrom = some k) (horigin' : c'.rotatedFrom = some k) :
    c.id = c'.id := by
  obtain ⟨r, hr, hid, hreplaced⟩ := h c hc k horigin
  obtain ⟨r', hr', hid', hreplaced'⟩ := h c' hc' k horigin'
  rw [hvalid.eq_of_id hr hr' (hid.trans hid'.symm), hreplaced'] at hreplaced
  exact (Option.some.inj hreplaced).symm

theorem Store.Linear.comparable (h : s.Linear) (hvalid : s.Valid) (hx : Descends s.rows k x)
    (hy : Descends s.rows k y) : Descends s.rows x y ∨ Descends s.rows y x := by
  induction hx with
  | refl => exact .inl hy
  | @rotation a c _ hc horigin ih =>
    rcases ih with hay | hya
    · rcases hay.first with rfl | ⟨c', hc', horigin', hdescends⟩
      · exact .inr (.rotation .refl hc horigin)
      · rw [← h.unique hvalid hc hc' horigin horigin'] at hdescends
        exact .inl hdescends
    · exact .inr (.rotation hya hc horigin)

theorem Store.Linear.last (h : s.Linear) (hvalid : s.Valid) {a : ApiKey} (ha : a ∈ s.rows)
    (hlast : a.replacedById = none) (hy : Descends s.rows a.id y) : y = a.id := by
  rcases hy.first with hya | ⟨c, hc, horigin, -⟩
  · exact hya
  · obtain ⟨r, hr, hid, hreplaced⟩ := h c hc a.id horigin
    rw [hvalid.eq_of_id hr ha hid, hlast] at hreplaced
    cases hreplaced

theorem Store.Linear.single (h : s.Linear) (hvalid : s.Valid) {a b : ApiKey} (ha : a ∈ s.rows)
    (hb : b ∈ s.rows) (hka : Descends s.rows k a.id) (hkb : Descends s.rows k b.id)
    (hlasta : a.replacedById = none) (hlastb : b.replacedById = none) : a = b := by
  rcases h.comparable hvalid hka hkb with hab | hba
  · exact (hvalid.eq_of_id hb ha (h.last hvalid ha hlasta hab)).symm
  · exact hvalid.eq_of_id ha hb (h.last hvalid hb hlastb hba)

end Descent
section Handlers

abbrev KeepsSane {α : Type} (t : Handler α) (s : Store) : Prop :=
  t.Keeps perform Later Store.Valid (fun _ _ => True) Query.Sane (fun _ _ => True) s

variable {α : Type}

theorem keepsSane_done (result : Except Failure α) : KeepsSane (.done result) s :=
  fun _ _ _ => trivial

theorem keepsSane_of_asks {t : Handler α} (h : t.Asks fun q => ∀ s, q.Sane s) : KeepsSane t s :=
  Task.Keeps.of_asks (fun _ s hq => hq s) (fun _ _ => trivial) h

theorem ask_ok {answer got : α} (h : s.ask answer = .ok got) : got = answer := by
  rw [Store.ask] at h
  split at h
  · cases h
  · exact (Except.ok.inj h).symm

theorem resolveExpiresAt_asks (input : ExpiryDto) : (resolveExpiresAt input).Asks fun q => ∀ s, q.Sane s := by
  rw [resolveExpiresAt]
  split
  · trivial
  · trivial
  · exact ⟨fun _ => trivial, fun (now : Time) => Task.asks_ite (fun _ => trivial) fun _ => trivial⟩
  · exact ⟨fun _ => trivial, fun now => trivial⟩
  · trivial

theorem create_asks (dto : CreateApiKeyDto) (actor : Option Actor) (drawn : Drawn) :
    (create config.sha256 dto actor drawn).Asks fun q => ∀ s, q.Sane s := by
  refine Task.asks_ite (fun _ => trivial) fun _ => ?_
  refine Task.Asks.bind (fun expiresAt => ?_) (resolveExpiresAt_asks dto.toExpiryDto)
  refine ⟨fun _ => ⟨rfl, rfl⟩, fun reply => ?_⟩
  cases reply with
  | error e | ok row => trivial

theorem canActivate_asks (isPublic : Bool) (apiKeyHeader : Option String) :
    (canActivate config.sha256 config.envKey isPublic apiKeyHeader).Asks fun q => ∀ s, q.Sane s := by
  rw [canActivate]
  refine Task.asks_ite (fun _ => trivial) fun _ => ?_
  split
  · trivial
  · refine ⟨fun _ => trivial, fun reply => ?_⟩
    rcases reply with e | ⟨_ | row, now⟩
    · trivial
    · exact Task.asks_ite (fun _ => trivial) fun _ => trivial
    · dsimp only [Tasks.Task.bind]
      split
      · trivial
      · refine ⟨fun _ => trivial, fun used => ⟨fun _ => trivial, fun touched => ?_⟩⟩
        cases touched with
        | error e | ok _ => trivial

theorem revoke_keeps (id : String) (reason : Option String) (actor : Option Actor)
    (audited : Except String Unit) : KeepsSane (revoke id reason actor audited) s := by
  refine Task.keeps_ask.mpr fun s₁ _ _ _ => ⟨trivial, ?_⟩
  change Task.Keeps _ _ _ _ _ _ (Tasks.Task.bind (.done (s₁.ask (s₁.find id))) _) s₁
  refine Task.Keeps.bind_done (fun found _ => ?_) fun e _ => keepsSane_done _
  cases found with
  | none => exact keepsSane_done _
  | some existing =>
    refine Task.keeps_ite (fun _ => ?_) fun _ => ?_
    · refine keepsSane_of_asks ⟨fun _ => trivial, fun reply => ?_⟩
      rcases reply with e | _ | row
      · trivial
      · trivial
      · trivial
    · -- the time that is written is the time of the look at the clock
      refine Task.keeps_ask.mpr fun s₂ _ _ _ => ⟨trivial, ?_⟩
      refine Task.keeps_ask.mpr fun s₃ hlater _ _ => ⟨hlater.1, keepsSane_of_asks ?_⟩
      change Task.Asks _ (Tasks.Task.bind (.done (perform (.revoke id s₂.now _ _) s₃).1) _)
      cases (perform (.revoke id s₂.now (actorId actor) (reason.getD "revoked")) s₃).1 with
      | error e => trivial
      | ok row =>
        refine ⟨fun _ => trivial, fun recorded => ?_⟩
        cases recorded with
        | error e | ok _ => trivial

theorem rotate_keeps (id : String) (actor : Option Actor) (dto : RotateApiKeyDto) (drawn : Drawn)
    (audited : Except String Unit) :
    KeepsSane (rotate config.sha256 config.rotationGraceHours id actor dto drawn audited) s := by
  refine Task.keeps_ask.mpr fun s₁ _ _ _ => ⟨trivial, ?_⟩
  change Task.Keeps _ _ _ _ _ _ (Tasks.Task.bind (.done (s₁.ask (s₁.find id))) _) s₁
  refine Task.Keeps.bind_done (fun found hfound => ?_) fun e _ => keepsSane_done _
  have hfound := ask_ok hfound
  cases found with
  | none => exact keepsSane_done _
  | some existing =>
    have hthere : ∃ row ∈ s₁.rows, row.id = existing.id := ⟨existing, (find_some hfound.symm).1, rfl⟩
    have hstable : ∀ a b : Store, Later a b → (∃ row ∈ a.rows, row.id = existing.id) →
        ∃ row ∈ b.rows, row.id = existing.id := by
      rintro a b hlater ⟨row, hrow, hid⟩
      obtain ⟨row', hrow', hid'⟩ := hlater.2 row hrow
      exact ⟨row', hrow', hid'.trans hid⟩
    refine Task.keeps_ite (fun _ => keepsSane_done _) fun _ => ?_
    have hexpiry : (replacementExpiry dto existing).Keeps perform Later Store.Valid (fun _ _ => True) Query.Sane
        (fun _ _ => True) s₁ := by
      refine Task.keeps_ite (fun _ => ?_) fun _ => keepsSane_done _
      exact keepsSane_of_asks (resolveExpiresAt_asks dto.toExpiryDto)
    have hserve : ∀ (q : Query) (a : Store), a.Valid → True → q.Sane a → Later a (perform q a).2 :=
      fun q a _ _ hsane => (perform_effect hsane).later
    refine Task.Keeps.bind Later.refl _ (fun expiresAt s₂ hs₂ => ?_) (fun _ _ _ => trivial)
      (hexpiry.frame hstable hserve hthere)
    refine Task.keeps_ask.mpr fun s₃ hlater _ _ => ⟨trivial, ?_⟩
    refine Task.keeps_ask.mpr fun s₄ hlater' _ _ => ⟨⟨rfl, rfl, drawn.id_ne, ?_⟩, keepsSane_of_asks ?_⟩
    · exact hstable s₃ s₄ hlater' (hstable s₂ s₃ hlater hs₂.1)
    · generalize (perform (.commitRotation _ _ _) s₄).1 = reply
      cases reply with
      | error e => trivial
      | ok replacement =>
        refine ⟨fun _ => trivial, fun recorded => ?_⟩
        cases recorded with
        | error e | ok _ => trivial

theorem body_keeps (op : KeyOp) : KeepsSane (op.body config) s := by
  have hunit : ∀ {α : Type} {t : Handler α}, KeepsSane t s →
      KeepsSane (t.bind fun _ => .done (.ok ())) s :=
    fun h => Task.Keeps.bind_result Later.refl (fun _ => ⟨_, rfl⟩) h
  cases op with
  | create dto actor drawn => exact hunit (keepsSane_of_asks (create_asks dto actor drawn))
  | revoke id reason actor audited => exact hunit (revoke_keeps id reason actor audited)
  | rotate id actor dto drawn audited => exact hunit (rotate_keeps id actor dto drawn audited)
  | canActivate isPublic apiKeyHeader => exact hunit (keepsSane_of_asks (canActivate_asks isPublic apiKeyHeader))
  | elapse d | foresee db => exact keepsSane_of_asks ⟨fun _ => trivial, fun _ => trivial⟩

theorem canActivate_rejected {sha256 : String → String} {apiKey message : String} (hdb : s.db = .ok ())
    (hkey : apiKey ≠ "") (h : s.rejection sha256 apiKey = some message) (envKey : Option String) :
    (canActivate sha256 envKey false (some apiKey)).alone perform s = (.error (.app 401 message), s) := by
  obtain ⟨row, hfound, herror⟩ := Option.bind_eq_some_iff.mp h
  have hreply : (perform (.authenticate (sha256 apiKey) apiKey) s).1 = .ok (some row, s.now) := by
    change s.ask _ = _
    rw [Store.ask, hdb, hfound]
  have hheader : (some apiKey).filter (· ≠ "") = some apiKey := by simp [Option.filter_some, hkey]
  rw [canActivate, if_neg Bool.false_ne_true, hheader]
  change Task.alone perform (Tasks.Task.bind (.done (perform (.authenticate (sha256 apiKey) apiKey) s).1) _) s = _
  rw [hreply]
  dsimp only [Tasks.Task.bind]
  rw [herror]
  rfl

end Handlers
section Runs
variable {p : KeyPool} {tr : List KeyTransition}

structure Store.Unrotated (s : Store) : Prop where
  ids : (s.rows.map (·.id)).Nodup
  origin : ∀ row ∈ s.rows, row.rotatedFrom = none
  replaced : ∀ row ∈ s.rows, row.replacedById = none

variable {t : KeyTransition}

theorem Store.Unrotated.valid (h : s.Unrotated) : s.Valid where
  ids := h.ids
  replaced row hrow x hx := by
    rw [h.replaced row hrow] at hx
    cases hx

theorem Store.Unrotated.linear (h : s.Unrotated) : s.Linear := by
  intro c hc k hk
  rw [h.origin c hc] at hk
  cases hk

abbrev KeySane (p : KeyPool) : Prop :=
  p.Kept perform Later Store.Valid (fun _ _ _ => True) (fun _ => Query.Sane) (fun _ _ _ => True)

theorem keySane_of_run (hs : s.Unrotated) (hrun : Run (KeyStep config) { store := s } tr p) (ht : t ∈ tr) : KeySane t.pre ∧ KeySane t.post :=
  Pool.Kept.run Later.refl (fun _ _ _ => Later.trans) (fun op _ _ => body_keeps op)
    (fun _ _ _ hvalid _ hsane => ⟨(perform_effect hsane).later, (perform_effect hsane).valid hsane hvalid⟩)
    hrun (Pool.Kept.idle hs.valid) (fun _ _ _ _ _ => trivial) ht

theorem effect_of_run (hs : s.Unrotated) (hrun : Run (KeyStep config) { store := s } tr p) (ht : t ∈ tr) :
    (t.pre.asked t.label = none ∧ t.post.store = t.pre.store) ∨
      ∃ q, t.pre.asked t.label = some q ∧ q.Sane t.pre.store ∧ Effect t.pre.store q t.post.store := by
  rcases (hrun.step_of_mem ht).request_cases with ⟨hnone, hstore⟩ | ⟨op, q, hq, hstore⟩
  · exact .inl ⟨Pool.asked_of_no_request hnone, hstore⟩
  · have hsane : q.Sane t.pre.store :=
      (keySane_of_run hs hrun ht).1.request Later.refl hq trivial
    exact .inr ⟨q, Pool.asked_of_request hq, hsane, hstore ▸ perform_effect hsane⟩

theorem continues_of_run (hs : s.Unrotated) (hrun : Run (KeyStep config) { store := s } tr p) (ht : t ∈ tr) (honce : RotatesOnce t) :
    ∃ f added, Continues t.pre.store t.post.store f added := by
  rcases effect_of_run hs hrun ht with ⟨-, hstore⟩ | ⟨q, hq, hsane, heffect⟩
  · rw [hstore]
    exact ⟨id, [], le_refl _, by rw [map_id, append_nil], fun row _ => Evolves.refl _ row, fun c hc => absurd hc not_mem_nil⟩
  · exact heffect.continues hsane (keySane_of_run hs hrun ht).1.store (honce q hq)

theorem linear_of_run (hs : s.Unrotated) (hrun : Run (KeyStep config) { store := s } tr p)
    (honce : ∀ t ∈ tr, RotatesOnce t) (ht : t ∈ tr) : t.post.store.Linear := by
  refine (hrun.invariant_at (I := fun p => p.store.Linear) (C := fun t => t ∈ tr) hs.linear (fun _ h => h)
    (fun t _ ht hlinear => ?_) ht).2
  obtain ⟨f, added, hcontinues⟩ := continues_of_run hs hrun ht (honce t ht)
  exact hcontinues.linear hlinear

def StillRejects (sha256 : String → String) (p p' : KeyPool) : Prop :=
  ∀ apiKey, (p.store.rejection sha256 apiKey).isSome = true → (p'.store.rejection sha256 apiKey).isSome = true

theorem rotatesOnce_of_keeps (hs : s.Unrotated) (hrun : Run (KeyStep config) { store := s } tr p) (ht : t ∈ tr)
    (hkeeps : ∀ row ∈ t.pre.store.rows, ∀ x, row.replacedById = some x →
      ∃ row' ∈ t.post.store.rows, row'.id = row.id ∧ row'.replacedById = some x) : RotatesOnce t := by
  have hvalid := (keySane_of_run hs hrun ht).1.store
  intro q hq
  cases q with
  | commitRotation id replacement graceExpiresAt =>
    intro htakes row hfound
    obtain ⟨hrow, hid⟩ := find_some hfound
    rcases effect_of_run hs hrun ht with ⟨hnone, -⟩ | ⟨q', hq', -, heffect⟩
    · rw [hq] at hnone
      cases hnone
    rw [hq] at hq'
    cases hq'
    have hrotation : (Query.commitRotation id replacement graceExpiresAt).IsRotation replacement :=
      ⟨id, graceExpiresAt, rfl⟩
    cases heffect with
    | same _ _ hfails => exact absurd htakes (hfails replacement hrotation)
    | updated _ _ _ _ _ hno => exact absurd hrotation (hno replacement)
    | created _ hcreate _ _ => cases hcreate
    | rotated _ _ _ hsame _ hstore =>
      cases hsame
      by_contra hreplaced
      obtain ⟨x, hx⟩ := Option.ne_none_iff_exists'.mp hreplaced
      obtain ⟨row', hrow', hid', hx'⟩ := hkeeps row hrow x hx
      obtain ⟨c, hc, hcx⟩ := hvalid.replaced row hrow x hx
      rw [hstore] at hrow'
      rcases mem_append.mp hrow' with hrow' | hrow'
      · obtain ⟨old, hold, rfl⟩ := mem_map.mp hrow'
        have hsameId : old.id = row.id := by
          rw [updateRow] at hid'
          split at hid'
          · exact hid'
          · exact hid'
        rw [updateRow, if_pos (hsameId.trans hid)] at hx'
        -- the new replacement would be the old one, which is on record already
        exact htakes.2 c hc (.inl (hcx.trans (Option.some.inj hx').symm))
      · rw [mem_singleton.mp hrow'] at hid'
        exact htakes.2 row hrow (.inl hid'.symm)
  | _ => trivial

/-- The lifecycle of API keys: in every run of creations, rotations and revocations, rejections are final
and rotations form lines, exactly if no key is rotated that is replaced already. -/
theorem lifecycle_iff (hs : s.Unrotated) (hrun : Run (KeyStep config) { store := s } tr p) :
    Lifecycle config.sha256 tr ↔ ∀ t ∈ tr, RotatesOnce t := by
  constructor
  · exact fun h t ht => rotatesOnce_of_keeps hs hrun ht (h.once t ht)
  · intro honce
    refine ⟨?_, fun t ht row hrow x hx => ?_, fun t ht k a ha b hb hka hkb hlasta hlastb => ?_⟩
    · have htrans : ∀ a b c : KeyPool, StillRejects config.sha256 a b → StillRejects config.sha256 b c →
          StillRejects config.sha256 a c :=
        fun _ _ _ hab hbc apiKey hrejected => hbc apiKey (hab apiKey hrejected)
      refine hrun.pairwise_post (R := StillRejects config.sha256) (fun _ _ h => h) htrans
        fun t ht apiKey hrejected => ?_
      obtain ⟨f, added, hcontinues⟩ := continues_of_run hs hrun ht (honce t ht)
      exact hcontinues.rejection hrejected
    · obtain ⟨f, added, hcontinues⟩ := continues_of_run hs hrun ht (honce t ht)
      exact ⟨f row, hcontinues.mem hrow, (hcontinues.evolves row hrow).id,
        (hcontinues.evolves row hrow).replaced x hx⟩
    · exact (linear_of_run hs hrun honce ht).single (keySane_of_run hs hrun ht).2.store ha hb hka hkb
        hlasta hlastb

def keyDigest (rawKey : String) : String :=
  if rawKey = "s2s_first" then "c21f24de0cbc3365381ef51369b2a93bdec26b08b17610024d97f01a8d11f103"
  else if rawKey = "s2s_second" then "34edf6a446688d0c7e8d73b58171b745d2860deba207d7fafae1066d85cfd175"
  else "5c5b8773364b9cef67f970e25d5dcf87e75aab7e27f50548869543813501d3f2"

def keyConfig : Config := { sha256 := keyDigest }

/-- A key is created and rotated with a grace period of an hour; two hours later it is rotated once more. -/
def rotations (again : Bool) : List KeyTransition × KeyPool :=
  play (Pool.take perform (KeyOp.body keyConfig)) { store := {} }
    ([.start (.create { role := .admin } none ⟨"s2s_first", "key-1", by decide⟩), .advance 0,
      .start (.rotate "key-1" none { gracePeriodHours := some 1 } ⟨"s2s_second", "key-2", by decide⟩ (.ok ()))] ++
      replicate 4 (.advance 1) ++ [.start (.elapse 7200000), .advance 2] ++
      if again then
        [.start (.rotate "key-1" none { gracePeriodHours := some 1 } ⟨"s2s_third", "key-3", by decide⟩ (.ok ()))] ++
          replicate 3 (.advance 3)
      else [])

theorem rotations_run (again : Bool) :
    Run (KeyStep keyConfig) { store := {} } (rotations again).1 (rotations again).2 :=
  play_run (fun _ _ _ h => h) _ _

theorem lifecycle_rotations : Lifecycle keyConfig.sha256 (rotations false).1 := by
  have hs : ({} : Store).Unrotated :=
    ⟨nodup_nil, fun _ h => absurd h not_mem_nil, fun _ h => absurd h not_mem_nil⟩
  exact (lifecycle_iff hs (rotations_run false)).mpr (by decide +kernel)

theorem rotations_revive : ¬ Lifecycle keyConfig.sha256 (rotations true).1 := by
  intro hlifecycle
  have hlen : (rotations true).1.length = 13 := by decide +kernel
  have hrejected : ∀ t ∈ (rotations true).1[8]?,
      (t.post.store.rejection keyConfig.sha256 "s2s_first").isSome = true := by decide +kernel
  have hrevived : ∀ t ∈ (rotations true).1[12]?,
      (t.post.store.rejection keyConfig.sha256 "s2s_first").isSome = false := by decide +kernel
  have hlater := pairwise_iff_getElem.mp hlifecycle.final 8 12 (by omega) (by omega) (by omega) "s2s_first"
    (hrejected _ (getElem?_eq_getElem _))
  rw [hrevived _ (getElem?_eq_getElem _)] at hlater
  cases hlater

end Runs
end Soter.ApiKeys
