import Soter.Lib.Calendar
import Soter.Lib.Fallible
import Soter.ApiKeys.Lifecycle

/-! The status that the admin view shows of an API key, and what the guard makes of the key at that time. -/
namespace Soter.ApiKeys
open Soter.Tasks Soter.Runs Soter.Calendar Soter.Fallible List Task.Asks

inductive ApiKeyRotationStatus
  | active
  | expiringSoon
  | expired
  | revoked
  | grace
  | rotated
  deriving DecidableEq

/-- What `ApiKeyAdminView` tells of the rotation of a key. -/
structure RotationView where
  rotationStatus : ApiKeyRotationStatus
  daysUntilExpiry : Option ℤ
  isHighRisk : Bool
  rotationGuidance : Option String

def defaultApiKeyReminderWindowDays : ℤ := 14

def isHighRiskApiKey (role : AppRole) (scopes : List ApiKeyScope) : Bool :=
  role = .admin ∨ .admin ∈ scopes

def daysUntil (date now : Time) : ℤ := -((now - date) / msPerDay)

def buildRotationGuidance (id : String) (status : ApiKeyRotationStatus) (isHighRisk : Bool)
    (daysUntilExpiry : Option ℤ) : Option String :=
  let days := String.ofList (decimalInt (daysUntilExpiry.getD 0))
  match status with
  | .expired =>
    if isHighRisk then
      some ("High-risk key " ++ id ++ " has expired. Rotate immediately via POST /api/v1/api-keys/" ++ id ++
        "/rotate or revoke it.")
    else
      some ("Key " ++ id ++ " has expired. Rotate via POST /api/v1/api-keys/" ++ id ++ "/rotate or revoke it.")
  | .expiringSoon =>
    if isHighRisk then
      some ("High-risk key " ++ id ++ " expires in " ++ days ++
        " day(s). Rotate before expiry via POST /api/v1/api-keys/" ++ id ++ "/rotate.")
    else
      some ("Key " ++ id ++ " expires in " ++ days ++ " day(s). Plan rotation via POST /api/v1/api-keys/" ++ id ++
        "/rotate.")
  | .active =>
    if isHighRisk then
      some ("High-risk key " ++ id ++ ": rotate on a fixed schedule and set expiresAt so reminders can fire.")
    else none
  | .revoked | .grace | .rotated => none

def ApiKey.IsReplaced (row : ApiKey) : Prop := (row.replacedById.filter (· ≠ "")).isSome = true

instance (row : ApiKey) : Decidable row.IsReplaced := inferInstanceAs (Decidable (_ = true))

def deriveRotationStatus (row : ApiKey) (now : Time)
    (reminderWindowDays : ℤ := defaultApiKeyReminderWindowDays) : RotationView :=
  let highRisk := isHighRiskApiKey row.role row.scopes
  let plain (status : ApiKeyRotationStatus) : RotationView :=
    { rotationStatus := status, daysUntilExpiry := none, isHighRisk := highRisk, rotationGuidance := none }
  let guided (status : ApiKeyRotationStatus) (daysUntilExpiry : Option ℤ) : RotationView :=
    { rotationStatus := status, daysUntilExpiry := daysUntilExpiry, isHighRisk := highRisk
      rotationGuidance := buildRotationGuidance row.id status highRisk daysUntilExpiry }
  if row.IsReplaced ∨ row.revokedReason = some "rotated" then
    match row.revokedAt, row.graceExpiresAt with
    | none, some graceExpiresAt =>
      if now < graceExpiresAt then
        { rotationStatus := .grace
          daysUntilExpiry := some (daysUntil graceExpiresAt now)
          isHighRisk := highRisk
          rotationGuidance := some ("Key " ++ row.id ++
            " is in its rotation overlap window. Stop using it before " ++
            String.ofList (toISOString graceExpiresAt) ++ ".") }
      else plain .rotated
    | _, _ => plain .rotated
  else if row.revokedAt.isSome then plain .revoked
  else
    match row.expiresAt with
    | some expiresAt =>
      let remaining := daysUntil expiresAt now
      if expiresAt ≤ now then guided .expired (some remaining)
      else if remaining ≤ reminderWindowDays then guided .expiringSoon (some remaining)
      else guided .active (some remaining)
    | none => guided .active none

def ApiKeyRotationStatus.Usable (status : ApiKeyRotationStatus) : Prop :=
  status = .active ∨ status = .expiringSoon ∨ status = .grace

def ApiKeyRotationStatus.Spent (status : ApiKeyRotationStatus) : Prop :=
  status = .expired ∨ status = .rotated ∨ status = .revoked

instance (status : ApiKeyRotationStatus) : Decidable status.Usable :=
  inferInstanceAs (Decidable (_ ∨ _ ∨ _))

/-- What the guard answers to a request with a key, at a time at which the database answers. -/
def Store.guardAnswer (config : Config) (s : Store) (apiKey : String) (now : Time) :
    Except Failure (Option User) :=
  ((canActivate config.sha256 config.envKey false (some apiKey)).alone perform
    { s with now := now, db := .ok () }).1

structure ApiKey.IsRecordOf (row : ApiKey) (config : Config) (apiKey : String) : Prop where
  nonempty : apiKey ≠ ""
  hash : row.keyHash = some (config.sha256 apiKey)

structure StatusAgrees (config : Config) (s : Store) (row : ApiKey) (apiKey : String) (now : Time)
    (reminderWindowDays : ℤ) : Prop where
  usable : (deriveRotationStatus row now reminderWindowDays).rotationStatus.Usable ↔
    ∃ user, s.guardAnswer config apiKey now = .ok (some user)
  spent : (deriveRotationStatus row now reminderWindowDays).rotationStatus.Spent ↔
    ∃ message, s.guardAnswer config apiKey now = .error (.app 401 message)

def Passed (now : Time) (time : Option Time) : Prop := ∃ t ∈ time, t ≤ now

/-- A key that is still in its grace period has not expired on its own, and a key that is looked at as it
was before its revocation had expired or been replaced for good by then. -/
structure ApiKey.Tells (row : ApiKey) (now : Time) : Prop where
  overlap : row.revokedAt = none → row.IsReplaced → ¬ Passed now row.graceExpiresAt → ¬ Passed now row.expiresAt
  before : row.revokedAt.isSome → ¬ Passed now row.revokedAt →
    Passed now row.expiresAt ∨ Passed now row.graceExpiresAt ∧ row.IsReplaced

section Rows
variable {row : ApiKey} {now : Time} {reminderWindowDays : ℤ}

theorem usable_or_spent (status : ApiKeyRotationStatus) : status.Spent ↔ ¬ status.Usable := by
  cases status <;> simp [ApiKeyRotationStatus.Spent, ApiKeyRotationStatus.Usable]

theorem passed_none : ¬ Passed now none := fun ⟨_, ht, _⟩ => by cases ht

theorem passed_some {t : Time} : Passed now (some t) ↔ t ≤ now :=
  ⟨fun ⟨_, ht, hle⟩ => Option.some.inj ht ▸ hle, fun hle => ⟨t, rfl, hle⟩⟩

structure ApiKey.Sound (row : ApiKey) : Prop where
  hashed : row.key = none
  reason : row.revokedAt = none → row.revokedReason = some "rotated" → row.IsReplaced
  overlap : row.revokedAt = none → row.IsReplaced → row.graceExpiresAt.isSome

/-- Until it is revoked, a key that is replaced is shown as usable in its grace period, and another key
until it expires. -/
theorem usable_iff (hsound : row.Sound) :
    (deriveRotationStatus row now reminderWindowDays).rotationStatus.Usable ↔ row.revokedAt = none ∧
      (row.IsReplaced → ¬ Passed now row.graceExpiresAt) ∧ (¬ row.IsReplaced → ¬ Passed now row.expiresAt) := by
  by_cases hreplaced : row.IsReplaced
  · rw [deriveRotationStatus, if_pos (.inl hreplaced)]
    cases hrevoked : row.revokedAt with
    | some t => simp [ApiKeyRotationStatus.Usable]
    | none =>
      obtain ⟨g, hg⟩ := Option.isSome_iff_exists.mp (hsound.overlap hrevoked hreplaced)
      simp only [hg, hreplaced, passed_some, true_and, true_implies, not_true, false_implies, and_true, not_le]
      by_cases hnow : now < g
      · simp [hnow, ApiKeyRotationStatus.Usable]
      · simp [hnow, ApiKeyRotationStatus.Usable]
  · by_cases hrevoked : row.revokedAt = none
    · have hreason : row.revokedReason ≠ some "rotated" := fun h => hreplaced (hsound.reason hrevoked h)
      have hother : ¬ (row.IsReplaced ∨ row.revokedReason = some "rotated") := not_or.mpr ⟨hreplaced, hreason⟩
      rw [deriveRotationStatus, if_neg hother, hrevoked, if_neg (by simp)]
      cases hexpires : row.expiresAt with
      | none => simp [hreplaced, passed_none, ApiKeyRotationStatus.Usable]
      | some e =>
        simp only [hreplaced, passed_some, true_and, false_implies, true_implies, not_false_iff]
        by_cases hnow : e ≤ now
        · simp [hnow, ApiKeyRotationStatus.Usable]
        · rw [if_neg hnow]
          split <;> simp [hnow, ApiKeyRotationStatus.Usable]
    · simp only [hrevoked, false_and, iff_false]
      obtain ⟨t, ht⟩ := Option.ne_none_iff_exists'.mp hrevoked
      rw [deriveRotationStatus, ht]
      split
      · simp [ApiKeyRotationStatus.Usable]
      · simp [ApiKeyRotationStatus.Usable]

theorem accepted_iff : lifecycleError now row = none ↔ ¬ Passed now row.revokedAt ∧ ¬ Passed now row.expiresAt ∧
      ¬ (Passed now row.graceExpiresAt ∧ row.IsReplaced) := by
  have hreplaced : row.IsReplaced ↔ ∃ x, row.replacedById = some x ∧ x ≠ "" := by
    rw [ApiKey.IsReplaced, Option.isSome_iff_exists]
    apply exists_congr
    intro x
    rw [Option.filter_eq_some_iff]
    simp
  rw [← Option.not_isSome_iff_eq_none, lifecycleError_isSome, hreplaced, not_or, not_or]
  rfl

theorem tells_iff (hsound : row.Sound) : row.Tells now ↔
    ((deriveRotationStatus row now reminderWindowDays).rotationStatus.Usable ↔ lifecycleError now row = none) := by
  rw [usable_iff hsound, accepted_iff]
  have htells : row.Tells now ↔
      (row.revokedAt = none → row.IsReplaced → ¬ Passed now row.graceExpiresAt → ¬ Passed now row.expiresAt) ∧
      (row.revokedAt ≠ none → ¬ Passed now row.revokedAt →
        Passed now row.expiresAt ∨ Passed now row.graceExpiresAt ∧ row.IsReplaced) := by
    rw [← Option.isSome_iff_ne_none]
    exact ⟨fun h => ⟨h.overlap, h.before⟩, fun h => ⟨h.1, h.2⟩⟩
  have hrevoked : row.revokedAt = none → ¬ Passed now row.revokedAt := fun h => h ▸ passed_none
  tauto

end Rows
variable {config : Config} {s : Store}

structure ApiKey.Fresh (row : ApiKey) : Prop where
  key : row.key = none
  revokedAt : row.revokedAt = none
  revokedReason : row.revokedReason = none
  replacedById : row.replacedById = none

def Query.WritesFresh : Query → Prop
  | .create row => row.Fresh
  | .commitRotation _ replacement _ => replacement.Fresh ∧ replacement.id ≠ ""
  | _ => True

structure Store.Known (s : Store) : Prop where
  ids : (s.rows.map (·.id)).Nodup
  hashes : (s.rows.map (·.keyHash)).Nodup
  sound : ∀ row ∈ s.rows, row.Sound

theorem ApiKey.Fresh.not_replaced {row : ApiKey} (h : row.Fresh) : ¬ row.IsReplaced := by
  rw [ApiKey.IsReplaced, h.replacedById]
  exact Bool.false_ne_true

theorem ApiKey.Fresh.sound {row : ApiKey} (h : row.Fresh) : row.Sound where
  hashed := h.key
  reason _ hreason := by
    rw [h.revokedReason] at hreason
    cases hreason
  overlap _ hreplaced := absurd hreplaced h.not_replaced

theorem sound_revoked {row : ApiKey} (h : row.Sound) (revokedAt : Time) (revokedBy revokedReason : String) :
    (revoked revokedAt revokedBy revokedReason row).Sound where
  hashed := h.hashed
  reason hnone := by cases hnone
  overlap hnone := by cases hnone

theorem sound_rotated {row : ApiKey} (h : row.Sound) {replacementId : String} (hid : replacementId ≠ "")
    (graceExpiresAt : Time) : (rotated replacementId graceExpiresAt row).Sound := by
  have hreplaced : (rotated replacementId graceExpiresAt row).IsReplaced := by
    change ((some replacementId).filter (· ≠ "")).isSome = true
    simp [Option.filter_some, hid]
  exact ⟨h.hashed, fun _ _ => hreplaced, fun _ _ => rfl⟩

theorem sound_touched {row : ApiKey} (h : row.Sound) (lastUsedAt : Time) :
    ({ row with lastUsedAt := some lastUsedAt } : ApiKey).Sound :=
  ⟨h.hashed, h.reason, h.overlap⟩

theorem Store.Known.update {id : String} {f : ApiKey → ApiKey} {updated : ApiKey} {s' : Store} (h : s.Known)
    (hok : s.update id f = .ok (updated, s')) (hid : ∀ row, (f row).id = row.id)
    (hhash : ∀ row, (f row).keyHash = row.keyHash) (hsound : ∀ row, row.Sound → (f row).Sound) : s'.Known := by
  rcases update_cases s id f with ⟨e, he, -⟩ | ⟨row, -, hrow⟩
  · rw [he] at hok
    cases hok
  · rw [hrow] at hok
    cases hok
    have hhashes : ∀ row, (updateRow id f row).keyHash = row.keyHash := by
      intro row
      rw [updateRow]
      split
      · exact hhash row
      · rfl
    refine ⟨?_, ?_, fun row hrow => ?_⟩
    · change ((s.rows.map (updateRow id f)).map (·.id)).Nodup
      rw [map_ids (updateRow_id hid)]
      exact h.ids
    · change ((s.rows.map (updateRow id f)).map (·.keyHash)).Nodup
      have hcols : (s.rows.map (updateRow id f)).map (·.keyHash) = s.rows.map (·.keyHash) := by
        rw [map_map]
        exact map_congr_left fun row _ => hhashes row
      rw [hcols]
      exact h.hashes
    · obtain ⟨old, hold, rfl⟩ := mem_map.mp hrow
      rw [updateRow]
      split
      · exact hsound old (h.sound old hold)
      · exact h.sound old hold

theorem Store.Known.create {new created : ApiKey} {s' : Store} (h : s.Known) (hfresh : new.Fresh)
    (hok : s.create new = .ok (created, s')) : created = new ∧ s'.Known := by
  rcases create_cases s new with ⟨e, he, -⟩ | ⟨htakes, hnew⟩
  · rw [he] at hok
    cases hok
  · rw [hnew] at hok
    cases hok
    have hapart : ∀ {β : Type} (col : ApiKey → β), (s.rows.map col).Nodup →
        (∀ row ∈ s.rows, col row ≠ col new) → ((s.rows ++ [new]).map col).Nodup := by
      intro β col hcol hne
      rw [map_append, map_singleton]
      refine nodup_append.mpr ⟨hcol, nodup_singleton _, fun a ha b hb => ?_⟩
      obtain ⟨row, hrow, rfl⟩ := mem_map.mp ha
      rw [mem_singleton.mp hb]
      exact hne row hrow
    refine ⟨rfl, hapart (·.id) h.ids fun row hrow hid => htakes.2 row hrow (.inl hid),
      hapart (·.keyHash) h.hashes fun row hrow hhash => htakes.2 row hrow (.inr hhash), fun row hrow => ?_⟩
    rcases mem_append.mp hrow with hrow | hrow
    · exact h.sound row hrow
    · rw [mem_singleton.mp hrow]
      exact hfresh.sound

theorem known_perform (q : Query) (hq : q.WritesFresh) (h : s.Known) : (perform q s).2.Known := by
  have hself : ∀ {s' : Store}, s'.rows = s.rows → s'.Known :=
    fun hrows => ⟨hrows ▸ h.ids, hrows ▸ h.hashes, hrows ▸ h.sound⟩
  cases q with
  | create new => exact commit_keeps h fun created s' hok => (h.create hq hok).2
  | revoke id revokedAt revokedBy revokedReason =>
    exact commit_keeps h fun row s' hok => h.update hok (fun _ => rfl) (fun _ => rfl)
      fun row hrow => sound_revoked hrow revokedAt revokedBy revokedReason
  | touch id lastUsedAt =>
    refine commit_keeps h fun _ s' hok => ?_
    cases hupdate : s.update id fun row => { row with lastUsedAt := some lastUsedAt } with
    | error e =>
      rw [hupdate] at hok
      cases hok
    | ok res =>
      rw [hupdate] at hok
      cases hok
      exact h.update hupdate (fun _ => rfl) (fun _ => rfl) fun row hrow => sound_touched hrow lastUsedAt
  | commitRotation id replacement graceExpiresAt =>
    refine commit_keeps h fun created s' hok => ?_
    obtain ⟨⟨new, s₁⟩, hcreate, hok⟩ := bind_eq_ok.mp hok
    obtain ⟨⟨row, s₂⟩, hupdate, hok⟩ := bind_eq_ok.mp hok
    cases hok
    obtain ⟨rfl, hknown⟩ := h.create hq.1 hcreate
    exact hknown.update hupdate (fun _ => rfl) (fun _ => rfl) fun row hrow => sound_rotated hrow hq.2 graceExpiresAt
  | _ => exact hself rfl

theorem findCredential_eq (h : s.Known) {row : ApiKey} (hrow : row ∈ s.rows) {apiKey : String}
    (hkey : row.IsRecordOf config apiKey) : s.findCredential (config.sha256 apiKey) apiKey = some row := by
  have hmatches : matchesCredential (config.sha256 apiKey) apiKey row = true := by
    simp [matchesCredential, hkey.hash]
  cases hfind : s.findCredential (config.sha256 apiKey) apiKey with
  | none =>
    have hnone := find?_eq_none.mp hfind row hrow
    exact absurd hmatches hnone
  | some found =>
    have hfound : found ∈ s.rows := mem_of_find?_eq_some hfind
    have hsame := find?_some hfind
    rw [matchesCredential, (h.sound found hfound).hashed] at hsame
    have hhash : found.keyHash = some (config.sha256 apiKey) := by simpa using hsame
    rw [inj_on_of_nodup_map h.hashes hfound hrow (hhash.trans hkey.hash.symm)]

theorem canActivate_accepted {row : ApiKey} {apiKey : String} (hdb : s.db = .ok ()) (hkey : apiKey ≠ "")
    (hfound : s.findCredential (config.sha256 apiKey) apiKey = some row)
    (herror : lifecycleError s.now row = none) (hrow : row ∈ s.rows) :
    ((canActivate config.sha256 config.envKey false (some apiKey)).alone perform s).1 =
      .ok (some ⟨row.role, row.ngoId, some row.id, "apiKey", row.scopes⟩) := by
  have hreply : (perform (.authenticate (config.sha256 apiKey) apiKey) s).1 = .ok (some row, s.now) := by
    change s.ask _ = _
    rw [Store.ask, hdb, hfound]
  have hheader : (some apiKey).filter (· ≠ "") = some apiKey := by simp [Option.filter_some, hkey]
  have htouched : (perform (.touch row.id s.now) s).1 = .ok () := by
    change (commit _ s).1 = _
    have hfind : (s.find row.id).isSome = true := find?_isSome.mpr ⟨row, hrow, by simp⟩
    rcases update_cases s row.id fun row => { row with lastUsedAt := some s.now } with ⟨e, -, hfails⟩ | ⟨found, -, hok⟩
    · exact absurd ⟨by rw [hdb]; rfl, hfind⟩ hfails
    · rw [hok]
      rfl
  rw [canActivate, if_neg Bool.false_ne_true, hheader]
  change (Task.alone perform (Tasks.Task.bind (.done (perform (.authenticate (config.sha256 apiKey) apiKey) s).1) _) s).1 = _
  rw [hreply]
  dsimp only [Tasks.Task.bind]
  rw [herror]
  change (Task.alone perform (Tasks.Task.bind (.done (perform (.touch row.id s.now) s).1) _) _).1 = _
  rw [htouched]
  rfl

theorem guardAnswer_eq (h : s.Known) {row : ApiKey} (hrow : row ∈ s.rows) {apiKey : String}
    (hkey : row.IsRecordOf config apiKey) (now : Time) :
    s.guardAnswer config apiKey now =
      match lifecycleError now row with
      | some message => .error (.app 401 message)
      | none => .ok (some ⟨row.role, row.ngoId, some row.id, "apiKey", row.scopes⟩) := by
  have hfound : ({ s with now := now, db := .ok () } : Store).findCredential (config.sha256 apiKey) apiKey = some row :=
    findCredential_eq h hrow hkey
  cases herror : lifecycleError now row with
  | some message =>
    have hrejection : ({ s with now := now, db := .ok () } : Store).rejection config.sha256 apiKey = some message := by
      rw [Store.rejection, hfound]
      exact herror
    rw [Store.guardAnswer, canActivate_rejected rfl hkey.nonempty hrejection]
  | none => exact canActivate_accepted rfl hkey.nonempty hfound herror hrow

theorem statusAgrees_iff (h : s.Known) {row : ApiKey} (hrow : row ∈ s.rows) {apiKey : String}
    (hkey : row.IsRecordOf config apiKey) {now : Time} {reminderWindowDays : ℤ} :
    StatusAgrees config s row apiKey now reminderWindowDays ↔ row.Tells now := by
  have haccepts : (∃ user, s.guardAnswer config apiKey now = .ok (some user)) ↔ lifecycleError now row = none := by
    rw [guardAnswer_eq h hrow hkey]
    cases lifecycleError now row <;> simp
  have hrejects : (∃ message, s.guardAnswer config apiKey now = .error (.app 401 message)) ↔
      ¬ lifecycleError now row = none := by
    rw [guardAnswer_eq h hrow hkey]
    cases lifecycleError now row <;> simp
  rw [tells_iff (h.sound row hrow)]
  constructor
  · exact fun hagrees => hagrees.usable.trans haccepts
  · exact fun hiff => ⟨hiff.trans haccepts.symm, (usable_or_spent _).trans ((not_congr hiff).trans hrejects.symm)⟩

theorem resolveExpiresAt_writes (input : ExpiryDto) : (resolveExpiresAt input).Asks Query.WritesFresh := by
  rw [resolveExpiresAt]
  split
  · trivial
  · trivial
  · exact ⟨trivial, fun (now : Time) => Task.asks_ite (fun _ => trivial) fun _ => trivial⟩
  · exact ⟨trivial, fun now => trivial⟩
  · trivial

theorem rotate_writes (id : String) (actor : Option Actor) (dto : RotateApiKeyDto) (drawn : Drawn)
    (audited : Except String Unit) :
    (rotate config.sha256 config.rotationGraceHours id actor dto drawn audited).Asks Query.WritesFresh := by
  refine ⟨trivial, fun found => done_bind fun found _ => ?_⟩
  cases found with
  | none => trivial
  | some existing =>
    refine Task.asks_ite (fun _ => trivial) fun _ => ?_
    have hexpiry : (replacementExpiry dto existing).Asks Query.WritesFresh :=
      Task.asks_ite (fun _ => resolveExpiresAt_writes dto.toExpiryDto) fun _ => trivial
    refine bind (fun expiresAt => ?_) hexpiry
    refine ⟨trivial, fun now => ⟨⟨⟨rfl, rfl, rfl, rfl⟩, drawn.id_ne⟩, fun reply => ?_⟩⟩
    refine done_bind fun replacement _ => ?_
    exact ⟨trivial, fun recorded => done_bind fun _ _ => trivial⟩

theorem revoke_writes (id : String) (reason : Option String) (actor : Option Actor)
    (audited : Except String Unit) : (revoke id reason actor audited).Asks Query.WritesFresh := by
  refine ⟨trivial, fun found => done_bind fun found _ => ?_⟩
  cases found with
  | none => trivial
  | some existing =>
    refine Task.asks_ite (fun _ => ⟨trivial, fun reply => done_bind fun row _ => ?_⟩) fun _ => ?_
    · cases row with
      | none | some row => trivial
    · refine ⟨trivial, fun now => ⟨trivial, fun reply => done_bind fun row _ => ?_⟩⟩
      exact ⟨trivial, fun recorded => done_bind fun _ _ => trivial⟩

theorem canActivate_writes (isPublic : Bool) (apiKeyHeader : Option String) :
    (canActivate config.sha256 config.envKey isPublic apiKeyHeader).Asks Query.WritesFresh := by
  rw [canActivate]
  refine Task.asks_ite (fun _ => trivial) fun _ => ?_
  split
  · trivial
  · refine ⟨trivial, fun reply => done_bind fun found _ => ?_⟩
    rcases found with ⟨_ | row, now⟩
    · exact Task.asks_ite (fun _ => trivial) fun _ => trivial
    · dsimp only
      split
      · trivial
      · exact ⟨trivial, fun used => ⟨trivial, fun touched => done_bind fun _ _ => trivial⟩⟩

theorem body_writes (op : KeyOp) : (op.body config).Asks Query.WritesFresh := by
  cases op with
  | create dto actor drawn =>
    refine bind_done (Task.asks_ite (fun _ => trivial) fun _ => ?_)
    refine bind (fun expiresAt => ?_) (resolveExpiresAt_writes dto.toExpiryDto)
    exact ⟨⟨rfl, rfl, rfl, rfl⟩, fun reply => done_bind fun _ _ => trivial⟩
  | revoke id reason actor audited => exact bind_done (revoke_writes id reason actor audited)
  | rotate id actor dto drawn audited => exact bind_done (rotate_writes id actor dto drawn audited)
  | canActivate isPublic apiKeyHeader =>
    exact bind_done (canActivate_writes isPublic apiKeyHeader)
  | elapse d | foresee db => exact ⟨trivial, fun _ => trivial⟩

section Runs
variable {p : KeyPool} {tr : List KeyTransition}

theorem known_of_run (hs : s.rows = []) (hrun : Run (KeyStep config) { store := s } tr p)
    {t : KeyTransition} (ht : t ∈ tr) : t.post.store.Known := by
  have hempty : s.Known := by
    refine ⟨?_, ?_, fun row hrow => ?_⟩
    · rw [hs]
      exact nodup_nil
    · rw [hs]
      exact nodup_nil
    · rw [hs] at hrow
      exact absurd hrow not_mem_nil
  refine (hrun.invariant_at (I := fun p => p.store.Known) (C := fun t => t ∈ tr) hempty (fun _ h => h)
    (fun t hstep ht hknown => ?_) ht).2
  rcases hstep.request_cases with ⟨-, hstore⟩ | ⟨op, q, hq, hstore⟩
  · rw [hstore]
    exact hknown
  · rw [hstore]
    exact known_perform q (Pool.asks_of_run (fun op => body_writes op) hrun ht hq) hknown

/-- The status that is shown of a key that was made by creations, rotations and revocations: at every time
it agrees with the guard exactly where the row tells. -/
theorem shown_status_iff (hs : s.rows = []) (hrun : Run (KeyStep config) { store := s } tr p)
    {t : KeyTransition} (ht : t ∈ tr) {row : ApiKey} (hrow : row ∈ t.post.store.rows) {apiKey : String}
    (hkey : row.IsRecordOf config apiKey) (now : Time) (reminderWindowDays : ℤ) :
    StatusAgrees config t.post.store row apiKey now reminderWindowDays ↔ row.Tells now :=
  statusAgrees_iff (known_of_run hs hrun ht) hrow hkey

theorem key1_ne : "key-1" ≠ "" := by decide

theorem key2_ne : "key-2" ≠ "" := by decide

/-- A key with an expiry in an hour is created and rotated with a grace period of two hours. -/
def overlap : List KeyTransition × KeyPool :=
  play (Pool.take perform (KeyOp.body keyConfig)) { store := {} }
    ([.start (.create { role := .admin, expiresAt := some (some hourMs) } none ⟨"s2s_first", "key-1", key1_ne⟩),
      .advance 0, .advance 0,
      .start (.rotate "key-1" none { gracePeriodHours := some 2 } ⟨"s2s_second", "key-2", key2_ne⟩ (.ok ()))] ++
      replicate 4 (.advance 1))

theorem overlap_run : Run (KeyStep keyConfig) { store := {} } overlap.1 overlap.2 :=
  play_run (fun _ _ _ h => h) _ _

theorem shown_status_overlap : ∃ t ∈ overlap.1, ∃ row ∈ t.post.store.rows,
    row.IsReplaced ∧ StatusAgrees keyConfig t.post.store row "s2s_first" 0 defaultApiKeyReminderWindowDays := by
  have hrotated : ∃ t ∈ overlap.1, ∃ row ∈ t.post.store.rows, row.IsReplaced ∧ row.revokedAt.isSome = false ∧
      row.expiresAt = some hourMs ∧ row.keyHash = some (keyConfig.sha256 "s2s_first") := by decide +kernel
  obtain ⟨t, ht, row, hrow, hreplaced, hrevoked, hexpires, hhash⟩ := hrotated
  refine ⟨t, ht, row, hrow, hreplaced, (shown_status_iff rfl overlap_run ht hrow ⟨by decide, hhash⟩ 0 _).mpr ?_⟩
  refine ⟨fun _ _ _ => ?_, fun hsome => absurd hsome (by rw [hrevoked]; exact Bool.false_ne_true)⟩
  rw [hexpires, passed_some]
  decide

/-- When the hour is over, the key is shown in its grace period, and the guard rejects it. -/
theorem overlap_disagrees : ¬ ∀ t ∈ overlap.1, ∀ row ∈ t.post.store.rows, ∀ apiKey,
    row.IsRecordOf keyConfig apiKey → ∀ now reminderWindowDays,
      StatusAgrees keyConfig t.post.store row apiKey now reminderWindowDays := by
  intro hagrees
  have hrotated : ∃ t ∈ overlap.1, ∃ row ∈ t.post.store.rows,
      row.keyHash = some (keyConfig.sha256 "s2s_first") ∧
        (deriveRotationStatus row hourMs).rotationStatus = .grace ∧
        (t.post.store.guardAnswer keyConfig "s2s_first" hourMs).isOk = false := by decide +kernel
  obtain ⟨t, ht, row, hrow, hhash, hgrace, hrejects⟩ := hrotated
  have hstatus := hagrees t ht row hrow "s2s_first" ⟨by decide, hhash⟩ hourMs defaultApiKeyReminderWindowDays
  obtain ⟨user, haccepts⟩ := hstatus.usable.mp (.inr (.inr hgrace))
  rw [haccepts] at hrejects
  cases hrejects

end Runs
end Soter.ApiKeys
