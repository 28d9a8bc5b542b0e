import Soter.Lib.JsonRoundTrip
import Soter.Evidence.ArtifactToken

/-! When a token that is revoked stays out. -/
namespace Soter.Evidence
open Soter.Buffers Soter.Json Soter.Tasks Soter.Runs List Option

variable {Num : Type} {services : Services Num}

def payloadOf (services : Services Num) (token : Text) : Option (Value Num) :=
  (token.splitOn '.').head?.bind (decodePayload services)

/-- The tokens that `createToken` has returned. -/
def issued (p : TokenPool Num) : List Text :=
  p.threads.filterMap fun
    | (.createToken .., .done (.ok (.token token))) => some token
    | _ => none

/-- The hashes for which `revokeToken` has returned. -/
def revocations (p : TokenPool Num) : List Text :=
  p.threads.filterMap fun
    | (.revokeToken tokenHash .., .done (.ok .revoked)) => some tokenHash
    | _ => none

def IsRevoked (services : Services Num) (p : TokenPool Num) (token : Text) : Prop :=
  token ∈ issued p ∧ services.sha256 token ∈ revocations p

/-- No text that is presented after the revocation of a token is found valid with the token's payload. -/
def RevocationEffective (services : Services Num) (tr : List (TokenTransition Num)) (p : TokenPool Num) :
    Prop :=
  ∀ before t after S token, tr = before ++ t :: after → t.label = .start (.verifyToken S) →
    IsRevoked services t.pre token → ∀ payload, payloadOf services token = some payload →
      p.threads[t.pre.threads.length]? ≠
        some (.verifyToken S, .done (.ok (.verdict (.valid payload))))

/-- HMAC-SHA256 is not forged: who presents a signature has been given a token that it signs. -/
def Unforged (services : Services Num) (tr : List (TokenTransition Num)) : Prop :=
  ∀ t ∈ tr, ∀ S payloadB64 signatureB64, t.label = .start (.verifyToken S) →
    S.splitOn '.' = [payloadB64, signatureB64] → services.hmac payloadB64 = fromBase64url signatureB64 →
      ∃ token ∈ issued t.pre, (token.splitOn '.').head? = some payloadB64

def SameSignature (S token : Text) : Prop :=
  ∃ payloadB64 signatureB64 signatureB64', S.splitOn '.' = [payloadB64, signatureB64] ∧
    token.splitOn '.' = [payloadB64, signatureB64'] ∧
      fromBase64url signatureB64 = fromBase64url signatureB64'

/-- A revoked token is presented as it was issued, or when it has expired or cannot be looked up. -/
def PresentedAsIssued (services : Services Num) (tr : List (TokenTransition Num)) : Prop :=
  ∀ before t after S token, tr = before ++ t :: after → t.label = .start (.verifyToken S) →
    IsRevoked services t.pre token → SameSignature S token → S ≠ token →
      ∀ s₁ s₂ rest, served t.pre.threads.length after = s₁ :: s₂ :: rest →
        (payloadOf services token).bind (isExpired services · (s₁.now / 1000)) = some true ∨
          s₂.db.isOk = false

section Tokens
variable {payload payload' : ArtifactAccessTokenPayload Num}

theorem splitOn_dot {a b : Text} (ha : '.' ∉ a) (hb : '.' ∉ b) : (a ++ '.' :: b).splitOn '.' = [a, b] := by
  rw [splitOn_append_cons_self_of_not_mem ha, splitOn_eq_singleton hb]

theorem tokenOf_splitOn (payload : ArtifactAccessTokenPayload Num) : (tokenOf services payload).splitOn '.' =
      [payloadText services payload, toBase64url (services.hmac (payloadText services payload))] :=
  splitOn_dot (toBase64url_dot _) (toBase64url_dot _)

theorem toValue_keys (payload : ArtifactAccessTokenPayload Num) :
    ∃ members, payload.toValue = .obj members ∧ (members.map Prod.fst).Nodup ∧
      (∀ m ∈ members, isArrayIndex m.1 = false) ∧ ∀ m ∈ members, m.2.WF ∧ m.2.visited = m.2 := by
  refine ⟨_, rfl, by simp, ?_, ?_⟩
  · simp only [forall_mem_cons, not_mem_nil, IsEmpty.forall_iff, implies_true, and_true]
    decide
  · simp only [forall_mem_cons, not_mem_nil, IsEmpty.forall_iff, implies_true, and_true]
    have hexp : (payload.exp.elim Value.null Value.num).WF ∧
        (payload.exp.elim Value.null Value.num).visited = payload.exp.elim Value.null Value.num := by
      cases payload.exp with
      | none => exact ⟨.null, rfl⟩
      | some exp => exact ⟨.num exp, rfl⟩
    exact ⟨⟨.str _, rfl⟩, ⟨.str _, rfl⟩, ⟨.str _, rfl⟩, ⟨.str _, rfl⟩, ⟨.num _, rfl⟩, hexp⟩

theorem toValue_wf (payload : ArtifactAccessTokenPayload Num) : payload.toValue.WF := by
  obtain ⟨members, hvalue, hkeys, -, heach⟩ := toValue_keys payload
  rw [hvalue]
  exact .obj hkeys fun m hm => (heach m hm).1

theorem toValue_visited (payload : ArtifactAccessTokenPayload Num) : payload.toValue.visited = payload.toValue := by
  obtain ⟨members, hvalue, -, hindex, heach⟩ := toValue_keys payload
  have hsame : members.map (fun m => (m.1, m.2.visited)) = members := by
    conv_rhs => rw [← map_id members]
    exact map_congr_left fun m hm => Prod.ext rfl (heach m hm).2
  have hnone : members.filter (isArrayIndex ·.1) = [] :=
    filter_eq_nil_iff.mpr fun m hm => by simp [hindex m hm]
  have hall : members.filter (!isArrayIndex ·.1) = members :=
    filter_eq_self.mpr fun m hm => by simp [hindex m hm]
  rw [hvalue, Value.visited, visitedMembers_eq, hsame, ownOrder, hnone, hall]
  rfl

theorem decodePayload_payloadText (payload : ArtifactAccessTokenPayload Num) :
    decodePayload services (payloadText services payload) = some payload.toValue := by
  rw [decodePayload, payloadText, fromBase64url_toBase64url, fromUtf8_toUtf8,
    parse_stringify (toValue_wf payload), toValue_visited]

theorem payloadOf_tokenOf (payload : ArtifactAccessTokenPayload Num) :
    payloadOf services (tokenOf services payload) = some payload.toValue := by
  rw [payloadOf, tokenOf_splitOn, head?_cons, bind_some, decodePayload_payloadText]

theorem tokenOf_eq_of_payloadText (h : payloadText services payload = payloadText services payload') :
    tokenOf services payload = tokenOf services payload' := by
  rw [tokenOf, tokenOf, h]

theorem tokenOf_eq_of_toValue (h : payload.toValue = payload'.toValue) :
    tokenOf services payload = tokenOf services payload' := by
  apply tokenOf_eq_of_payloadText
  rw [payloadText, payloadText, h]

theorem eq_of_sameSignature (h : SameSignature (tokenOf services payload) (tokenOf services payload')) :
    tokenOf services payload = tokenOf services payload' := by
  obtain ⟨payloadB64, signatureB64, signatureB64', hS, hT, -⟩ := h
  rw [tokenOf_splitOn, cons.injEq] at hS hT
  exact tokenOf_eq_of_payloadText (hS.1.trans hT.1.symm)

end Tokens
section Verify
variable {S : Text} {ss : List Store} {payload : Value Num}

def Store.HasRevoked (s : Store) (tokenHash : Text) : Prop :=
  ((s.find tokenHash).bind (·.revokedAt)).isSome = true

/-- The text is accepted with this payload by a look at the clock of `s₁` and at the table of `s₂`. -/
structure Accepts (services : Services Num) (S : Text) (payload : Value Num) (s₁ s₂ : Store) : Prop where
  signed : ∃ payloadB64 signatureB64, S.splitOn '.' = [payloadB64, signatureB64] ∧
    services.hmac payloadB64 = fromBase64url signatureB64 ∧ decodePayload services payloadB64 = some payload
  alive : isExpired services payload (s₁.now / 1000) = some false
  answered : s₂.db = .ok ()
  kept : ¬ s₂.HasRevoked (services.sha256 S)

variable {payload' : Value Num}

theorem resume_invalid (error : String) :
    (invalid error : Handler Num).resume perform ss ≠ .done (.ok (.verdict (.valid payload))) := by
  intro h
  rw [invalid, Task.resume_done] at h
  cases h

theorem checkRevocation_valid :
    (checkRevocation services S payload).resume perform ss = .done (.ok (.verdict (.valid payload'))) ↔
      payload' = payload ∧ ∃ s rest, ss = s :: rest ∧ s.db = .ok () ∧ ¬ s.HasRevoked (services.sha256 S) := by
  cases ss with
  | nil =>
    constructor
    · intro h
      cases h
    · rintro ⟨-, s, rest, hss, -⟩
      cases hss
  | cons s ss =>
    rw [checkRevocation, Task.resume]
    cases hdb : s.db with
    | error e =>
      have hreply : (perform (.findUnique (services.sha256 S)) s).1 = .error (.prisma e) := by
        simp only [perform, hdb]
        rfl
      rw [hreply]
      constructor
      · exact fun h => absurd h (resume_invalid _)
      · rintro ⟨-, s', rest, hss, hanswered, -⟩
        rw [← (cons.inj hss).1, hdb] at hanswered
        cases hanswered
    | ok _ =>
      have hreply : (perform (.findUnique (services.sha256 S)) s).1 = .ok (s.find (services.sha256 S)) := by
        simp only [perform, hdb]
        rfl
      rw [hreply]
      by_cases hrevoked : s.HasRevoked (services.sha256 S)
      · simp only [Store.HasRevoked] at hrevoked
        dsimp only
        rw [if_pos hrevoked]
        constructor
        · exact fun h => absurd h (resume_invalid _)
        · rintro ⟨-, s', rest, hss, -, hkept⟩
          rw [← (cons.inj hss).1] at hkept
          exact absurd hrevoked hkept
      · simp only [Store.HasRevoked] at hrevoked
        dsimp only
        rw [if_neg hrevoked, Task.resume_done]
        constructor
        · intro h
          cases h
          exact ⟨rfl, s, ss, rfl, hdb, hrevoked⟩
        · rintro ⟨rfl, -⟩
          rfl

theorem checkPayload_valid : (checkPayload services S payload).resume perform ss = .done (.ok (.verdict (.valid payload'))) ↔
      payload' = payload ∧ ∃ s₁ s₂ rest, ss = s₁ :: s₂ :: rest ∧
        isExpired services payload (s₁.now / 1000) = some false ∧ s₂.db = .ok () ∧ ¬ s₂.HasRevoked (services.sha256 S) := by
  cases ss with
  | nil =>
    constructor
    · intro h
      cases h
    · rintro ⟨-, s₁, s₂, rest, hss, -⟩
      cases hss
  | cons s₁ ss =>
    dsimp only [checkPayload, Task.resume]
    constructor
    · intro h
      split at h
      · exact absurd h (resume_invalid _)
      · exact absurd h (resume_invalid _)
      · rename_i halive
        obtain ⟨hsame, s₂, rest, rfl, hanswered, hkept⟩ := checkRevocation_valid.mp h
        exact ⟨hsame, s₁, s₂, rest, rfl, halive, hanswered, hkept⟩
    · rintro ⟨hsame, s, s₂, rest, hss, halive, hanswered, hkept⟩
      cases hss
      split
      · rename_i hunknown
        cases halive.symm.trans hunknown
      · rename_i hexpired
        cases halive.symm.trans hexpired
      · exact checkRevocation_valid.mpr ⟨hsame, s₂, rest, rfl, hanswered, hkept⟩

theorem verifyToken_valid : (verifyToken services S).resume perform ss = .done (.ok (.verdict (.valid payload))) ↔
      ∃ s₁ s₂ rest, ss = s₁ :: s₂ :: rest ∧ Accepts services S payload s₁ s₂ := by
  constructor
  · intro h
    rw [verifyToken] at h
    split at h
    · rename_i payloadB64 signatureB64 hsplit
      split at h
      · exact absurd h (resume_invalid _)
      · rename_i hsigned
        split at h
        · exact absurd h (resume_invalid _)
        · rename_i payload' hpayload
          obtain ⟨rfl, s₁, s₂, rest, hss, halive, hanswered, hkept⟩ := checkPayload_valid.mp h
          exact ⟨s₁, s₂, rest, hss, ⟨payloadB64, signatureB64, hsplit, not_not.mp hsigned, hpayload⟩,
            halive, hanswered, hkept⟩
    · exact absurd h (resume_invalid _)
  · rintro ⟨s₁, s₂, rest, hss, ⟨payloadB64, signatureB64, hsplit, hsigned, hpayload⟩, halive, hanswered, hkept⟩
    rw [verifyToken, hsplit]
    simp only [hsigned, ne_eq, not_true_eq_false, if_false, hpayload]
    exact checkPayload_valid.mpr ⟨rfl, s₁, s₂, rest, hss, halive, hanswered, hkept⟩

end Verify
section Requests
variable {s s' : Store} {tokenHash : Text}

def Later (s s' : Store) : Prop := ∀ tokenHash, s.HasRevoked tokenHash → s'.HasRevoked tokenHash

def Store.Hashed (services : Services Num) (s : Store) : Prop :=
  ∀ row ∈ s.tokens, ∃ payload, row.tokenHash = services.sha256 (tokenOf services payload)

def Query.Sane (services : Services Num) (q : Query) (_ : Store) : Prop :=
  match q with
  | .create row => ∀ r ∈ row, ∃ payload, r.tokenHash = services.sha256 (tokenOf services payload)
  | _ => True

variable {revokedAt : ℤ} {revokedReason : String} {q : Query}

theorem hasRevoked_iff : s.HasRevoked tokenHash ↔ ∃ row, s.find tokenHash = some row ∧ row.revokedAt.isSome = true := by
  rw [Store.HasRevoked, Option.isSome_bind, Option.any_eq_true]

theorem find_eq_some {row : ArtifactAccessToken} (h : s.find tokenHash = some row) :
    row ∈ s.tokens ∧ row.tokenHash = tokenHash :=
  ⟨mem_of_find?_eq_some h, by simpa using find?_some h⟩

theorem find?_filter_of_find? {α : Type} {p q : α → Bool} {x : α} : ∀ {l : List α}, l.find? p = some x →
    q x = true → (l.filter q).find? p = some x
  | [], h, _ => by cases h
  | a :: l, h, hq => by
    rw [find?_cons] at h
    cases ha : p a with
    | true =>
      rw [ha, some.injEq] at h
      rw [filter_cons_of_pos (by rw [h]; exact hq), find?_cons, ha, h]
    | false =>
      rw [ha] at h
      have ih := find?_filter_of_find? h hq
      by_cases hqa : q a = true
      · rw [filter_cons_of_pos hqa, find?_cons, ha]
        exact ih
      · rw [filter_cons_of_neg hqa]
        exact ih

theorem find?_revoked {hash : Text} (tokens : List ArtifactAccessToken) :
    (tokens.map fun row => if row.tokenHash = tokenHash then revoked revokedAt revokedReason row else row).find?
        (·.tokenHash = hash) = (tokens.find? (·.tokenHash = hash)).map fun row =>
        if row.tokenHash = tokenHash then revoked revokedAt revokedReason row else row := by
  have hsame : ((fun row : ArtifactAccessToken => decide (row.tokenHash = hash)) ∘ fun row =>
      if row.tokenHash = tokenHash then revoked revokedAt revokedReason row else row) =
        fun row => decide (row.tokenHash = hash) := by
    funext row
    simp only [Function.comp]
    split
    · rfl
    · rfl
  rw [find?_map, hsame]

inductive Effect (s : Store) (q : Query) (s' : Store) : Prop
  | same (tokens : s'.tokens = s.tokens)
  | created (row : ArtifactAccessToken) (request : q = .create (some row)) (tokens : s'.tokens = s.tokens ++ [row])
  | revoked (tokenHash : Text) (revokedAt : ℤ) (revokedReason : String)
      (tokens : s'.tokens = s.tokens.map fun row =>
        if row.tokenHash = tokenHash then revoked revokedAt revokedReason row else row)
  | deleted (now : ℤ) (tokens : s'.tokens = s.tokens.filter (!isStale now ·))

theorem perform_effect (q : Query) (s : Store) : Effect s q (perform q s).2 := by
  cases q with
  | clock | elapse d | findUnique tokenHash | record outcome | foresee db => exact .same rfl
  | create row =>
    rcases commit_cases (s.create row) s with ⟨e, -, hcommit⟩ | ⟨a, s', htx, hcommit⟩
    · rw [perform, hcommit]
      exact .same rfl
    · rw [perform, hcommit]
      cases hdb : s.db with
      | error e =>
        simp only [Store.create, hdb] at htx
        cases htx
      | ok _ =>
        cases row with
        | none =>
          simp only [Store.create, hdb] at htx
          cases htx
        | some row =>
          simp only [Store.create, hdb] at htx
          split at htx
          · cases htx
          · cases htx
            exact .created row rfl rfl
  | revoke tokenHash revokedAt revokedReason =>
    rcases commit_cases (s.revoke tokenHash revokedAt revokedReason) s with ⟨e, -, hcommit⟩ | ⟨a, s', htx, hcommit⟩
    · rw [perform, hcommit]
      exact .same rfl
    · rw [perform, hcommit]
      rw [Store.revoke] at htx
      split at htx
      · cases htx
      · cases htx
      · cases htx
        exact .revoked tokenHash revokedAt revokedReason rfl
  | deleteExpired now =>
    rcases commit_cases (s.deleteExpired now) s with ⟨e, -, hcommit⟩ | ⟨a, s', htx, hcommit⟩
    · rw [perform, hcommit]
      exact .same rfl
    · rw [perform, hcommit]
      rw [Store.deleteExpired] at htx
      split at htx
      · cases htx
      · cases htx
        exact .deleted now rfl

theorem Effect.later (h : Effect s q s') : Later s s' := by
  intro tokenHash hrevoked
  obtain ⟨row, hfind, hrow⟩ := hasRevoked_iff.mp hrevoked
  rw [Store.find] at hfind
  rw [hasRevoked_iff, Store.find]
  cases h with
  | same htokens =>
    rw [htokens]
    exact ⟨row, hfind, hrow⟩
  | created new _ htokens =>
    rw [htokens, find?_append, hfind]
    exact ⟨row, rfl, hrow⟩
  | revoked hash revokedAt revokedReason htokens =>
    rw [htokens, find?_revoked, hfind]
    refine ⟨_, rfl, ?_⟩
    dsimp only
    split
    · rfl
    · exact hrow
  | deleted now htokens =>
    -- a revoked row is not stale
    have hkept : (!isStale now row) = true := by
      obtain ⟨revokedAt, hrevokedAt⟩ := isSome_iff_exists.mp hrow
      simp [isStale, hrevokedAt]
    rw [htokens]
    exact ⟨row, find?_filter_of_find? hfind hkept, hrow⟩

theorem Effect.hashed (h : Effect s q s') (hs : s.Hashed services) (hsane : q.Sane services s) :
    s'.Hashed services := by
  intro row hrow
  cases h with
  | same htokens =>
    rw [htokens] at hrow
    exact hs row hrow
  | created new hrequest htokens =>
    rw [htokens] at hrow
    rcases mem_append.mp hrow with hrow | hrow
    · exact hs row hrow
    · rw [mem_singleton.mp hrow]
      rw [hrequest] at hsane
      exact hsane new rfl
  | revoked hash revokedAt revokedReason htokens =>
    rw [htokens] at hrow
    obtain ⟨old, hold, rfl⟩ := mem_map.mp hrow
    obtain ⟨payload, hpayload⟩ := hs old hold
    refine ⟨payload, ?_⟩
    split
    · exact hpayload
    · exact hpayload
  | deleted now htokens =>
    rw [htokens] at hrow
    exact hs row (mem_filter.mp hrow).1

theorem revoke_marks (h : (perform (.revoke tokenHash revokedAt revokedReason) s).1 = .ok ()) :
    (perform (.revoke tokenHash revokedAt revokedReason) s).2.HasRevoked tokenHash := by
  rcases commit_cases (s.revoke tokenHash revokedAt revokedReason) s with ⟨e, -, hcommit⟩ | ⟨a, s', htx, hcommit⟩
  · rw [perform, hcommit] at h
    cases h
  · rw [perform, hcommit]
    rw [Store.revoke] at htx
    split at htx
    · cases htx
    · cases htx
    · rename_i row _ hfind
      cases htx
      rw [Store.find] at hfind
      rw [hasRevoked_iff, Store.find, find?_revoked, hfind]
      have hhash : row.tokenHash = tokenHash := by simpa using find?_some hfind
      refine ⟨_, rfl, ?_⟩
      dsimp only
      rw [if_pos hhash]
      rfl

end Requests
section Handlers
variable {s : Store}

def TokenOp.Post (services : Services Num) (op : TokenOp Num) (result : Except Failure (Outcome Num)) (s : Store) :
    Prop :=
  match op, result with
  | .createToken .., .ok (.token token) => ∃ payload, token = tokenOf services payload
  | .revokeToken tokenHash .., .ok .revoked => s.HasRevoked tokenHash
  | _, _ => True

/-- The handler of the call keeps to what its requests promise, and returns with what it stands for. -/
abbrev KeepsPost (services : Services Num) (op : TokenOp Num) (t : Handler Num) (s : Store) : Prop :=
  t.Keeps perform Later (Store.Hashed services) (fun _ _ => True) (Query.Sane services)
    (TokenOp.Post services op) s

theorem createToken_keeps (options : CreateTokenOptions Num) (audited : Except String Unit) :
    KeepsPost services (.createToken options audited) (createToken services options audited) s := by
  refine Task.keeps_ite (fun _ _ _ _ => trivial) fun _ => ?_
  refine Task.keeps_ask.mpr fun s₁ _ _ _ => ⟨trivial, Task.keeps_ask.mpr fun s₂ _ _ _ => ⟨fun row hrow => ?_, ?_⟩⟩
  · obtain ⟨expiresAt, -, rfl⟩ := map_eq_some_iff.mp hrow
    exact ⟨_, rfl⟩
  · generalize (perform (.create _) s₂).1 = reply
    cases reply with
    | error e => exact fun _ _ _ => trivial
    | ok _ =>
      refine Task.keeps_ask.mpr fun s₃ _ _ _ => ⟨trivial, ?_⟩
      generalize (perform (.record audited) s₃).1 = recorded
      cases recorded with
      | error e => exact fun _ _ _ => trivial
      | ok _ => exact fun _ _ _ => ⟨_, rfl⟩

theorem verifyToken_keeps (token : Text) :
    KeepsPost services (.verifyToken token) (verifyToken services token) s := by
  have hasks : (verifyToken services token).Asks fun q => ∀ s, q.Sane services s := by
    rw [verifyToken]
    split
    · split
      · trivial
      · split
        · trivial
        · refine ⟨fun _ => trivial, fun ms => ?_⟩
          dsimp only
          split
          · trivial
          · trivial
          · refine ⟨fun _ => trivial, fun reply => ?_⟩
            cases reply with
            | error e => trivial
            | ok row => exact Task.asks_ite (fun _ => trivial) fun _ => trivial
    · trivial
  exact .of_asks (fun _ s h => h s) (fun _ _ => trivial) hasks

theorem revokeToken_keeps (tokenHash : Text) (reason : Option String) (audited : Except String Unit) :
    KeepsPost services (.revokeToken tokenHash reason audited) (revokeToken tokenHash reason audited) s := by
  refine Task.keeps_ask.mpr fun s₁ _ _ _ => ⟨trivial, ?_⟩
  generalize (perform (.findUnique tokenHash) s₁).1 = found
  rcases found with e | _ | row
  · exact fun _ _ _ => trivial
  · exact fun _ _ _ => trivial
  · refine Task.keeps_ite (fun _ _ _ _ => trivial) fun _ => ?_
    refine Task.keeps_ask.mpr fun s₂ _ _ _ => ⟨trivial, Task.keeps_ask.mpr fun s₃ _ _ _ => ⟨trivial, ?_⟩⟩
    split
    · exact fun _ _ _ => trivial
    · rename_i hreply
      have hmarked := revoke_marks hreply
      refine Task.keeps_ask.mpr fun s₄ hlater _ _ => ⟨trivial, ?_⟩
      generalize (perform (.record audited) s₄).1 = recorded
      cases recorded with
      | error e => exact fun _ _ _ => trivial
      | ok _ => exact fun s₅ hlater' _ => hlater' tokenHash (hlater tokenHash hmarked)

theorem body_keeps (op : TokenOp Num) : KeepsPost services op (op.body services) s := by
  cases op with
  | createToken options audited => exact createToken_keeps options audited
  | verifyToken token => exact verifyToken_keeps token
  | revokeToken tokenHash reason audited => exact revokeToken_keeps tokenHash reason audited
  | cleanupExpiredTokens =>
    refine Task.keeps_ask.mpr fun s₁ _ _ _ => ⟨trivial, Task.keeps_ask.mpr fun s₂ _ _ _ => ⟨trivial, ?_⟩⟩
    split
    · exact fun _ _ _ => trivial
    · exact fun _ _ _ => trivial
  | elapse d | foresee db => exact Task.keeps_ask.mpr fun _ _ _ _ => ⟨trivial, fun _ _ _ => trivial⟩

end Handlers
section Runs
variable {now : ℤ} {p p' : TokenPool Num} {tr : List (TokenTransition Num)}

abbrev TokenSane (services : Services Num) (p : TokenPool Num) : Prop :=
  p.Kept perform Later (Store.Hashed services) (fun _ _ _ => True) (fun _ => Query.Sane services)
    (TokenOp.Post services)

variable {t : TokenTransition Num} {token S : Text} {before after : List (TokenTransition Num)} {s : Store}
  {payload : ArtifactAccessTokenPayload Num}

theorem Later.refl (s : Store) : Later s s := fun _ h => h

theorem tokenSane_idle (now : ℤ) : TokenSane services { store := { now := now } } :=
  Pool.Kept.idle fun _ h => absurd h not_mem_nil

theorem tokenSane_of_run (hrun : Run (TokenStep services) p tr p') (h : TokenSane services p) (ht : t ∈ tr) : TokenSane services t.pre ∧ TokenSane services t.post :=
  Pool.Kept.run Later.refl (fun _ _ _ hab hbc hash hrevoked => hbc hash (hab hash hrevoked)) (fun op _ _ => body_keeps op)
    (fun _ q s hs _ hsane => ⟨(perform_effect q s).later, (perform_effect q s).hashed hs hsane⟩)
    hrun h (fun _ _ _ _ _ => trivial) ht

theorem tokenOf_of_issued (h : TokenSane services p) (htoken : token ∈ issued p) :
    ∃ payload, token = tokenOf services payload := by
  obtain ⟨thread, hthread, heq⟩ := mem_filterMap.mp htoken
  have hkeeps := h.threads _ hthread
  split at heq
  · cases heq
    exact hkeeps p.store (Later.refl _) h.store
  · cases heq

theorem hasRevoked_of_revocations (h : TokenSane services p) {tokenHash : Text}
    (hrevoked : tokenHash ∈ revocations p) : p.store.HasRevoked tokenHash := by
  obtain ⟨thread, hthread, heq⟩ := mem_filterMap.mp hrevoked
  have hkeeps := h.threads _ hthread
  split at heq
  · cases heq
    exact hkeeps p.store (Later.refl _) h.store
  · cases heq

theorem verdict_of_run
    (hrun : Run (TokenStep services) p (before ++ t :: after) p') (hstart : t.label = .start (.verifyToken S)) :
    p'.threads[t.pre.threads.length]? = some (.verifyToken S,
      (verifyToken services S).resume perform (served t.pre.threads.length after)) := by
  obtain ⟨-, hstep, hafter⟩ := hrun.split
  have hthread : t.post.threads[t.pre.threads.length]? = some (.verifyToken S, verifyToken services S) := by
    rw [hstart] at hstep
    have hpost : ({ t.pre with threads := t.pre.threads ++ [(.verifyToken S, verifyToken services S)] } :
        TokenPool Num) = t.post := some.inj hstep
    rw [← hpost, getElem?_append_right (le_refl _), Nat.sub_self]
    rfl
  exact Pool.thread_resume hafter hthread

/-- A token that was revoked before a call started is revoked in every table that serves the call. -/
theorem revoked_when_served (hrun : Run (TokenStep services) p (before ++ t :: after) p') (h : TokenSane services p)
    (hstart : t.label = .start (.verifyToken S)) (hrevoked : IsRevoked services t.pre token) {i : ℕ}
    (hs : s ∈ served i after) : s.HasRevoked (services.sha256 token) ∧ s.Hashed services := by
  obtain ⟨hbefore, hstep, hafter⟩ := hrun.split
  have hpre : TokenSane services t.pre := (tokenSane_of_run hrun h (by simp)).1
  have hpost : TokenSane services t.post := (tokenSane_of_run hrun h (by simp)).2
  have hmarked : t.post.store.HasRevoked (services.sha256 token) := by
    have hmarked := hasRevoked_of_revocations hpre hrevoked.2
    rcases hstep.request_cases with ⟨-, hstore⟩ | ⟨op, q, hq, -⟩
    · rw [hstore]
      exact hmarked
    · rw [hstart] at hq
      cases hq
  obtain ⟨t', ht', -, rfl⟩ := mem_served hs
  have hsane : TokenSane services t'.pre := (tokenSane_of_run hafter hpost ht').1
  have hkeep := hafter.invariant_at (I := fun p => p.store.HasRevoked (services.sha256 token)) (C := fun _ => True)
    hmarked (fun _ _ => trivial) (fun t hstep _ hmarked => ?_) ht'
  · exact ⟨hkeep.1, hsane.store⟩
  · rcases hstep.request_cases with ⟨-, hstore⟩ | ⟨op, q, -, hstore⟩
    · rw [hstore]
      exact hmarked
    · rw [hstore]
      exact (perform_effect q t.pre.store).later _ hmarked

theorem sameSignature_of_accepts (h : TokenSane services p) {payload : Value Num} {s₁ s₂ : Store}
    (htoken : token ∈ issued p) (hpayload : payloadOf services token = some payload)
    (haccepts : Accepts services S payload s₁ s₂)
    (hsigned : ∀ payloadB64 signatureB64, S.splitOn '.' = [payloadB64, signatureB64] →
      services.hmac payloadB64 = fromBase64url signatureB64 →
        ∃ token ∈ issued p, (token.splitOn '.').head? = some payloadB64) : SameSignature S token := by
  obtain ⟨π, rfl⟩ := tokenOf_of_issued h htoken
  obtain ⟨payloadB64, signatureB64, hsplit, hmac, hdecode⟩ := haccepts.signed
  obtain ⟨token', htoken', hhead⟩ := hsigned payloadB64 signatureB64 hsplit hmac
  obtain ⟨π', rfl⟩ := tokenOf_of_issued h htoken'
  rw [tokenOf_splitOn, head?_cons, some.injEq] at hhead
  rw [payloadOf_tokenOf, some.injEq] at hpayload
  rw [← hhead, decodePayload_payloadText, some.injEq] at hdecode
  -- the payload of either token is what both texts say
  have hsame : tokenOf services π = tokenOf services π' := by
    apply tokenOf_eq_of_toValue
    rw [hpayload, hdecode]
  refine ⟨payloadB64, signatureB64, toBase64url (services.hmac payloadB64), hsplit, ?_, ?_⟩
  · rw [hsame, tokenOf_splitOn, hhead]
  · rw [← hmac, fromBase64url_toBase64url]

theorem signed_of_sameSignature (h : SameSignature S (tokenOf services payload)) :
    ∃ payloadB64 signatureB64, S.splitOn '.' = [payloadB64, signatureB64] ∧
      services.hmac payloadB64 = fromBase64url signatureB64 ∧
        decodePayload services payloadB64 = some payload.toValue := by
  obtain ⟨payloadB64, signatureB64, signatureB64', hS, htoken, hdecoded⟩ := h
  rw [tokenOf_splitOn, cons.injEq, cons.injEq] at htoken
  obtain ⟨rfl, rfl, -⟩ := htoken
  rw [fromBase64url_toBase64url] at hdecoded
  exact ⟨_, signatureB64, hS, hdecoded.symm, decodePayload_payloadText payload⟩

theorem not_hasRevoked_of_ne (hsha : Function.Injective services.sha256) (hs : s.Hashed services) (hsame : SameSignature S (tokenOf services payload))
    (hne : S ≠ tokenOf services payload) : ¬ s.HasRevoked (services.sha256 S) := by
  intro hrevoked
  obtain ⟨row, hfind, -⟩ := hasRevoked_iff.mp hrevoked
  obtain ⟨hrow, hhash⟩ := find_eq_some hfind
  obtain ⟨payload', hpayload'⟩ := hs row hrow
  have hS : S = tokenOf services payload' := hsha (hhash.symm.trans hpayload')
  rw [hS] at hsame hne
  exact hne (eq_of_sameSignature hsame)

/-- Revocation of artifact tokens: in every run, no revoked token is found valid again, exactly if none is
presented in another text of its signature. -/
theorem revocationEffective_iff (hsha : Function.Injective services.sha256)
    (hrun : Run (TokenStep services) { store := { now := now } } tr p) (hunforged : Unforged services tr) :
    RevocationEffective services tr p ↔ PresentedAsIssued services tr := by
  have hidle : TokenSane services { store := { now := now } } := tokenSane_idle now
  constructor
  · intro heffective before t after S token htr hstart hrevoked hsame hne s₁ s₂ rest hserved
    subst htr
    have hpre : TokenSane services t.pre := (tokenSane_of_run hrun hidle (by simp)).1
    obtain ⟨payload, rfl⟩ := tokenOf_of_issued hpre hrevoked.1
    have hhashed := (revoked_when_served hrun hidle hstart hrevoked (i := t.pre.threads.length) (s := s₂)
      (by rw [hserved]; simp)).2
    by_contra hnot
    obtain ⟨hexpired, hdown⟩ := not_or.mp hnot
    have hpayload : payloadOf services (tokenOf services payload) = some payload.toValue :=
      payloadOf_tokenOf payload
    refine heffective before t after S _ rfl hstart hrevoked payload.toValue hpayload ?_
    rw [verdict_of_run hrun hstart, hserved, verifyToken_valid.mpr]
    refine ⟨s₁, s₂, rest, rfl, signed_of_sameSignature hsame, ?_, ?_,
      not_hasRevoked_of_ne hsha hhashed hsame hne⟩
    · obtain ⟨late, hlate⟩ : ∃ late, isExpired services payload.toValue (s₁.now / 1000) = some late := ⟨_, rfl⟩
      rw [hpayload, bind_some, hlate] at hexpired
      rw [hlate, Bool.eq_false_of_not_eq_true fun htrue => hexpired (congrArg some htrue)]
    · cases hdb : s₂.db with
      | error e =>
        rw [hdb] at hdown
        exact absurd rfl hdown
      | ok _ => rfl
  · intro hpresented before t after S token htr hstart hrevoked payload hpayload hvalid
    subst htr
    have hpre : TokenSane services t.pre := (tokenSane_of_run hrun hidle (by simp)).1
    rw [verdict_of_run hrun hstart, some.injEq, Prod.mk.injEq] at hvalid
    obtain ⟨s₁, s₂, rest, hserved, haccepts⟩ := verifyToken_valid.mp hvalid.2
    have hsame : SameSignature S token :=
      sameSignature_of_accepts hpre hrevoked.1 hpayload haccepts fun payloadB64 signatureB64 =>
        hunforged t (by simp) S payloadB64 signatureB64 hstart
    have hmarked := (revoked_when_served hrun hidle hstart hrevoked (i := t.pre.threads.length) (s := s₂)
      (by rw [hserved]; simp)).1
    by_cases hS : S = token
    · rw [hS] at haccepts
      exact haccepts.kept hmarked
    · rcases hpresented before t after S token rfl hstart hrevoked hsame hS s₁ s₂ rest hserved with hlate | hdown
      · rw [hpayload, bind_some, haccepts.alive] at hlate
        cases hlate
      · rw [haccepts.answered] at hdown
        cases hdown

def naturals : Numbers ℕ where
  toNumerals := Numerals.nat
  ofInt := Int.toNat
  add := (· + ·)
  atMost n m := decide (n ≤ m)
  coerce
    | .null => some 0
    | .bool b => some b.toNat
    | _ => none
  date n := some (n * 1000)

def artifactOptions : CreateTokenOptions ℕ where
  artifactId := "art-1".toList
  orgId := "org-1".toList
  userId := "user-1".toList
  role := "operator".toList

def artifactText : Text :=
  ["eyJhcnRpZmFjdElk", "IjoiYXJ0LTEiLCJv", "cmdJZCI6Im9yZy0x", "IiwidXNlcklkIjoi", "dXNlci0xIiwicm9s",
   "ZSI6Im9wZXJhdG9y", "IiwiaWF0IjowLCJl", "eHAiOjMwMH0"].flatMap String.toList

/-- The token of the artifact, and its signature with the two unused bits of its last digit set otherwise. -/
def artifactToken (last : Char) : Text :=
  artifactText ++ '.' :: (["1zq_9YoZolm4oMv0", "JaldHZmpHCef-hcy", "GDEKNxk_Np"].flatMap String.toList ++ [last])

def artifactDigest (t : Text) : Text :=
  if t = artifactToken 'o' then
    ["81c28d5495567302", "a1db7584b14bf806", "90067adf563f26eb", "117b17df6cbf6a27"].flatMap String.toList
  else if t = artifactToken 'p' then
    ["77e07574caed7648", "6b8834b039ad50c7", "06be8a13b06fbea5", "bc82e8a381ac2edd"].flatMap String.toList
  else 'x' :: t

def artifactHmac (t : Text) : List Byte :=
  if t = artifactText then
    [215, 58, 191, 245, 138, 25, 162, 89, 184, 160, 203, 244, 37, 169, 93, 29, 153, 169, 28, 39, 159, 250, 23, 50,
      24, 49, 10, 55, 25, 63, 54, 154]
  else []

def artifactServices : Services ℕ := ⟨naturals, artifactDigest, artifactHmac, some 300⟩

def presentation (S : Text) : List (TokenTransition ℕ) × TokenPool ℕ :=
  play (Pool.take perform (TokenOp.body artifactServices)) { store := { now := 0 } }
    [.start (.createToken artifactOptions (.ok ())), .advance 0, .advance 0, .advance 0,
      .start (.revokeToken (artifactDigest (artifactToken 'o')) none (.ok ())), .advance 1, .advance 1, .advance 1,
      .advance 1, .start (.verifyToken S), .advance 2, .advance 2]

theorem presentation_run (S : Text) :
    Run (TokenStep artifactServices) { store := { now := 0 } } (presentation S).1 (presentation S).2 :=
  play_run (fun _ _ _ h => h) _ _

theorem artifactDigest_injective : Function.Injective artifactDigest := by
  intro t t' h
  simp only [artifactDigest] at h
  split at h
  · rename_i ht
    split at h
    · rename_i ht'
      rw [ht, ht']
    · split at h
      · exact absurd h (by decide)
      · cases h
  · split at h
    · rename_i ht
      split at h
      · exact absurd h (by decide)
      · split at h
        · rename_i ht'
          rw [ht, ht']
        · cases h
    · split at h
      · cases h
      · split at h
        · cases h
        · exact (cons.inj h).2

theorem artifactToken_eq : tokenOf artifactServices (payloadAt artifactServices artifactOptions 0) = artifactToken 'o' := by
  decide +kernel

def presentedText : Turn (TokenOp ℕ) → Option Text
  | .start (.verifyToken S) => some S
  | _ => none

theorem presentedText_eq_some {turn : Turn (TokenOp ℕ)} :
    presentedText turn = some S ↔ turn = .start (.verifyToken S) := by
  constructor
  · intro h
    unfold presentedText at h
    split at h
    · rw [some.inj h]
    · cases h
  · intro h
    rw [h, presentedText]

theorem presentation_pre : ∀ last ∈ ['o', 'p'], ∀ t ∈ (presentation (artifactToken last)).1,
    presentedText t.label ≠ none → presentedText t.label = some (artifactToken last) ∧
      artifactToken 'o' ∈ issued t.pre ∧ artifactServices.sha256 (artifactToken 'o') ∈ revocations t.pre :=
  all_iff_forall_prop.mp (by decide +kernel)

theorem revocationEffective_presentation :
    RevocationEffective artifactServices (presentation (artifactToken 'o')).1 (presentation (artifactToken 'o')).2 := by
  have hpre := presentation_pre 'o' (by decide)
  have hpresented : ∀ t ∈ (presentation (artifactToken 'o')).1, ∀ S, t.label = .start (.verifyToken S) →
      S = artifactToken 'o' ∧ artifactToken 'o' ∈ issued t.pre := by
    intro t ht S hS
    rw [← presentedText_eq_some] at hS
    have hfacts := hpre t ht (by simp [hS])
    have htext := hfacts.1
    rw [hS, some.injEq] at htext
    exact ⟨htext, hfacts.2.1⟩
  have hunforged : Unforged artifactServices (presentation (artifactToken 'o')).1 := by
    intro t ht S payloadB64 signatureB64 hS hsplit _
    have hfacts := hpresented t ht S hS
    rw [hfacts.1] at hsplit
    exact ⟨_, hfacts.2, congrArg head? hsplit⟩
  refine (revocationEffective_iff artifactDigest_injective (presentation_run _) hunforged).mpr ?_
  intro before t after S token htr hstart hrevoked hsame hne
  have ht : t ∈ (presentation (artifactToken 'o')).1 :=
    htr.symm ▸ mem_append_right before mem_cons_self
  rw [(hpresented t ht S hstart).1] at hsame hne
  have hidle : TokenSane artifactServices { store := { now := 0 } } := tokenSane_idle 0
  obtain ⟨payload, rfl⟩ := tokenOf_of_issued
    (tokenSane_of_run (presentation_run _) hidle ht).1 hrevoked.1
  rw [← artifactToken_eq] at hsame hne
  exact absurd (eq_of_sameSignature hsame) hne

def presentationServed : List Store := served 2 ((presentation (artifactToken 'p')).1.drop 10)

theorem presentation_served : ((presentation (artifactToken 'p')).1.length = 12 ∧
      ∀ t ∈ (presentation (artifactToken 'p')).1[9]?, presentedText t.label ≠ none ∧ t.pre.threads.length = 2) ∧
    presentationServed.length = 2 ∧ ∀ s ∈ presentationServed, s.db.isOk = true ∧
      isExpired artifactServices (payloadAt artifactServices artifactOptions 0).toValue (s.now / 1000) = some false ∧
      ((s.find (artifactServices.sha256 (artifactToken 'p'))).bind (·.revokedAt)).isSome = false := by
  decide +kernel

theorem presentation_valid :
    ¬ RevocationEffective artifactServices (presentation (artifactToken 'p')).1 (presentation (artifactToken 'p')).2 := by
  intro heffective
  obtain ⟨⟨hlen, hnine⟩, htwo, hfacts⟩ := presentation_served
  have hcut : (presentation (artifactToken 'p')).1 = (presentation (artifactToken 'p')).1.take 9 ++
      (presentation (artifactToken 'p')).1[9] :: (presentation (artifactToken 'p')).1.drop 10 := by
    rw [getElem_cons_drop, take_append_drop]
  obtain ⟨hpresented, hplace⟩ := hnine _ (getElem?_eq_getElem _)
  have hrevoked := presentation_pre 'p' (by decide) _ (getElem_mem _) hpresented
  have hstart := presentedText_eq_some.mp hrevoked.1
  have hpayload : payloadOf artifactServices (tokenOf artifactServices (payloadAt artifactServices artifactOptions 0)) =
      some (payloadAt artifactServices artifactOptions 0).toValue := payloadOf_tokenOf _
  rw [artifactToken_eq] at hpayload
  refine heffective _ _ _ (artifactToken 'p') (artifactToken 'o') hcut hstart hrevoked.2 _ hpayload ?_
  have hrun := presentation_run (artifactToken 'p')
  rw [hcut] at hrun
  obtain ⟨s₁, s₂, hserved⟩ := length_eq_two.mp htwo
  rw [verdict_of_run hrun hstart, hplace, ← presentationServed, verifyToken_valid.mpr]
  obtain ⟨-, halive, -⟩ := hfacts s₁ (by simp [hserved])
  obtain ⟨hanswered, -, hkept⟩ := hfacts s₂ (by simp [hserved])
  refine ⟨s₁, s₂, [], hserved, ⟨artifactText, (artifactToken 'p').drop (artifactText.length + 1), ?_, ?_, ?_⟩,
    halive, ?_, ?_⟩
  · decide +kernel
  · decide +kernel
  · rw [← decodePayload_payloadText]
    exact congrArg _ (by decide +kernel)
  · cases hdb : s₂.db with
    | error e =>
      rw [hdb] at hanswered
      cases hanswered
    | ok _ => rfl
  · intro hmarked
    rw [Store.HasRevoked, hkept] at hmarked
    cases hmarked

end Runs
end Soter.Evidence
