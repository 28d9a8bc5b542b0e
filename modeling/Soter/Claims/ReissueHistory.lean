import Soter.Claims.Holdings
import Soter.Lib.Forest

/-! `CancelAndReissueService.getReissueHistory`, on the claims that a run has left: the lineage of a claim. -/
namespace Soter.Claims
open Std Soter.Fallible Soter.Tasks Soter.Runs Soter.MapSum Soter.Forests List Option

abbrev ClaimRows := ExtTreeMap ClaimId Claim

section History
variable (services : Services) (createdAt : ClaimId → Time) (claims : ClaimRows)

/-- `prisma.claim.findUnique` by id. -/
def findUnique (id : ClaimId) : Option (ClaimId × Claim) := claims[id]?.map fun row => (id, row)

/-- The loop of `findChainRoot`, for so many turns at most; `id` is the claim that it starts from. -/
def findChainRootFrom (id : ClaimId) : ℕ → Option (ClaimId × Claim) → Option ClaimId
  | 0, _ => none
  | fuel + 1, current =>
    match current.bind (·.2.reissuedFromId) with
    | some reissuedFromId => findChainRootFrom id fuel (findUnique claims reissuedFromId)
    | none => some ((current.map (·.1)).getD id)

def findChainRoot (fuel : ℕ) (id : ClaimId) : Option ClaimId :=
  findChainRootFrom claims id fuel (findUnique claims id)

/-- `findMany` of the claims that are reissued from one, in the order of their `createdAt`. -/
def findChildren (parentId : ClaimId) : List (ClaimId × Claim) :=
  (claims.toList.filter (·.2.reissuedFromId = some parentId)).insertionSort
    fun a b => createdAt a.1 ≤ createdAt b.1

/-- The loop of `collectChain`, for so many turns at most. -/
def collectFrom : ℕ → List ClaimId → List (ClaimId × Claim) → Option (List (ClaimId × Claim))
  | 0, _, _ => none
  | _ + 1, [], results => some results
  | fuel + 1, parentId :: queue, results =>
    let children := findChildren createdAt claims parentId
    collectFrom fuel (queue ++ children.map (·.1)) (results ++ children)

def collectChain (fuel : ℕ) (rootId : ClaimId) : Option (List (ClaimId × Claim)) :=
  match findUnique claims rootId with
  | none => some []
  | some root => collectFrom createdAt claims fuel [rootId] [root]

def readable (row : ClaimId × Claim) : Except Failure (ClaimId × Claim) := do
  let recipientRef ← services.decrypt row.2.recipientRef
  return (row.1, { row.2 with recipientRef })

/-- `createdAt` is the column that the database fills when it adds a row. Without an answer, a loop has not
come to its end. -/
def getReissueHistory (fuel : ℕ) (id : ClaimId) : Option (Except Failure (List (ClaimId × Claim))) :=
  match claims[id]?.filter (·.deletedAt.isNone) with
  | none => some (.error (notFound "Claim not found"))
  | some _ => do
    let root ← findChainRoot claims fuel id
    let chain ← collectChain createdAt claims fuel root
    return chain.mapM (readable services)

end History
section Lineage
variable {services : Services} {createdAt : ClaimId → Time} {claims : ClaimRows} {id : ClaimId} {row : Claim}

def parentOf (claims : ClaimRows) (id : ClaimId) : Option ClaimId := claims[id]?.bind (·.reissuedFromId)

/-- What every run keeps of the rows: a claim is reissued from one that is there and older, none is deleted,
and the recipient references are encrypted. -/
structure Lineage (services : Services) (claims : ClaimRows) : Prop where
  parents : ∀ a b, parentOf claims b = some a → claims[a]? ≠ none
  ranked : ∃ rank : ClaimId → ℕ, ∀ a b, parentOf claims b = some a → rank a < rank b
  kept : ∀ (id : ClaimId) (row : Claim), claims[id]? = some row → row.deletedAt = none
  encrypted : ∀ (id : ClaimId) (row : Claim), claims[id]? = some row → ∃ text, row.recipientRef = services.encrypt text

theorem parentOf_insert (row : Claim) (b : ClaimId) :
    parentOf (claims.insert id row) b = if b = id then row.reissuedFromId else parentOf claims b := by
  rw [parentOf, get_insert]
  split
  · rfl
  · rfl

theorem lineage_empty : Lineage services (∅ : ClaimRows) where
  parents := by
    intro a b h
    simp [parentOf] at h
  ranked := by
    refine ⟨fun _ => 0, fun a b h => ?_⟩
    simp [parentOf] at h
  kept := by
    intro id row h
    simp at h
  encrypted := by
    intro id row h
    simp at h

theorem Lineage.rewrite (h : Lineage services claims) {row' : Claim} (hrow : claims[id]? = some row)
    (hparent : row'.reissuedFromId = row.reissuedFromId) (hdeleted : row'.deletedAt = row.deletedAt)
    (href : row'.recipientRef = row.recipientRef) : Lineage services (claims.insert id row') := by
  have hsame : ∀ b, parentOf (claims.insert id row') b = parentOf claims b := by
    intro b
    rw [parentOf_insert]
    by_cases hb : b = id
    · rw [if_pos hb, hb, parentOf, hrow, bind_some, hparent]
    · rw [if_neg hb]
  have hread : ∀ (b : ClaimId) (row₁ : Claim), (claims.insert id row')[b]? = some row₁ →
      ∃ row₂ : Claim, claims[b]? = some row₂ ∧ row₁.deletedAt = row₂.deletedAt ∧
        row₁.recipientRef = row₂.recipientRef := by
    intro b row₁ hb
    rw [get_insert] at hb
    by_cases hbid : b = id
    · rw [if_pos hbid] at hb
      cases hb
      exact ⟨row, hbid ▸ hrow, hdeleted, href⟩
    · rw [if_neg hbid] at hb
      exact ⟨row₁, hb, rfl, rfl⟩
  constructor
  · intro a b hb
    rw [hsame] at hb
    rw [get_insert]
    split
    · exact some_ne_none _
    · exact h.parents a b hb
  · obtain ⟨rank, hrank⟩ := h.ranked
    exact ⟨rank, fun a b hb => hrank a b (hsame b ▸ hb)⟩
  · intro b row₁ hb
    obtain ⟨row₂, hrow₂, hdel, -⟩ := hread b row₁ hb
    exact hdel.trans (h.kept b row₂ hrow₂)
  · intro b row₁ hb
    obtain ⟨row₂, hrow₂, -, hrefs⟩ := hread b row₁ hb
    obtain ⟨text, htext⟩ := h.encrypted b row₂ hrow₂
    exact ⟨text, hrefs.trans htext⟩

theorem Lineage.add (h : Lineage services claims) (hfresh : claims[id]? = none)
    (hparent : ∀ a, row.reissuedFromId = some a → claims[a]? ≠ none) (hdeleted : row.deletedAt = none)
    (href : ∃ text, row.recipientRef = services.encrypt text) : Lineage services (claims.insert id row) := by
  -- nothing hangs under the new row yet
  have hleaf : ∀ b, parentOf claims b ≠ some id := fun b hb => h.parents id b hb hfresh
  have hnotself : row.reissuedFromId ≠ some id := fun hself => hparent id hself hfresh
  constructor
  · intro a b hb
    rw [parentOf_insert] at hb
    have hpresent : claims[a]? ≠ none := by
      split at hb
      · exact hparent a hb
      · exact h.parents a b hb
    rw [get_insert]
    split
    · exact some_ne_none _
    · exact hpresent
  · obtain ⟨rank, hrank⟩ := h.ranked
    refine ⟨fun k => if k = id then (row.reissuedFromId.elim 0 rank) + 1 else rank k, fun a b hb => ?_⟩
    rw [parentOf_insert] at hb
    by_cases hbid : b = id
    · rw [if_pos hbid] at hb
      have ha : a ≠ id := by
        rintro rfl
        exact hnotself hb
      simp only [if_neg ha, if_pos hbid, hb, elim_some]
      omega
    · rw [if_neg hbid] at hb
      have ha : a ≠ id := by
        rintro rfl
        exact hleaf b hb
      simp only [if_neg ha, if_neg hbid]
      exact hrank a b hb
  · intro b row₁ hb
    rw [get_insert] at hb
    split at hb
    · cases hb
      exact hdeleted
    · exact h.kept b row₁ hb
  · intro b row₁ hb
    rw [get_insert] at hb
    split at hb
    · cases hb
      exact href
    · exact h.encrypted b row₁ hb

end Lineage
section Runs
variable {services : Services} {db : Db} {q : Query}

def Query.HandsOn (services : Services) : Query → Prop
  | .reissue _ original _ _ _ => ∃ text, original.recipientRef = services.encrypt text
  | _ => True

theorem Lineage.commit_update {id : ClaimId} {data : Claim → Claim} (h : Lineage services db.claims)
    (hparent : ∀ row, (data row).reissuedFromId = row.reissuedFromId)
    (hdeleted : ∀ row, (data row).deletedAt = row.deletedAt)
    (href : ∀ row, (data row).recipientRef = row.recipientRef) :
    Lineage services (commit (db.updateClaim id data) db).2.claims := by
  refine commit_keeps (P := fun db' : Db => Lineage services db'.claims) h fun claim db' hupdate => ?_
  obtain ⟨row, hrow, hres⟩ := updateClaim_eq_ok.mp hupdate
  cases hres
  exact h.rewrite hrow (hparent row) (hdeleted row) (href row)

theorem Lineage.perform (h : Lineage services db.claims) (hq : q.HandsOn services) :
    Lineage services (perform services q db).2.claims := by
  cases q with
  | findCampaign id | findClaim id | findExpiredClaims now => exact h
  | create dto newId now =>
    refine commit_keeps (P := fun db' : Db => Lineage services db'.claims) h fun claim db' htx => ?_
    simp only [createTx, bind_eq_ok, exists_unit, pure_eq_ok] at htx
    obtain ⟨-, db₁, hcreate, hres⟩ := htx
    cases hres
    obtain ⟨hfresh, rfl⟩ := createClaim_eq_ok.mp hcreate
    exact h.add hfresh (fun a ha => nomatch ha) rfl ⟨dto.recipientRef, rfl⟩
  | cancel id claim dto now =>
    refine commit_keeps (P := fun db' : Db => Lineage services db'.claims) h fun _ db' htx => ?_
    simp only [cancelTx, bind_eq_ok, pure_eq_ok] at htx
    obtain ⟨updated, hupdate, hres⟩ := htx
    cases hres
    obtain ⟨row, hrow, rfl⟩ := updateClaim_eq_ok.mp hupdate
    exact h.rewrite hrow rfl rfl rfl
  | reissue originalId original dto newId now =>
    refine commit_keeps (P := fun db' : Db => Lineage services db'.claims) h fun _ db' htx => ?_
    simp only [reissueTx, bind_eq_ok, pure_eq_ok] at htx
    obtain ⟨updated, hupdate, db₁, hcreate, hres⟩ := htx
    cases hres
    obtain ⟨row, hrow, rfl⟩ := updateClaim_eq_ok.mp hupdate
    obtain ⟨hfresh, rfl⟩ := createClaim_eq_ok.mp hcreate
    apply Lineage.add (h.rewrite hrow (by rfl) (by rfl) (by rfl)) hfresh
    · intro a ha
      cases ha
      rw [get_insert, if_pos rfl]
      exact some_ne_none _
    · rfl
    · -- the override is encrypted, the original's is so already
      simp only [ReissueClaimDto.newRecipientRef]
      cases dto.recipientRef.filter (· ≠ "") with
      | none => exact hq
      | some text => exact ⟨text, rfl⟩
  | setStatus id status => exact h.commit_update (fun _ => rfl) (fun _ => rfl) fun _ => rfl
  | setReceiptPointer id receiptPointer => exact h.commit_update (fun _ => rfl) (fun _ => rfl) fun _ => rfl
  | recordVerification id status result => exact h.commit_update (fun _ => rfl) (fun _ => rfl) fun _ => rfl

theorem handsOn_keeps (services : Services) (op : Op) (db : Db) :
    (op.body services).Keeps (perform services) (fun _ _ => True) (fun db => Lineage services db.claims)
      (fun _ _ => True) (fun q _ => q.HandsOn services) (fun _ _ => True) db := by
  have hnoRow {α : Type} {h : Handler α} {db : Db} {P : Query → Prop}
      (hP : ∀ q, P q → q.HandsOn services) (hasks : h.Asks P) :
      h.Keeps (perform services) (fun _ _ => True) (fun db => Lineage services db.claims)
        (fun _ _ => True) (fun q _ => q.HandsOn services) (fun _ _ => True) db :=
    .of_asks (fun q _ hq => hP q hq) (fun _ _ => trivial) hasks
  cases op with
  | reissue originalId dto newId now =>
    refine Task.Keeps.bind_result (fun _ => trivial) (fun _ => ⟨_, rfl⟩) fun db' _ hlineage _ => ⟨trivial, ?_⟩
    refine .bind_done (fun found hfound => ?_) fun _ _ _ _ _ => trivial
    cases hfound
    refine .bind_done (fun original horiginal => ?_) fun _ _ _ _ _ => trivial
    obtain ⟨hrow, -⟩ := checkCancellable_eq_ok horiginal
    refine fun _ _ _ _ => ⟨hlineage.encrypted originalId original hrow, ?_⟩
    refine hnoRow (P := fun _ => False) (fun _ => False.elim) ?_
    refine Task.Asks.bind (fun pair => ?_) (Task.asks_done _)
    refine Task.Asks.bind (fun _ => ?_) asks_decrypted
    exact Task.Asks.bind (fun _ => Task.asks_done _) asks_decrypted
  | create dto newId now => exact hnoRow (fun q h => by cases h <;> trivial) (body_asks _ _)
  | cancel id dto now => exact hnoRow (fun q h => by cases h <;> trivial) (body_asks _ _)
  | verify id | approve id | disburse id receiptPointer | archive id | cleanupExpiredClaims now onchain audit
  | processVerification id score => exact hnoRow (fun q h => by cases h <;> trivial) (body_asks _ _)

theorem lineage_of_run {s : System} {tr : List (Transition System (Turn Op))} (hclaims : db.claims = ∅)
    (hrun : Run (Step services) (idle db) tr s) : Lineage services s.store.claims := by
  have hstart : Lineage services db.claims := hclaims ▸ lineage_empty
  have hidle : Pool.Kept (perform services) (fun _ _ => True) (fun db => Lineage services db.claims)
      (fun _ _ _ => True) (fun _ q _ => q.HandsOn services) (fun _ _ _ => True) (idle db) :=
    Pool.Kept.idle hstart
  have hkept := hrun.invariant (I := fun p => Pool.Kept (perform services) (fun _ _ => True)
      (fun db => Lineage services db.claims) (fun _ _ _ => True) (fun _ q _ => q.HandsOn services)
      (fun _ _ _ => True) p)
    (C := fun _ => True) hidle (fun _ _ => trivial)
    fun t hstep _ hpre => hpre.step (fun _ => trivial) (fun _ _ _ _ _ => trivial)
      (fun op db _ => handsOn_keeps services op db) (fun _ q db hI _ hq => ⟨trivial, hI.perform hq⟩) hstep
      fun _ _ _ => trivial
  exact hkept.store

end Runs
section Forest
variable {services : Services} {createdAt : ClaimId → Time} {claims : ClaimRows} {id : ClaimId}

def childrenOf (createdAt : ClaimId → Time) (claims : ClaimRows) (parentId : ClaimId) : List ClaimId :=
  (findChildren createdAt claims parentId).map (·.1)

theorem mem_findChildren {parentId : ClaimId} {row : ClaimId × Claim} : row ∈ findChildren createdAt claims parentId ↔
      claims[row.1]? = some row.2 ∧ row.2.reissuedFromId = some parentId := by
  rw [findChildren, mem_insertionSort, mem_filter, decide_eq_true_iff, ExtTreeMap.mem_toList_iff_getElem?_eq_some]

theorem nodup_keys (claims : ClaimRows) : (claims.toList.map (·.1)).Nodup := by
  rw [Nodup, pairwise_map]
  refine (ExtTreeMap.distinct_keys_toList (t := claims)).imp fun h heq => h ?_
  rw [heq]
  exact ReflCmp.compare_self

theorem Lineage.forest (h : Lineage services claims) : Forest (parentOf claims) (childrenOf createdAt claims) where
  mem_children := by
    intro a b
    rw [childrenOf, List.mem_map]
    constructor
    · rintro ⟨row, hrow, rfl⟩
      obtain ⟨hget, hparent⟩ := mem_findChildren.mp hrow
      rw [parentOf, hget]
      exact hparent
    · intro hparent
      obtain ⟨row, hget, hrow⟩ := bind_eq_some_iff.mp hparent
      exact ⟨(b, row), mem_findChildren.mpr ⟨hget, hrow⟩, rfl⟩
  once := by
    intro a
    have hsorted := (perm_insertionSort (fun x y : ClaimId × Claim => createdAt x.1 ≤ createdAt y.1)
      (claims.toList.filter (·.2.reissuedFromId = some a))).map (·.1)
    refine hsorted.nodup_iff.mpr ?_
    exact (nodup_keys claims).sublist (filter_sublist.map _)
  ranked := h.ranked
  finite := by
    refine ⟨claims.toList.map (·.1), fun a b hparent => ?_⟩
    obtain ⟨row, hget, -⟩ := bind_eq_some_iff.mp hparent
    exact mem_map.mpr ⟨(b, row), ExtTreeMap.mem_toList_iff_getElem?_eq_some.mpr hget, rfl⟩

theorem Lineage.findChainRoot (h : Lineage services claims) (start : ClaimId) :
    ∀ (fuel : ℕ) {id : ClaimId}, claims[id]? ≠ none →
      findChainRootFrom claims start fuel (findUnique claims id) = climb (parentOf claims) fuel id
  | 0, _, _ => rfl
  | fuel + 1, id, hid => by
    obtain ⟨row, hrow⟩ := ne_none_iff_exists'.mp hid
    have hcurrent : findUnique claims id = some (id, row) := by rw [findUnique, hrow, map_some]
    have hparent : parentOf claims id = row.reissuedFromId := by rw [parentOf, hrow, bind_some]
    rw [findChainRootFrom, climb, hcurrent, hparent, bind_some]
    cases hfrom : row.reissuedFromId with
    | none => rfl
    | some parentId =>
      exact h.findChainRoot start fuel (h.parents parentId id (hparent.trans hfrom))

theorem collectFrom_eq : ∀ (fuel : ℕ) (queue : List ClaimId) (results : List (ClaimId × Claim)),
      (∀ row ∈ results, claims[row.1]? = some row.2) →
      ∀ final, walk (childrenOf createdAt claims) fuel queue (results.map (·.1)) = some final →
        ∃ rows, collectFrom createdAt claims fuel queue results = some rows ∧ rows.map (·.1) = final ∧
          ∀ row ∈ rows, claims[row.1]? = some row.2
  | 0, _, _, _, _, h => by cases h
  | _ + 1, [], results, hrows, final, h => by
    cases h
    exact ⟨results, rfl, rfl, hrows⟩
  | fuel + 1, parentId :: queue, results, hrows, final, h => by
    rw [walk, childrenOf, ← map_append] at h
    refine collectFrom_eq fuel (queue ++ (findChildren createdAt claims parentId).map (·.1))
      (results ++ findChildren createdAt claims parentId) (fun row hrow => ?_) final h
    rcases mem_append.mp hrow with hold | hnew
    · exact hrows row hold
    · exact (mem_findChildren.mp hnew).1

theorem rows_eq_filterMap : ∀ rows : List (ClaimId × Claim), (∀ row ∈ rows, claims[row.1]? = some row.2) →
    rows = (rows.map (·.1)).filterMap (findUnique claims)
  | [], _ => rfl
  | row :: rows, hrows => by
    have hfound : findUnique claims row.1 = some row := by
      rw [findUnique, hrows row mem_cons_self, map_some]
    rw [map_cons, filterMap_cons_some hfound,
      ← rows_eq_filterMap rows fun row' hrow' => hrows row' (mem_cons_of_mem row hrow')]

end Forest
section Answer
variable {services : Services} {createdAt : ClaimId → Time} {claims : ClaimRows} {x y : ClaimId}

/-- The claims of the tree of `x`: each once and after the one it is reissued from, with its row. -/
structure History (services : Services) (claims : ClaimRows) (x : ClaimId)
    (history : List (ClaimId × Claim)) : Prop where
  members : ∀ y, y ∈ history.map (·.1) ↔ SameTree (parentOf claims) x y
  once : (history.map (·.1)).Nodup
  ordered : ∀ before y after, history.map (·.1) = before ++ y :: after →
    ∀ p, parentOf claims y = some p → p ∈ before
  rows : ∀ row ∈ history, ∃ stored, claims[row.1]? = some stored ∧
    services.decrypt stored.recipientRef = .ok row.2.recipientRef ∧
    row.2 = { stored with recipientRef := row.2.recipientRef }

theorem Lineage.mapM_readable (h : Lineage services claims)
    (hservices : ∀ text, services.decrypt (services.encrypt text) = .ok text) :
    ∀ chain : List (ClaimId × Claim), (∀ row ∈ chain, claims[row.1]? = some row.2) →
      ∃ history, chain.mapM (readable services) = .ok history ∧ history.map (·.1) = chain.map (·.1) ∧
        ∀ row ∈ history, ∃ stored, claims[row.1]? = some stored ∧
          services.decrypt stored.recipientRef = .ok row.2.recipientRef ∧
          row.2 = { stored with recipientRef := row.2.recipientRef }
  | [], _ => ⟨[], rfl, rfl, fun _ hrow => absurd hrow not_mem_nil⟩
  | row :: chain, hrows => by
    obtain ⟨history, hmap, hids, hhistory⟩ :=
      h.mapM_readable hservices chain fun row' hrow' => hrows row' (mem_cons_of_mem row hrow')
    have hget := hrows row mem_cons_self
    obtain ⟨text, htext⟩ := h.encrypted row.1 row.2 hget
    have hread : readable services row = .ok (row.1, { row.2 with recipientRef := text }) := by
      rw [readable, htext, hservices]
      rfl
    refine ⟨(row.1, { row.2 with recipientRef := text }) :: history, ?_, ?_, ?_⟩
    · rw [mapM_cons, hread, hmap]
      rfl
    · rw [map_cons, map_cons, hids]
    · intro row' hrow'
      rcases mem_cons.mp hrow' with rfl | hrow'
      · exact ⟨row.2, hget, by rw [htext]; exact hservices text, rfl⟩
      · exact hhistory row' hrow'

theorem Lineage.present (h : Lineage services claims) (hx : claims[x]? ≠ none)
    (hxy : SameTree (parentOf claims) x y) : claims[y]? ≠ none := by
  have hlinked : ∀ a b, parentOf claims b = some a → claims[b]? ≠ none := by
    intro a b hb hnone
    rw [parentOf, hnone] at hb
    cases hb
  have hiff : claims[x]? ≠ none ↔ claims[y]? ≠ none := by
    clear hx
    induction hxy with
    | rel a b hab => exact ⟨fun _ => hlinked a b hab, fun _ => h.parents a b hab⟩
    | refl a => exact Iff.rfl
    | symm a b _ ih => exact ih.symm
    | trans a b c _ _ ih ih' => exact ih.trans ih'
  exact hiff.mp hx

variable {db : Db} {s : System} {tr : List (Transition System (Turn Op))}

/-- In every run from an empty table of claims, whatever is created, cancelled and reissued and however the
calls overlap: there is one list that is the history of every claim of a tree, all its claims, each once and
after the one it replaces, and both loops come to an end with it. -/
theorem reissue_history (hservices : ∀ text, services.decrypt (services.encrypt text) = .ok text)
    (hclaims : db.claims = ∅) (hrun : Run (Step services) (idle db) tr s) (createdAt : ClaimId → Time)
    (hx : s.store.claims[x]? ≠ none) :
    ∃ history, History services s.store.claims x history ∧ ∀ y, SameTree (parentOf s.store.claims) x y →
      ∃ n, ∀ fuel, n ≤ fuel →
        getReissueHistory services createdAt s.store.claims fuel y = some (.ok history) := by
  have hlineage := lineage_of_run hclaims hrun
  generalize s.store.claims = claims at hlineage hx
  have hforest : Forest (parentOf claims) (childrenOf createdAt claims) := hlineage.forest
  obtain ⟨root, -, hroot, -⟩ := hforest.exists_root x
  obtain ⟨ids, n, hlists, hwalk⟩ := hforest.exists_walk hroot.top
  have hpresent : claims[root]? ≠ none := hlineage.present hx (.symm _ _ hroot.sameTree)
  obtain ⟨rootRow, hrootRow⟩ := ne_none_iff_exists'.mp hpresent
  have hfound : findUnique claims root = some (root, rootRow) := by
    rw [findUnique, hrootRow, map_some]
  have hcollect : ∀ fuel, n ≤ fuel → ∃ chain, collectChain createdAt claims fuel root = some chain ∧
      chain.map (·.1) = ids ∧ ∀ row ∈ chain, claims[row.1]? = some row.2 := by
    intro fuel hfuel
    rw [collectChain, hfound]
    refine collectFrom_eq fuel [root] [(root, rootRow)] (fun row hrow => ?_) ids (hwalk fuel hfuel)
    rw [mem_singleton.mp hrow]
    exact hrootRow
  obtain ⟨chain, hchain, hchainIds, hchainRows⟩ := hcollect n (Nat.le_refl n)
  obtain ⟨history, hmap, hids, hrows⟩ := hlineage.mapM_readable hservices chain hchainRows
  have hhistoryIds : history.map (·.1) = ids := hids.trans hchainIds
  refine ⟨history, ⟨fun y => ?_, ?_, ?_, hrows⟩, fun y hxy => ?_⟩
  · rw [hhistoryIds, hlists.mem, hroot.sameTree_iff]
  · rw [hhistoryIds]
    exact hlists.nodup
  · rw [hhistoryIds]
    exact hlists.ordered
  · obtain ⟨root', m, hroot', hclimb⟩ := hforest.exists_root y
    have heq : root' = root := hroot'.unique (hroot.of_sameTree hxy)
    rw [heq] at hclimb
    have hy := hlineage.present hx hxy
    obtain ⟨row, hrow⟩ := ne_none_iff_exists'.mp hy
    refine ⟨max n m, fun fuel hfuel => ?_⟩
    have hroot : findChainRoot claims fuel y = some root := by
      rw [findChainRoot, hlineage.findChainRoot y fuel hy]
      exact hclimb fuel ((Nat.le_max_right n m).trans hfuel)
    obtain ⟨chain', hchain', hchainIds', hchainRows'⟩ := hcollect fuel ((Nat.le_max_left n m).trans hfuel)
    -- the rows of the two walks are the same, as their ids are
    have hsame : chain' = chain := by
      rw [rows_eq_filterMap chain' hchainRows', rows_eq_filterMap chain hchainRows, hchainIds', hchainIds]
    rw [getReissueHistory, hrow, filter_some,
      if_pos (by rw [hlineage.kept y row hrow]; rfl)]
    simp only [hroot, hchain', hsame, hmap, bind_eq_bind, bind_some]
    rfl

end Answer

def reissuedTwice : List (Turn Op) :=
  [.start (.create claimOf40 7 0), .advance 0, .advance 0,
    .start (.reissue 7 { operatorId := "op1" } 8 0), .start (.reissue 7 { operatorId := "op2" } 9 0),
    .advance 1, .advance 2, .advance 1, .advance 2]

theorem reissue_history_reissuedTwice :
    ∃ history, History plainServices (played fundedDb reissuedTwice).2.store.claims 8 history ∧
      ∀ y, SameTree (parentOf (played fundedDb reissuedTwice).2.store.claims) 8 y →
        ∃ n, ∀ fuel, n ≤ fuel → getReissueHistory plainServices (fun id => id)
          (played fundedDb reissuedTwice).2.store.claims fuel y = some (.ok history) :=
  reissue_history (fun _ => rfl) rfl (played_run fundedDb reissuedTwice) (fun id => id) (by decide +kernel)

/-- The claim and its two replacements, from each of the three. -/
example : [7, 8, 9].map (fun id => ((getReissueHistory plainServices (fun id => id)
    (played fundedDb reissuedTwice).2.store.claims 5 id).bind (·.toOption)).map (·.map (·.1))) =
      [some [7, 8, 9], some [7, 8, 9], some [7, 8, 9]] := by
  decide +kernel

end Soter.Claims
