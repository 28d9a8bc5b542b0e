import Soter.AidEscrow.Paths

/-! Batch creation against the same packages created one at a time. -/
namespace Soter.AidEscrow
open Std Soter.Fallible Soter.MapSum Soter.Runs List BatchLoop

variable {τ : Type} {H : Host τ} {signers : List Address} {w w' u u' : World τ} {a : Act}

def LockedNonneg (b : Books) : Prop := (∀ t, 0 ≤ b.locked t) ∧ ∀ c t, 0 ≤ b.campaignLocked c t

theorem floorSub_nonneg (current amount : ℤ) : 0 ≤ floorSub current amount := by
  unfold floorSub
  split <;> omega

theorem LockedNonneg.lock {b : Books} {p : Package} (h : LockedNonneg b) (hp : 0 < p.amount) :
    LockedNonneg (b.lock p) := by
  constructor
  · intro t
    have hold := h.1 t
    simp only [Books.lock]
    split <;> omega
  · intro c t
    have hold := h.2 c t
    simp only [Books.lock]
    split <;> omega

theorem LockedNonneg.unlock {b : Books} (h : LockedNonneg b) (p : Package) : LockedNonneg (b.unlock p) := by
  constructor
  · intro t
    simp only [Books.unlock]
    split
    · exact floorSub_nonneg _ _
    · exact h.1 t
  · intro c t
    simp only [Books.unlock]
    split
    · exact floorSub_nonneg _ _
    · exact h.2 c t

theorem Atom.lockedNonneg (h : Atom H w a w') (hw : WellFormed w)
    (hI : LockedNonneg w.totals.books) : LockedNonneg w'.totals.books := by
  cases h with
  | settings | fund | propose | withdrawProposal | execute | setDelegate | clearDelegate
  | dropDelegate | tick | outside | refundCancelled | reassign | extend | attach => exact hI
  | backfill _ h =>
    obtain ⟨totals, rfl, hbooks⟩ := backfill_books hw h
    rw [hbooks]
    exact ⟨hI.1, fun c t => sumIf_nonneg hw.amount_pos⟩
  | note hbooks =>
    rw [← hbooks] at hI
    exact hI
  | @create p _ totals _ _ _ _ hamount _ _ _ _ hbooks =>
    have hlock : LockedNonneg totals.books := hbooks ▸ hI.lock hamount
    exact hlock
  | @claim _ _ p _ totals _ hp _ _ _ _ _ _ htotals =>
    have hbooks := settleClaim_books (hw.amount_pos _ _ hp) htotals
    have hunlock : LockedNonneg totals.books := hbooks ▸ hI.unlock p
    exact hunlock
  | @disburse _ p _ totals _ hp _ _ _ htotals | @cancel _ p totals _ hp _ htotals
  | @expire _ p totals _ hp _ _ _ htotals | @refundLocked _ p _ _ totals _ hp _ _ _ _ htotals =>
    have hbooks := decrementLocked_books (hw.amount_pos _ _ hp) htotals
    have hunlock : LockedNonneg totals.books := hbooks ▸ hI.unlock p
    exact hunlock

theorem Reaches.lockedNonneg {tr : Trace τ} (h : Reaches H tr w) : LockedNonneg w.totals.books := by
  apply h.invariant (I := fun u => LockedNonneg u.totals.books)
  · intro now tokens
    constructor
    · intro t
      simp [World.deployed, Totals.books]
    · intro c t
      simp [World.deployed, Totals.books]
  · intro u a v hu hatom hI
    exact hatom.lockedNonneg hu hI

variable {config : Config} {s' s : BatchLoop τ} {expiresAt createdAt : ℕ} {balance unit : ℤ} {operator token : Address}
  {item : Address × ℤ × Metadata}
section Loop
variable {items : List (Address × ℤ × Metadata)}

structure ItemAdmits (config : Config) (unit : ℤ) (createdAt expiresAt : ℕ)
    (item : Address × ℤ × Metadata) : Prop where
  start : ∃ claimStartsAt, resolveClaimStartsAt item.2.2 createdAt = .ok claimStartsAt ∧
    claimStartsAt ≤ expiresAt
  amount_pos : 0 < item.2.1
  amount_fits : ¬ (item.2.1 < config.minAmount ∨ item.2.1.tmod unit ≠ 0)

def sumAmounts (items : List (Address × ℤ × Metadata)) : ℤ := (items.map fun i => i.2.1).sum

def sumTagged (c : Text) (items : List (Address × ℤ × Metadata)) : ℤ :=
  (items.map fun i => campaignShare i.2.2 i.2.1 c).sum

structure BatchLoop.Bounded (s : BatchLoop τ) : Prop where
  total_nonneg : 0 ≤ s.totalAmount
  total_le : s.totalAmount ≤ s.currentLocked
  delta_nonneg : ∀ c : Text, (0 : ℤ) ≤ s.campaignLockedDeltas[c]?.getD 0
  delta_le : ∀ c : Text, s.campaignLockedDeltas[c]?.getD 0 ≤ s.totalAmount

theorem campaignShare_bounds (metadata : Metadata) {amount : ℤ} (h : 0 < amount) (c : Text) :
    0 ≤ campaignShare metadata amount c ∧ campaignShare metadata amount c ≤ amount := by
  unfold campaignShare
  split <;> omega

theorem sumAmounts_nonneg (h : ∀ i ∈ items, 0 < i.2.1) : 0 ≤ sumAmounts items := by
  apply sum_nonneg
  intro x hx
  obtain ⟨i, hi, rfl⟩ := mem_map.mp hx
  exact (h i hi).le

theorem BatchLoop.Bounded.step (hs : s.Bounded)
    (h : batchCreateOne operator token config unit balance createdAt expiresAt s item = .ok s') :
    s'.Bounded := by
  obtain ⟨_, -, -, hamount, -, -, -, -, -, -, deltas, hdeltas, rfl⟩ := batchCreateOne_eq_ok.mp h
  have hsum := addCampaignDelta_amount hdeltas
  have htotal := hs.total_nonneg
  have hle := hs.total_le
  refine ⟨?_, ?_, fun c => ?_, fun c => ?_⟩
  · exact (add_pos_of_nonneg_of_pos htotal hamount).le
  · exact add_le_add_left hle _
  · have hold := hs.delta_nonneg c
    have hshare := (campaignShare_bounds item.2.2 hamount c).1
    exact (hsum c).symm ▸ add_nonneg hold hshare
  · have hold := hs.delta_le c
    have hshare := (campaignShare_bounds item.2.2 hamount c).2
    exact (hsum c).symm ▸ add_le_add hold hshare

theorem batchCreateOne_iff (hs : s.Bounded) :
    (∃ s', batchCreateOne operator token config unit balance createdAt expiresAt s item = .ok s') ↔
      ItemAdmits config unit createdAt expiresAt item ∧ s.currentLocked + item.2.1 < 2 ^ 127 ∧
        s.currentLocked + item.2.1 ≤ balance ∧ s.counter + 1 < 2 ^ 64 ∧ s.idx + 1 < 2 ^ 64 := by
  simp only [batchCreateOne_eq_ok]
  constructor
  · rintro ⟨_, start, hstart, hwindow, hamount, hunit, hrange, hfunds, hcounter, hidx, -⟩
    exact ⟨⟨⟨start, hstart, hwindow⟩, hamount, hunit⟩, hrange.2, hfunds, hcounter, hidx⟩
  · rintro ⟨⟨⟨start, hstart, hwindow⟩, hamount, hunit⟩, hrange, hfunds, hcounter, hidx⟩
    have htotal := hs.total_nonneg
    have hle := hs.total_le
    have hdelta : ∃ deltas,
        addCampaignDelta s.campaignLockedDeltas item.2.2 item.2.1 = .ok deltas := by
      unfold addCampaignDelta
      split
      · exact ⟨_, rfl⟩
      · rename_i ref _
        have hold := hs.delta_nonneg ref
        have hold' := hs.delta_le ref
        rw [show addI128 (s.campaignLockedDeltas[ref]?.getD 0) item.2.1 = .ok _ from
          addI128_eq_ok.mpr ⟨by omega, rfl⟩]
        exact ⟨_, rfl⟩
    obtain ⟨deltas, hdeltas⟩ := hdelta
    exact ⟨_, start, hstart, hwindow, hamount, hunit, by omega, hfunds, hcounter, hidx, by omega, deltas, hdeltas, rfl⟩

theorem batchLoop_iff : ∀ (items : List (Address × ℤ × Metadata)) (s : BatchLoop τ), s.Bounded →
    ((∃ s', items.foldlM (batchCreateOne operator token config unit balance createdAt expiresAt) s = .ok s') ↔
      (∀ i ∈ items, ItemAdmits config unit createdAt expiresAt i) ∧ (items ≠ [] →
        s.currentLocked + sumAmounts items < 2 ^ 127 ∧ s.currentLocked + sumAmounts items ≤ balance ∧
        s.counter + items.length < 2 ^ 64 ∧ s.idx + items.length < 2 ^ 64))
  | [], s, _ => by
    refine iff_of_true ⟨s, rfl⟩ ⟨by simp, fun h => absurd rfl h⟩
  | item :: rest, s, hs => by
    simp only [foldlM_cons, bind_eq_ok]
    have hsum : sumAmounts (item :: rest) = item.2.1 + sumAmounts rest := sum_cons
    have hlen : (item :: rest).length = rest.length + 1 := rfl
    constructor
    -- the sums of the rest start from what this item has added
    · rintro ⟨s2, s1, h1, h2⟩
      obtain ⟨hitem, hrange, hfunds, hcounter, hidx⟩ := (batchCreateOne_iff hs).mp ⟨s1, h1⟩
      obtain ⟨hrest, hsums⟩ := (batchLoop_iff rest s1 (hs.step h1)).mp ⟨s2, h2⟩
      obtain ⟨_, -, -, -, -, -, -, -, -, -, deltas, -, rfl⟩ := batchCreateOne_eq_ok.mp h1
      refine ⟨?_, fun _ => ?_⟩
      · intro i hi
        rcases mem_cons.mp hi with rfl | hi
        · exact hitem
        · exact hrest i hi
      · rw [hsum, hlen]
        rcases eq_nil_or_concat rest with rfl | ⟨_, _, hne⟩
        · have hzero : sumAmounts [] = 0 := rfl
          rw [hzero, add_zero]
          exact ⟨hrange, hfunds, hcounter, hidx⟩
        · obtain ⟨h1, h2, h3, h4⟩ := hsums (by rw [hne]; simp)
          simp only at h1 h2 h3 h4
          refine ⟨?_, ?_, ?_, ?_⟩ <;> omega
    · rintro ⟨hall, hsums⟩
      obtain ⟨hrange, hfunds, hcounter, hidx⟩ := hsums (cons_ne_nil _ _)
      rw [hsum, hlen] at *
      -- amounts are positive, so a prefix fits where the whole does
      have hrest : 0 ≤ sumAmounts rest :=
        sumAmounts_nonneg fun i hi => (hall i (mem_cons_of_mem item hi)).amount_pos
      have hone : ∃ s1, batchCreateOne operator token config unit balance createdAt expiresAt s
          item = .ok s1 := (batchCreateOne_iff hs).mpr
        ⟨hall item mem_cons_self, by omega, by omega, by omega, by omega⟩
      obtain ⟨s1, h1⟩ := hone
      have hs1 := hs.step h1
      obtain ⟨_, -, -, -, -, -, -, -, -, -, deltas, -, rfl⟩ := batchCreateOne_eq_ok.mp h1
      obtain ⟨s2, h2⟩ := (batchLoop_iff rest _ hs1).mpr ⟨fun i hi => hall i (mem_cons_of_mem item hi), fun _ =>
          ⟨by simp only; omega, by simp only; omega, by simp only; omega, by simp only; omega⟩⟩
      exact ⟨s2, _, h1, h2⟩

theorem addCampaignDelta_mem {deltas deltas' : ExtTreeMap Text ℤ} {metadata : Metadata} {amount : ℤ}
    (h : addCampaignDelta deltas metadata amount = .ok deltas') (c : Text) :
    c ∈ deltas' ↔ c ∈ deltas ∨ campaignRefFromMetadata metadata = some c := by
  unfold addCampaignDelta at h
  rcases Option.eq_none_or_eq_some (campaignRefFromMetadata metadata) with href | ⟨ref, href⟩
  · simp only [href, Except.ok.injEq] at h
    simp [href, ← h]
  · simp only [href, bind_eq_ok, pure_eq_ok] at h
    obtain ⟨sum, -, rfl⟩ := h
    simp only [ExtTreeMap.mem_insert, LawfulEqCmp.compare_eq_iff_eq, href, Option.some.injEq]
    exact or_comm

theorem batchLoop_deltas : ∀ (items : List (Address × ℤ × Metadata)) (s s' : BatchLoop τ),
    items.foldlM (batchCreateOne operator token config unit balance createdAt expiresAt) s = .ok s' → ∀ c : Text,
    s'.campaignLockedDeltas[c]?.getD 0 = s.campaignLockedDeltas[c]?.getD 0 + sumTagged c items ∧
      (c ∈ s'.campaignLockedDeltas ↔ c ∈ s.campaignLockedDeltas ∨ ∃ i ∈ items, campaignRefFromMetadata i.2.2 = some c)
  | [], s, s', h, c => by
    cases h
    simp [sumTagged]
  | item :: rest, s, s', h, c => by
    simp only [foldlM_cons, bind_eq_ok] at h
    obtain ⟨s1, h1, h2⟩ := h
    obtain ⟨hsum, hmem⟩ := batchLoop_deltas rest s1 s' h2 c
    obtain ⟨_, -, -, -, -, -, -, -, -, -, deltas, hdeltas, rfl⟩ := batchCreateOne_eq_ok.mp h1
    have htagged : sumTagged c (item :: rest) =
        campaignShare item.2.2 item.2.1 c + sumTagged c rest := sum_cons
    rw [hsum, hmem, htagged, addCampaignDelta_amount hdeltas c, addCampaignDelta_mem hdeltas c]
    refine ⟨add_assoc _ _ _, ?_⟩
    simp only [mem_cons, exists_eq_or_imp, or_assoc]

def DeltaRoom (w : World τ) (token : Address) (s : BatchLoop τ) : Prop :=
  ∀ c ∈ s.campaignLockedDeltas, campaignAmountOf w.totals.campaignLocked c token +
    s.campaignLockedDeltas[c]?.getD 0 < 2 ^ 127

theorem applyDeltas_iff (token : Address) {delta : Text → ℤ} (hdelta : ∀ c, 0 ≤ delta c) :
    ∀ (cs : List Text) (m : CampaignTotals), (∀ c, 0 ≤ campaignAmountOf m c token) → cs.Nodup →
      ((∃ m', cs.foldlM (fun m c => applyNestedDelta m c token (delta c)) m = .ok m') ↔
        ∀ c ∈ cs, campaignAmountOf m c token + delta c < 2 ^ 127)
  | [], m, _, _ => by
    refine iff_of_true ⟨m, rfl⟩ (by simp)
  | c₀ :: cs, m, hm, hnodup => by
    obtain ⟨hc₀, hnodup⟩ := nodup_cons.mp hnodup
    have hold := hm c₀
    have hpos := hdelta c₀
    simp only [foldlM_cons, bind_eq_ok, applyNestedDelta_eq_ok, mem_cons, forall_eq_or_imp]
    have hamount : ∀ c, campaignAmountOf (m.insert c₀ ((m[c₀]?.getD ∅).insert token
        (adjusted (campaignAmountOf m c₀ token) (delta c₀)))) c token =
        if c = c₀ then campaignAmountOf m c₀ token + delta c₀ else campaignAmountOf m c token := by
      intro c
      rw [campaignAmountOf_insert, adjusted, if_pos hpos]
      simp only [and_true]
    have ih := applyDeltas_iff token hdelta cs (m.insert c₀ ((m[c₀]?.getD ∅).insert token
      (adjusted (campaignAmountOf m c₀ token) (delta c₀)))) (fun c => by
        rw [hamount]
        split
        · omega
        · exact hm c) hnodup
    have hrest : (∀ c ∈ cs, campaignAmountOf (m.insert c₀ ((m[c₀]?.getD ∅).insert token
        (adjusted (campaignAmountOf m c₀ token) (delta c₀)))) c token + delta c < 2 ^ 127) ↔
        ∀ c ∈ cs, campaignAmountOf m c token + delta c < 2 ^ 127 := by
      refine forall₂_congr fun c hc => ?_
      rw [hamount, if_neg]
      rintro rfl
      exact hc₀ hc
    constructor
    · rintro ⟨m', m1, ⟨hrange, rfl⟩, h⟩
      exact ⟨(hrange hpos).2, hrest.mp (ih.mp ⟨m', h⟩)⟩
    · rintro ⟨hfirst, hothers⟩
      obtain ⟨m', h⟩ := ih.mpr (hrest.mpr hothers)
      exact ⟨m', _, ⟨fun _ => ⟨by omega, hfirst⟩, rfl⟩, h⟩

theorem applyDeltas_room (totals : Totals) (htotals : totals.campaignLocked = w.totals.campaignLocked)
    (hw : LockedNonneg w.totals.books) (hs : s.Bounded) :
    (∃ totals', applyCampaignLockedBatchDeltas totals token s.campaignLockedDeltas = .ok totals') ↔
      DeltaRoom w token s := by
  have hnodup : s.campaignLockedDeltas.keys.Nodup := by
    refine (ExtTreeMap.distinct_keys (t := s.campaignLockedDeltas)).imp fun hne he => hne ?_
    exact he ▸ ReflCmp.compare_self
  have hiff := applyDeltas_iff token hs.delta_nonneg s.campaignLockedDeltas.keys
    w.totals.campaignLocked (fun c => hw.2 c token) hnodup
  unfold applyCampaignLockedBatchDeltas DeltaRoom
  simp only [ExtTreeMap.mem_keys] at hiff
  rw [← hiff]
  split
  · rename_i hempty
    refine iff_of_true ⟨_, rfl⟩ ?_
    rw [ExtTreeMap.isEmpty_iff.mp hempty]
    exact ⟨_, rfl⟩
  · simp only [bind_eq_ok, pure_eq_ok, htotals]
    constructor
    · rintro ⟨_, m, hm, -⟩
      exact ⟨m, hm⟩
    · rintro ⟨m, hm⟩
      exact ⟨_, m, hm, rfl⟩

end Loop

def createEach (H : Host τ) (signers : List Address) (operator token : Address) (expiresAt : ℕ) :
    World τ → ℕ → List (Address × ℤ × Metadata) → Result (World τ)
  | w, _, [] => .ok w
  | w, id, item :: rest => do
    let w ← createPackage H signers w operator id item.1 item.2.1 token expiresAt item.2.2
    createEach H signers operator token expiresAt w (id + 1) rest

variable {expiresIn : ℕ}
section Single
variable {decimals : ℕ}

structure CallAdmits (H : Host τ) (signers : List Address) (w : World τ) (operator token : Address)
    (expiresIn decimals : ℕ) (balance : ℤ) : Prop where
  unpaused : checkActionPaused w "create" = .ok ()
  operates : Operates signers w operator
  allowed : (getConfig w).allowedTokens = [] ∨ token ∈ (getConfig w).allowedTokens
  expiry : (getConfig w).maxExpiresIn = 0 ∨
    ¬ (expiresIn = 0 ∨ (getConfig w).maxExpiresIn < expiresIn)
  decimals : validateToken H w token = .ok decimals
  balance : H.balance w.tokens token H.contract = some balance

def StartsInTime (now : ℕ) (metadata : Metadata) : Prop :=
  ∀ start, resolveClaimStartsAt metadata now = .ok start → now ≤ start

theorem CallAdmits.of_tracks (h : s.Tracks w token u) : CallAdmits H signers u operator token expiresIn decimals balance ↔
      CallAdmits H signers w operator token expiresIn decimals balance := by
  have hsettings := h.settings
  have htokens := h.tokens
  have hconfig : getConfig u = getConfig w := by
    simp only [getConfig, hsettings]
  have hoperates : Operates signers u operator ↔ Operates signers w operator := by
    simp only [Operates, isDistributor, hsettings]
  have hvalidate : validateToken H u token = validateToken H w token := by
    simp only [validateToken, htokens]
  constructor <;> rintro ⟨h1, h2, h3, h4, h5, h6⟩
  · rw [checkActionPaused_settings hsettings] at h1
    rw [hconfig] at h3 h4
    exact ⟨h1, hoperates.mp h2, h3, h4, hvalidate ▸ h5, htokens ▸ h6⟩
  · rw [← checkActionPaused_settings hsettings] at h1
    rw [← hconfig] at h3 h4
    exact ⟨h1, hoperates.mpr h2, h3, h4, hvalidate ▸ h5, htokens ▸ h6⟩

theorem createPackage_callAdmits {recipient : Address} {id : ℕ} {amount : ℤ} {metadata : Metadata}
    (h : createPackage H signers w operator id recipient amount token (w.now + expiresIn) metadata =
      .ok w') : ∃ decimals balance, CallAdmits H signers w operator token expiresIn decimals balance := by
  obtain ⟨hpaused, hoperates, -, decimals, hdecimals, -, -, hallowed, hexpiry, -, balance, hbalance,
    -⟩ := createPackage_eq_ok.mp h
  refine ⟨decimals, balance, hpaused, hoperates, hallowed, hexpiry.imp_right fun hlater => ?_, hdecimals, hbalance⟩
  omega

theorem BatchLoop.Tracks.amounts (h : s.Tracks w token u) :
    amountOf u.totals.locked token = s.currentLocked ∧ ∀ c, campaignAmountOf u.totals.campaignLocked c token =
        campaignAmountOf w.totals.campaignLocked c token + s.campaignLockedDeltas[c]?.getD 0 := by
  have hlocked := congrFun (congrArg Books.locked h.books) token
  have hcampaign := congrArg Books.campaignLocked h.books
  refine ⟨hlocked.trans (if_pos rfl), fun c => ?_⟩
  have hc := congrFun (congrFun hcampaign c) token
  simp only [↓reduceIte] at hc
  exact hc

theorem deltaRoom_step (h : batchCreateOne operator token config unit balance createdAt expiresAt s item = .ok s') :
    DeltaRoom w token s' ↔ (∀ c ∈ s.campaignLockedDeltas, campaignAmountOf w.totals.campaignLocked c token +
          (s.campaignLockedDeltas[c]?.getD 0 + campaignShare item.2.2 item.2.1 c) < 2 ^ 127) ∧
      ∀ ref, campaignRefFromMetadata item.2.2 = some ref → campaignAmountOf w.totals.campaignLocked ref token +
          (s.campaignLockedDeltas[ref]?.getD 0 + item.2.1) < 2 ^ 127 := by
  obtain ⟨_, -, -, -, -, -, -, -, -, -, deltas, hdeltas, rfl⟩ := batchCreateOne_eq_ok.mp h
  simp only [DeltaRoom, addCampaignDelta_mem hdeltas, addCampaignDelta_amount hdeltas, or_imp, forall_and]
  refine and_congr_right fun _ => forall₂_congr fun ref href => ?_
  rw [campaignShare, if_pos href]

/-- A single creation is a pass of the loop, and one whose claim window does not start before the
package. -/
theorem createPackage_to_pass (hnow : 0 < w.now) (htracks : s.Tracks w token u) (hs : s.Bounded)
    (hroom : DeltaRoom w token s) (hcall : CallAdmits H signers w operator token expiresIn decimals balance)
    (h : createPackage H signers u operator s.counter item.1 item.2.1 token (w.now + expiresIn)
      item.2.2 = .ok u') : ∃ s', batchCreateOne operator token (getConfig w) (10 ^ decimals) balance w.now
        (w.now + expiresIn) s item = .ok s' ∧
      StartsInTime w.now item.2.2 ∧ DeltaRoom w token s' ∧ s'.Tracks w token u' := by
  have hcall' := (CallAdmits.of_tracks htracks).mpr hcall
  have hconfig : getConfig u = getConfig w := by
    simp only [getConfig, htracks.settings]
  have hstore := htracks.store
  obtain ⟨hlocked, hcampaign⟩ := htracks.amounts
  obtain ⟨-, -, hamount, decimals', hdecimals, hunit, hmin, -, -, -, balance', hbalance, hfunds,
    totals, htotals, start, hstart, hwindow, hcounter, hidx, rfl⟩ := createPackage_eq_ok.mp h
  obtain rfl := Except.ok.inj (hdecimals.symm.trans hcall'.decimals)
  obtain rfl := Option.some.inj (hbalance.symm.trans hcall'.balance)
  obtain ⟨hrange, m, hadjust, -⟩ := incrementLocked_spec htotals
  rw [htracks.now] at hstart hwindow
  rw [hconfig] at hmin
  rw [hlocked] at hfunds hrange
  rw [hstore] at hcounter hidx
  -- the loop reads the settings and the clock once, and the single creation finds the same ones
  have hitem : ItemAdmits (getConfig w) (10 ^ decimals') w.now (w.now + expiresIn) item :=
    ⟨⟨start, hstart, by omega⟩, hamount, by
      rintro (hless | hfraction)
      · omega
      · exact hfraction hunit⟩
  have hpass : ∃ s', batchCreateOne operator token (getConfig w) (10 ^ decimals') balance' w.now
      (w.now + expiresIn) s item = .ok s' := (batchCreateOne_iff hs).mpr
    ⟨hitem, hrange.2, hfunds, hcounter (Nat.le_refl _), hidx⟩
  obtain ⟨s', hs'⟩ := hpass
  -- the single creation writes the campaign total at once, so it had room
  have hfits := (adjustCampaign_pos
    (p := newPackage token u.now (w.now + expiresIn) start s.counter item) hamount).mp ⟨m, hadjust⟩
  refine ⟨s', hs', ?_, (deltaRoom_step hs').mpr ⟨?_, ?_⟩, ?_⟩
  · intro start' hstart'
    obtain rfl := Except.ok.inj (hstart.symm.trans hstart')
    omega
  · intro c hc
    by_cases href : campaignRefFromMetadata item.2.2 = some c
    · have hfit := (hfits c href).2
      change campaignAmountOf u.totals.campaignLocked c token + item.2.1 < 2 ^ 127 at hfit
      rw [hcampaign] at hfit
      rw [campaignShare, if_pos href]
      omega
    · rw [campaignShare, if_neg href, add_zero]
      exact hroom c hc
  · intro ref href
    have hfit := (hfits ref href).2
    change campaignAmountOf u.totals.campaignLocked ref token + item.2.1 < 2 ^ 127 at hfit
    rw [hcampaign] at hfit
    omega
  · have hbooks := incrementLocked_books
      (p := newPackage token u.now (w.now + expiresIn) start s.counter item) hamount htotals
    rw [htracks.now] at hbooks
    refine htracks.step hs' hstart ?_ hbooks rfl rfl rfl
    change u.store.add (newPackage token u.now _ _ _ _) = _
    rw [htracks.now]

/-- And a pass of the loop is a single creation, if the claim window starts in time and the
campaign has room at once. -/
theorem pass_to_createPackage (hnow : 0 < w.now) (hw : LockedNonneg w.totals.books)
    (htracks : s.Tracks w token u) (hs : s.Bounded)
    (hcall : CallAdmits H signers w operator token expiresIn decimals balance)
    (hpass : batchCreateOne operator token (getConfig w) (10 ^ decimals) balance w.now (w.now + expiresIn) s item = .ok s')
    (hstarts : StartsInTime w.now item.2.2) (hroom : DeltaRoom w token s') :
    ∃ u', createPackage H signers u operator s.counter item.1 item.2.1 token (w.now + expiresIn)
      item.2.2 = .ok u' := by
  have hcall' := (CallAdmits.of_tracks htracks).mpr hcall
  have hconfig : getConfig u = getConfig w := by
    simp only [getConfig, htracks.settings]
  have hstore := htracks.store
  obtain ⟨hlocked, hcampaign⟩ := htracks.amounts
  obtain ⟨⟨⟨start, hstart, hwindow⟩, hamount, hunit⟩, hrange, hfunds, hcounter, hidx⟩ :=
    (batchCreateOne_iff hs).mp ⟨s', hpass⟩
  have hfits := ((deltaRoom_step (w := w) hpass).mp hroom).2
  have hstarts := hstarts start hstart
  have htotal := hs.total_nonneg
  have hle := hs.total_le
  -- the loop puts the totals off; the single creation writes them now and needs their room now
  have hincrement : ∃ totals, incrementLocked u.totals token item.2.2 item.2.1 = .ok totals := by
    have hadjust := (adjustCampaign_pos (m := u.totals.campaignLocked)
      (p := newPackage token w.now (w.now + expiresIn) start s.counter item) hamount).mpr
      fun ref href => by
        have hfit := hfits ref href
        have hdelta := hs.delta_nonneg ref
        have hold : 0 ≤ campaignAmountOf w.totals.campaignLocked ref token := hw.2 ref token
        change FitsI128 (campaignAmountOf u.totals.campaignLocked ref token + item.2.1)
        rw [hcampaign]
        constructor <;> omega
    obtain ⟨m, hm⟩ := hadjust
    have hlockedRange : addI128 (amountOf u.totals.locked token) item.2.1 =
        .ok (amountOf u.totals.locked token + item.2.1) := by
      rw [hlocked]
      exact addI128_eq_ok.mpr ⟨⟨by omega, hrange⟩, rfl⟩
    simp only [incrementLocked, hlockedRange, ok_bind]
    exact ⟨_, by rw [show adjustCampaignTokenAmount u.totals.campaignLocked item.2.2 token item.2.1 = .ok m from hm]; rfl⟩
  obtain ⟨totals, htotals⟩ := hincrement
  have hfresh : u.store.packages[s.counter]? = none := by
    rw [hstore]
    cases hget : s.world.store.packages[s.counter]? with
    | none => rfl
    | some p => exact absurd (htracks.fresh _ p hget) (lt_irrefl _)
  -- what is left are the checks of the single creation, in its order
  refine ⟨_, createPackage_eq_ok.mpr ⟨hcall'.unpaused, hcall'.operates, hamount, decimals,
    hcall'.decimals, ?_, ?_, hcall'.allowed, ?_, hfresh, balance, hcall'.balance, ?_, totals,
    htotals, start, ?_, ?_, ?_, ?_, rfl⟩⟩
  · by_contra hne
    exact hunit (.inr hne)
  · rw [hconfig]
    by_contra hless
    exact hunit (.inl (Int.not_le.mp hless))
  · rw [hconfig, htracks.now]
    refine hcall.expiry.imp_right fun hexpiry => ?_
    omega
  · rw [hlocked]
    exact hfunds
  · rw [htracks.now]
    exact hstart
  · rw [htracks.now]
    omega
  · intro _
    exact hcounter
  · rw [hstore]
    exact hidx

theorem batchCreateOne_counter (h : batchCreateOne operator token config unit balance createdAt expiresAt s item = .ok s') :
    s'.counter = s.counter + 1 := by
  obtain ⟨_, -, -, -, -, -, -, -, -, -, deltas, -, rfl⟩ := batchCreateOne_eq_ok.mp h
  rfl

theorem DeltaRoom.of_loop {items : List (Address × ℤ × Metadata)} (hs : s.Bounded)
    (h : items.foldlM (batchCreateOne operator token config unit balance createdAt expiresAt) s =
      .ok s') (hroom : DeltaRoom w token s') : DeltaRoom w token s := by
  intro c hc
  obtain ⟨hsum, hmem⟩ := batchLoop_deltas items s s' h c
  have hadmits := ((batchLoop_iff items s hs).mp ⟨s', h⟩).1
  have hgrow : 0 ≤ sumTagged c items := by
    apply sum_nonneg
    intro x hx
    obtain ⟨i, hi, rfl⟩ := mem_map.mp hx
    exact (campaignShare_bounds i.2.2 (hadmits i hi).amount_pos c).1
  have hfits := hroom c (hmem.mpr (.inl hc))
  rw [hsum] at hfits
  omega

theorem createEach_to_loop (hnow : 0 < w.now) (hcall : CallAdmits H signers w operator token expiresIn decimals balance) :
    ∀ (items : List (Address × ℤ × Metadata)) (s : BatchLoop τ) (u u' : World τ),
      s.Tracks w token u → s.Bounded → DeltaRoom w token s →
      createEach H signers operator token (w.now + expiresIn) u s.counter items = .ok u' →
      ∃ s', items.foldlM (batchCreateOne operator token (getConfig w) (10 ^ decimals) balance w.now
          (w.now + expiresIn)) s = .ok s' ∧
        (∀ i ∈ items, StartsInTime w.now i.2.2) ∧ DeltaRoom w token s' ∧ s'.Tracks w token u'
  | [], s, u, u', htracks, _, hroom, h => by
    cases h
    exact ⟨s, rfl, by simp, hroom, htracks⟩
  | item :: rest, s, u, u', htracks, hs, hroom, h => by
    simp only [createEach, bind_eq_ok] at h
    obtain ⟨u1, h1, h2⟩ := h
    obtain ⟨s1, hpass, hstart, hroom1, htracks1⟩ :=
      createPackage_to_pass hnow htracks hs hroom hcall h1
    rw [← batchCreateOne_counter hpass] at h2
    obtain ⟨s2, hloop, hstarts, hroom2, htracks2⟩ :=
      createEach_to_loop hnow hcall rest s1 u1 u' htracks1 (hs.step hpass) hroom1 h2
    refine ⟨s2, by rw [foldlM_cons, hpass]; exact hloop, fun i hi => ?_, hroom2, htracks2⟩
    rcases mem_cons.mp hi with rfl | hi
    · exact hstart
    · exact hstarts i hi

theorem loop_to_createEach (hnow : 0 < w.now) (hw : LockedNonneg w.totals.books)
    (hcall : CallAdmits H signers w operator token expiresIn decimals balance) :
    ∀ (items : List (Address × ℤ × Metadata)) (s s' : BatchLoop τ) (u : World τ), s.Tracks w token u → s.Bounded →
      items.foldlM (batchCreateOne operator token (getConfig w) (10 ^ decimals) balance w.now
        (w.now + expiresIn)) s = .ok s' → (∀ i ∈ items, StartsInTime w.now i.2.2) → DeltaRoom w token s' →
      ∃ u', createEach H signers operator token (w.now + expiresIn) u s.counter items = .ok u'
  | [], s, s', u, _, _, _, _, _ => ⟨u, rfl⟩
  | item :: rest, s, s', u, htracks, hs, h, hstarts, hroom => by
    simp only [foldlM_cons, bind_eq_ok] at h
    obtain ⟨s1, hpass, hloop⟩ := h
    have hs1 := hs.step hpass
    have hpositive := ((batchCreateOne_iff hs).mp ⟨s1, hpass⟩).1.amount_pos
    have hroom1 := DeltaRoom.of_loop hs1 hloop hroom
    have hstart := hstarts item mem_cons_self
    obtain ⟨u1, h1⟩ := pass_to_createPackage hnow hw htracks hs hcall hpass hstart hroom1
    have hroom0 : DeltaRoom w token s := fun c hc =>
      Int.lt_of_le_of_lt (by
        have hgrow := (campaignShare_bounds item.2.2 hpositive c).1
        omega) (((deltaRoom_step hpass).mp hroom1).1 c hc)
    obtain ⟨s1', hpass', -, -, htracks1⟩ := createPackage_to_pass hnow htracks hs hroom0 hcall h1
    obtain rfl := Except.ok.inj (hpass.symm.trans hpass')
    obtain ⟨u', h2⟩ := loop_to_createEach hnow hw hcall rest s1 s' u1 htracks1 hs1 hloop
      (fun i hi => hstarts i (mem_cons_of_mem item hi)) hroom
    rw [batchCreateOne_counter hpass] at h2
    exact ⟨u', by rw [createEach, h1]; exact h2⟩

end Single
section Batch
variable {recipients : List Address} {amounts : List ℤ} {metadatas : List Metadata}

theorem start_bounded (hw : LockedNonneg w.totals.books) (token : Address) : (start w token).Bounded := by
  refine ⟨Int.le_refl 0, hw.1 token, fun c => ?_, fun c => ?_⟩ <;> simp [start]

/-- All that a batch checks, on the ledger before it: the amounts by themselves and their sums. -/
structure BatchAdmits (H : Host τ) (signers : List Address) (w : World τ) (operator : Address)
    (token : Address) (expiresIn : ℕ) (items : List (Address × ℤ × Metadata)) : Prop where
  call : ∃ decimals balance, CallAdmits H signers w operator token expiresIn decimals balance ∧
    (∀ i ∈ items, ItemAdmits (getConfig w) (10 ^ decimals) w.now (w.now + expiresIn) i) ∧
    getTotalLocked w token + sumAmounts items ≤ balance
  locked_fits : getTotalLocked w token + sumAmounts items < 2 ^ 127
  campaign_fits : ∀ c, (∃ i ∈ items, campaignRefFromMetadata i.2.2 = some c) →
    getCampaignTokenLocked w c token + sumTagged c items < 2 ^ 127
  ids_fit : w.store.pkgCounter + items.length < 2 ^ 64
  index_fits : w.store.pkgIdx + items.length < 2 ^ 64

theorem batchCreatePackages_spec (hw : LockedNonneg w.totals.books) {ids : List ℕ}
    (h : batchCreatePackages H signers w operator recipients amounts token expiresIn metadatas = .ok (w', ids)) :
    ∃ decimals balance, CallAdmits H signers w operator token expiresIn decimals balance ∧
      ∃ s, (recipients.zip (amounts.zip metadatas)).foldlM (batchCreateOne operator token
          (getConfig w) (10 ^ decimals) balance w.now (w.now + expiresIn))
          (start w token) = .ok s ∧
        DeltaRoom w token s ∧
        w'.store = { s.world.store with pkgCounter := s.counter, pkgIdx := s.idx } ∧
        w'.totals.books = { w.totals.books with
          locked := fun t => if t = token then s.currentLocked else w.totals.books.locked t
          campaignLocked := fun c t => w.totals.books.campaignLocked c t +
            if t = token then s.campaignLockedDeltas[c]?.getD 0 else 0 } := by
  simp only [batchCreatePackages, bind_eq_ok, pure_eq_ok, require_eq_ok, exists_unit,
    tokenBalance_eq_ok, requireAdminOrDistributor_eq_ok, addU64_eq_ok] at h
  obtain ⟨hpaused, hoperates, -, hallowed, hexpiry, decimals, hdecimals, balance, hbalance, _,
    ⟨-, rfl⟩, s, hloop, totals', htotals', hout⟩ := h
  cases hout
  have hcall : CallAdmits H signers w operator token expiresIn decimals balance :=
    ⟨hpaused, hoperates, hallowed, hexpiry, hdecimals, hbalance⟩
  have hbounded : s.Bounded := foldlM_preserves (P := Bounded)
    (fun _ _ _ hs hone => hs.step hone) _ _ _ (start_bounded hw token) hloop
  have hroom := (applyDeltas_room (w := w)
    { w.totals with locked := w.totals.locked.insert token s.currentLocked } rfl hw hbounded).mp
    ⟨totals', htotals'⟩
  have hbooks := applyCampaignLockedBatchDeltas_spec hbounded.delta_nonneg htotals'
  refine ⟨decimals, balance, hcall, s, hloop, hroom, rfl, ?_⟩
  refine hbooks.trans ?_
  ext1
  · funext t
    simp only [Totals.books, amountOf_insert]
  · rfl
  · rfl
  · rfl

theorem batchCreatePackages_of_loop (hw : LockedNonneg w.totals.books)
    (hlengths : recipients.length = amounts.length ∧ recipients.length = metadatas.length)
    (hlast : w.now + expiresIn < 2 ^ 64) {decimals : ℕ} {balance : ℤ} {s : BatchLoop τ}
    (hcall : CallAdmits H signers w operator token expiresIn decimals balance)
    (hloop : (recipients.zip (amounts.zip metadatas)).foldlM (batchCreateOne operator token
      (getConfig w) (10 ^ decimals) balance w.now (w.now + expiresIn)) (start w token) =
      .ok s) (hroom : DeltaRoom w token s) :
    ∃ out, batchCreatePackages H signers w operator recipients amounts token expiresIn metadatas = .ok out := by
  have hbounded : s.Bounded := foldlM_preserves (P := Bounded)
    (fun _ _ _ hs hone => hs.step hone) _ _ _ (start_bounded hw token) hloop
  obtain ⟨totals', htotals'⟩ := (applyDeltas_room
    { w.totals with locked := w.totals.locked.insert token s.currentLocked } rfl hw hbounded).mpr
    hroom
  simp only [batchCreatePackages, bind_eq_ok, pure_eq_ok, require_eq_ok, exists_unit,
    tokenBalance_eq_ok, requireAdminOrDistributor_eq_ok, addU64_eq_ok]
  exact ⟨_, hcall.unpaused, hcall.operates, hlengths, hcall.allowed, hcall.expiry, decimals,
    hcall.decimals, balance, hcall.balance, _, ⟨hlast, rfl⟩, s, hloop, totals', htotals', rfl⟩

theorem batchAdmits_iff (hw : LockedNonneg w.totals.books) {items : List (Address × ℤ × Metadata)} (hne : items ≠ []) :
    BatchAdmits H signers w operator token expiresIn items ↔
      ∃ decimals balance, CallAdmits H signers w operator token expiresIn decimals balance ∧
        ∃ s, items.foldlM (batchCreateOne operator token (getConfig w) (10 ^ decimals) balance w.now
          (w.now + expiresIn)) (start w token) = .ok s ∧ DeltaRoom w token s := by
  have hbounded := start_bounded hw token
  have hroom : ∀ s : BatchLoop τ, (∀ c : Text, s.campaignLockedDeltas[c]?.getD 0 = 0 + sumTagged c items ∧
        (c ∈ s.campaignLockedDeltas ↔ False ∨ ∃ i ∈ items, campaignRefFromMetadata i.2.2 = some c)) →
      (DeltaRoom w token s ↔ ∀ c, (∃ i ∈ items, campaignRefFromMetadata i.2.2 = some c) →
          getCampaignTokenLocked w c token + sumTagged c items < 2 ^ 127) := by
    intro s hs
    refine forall_congr' fun c => ?_
    rw [(hs c).1, (hs c).2, false_or, zero_add]
    rfl
  have hdeltas : ∀ (config : Config) (unit balance : ℤ) (s : BatchLoop τ),
      items.foldlM (batchCreateOne operator token config unit balance w.now (w.now + expiresIn))
        (start w token) = .ok s → ∀ c : Text,
      s.campaignLockedDeltas[c]?.getD 0 = 0 + sumTagged c items ∧ (c ∈ s.campaignLockedDeltas ↔ False ∨
          ∃ i ∈ items, campaignRefFromMetadata i.2.2 = some c) := by
    intro config unit balance s hloop c
    have hfinal := batchLoop_deltas items _ s hloop c
    simpa [start] using hfinal
  constructor
  · intro h
    obtain ⟨decimals, balance, hcall, hitems, hfunds⟩ := h.call
    have hex : ∃ s, items.foldlM (batchCreateOne operator token (getConfig w) (10 ^ decimals) balance
        w.now (w.now + expiresIn)) (start w token) = .ok s :=
      (batchLoop_iff items _ hbounded).mpr ⟨hitems, fun _ => ⟨h.locked_fits, hfunds, h.ids_fit, h.index_fits⟩⟩
    obtain ⟨s, hloop⟩ := hex
    exact ⟨decimals, balance, hcall, s, hloop, (hroom s (hdeltas _ _ _ s hloop)).mpr h.campaign_fits⟩
  · rintro ⟨decimals, balance, hcall, s, hloop, hs⟩
    obtain ⟨hitems, hsums⟩ := (batchLoop_iff items _ hbounded).mp ⟨s, hloop⟩
    obtain ⟨hlocked, hfunds, hids, hindex⟩ := hsums hne
    exact ⟨⟨decimals, balance, hcall, hitems, hfunds⟩, hlocked, (hroom s (hdeltas _ _ _ s hloop)).mp hs, hids, hindex⟩

theorem batchCreatePackages_iff (hw : LockedNonneg w.totals.books)
    (hlengths : recipients.length = amounts.length ∧ recipients.length = metadatas.length)
    (hlast : w.now + expiresIn < 2 ^ 64) (hne : recipients.zip (amounts.zip metadatas) ≠ []) :
    (∃ out, batchCreatePackages H signers w operator recipients amounts token expiresIn metadatas = .ok out) ↔
      BatchAdmits H signers w operator token expiresIn (recipients.zip (amounts.zip metadatas)) := by
  rw [batchAdmits_iff hw hne]
  constructor
  · rintro ⟨⟨w', ids⟩, hok⟩
    obtain ⟨decimals, balance, hcall, s, hloop, hroom, -⟩ := batchCreatePackages_spec hw hok
    exact ⟨decimals, balance, hcall, s, hloop, hroom⟩
  · rintro ⟨decimals, balance, hcall, s, hloop, hroom⟩
    exact batchCreatePackages_of_loop hw hlengths hlast hcall hloop hroom

/-- The batch and the single creations under the ids it would give out go through together, and
then leave the same packages, index, counters and locked totals. -/
def CreatesAlike (H : Host τ) (signers : List Address) (w : World τ) (operator : Address)
    (recipients : List Address) (amounts : List ℤ) (token : Address) (expiresIn : ℕ)
    (metadatas : List Metadata) : Prop :=
  let batch := batchCreatePackages H signers w operator recipients amounts token expiresIn metadatas
  let singles := createEach H signers operator token (w.now + expiresIn) w w.store.pkgCounter
    (recipients.zip (amounts.zip metadatas))
  ((∃ out, batch = .ok out) ↔ ∃ w', singles = .ok w') ∧
    ∀ w' ids w'', batch = .ok (w', ids) → singles = .ok w'' →
      w'.store = w''.store ∧ (∀ t, getTotalLocked w' t = getTotalLocked w'' t) ∧
      ∀ c t, getCampaignTokenLocked w' c t = getCampaignTokenLocked w'' c t

/-- In every reachable ledger, a batch is as good as single creations exactly if none of its claim
windows starts before the ledger time, or the batch fails one of its other checks anyway. -/
theorem batch_creates_alike {tr : Trace τ} (h : Reaches H tr w) (hnow : 0 < w.now) (hne : recipients ≠ [])
    (hlengths : recipients.length = amounts.length ∧ recipients.length = metadatas.length)
    (hlast : w.now + expiresIn < 2 ^ 64) :
    CreatesAlike H signers w operator recipients amounts token expiresIn metadatas ↔
      (∀ metadata ∈ metadatas, StartsInTime w.now metadata) ∨ ¬ BatchAdmits H signers w operator token expiresIn
          (recipients.zip (amounts.zip metadatas)) := by
  have hw := h.wellFormed
  have hnonneg := h.lockedNonneg
  have htracks := start_tracks (w := w) token hw.below
  have hbounded := start_bounded hnonneg token
  have hempty : DeltaRoom w token (start w token) := by
    intro c hc
    simp [start] at hc
  generalize hitems : recipients.zip (amounts.zip metadatas) = items
  have hcons : items ≠ [] := by
    intro hnil
    have hlen := congrArg length (hitems.trans hnil)
    simp only [length_zip, ← hlengths.1, ← hlengths.2, Nat.min_self, length_nil] at hlen
    exact hne (length_eq_zero_iff.mp hlen)
  have hstarts : (∀ metadata ∈ metadatas, StartsInTime w.now metadata) ↔
      ∀ i ∈ items, StartsInTime w.now i.2.2 := by
    have hmap : items.map (fun i => i.2.2) = metadatas := by
      rw [← hitems, show (fun i : Address × ℤ × Metadata => i.2.2) = Prod.snd ∘ Prod.snd from rfl,
        ← map_map, map_snd_zip (by simp [← hlengths.1, ← hlengths.2]),
        map_snd_zip (by omega)]
    rw [← hmap]
    simp only [mem_map, forall_exists_index, and_imp, forall_apply_eq_imp_iff₂]
  have hbatch : (∃ out, batchCreatePackages H signers w operator recipients amounts token expiresIn
      metadatas = .ok out) ↔ BatchAdmits H signers w operator token expiresIn items := by
    rw [← hitems] at hcons ⊢
    exact batchCreatePackages_iff hnonneg hlengths hlast hcons
  have hsingles : (∃ w', createEach H signers operator token (w.now + expiresIn) w
      w.store.pkgCounter items = .ok w') ↔
      BatchAdmits H signers w operator token expiresIn items ∧
        ∀ i ∈ items, StartsInTime w.now i.2.2 := by
    rw [batchAdmits_iff hnonneg hcons]
    constructor
    · rintro ⟨w', hok⟩
      -- The first creation makes the checks of the call.
      obtain ⟨item, rest, rfl⟩ := exists_cons_of_ne_nil hcons
      have hfirst := hok
      simp only [createEach, bind_eq_ok] at hfirst
      obtain ⟨w1, h1, -⟩ := hfirst
      obtain ⟨decimals, balance, hcall⟩ := createPackage_callAdmits h1
      obtain ⟨s, hloop, hin, hroom, -⟩ :=
        createEach_to_loop hnow hcall _ _ w w' htracks hbounded hempty hok
      exact ⟨⟨decimals, balance, hcall, s, hloop, hroom⟩, hin⟩
    · rintro ⟨⟨decimals, balance, hcall, s, hloop, hroom⟩, hin⟩
      exact loop_to_createEach hnow hnonneg hcall items _ s w htracks hbounded hloop hin hroom
  have hsame : ∀ w' ids w'',
      batchCreatePackages H signers w operator recipients amounts token expiresIn metadatas =
        .ok (w', ids) →
      createEach H signers operator token (w.now + expiresIn) w w.store.pkgCounter items = .ok w'' →
      w'.store = w''.store ∧ (∀ t, getTotalLocked w' t = getTotalLocked w'' t) ∧
        ∀ c t, getCampaignTokenLocked w' c t = getCampaignTokenLocked w'' c t := by
    intro w' ids w'' hok hok'
    obtain ⟨decimals, balance, hcall, s, hloop, -, hstore, hbooks⟩ :=
      batchCreatePackages_spec hnonneg hok
    rw [hitems] at hloop
    obtain ⟨s', hloop', -, -, htracks'⟩ :=
      createEach_to_loop hnow hcall _ _ w w'' htracks hbounded hempty hok'
    obtain rfl := Except.ok.inj (hloop.symm.trans hloop')
    have hbooks' := hbooks.trans htracks'.books.symm
    exact ⟨hstore.trans htracks'.store.symm,
      fun t => congrFun (congrArg Books.locked hbooks') t,
      fun c t => congrFun (congrFun (congrArg Books.campaignLocked hbooks') c) t⟩
  unfold CreatesAlike
  simp only [hitems]
  rw [hbatch, hsingles, hstarts, and_iff_left hsame]
  constructor
  · intro halike
    by_cases hadmits : BatchAdmits H signers w operator token expiresIn items
    · exact .inl (halike.mp hadmits).2
    · exact .inr hadmits
  · rintro (hin | hno)
    · exact ⟨fun hadmits => ⟨hadmits, hin⟩, And.left⟩
    · exact ⟨fun hadmits => absurd hadmits hno, fun hboth => absurd hboth.1 hno⟩

end Batch

def fundedContract : List (Move Balances) := [
  .call [] (.init ⟨1⟩),
  .call [⟨1⟩] (.fund ⟨9⟩ ⟨1⟩ 30)]

theorem batch_creates_alike_fundedContract : CreatesAlike (plainHost ⟨0⟩) [⟨1⟩]
        (played (plainHost ⟨0⟩) 100 [((⟨9⟩, ⟨1⟩), 100)] fundedContract).2 ⟨1⟩ [⟨2⟩, ⟨3⟩] [10, 5] ⟨9⟩ 50
        [(∅ : Metadata).insert metaCampaignRef [65],
          ((∅ : Metadata).insert metaCampaignRef [65]).insert metaClaimStartsAt [49, 50, 48]] ∧
      (batchCreatePackages (plainHost ⟨0⟩) [⟨1⟩]
        (played (plainHost ⟨0⟩) 100 [((⟨9⟩, ⟨1⟩), 100)] fundedContract).2 ⟨1⟩ [⟨2⟩, ⟨3⟩] [10, 5] ⟨9⟩ 50
        [(∅ : Metadata).insert metaCampaignRef [65],
          ((∅ : Metadata).insert metaCampaignRef [65]).insert metaClaimStartsAt
            [49, 50, 48]]).toOption.isSome = true := by
  refine ⟨(batch_creates_alike (played_reaches (H := plainHost ⟨0⟩) 100 [((⟨9⟩, ⟨1⟩), 100)]
    fundedContract) (by decide +kernel) (by simp) (by simp) (by decide +kernel)).mpr (.inl ?_),
    by decide +kernel⟩
  have hnow : (played (plainHost ⟨0⟩) 100 [((⟨9⟩, ⟨1⟩), 100)] fundedContract).2.now = 100 := by
    decide +kernel
  rw [hnow]
  intro metadata hmem start hstart
  rcases mem_pair.mp hmem with rfl | rfl
  · have hdefault : resolveClaimStartsAt ((∅ : Metadata).insert metaCampaignRef [65]) 100 = .ok 100 := by
      decide +kernel
    exact (Except.ok.inj (hdefault.symm.trans hstart)).le
  · have hlater : resolveClaimStartsAt (((∅ : Metadata).insert metaCampaignRef [65]).insert
        metaClaimStartsAt [49, 50, 48]) 100 = .ok 120 := by
      decide +kernel
    rw [← Except.ok.inj (hlater.symm.trans hstart)]
    decide

theorem fundedContract_not_alike : ∃ w : World Balances, Reaches (plainHost ⟨0⟩)
        (played (plainHost ⟨0⟩) 100 [((⟨9⟩, ⟨1⟩), 100)] fundedContract).1 w ∧ 0 < w.now ∧
      w.now + 50 < 2 ^ 64 ∧ ¬ CreatesAlike (plainHost ⟨0⟩) [⟨1⟩] w ⟨1⟩ [⟨2⟩] [10] ⟨9⟩ 50
        [(∅ : Metadata).insert metaClaimStartsAt [53]] := by
  refine ⟨_, played_reaches _ _ _, by decide +kernel, by decide +kernel, fun halike => ?_⟩
  generalize hw : (played (plainHost ⟨0⟩) 100 [((⟨9⟩, ⟨1⟩), 100)] fundedContract).2 = w at halike
  have hbatch : (batchCreatePackages (plainHost ⟨0⟩) [⟨1⟩] w ⟨1⟩ [⟨2⟩] [10] ⟨9⟩ 50
      [(∅ : Metadata).insert metaClaimStartsAt [53]]).toOption.isSome = true := by
    subst hw
    decide +kernel
  have hsingle : (createEach (plainHost ⟨0⟩) [⟨1⟩] ⟨1⟩ ⟨9⟩ (w.now + 50) w w.store.pkgCounter
      [(⟨2⟩, 10, (∅ : Metadata).insert metaClaimStartsAt [53])]).toOption.isSome = false := by
    subst hw
    decide +kernel
  have hboth := exists_ok_iff.mp (halike.1.mp (exists_ok_iff.mpr hbatch))
  exact absurd hboth (by simpa using hsingle)

end Soter.AidEscrow
