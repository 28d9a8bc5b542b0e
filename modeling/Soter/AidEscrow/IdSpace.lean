import Soter.AidEscrow.PackageIndex

/-! The id counter: how far the calls of a run have moved it, and what is left for a batch. -/
namespace Soter.AidEscrow
open Std Soter.Fallible Soter.Runs Soter.Listing

variable {τ : Type} {H : Host τ} {signers : List Address} {w w' : World τ} {a : Act} {m : Move τ}
  {operator token : Address} {recipients : List Address} {amounts : List ℤ} {expiresIn : ℕ} {metadatas : List Metadata}

/-- The id counter after a call that goes through: it stays above the ids that callers choose. -/
def Call.nextId (counter : ℕ) : Call → ℕ
  | .createPackage _ id _ _ _ _ _ => max counter (id + 1)
  | .batchCreatePackages _ recipients _ _ _ _ => counter + recipients.length
  | _ => counter

def Move.nextId (counter : ℕ) : Move τ → ℕ
  | .call _ c => c.nextId counter
  | _ => counter

/-- All ids from here on are free: the highest one chosen so far, and the batches after it, lie below. -/
def idsUsed (tr : Trace τ) : ℕ := tr.foldl (fun counter t => t.label.nextId counter) 0

structure BatchValid (H : Host τ) (signers : List Address) (w : World τ) (operator : Address)
    (recipients : List Address) (amounts : List ℤ) (token : Address) (expiresIn : ℕ) (metadatas : List Metadata) :
    Prop where
  lengths : recipients.length = amounts.length ∧ recipients.length = metadatas.length
  time_fits : w.now + expiresIn < 2 ^ 64
  call : ∃ decimals balance, CallAdmits H signers w operator token expiresIn decimals balance ∧
    (∀ i ∈ recipients.zip (amounts.zip metadatas),
      ItemAdmits (getConfig w) (10 ^ decimals) w.now (w.now + expiresIn) i) ∧
    getTotalLocked w token + sumAmounts (recipients.zip (amounts.zip metadatas)) ≤ balance
  locked_fits : getTotalLocked w token + sumAmounts (recipients.zip (amounts.zip metadatas)) < 2 ^ 127
  campaign_fits : ∀ c, (∃ i ∈ recipients.zip (amounts.zip metadatas), campaignRefFromMetadata i.2.2 = some c) →
    getCampaignTokenLocked w c token + sumTagged c (recipients.zip (amounts.zip metadatas)) < 2 ^ 127

theorem Atom.pkgCounter_kept (h : Atom H w a w') (ha : ∀ p, a ≠ .create p) :
    w'.store.pkgCounter = w.store.pkgCounter := by
  rcases h.store_cases with hs | ⟨p, hcreate, -⟩ | ⟨id, p, p', -, -, -, hs⟩
  · rw [hs]
  · exact absurd hcreate (ha p)
  · rw [hs]
    rfl

theorem Step.pkgCounter_kept (h : Step H w m w') (hw : WellFormed w) (hm : ∀ p, ¬ m.permits (.create p)) :
    w'.store.pkgCounter = w.store.pkgCounter := by
  apply h.invariant (I := fun u => u.store.pkgCounter = w.store.pkgCounter) hw rfl
  intro u a v hatom hpermits hu
  have hkind : ∀ p, a ≠ .create p := fun p ha => hm p (ha ▸ hpermits)
  exact (hatom.pkgCounter_kept hkind).trans hu

theorem batchLoop_counter {config : Config} {unit balance : ℤ} {createdAt expiresAt : ℕ}
    (items : List (Address × ℤ × Metadata)) : ∀ s s' : BatchLoop τ,
    items.foldlM (batchCreateOne operator token config unit balance createdAt expiresAt) s = .ok s' →
      s'.counter = s.counter + items.length := by
  induction items with
  | nil =>
    intro s s' h
    cases h
    rfl
  | cons item items ih =>
    intro s s' h
    simp only [List.foldlM_cons, bind_eq_ok] at h
    obtain ⟨s1, hpass, hloop⟩ := h
    have hfirst := batchCreateOne_counter hpass
    have hrest := ih s1 s' hloop
    rw [List.length_cons]
    omega

theorem length_items (hlengths : recipients.length = amounts.length ∧ recipients.length = metadatas.length) :
    (recipients.zip (amounts.zip metadatas)).length = recipients.length := by
  simp only [List.length_zip, ← hlengths.1, ← hlengths.2, Nat.min_self]

theorem batch_items_length {ids : List ℕ}
    (h : batchCreatePackages H signers w operator recipients amounts token expiresIn metadatas = .ok (w', ids)) :
    (recipients.zip (amounts.zip metadatas)).length = recipients.length := by
  have hlengths : recipients.length = amounts.length ∧ recipients.length = metadatas.length := by
    simp only [batchCreatePackages, bind_eq_ok, require_eq_ok, exists_unit] at h
    exact h.2.2.1
  exact length_items hlengths

theorem Step.pkgCounter (h : Step H w m w') (hw : WellFormed w) (hlocked : LockedNonneg w.totals.books) :
    w'.store.pkgCounter = m.nextId w.store.pkgCounter := by
  have hstep := h
  cases h with
  | tick | outside => rfl
  | @call _ signers c hexec =>
    cases c with
    | createPackage operator id =>
      obtain ⟨-, -, -, _, -, -, -, -, -, -, _, -, -, _, -, _, -, -, -, -, rfl⟩ := createPackage_eq_ok.mp hexec
      change (if w.store.pkgCounter ≤ id then id + 1 else w.store.pkgCounter) = max w.store.pkgCounter (id + 1)
      split <;> omega
    | batchCreatePackages operator recipients amounts token expiresIn metadatas =>
      obtain ⟨ids, hbatch⟩ := fst_map_eq_ok.mp hexec
      obtain ⟨_, _, -, s, hloop, -, hstore, -⟩ := batchCreatePackages_spec hlocked hbatch
      have hcounter := batchLoop_counter _ _ _ hloop
      rw [batch_items_length hbatch] at hcounter
      rw [hstore]
      exact hcounter
    | _ => exact hstep.pkgCounter_kept hw (by simp [Move.permits, Call.permits])

theorem Reaches.pkgCounter {tr : Trace τ} (h : Reaches H tr w) : w.store.pkgCounter = idsUsed tr := by
  obtain ⟨now, tokens, hrun⟩ := h
  induction hrun with
  | nil => rfl
  | @snoc tr u m v hrun hstep ih =>
    have hu : Reaches H tr u := ⟨now, tokens, hrun⟩
    rw [hstep.pkgCounter hu.wellFormed hu.lockedNonneg, ih, idsUsed, idsUsed, List.foldl_append]
    rfl

theorem Reaches.pkgIdx_le {tr : Trace τ} (h : Reaches H tr w) : w.store.pkgIdx ≤ w.store.pkgCounter := by
  have hindex := h.indexExact
  have hlength : (scan w.store.index w.store.pkgIdx).length = (List.range w.store.pkgIdx).length := by
    apply List.filterMap_length_eq_length.mpr
    intro i hi
    obtain ⟨id, hid, -⟩ := hindex.filled i (List.mem_range.mp hi)
    rw [hid]
    rfl
  have hbelow : scan w.store.index w.store.pkgIdx ⊆ List.range w.store.pkgCounter := by
    intro id hid
    obtain ⟨p, hp⟩ := hindex.mem_scan.mp hid
    exact List.mem_range.mpr (h.wellFormed.below id p hp)
  have hle := (List.subperm_of_subset hindex.scan_nodup hbelow).length_le
  rw [hlength, List.length_range, List.length_range] at hle
  exact hle

theorem Step.pkgCounter_fits (h : Step H w m w') (hw : WellFormed w) (hlocked : LockedNonneg w.totals.books)
    (hfits : w.store.pkgCounter < 2 ^ 64) : w'.store.pkgCounter < 2 ^ 64 := by
  rw [h.pkgCounter hw hlocked]
  cases h with
  | tick | outside => exact hfits
  | @call _ signers c hexec =>
    cases c with
    | createPackage operator id =>
      obtain ⟨-, -, -, _, -, -, -, -, -, -, _, -, -, _, -, _, -, -, hcounter, -, -⟩ := createPackage_eq_ok.mp hexec
      change max w.store.pkgCounter (id + 1) < 2 ^ 64
      omega
    | batchCreatePackages operator recipients amounts token expiresIn metadatas =>
      obtain ⟨ids, hbatch⟩ := fst_map_eq_ok.mp hexec
      obtain ⟨_, _, -, s, hloop, -⟩ := batchCreatePackages_spec hlocked hbatch
      have hitems := batch_items_length hbatch
      change w.store.pkgCounter + recipients.length < 2 ^ 64
      by_cases hne : recipients.zip (amounts.zip metadatas) = []
      · rw [hne, List.length_nil] at hitems
        omega
      · have hroom := ((batchLoop_iff _ _ (start_bounded hlocked token)).mp ⟨s, hloop⟩).2 hne
        rw [hitems] at hroom
        exact hroom.2.2.1
    | _ => exact hfits

theorem Reaches.pkgCounter_fits {tr : Trace τ} (h : Reaches H tr w) : w.store.pkgCounter < 2 ^ 64 := by
  obtain ⟨now, tokens, hrun⟩ := h
  induction hrun with
  | nil => exact Nat.two_pow_pos 64
  | @snoc tr u m v hrun hstep ih =>
    have hu : Reaches H tr u := ⟨now, tokens, hrun⟩
    exact hstep.pkgCounter_fits hu.wellFormed hu.lockedNonneg ih

/-- A batch that is valid otherwise goes through exactly if the ids used so far leave room for it. -/
theorem valid_batch_iff_room {tr : Trace τ} (h : Reaches H tr w)
    (hvalid : BatchValid H signers w operator recipients amounts token expiresIn metadatas) :
    (∃ out, batchCreatePackages H signers w operator recipients amounts token expiresIn metadatas = .ok out) ↔
      idsUsed tr + recipients.length < 2 ^ 64 := by
  have hlocked := h.lockedNonneg
  have hcounter := h.pkgCounter_fits
  have hitems := length_items hvalid.lengths
  rw [← h.pkgCounter]
  by_cases hne : recipients.zip (amounts.zip metadatas) = []
  · -- an empty batch needs no room
    rw [hne, List.length_nil] at hitems
    obtain ⟨decimals, balance, hcall, -, -⟩ := hvalid.call
    apply iff_of_true
    · apply batchCreatePackages_of_loop hlocked hvalid.lengths hvalid.time_fits hcall
      · rw [hne]
        rfl
      · intro c hc
        simp [BatchLoop.start] at hc
    · omega
  · rw [batchCreatePackages_iff hlocked hvalid.lengths hvalid.time_fits hne, ← hitems]
    constructor
    · exact fun hadmits => hadmits.ids_fit
    · intro hroom
      have hindex := h.pkgIdx_le
      exact ⟨hvalid.call, hvalid.locked_fits, hvalid.campaign_fits, hroom, by omega⟩

theorem batchValid_one {H : Host Balances} {w : World Balances} {balance : ℤ}
    (hcall : CallAdmits H [⟨1⟩] w ⟨1⟩ ⟨9⟩ 50 0 balance) (hnow : w.now = 100) (hmin : (getConfig w).minAmount = 1)
    (hfunds : getTotalLocked w ⟨9⟩ + 10 ≤ balance) (hfits : getTotalLocked w ⟨9⟩ + 10 < 2 ^ 127) :
    BatchValid H [⟨1⟩] w ⟨1⟩ [⟨2⟩] [10] ⟨9⟩ 50 [∅] where
  lengths := ⟨rfl, rfl⟩
  time_fits := by
    rw [hnow]
    decide
  call := by
    refine ⟨0, balance, hcall, ?_, hfunds⟩
    intro i hi
    obtain rfl := List.mem_singleton.mp hi
    rw [hnow]
    refine ⟨⟨100, by decide +kernel, by decide⟩, by decide, ?_⟩
    rw [hmin]
    decide
  locked_fits := hfits
  campaign_fits := by
    rintro c ⟨i, hi, href⟩
    obtain rfl := List.mem_singleton.mp hi
    have hnone : campaignRefFromMetadata ∅ = none := by decide +kernel
    rw [hnone] at href
    cases href

theorem valid_batch_iff_room_fundedContract : ∃ out, batchCreatePackages (plainHost ⟨0⟩) [⟨1⟩]
      (played (plainHost ⟨0⟩) 100 [((⟨9⟩, ⟨1⟩), 100)] fundedContract).2 ⟨1⟩ [⟨2⟩] [10] ⟨9⟩ 50 [∅] = .ok out := by
  have hcall : CallAdmits (plainHost ⟨0⟩) [⟨1⟩]
      (played (plainHost ⟨0⟩) 100 [((⟨9⟩, ⟨1⟩), 100)] fundedContract).2 ⟨1⟩ ⟨9⟩ 50 0 30 :=
    ⟨by decide +kernel, ⟨by decide, ⟨1⟩, by decide +kernel, .inl rfl⟩, by decide +kernel, by decide +kernel,
      by decide +kernel, by decide +kernel⟩
  apply (valid_batch_iff_room (played_reaches (H := plainHost ⟨0⟩) 100 [((⟨9⟩, ⟨1⟩), 100)] fundedContract)
    (batchValid_one hcall (by decide +kernel) (by decide +kernel) (by decide +kernel) (by decide +kernel))).mpr
  decide +kernel

def highestId : List (Move Balances) := [
  .call [] (.init ⟨1⟩),
  .call [⟨1⟩] (.fund ⟨9⟩ ⟨1⟩ 100),
  .call [⟨1⟩] (.createPackage ⟨1⟩ (2 ^ 64 - 2) ⟨2⟩ 10 ⟨9⟩ 0 ∅)]

theorem valid_batch_aborts :
    ∃ w, Reaches (plainHost ⟨0⟩) (played (plainHost ⟨0⟩) 100 [((⟨9⟩, ⟨1⟩), 100)] highestId).1 w ∧
      BatchValid (plainHost ⟨0⟩) [⟨1⟩] w ⟨1⟩ [⟨2⟩] [10] ⟨9⟩ 50 [∅] ∧
      Prod.snd <$> batchCreatePackages (plainHost ⟨0⟩) [⟨1⟩] w ⟨1⟩ [⟨2⟩] [10] ⟨9⟩ 50 [∅] = .error .trap := by
  have hcall : CallAdmits (plainHost ⟨0⟩) [⟨1⟩]
      (played (plainHost ⟨0⟩) 100 [((⟨9⟩, ⟨1⟩), 100)] highestId).2 ⟨1⟩ ⟨9⟩ 50 0 100 :=
    ⟨by decide +kernel, ⟨by decide, ⟨1⟩, by decide +kernel, .inl rfl⟩, by decide +kernel, by decide +kernel,
      by decide +kernel, by decide +kernel⟩
  exact ⟨_, played_reaches 100 [((⟨9⟩, ⟨1⟩), 100)] highestId,
    batchValid_one hcall (by decide +kernel) (by decide +kernel) (by decide +kernel) (by decide +kernel),
    by decide +kernel⟩

end Soter.AidEscrow
