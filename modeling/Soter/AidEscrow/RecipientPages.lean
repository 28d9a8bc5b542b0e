import Soter.AidEscrow.IdSpace
import Soter.Lib.Windows

/-! The packages of a recipient, page by page: a page is a window of the id space. -/
namespace Soter.AidEscrow
open Std Soter.Runs Soter.Windows

variable {τ : Type} {H : Host τ} {w : World τ}

def belongsTo (w : World τ) (recipient : Address) (id : ℕ) : Bool :=
  w.store.packages[id]?.any fun package => package.recipient = recipient

theorem belongsTo_iff {recipient : Address} {id : ℕ} :
    belongsTo w recipient id = true ↔ ∃ p, w.store.packages[id]? = some p ∧ p.recipient = recipient := by
  unfold belongsTo
  rw [Option.any_eq_true]
  simp only [decide_eq_true_eq]

theorem listRecipientPackages_eq (hcounter : w.store.pkgCounter < 2 ^ 64) (recipient : Address) (cursor limit : ℕ) :
    listRecipientPackages w recipient cursor limit =
      (window (min limit maxPageSize) w.store.pkgCounter cursor).filter (belongsTo w recipient) := by
  unfold listRecipientPackages
  extract_lets packageCounter effectiveLimit endPos
  by_cases hout : packageCounter ≤ cursor
  · rw [if_pos hout, window_eq_nil hout]
    rfl
  · have hend : endPos = min (cursor + effectiveLimit) packageCounter := by
      change min (min (cursor + effectiveLimit) (2 ^ 64 - 1)) packageCounter = _
      have hmax : packageCounter ≤ 2 ^ 64 - 1 := Nat.le_sub_one_of_lt hcounter
      omega
    rw [if_neg hout, hend]
    rfl

theorem getRecipientPackageCount_eq (w : World τ) (recipient : Address) :
    getRecipientPackageCount w recipient = ((List.range w.store.pkgCounter).filter (belongsTo w recipient)).length := by
  rw [getRecipientPackageCount, countPackages_eq, numbered, Listing.entries, List.countP_filterMap,
    ← List.countP_eq_length_filter]
  apply List.countP_congr
  intro id _
  unfold belongsTo
  cases w.store.packages[id]? with
  | none | some p => rfl

/-- The pages that start at the multiples of the page size, as many as reach the counter, are the packages of the
recipient, in order and each of them once. -/
theorem recipient_pages_exact {tr : Trace τ} (h : Reaches H tr w) (recipient : Address) (limit pages : ℕ)
    (hpages : w.store.pkgCounter ≤ pages * min limit maxPageSize) : let size := min limit maxPageSize
    let ids := (List.range pages).flatMap fun k => listRecipientPackages w recipient (k * size) limit
    (∀ id, id ∈ ids ↔ ∃ p, w.store.packages[id]? = some p ∧ p.recipient = recipient) ∧ ids.Pairwise (· < ·) ∧
    ids.length = getRecipientPackageCount w recipient ∧
    ∀ cursor : ℕ, (listRecipientPackages w recipient cursor limit).length ≤ size ∧
      saturatingAddU64 cursor size < 2 ^ 64 ∧
      (w.store.pkgCounter ≤ cursor → listRecipientPackages w recipient cursor limit = []) := by
  intro size ids
  have hcounter := h.pkgCounter_fits
  have hids : ids = (List.range w.store.pkgCounter).filter (belongsTo w recipient) := by
    refine Eq.trans ?_ (flatMap_window_filter (belongsTo w recipient) hpages)
    exact congrArg (fun f => (List.range pages).flatMap f)
      (funext fun k => listRecipientPackages_eq hcounter recipient (k * size) limit)
  rw [hids]
  refine ⟨fun id => ?_, List.pairwise_lt_range.filter _, (getRecipientPackageCount_eq w recipient).symm, fun cursor => ?_⟩
  · rw [List.mem_filter, List.mem_range, belongsTo_iff]
    constructor
    · exact fun hin => hin.2
    · rintro ⟨p, hp, hrecipient⟩
      exact ⟨h.wellFormed.below id p hp, p, hp, hrecipient⟩
  · rw [listRecipientPackages_eq hcounter]
    refine ⟨?_, ?_, fun hout => ?_⟩
    · exact (List.length_filter_le ..).trans (length_window_le ..)
    · exact Nat.lt_of_le_of_lt (Nat.min_le_right ..) (by decide)
    · rw [window_eq_nil hout]
      rfl

def scatteredIds : List (Move Balances) := [
  .call [] (.init ⟨1⟩),
  .call [⟨1⟩] (.fund ⟨9⟩ ⟨1⟩ 100),
  .call [⟨1⟩] (.createPackage ⟨1⟩ 5 ⟨2⟩ 10 ⟨9⟩ 0 ∅),
  .call [⟨1⟩] (.createPackage ⟨1⟩ 0 ⟨2⟩ 10 ⟨9⟩ 0 ∅),
  .call [⟨1⟩] (.createPackage ⟨1⟩ 3 ⟨4⟩ 10 ⟨9⟩ 0 ∅),
  .call [⟨1⟩] (.reassignPackage 3 ⟨2⟩),
  .call [⟨1⟩] (.createPackage ⟨1⟩ 4 ⟨4⟩ 10 ⟨9⟩ 0 ∅)]

theorem recipient_pages_exact_scatteredIds :
    let w := (played (plainHost ⟨0⟩) 100 [((⟨9⟩, ⟨1⟩), 100)] scatteredIds).2
    (List.range 3).map (fun k => listRecipientPackages w ⟨2⟩ (k * 2) 2) = [[0], [3], [5]] ∧
      3 = getRecipientPackageCount w ⟨2⟩ := by
  intro w
  have hpages : (List.range 3).map (fun k => listRecipientPackages w ⟨2⟩ (k * 2) 2) = [[0], [3], [5]] := by
    decide +kernel
  have hexact := recipient_pages_exact (played_reaches (H := plainHost ⟨0⟩) 100 [((⟨9⟩, ⟨1⟩), 100)] scatteredIds)
    ⟨2⟩ 2 3 (by decide +kernel)
  have hlength := hexact.2.2.1
  change (List.flatMap (fun k => listRecipientPackages w ⟨2⟩ (k * 2) 2) (List.range 3)).length = _ at hlength
  rw [List.flatMap_def, hpages] at hlength
  exact ⟨hpages, hlength⟩

end Soter.AidEscrow
