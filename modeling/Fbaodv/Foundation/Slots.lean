import Mathlib.Data.List.Perm.Subperm
import Mathlib.Data.List.Range
import Mathlib.Order.Bounds.Basic

namespace Fbaodv.Foundation.Slots

/-- The first of `n` numbers from `lo` on that is not in use. -/
def firstFree (lo n : ℕ) (used : List ℕ) : Option ℕ := (List.range' lo n).find? fun i ↦ !used.contains i

variable {lo n i : ℕ} {used : List ℕ}

theorem firstFree_succ : firstFree lo (n + 1) used = if lo ∈ used then firstFree (lo + 1) n used else some lo := by
  rw [firstFree, List.range'_succ, List.find?_cons]
  by_cases h : lo ∈ used
  · simp [h, firstFree]
  · simp [h]

theorem isLeast_of_firstFree (h : firstFree lo n used = some i) : IsLeast {i | lo ≤ i ∧ i ∉ used} i := by
  induction n generalizing lo with
  | zero => cases h
  | succ n ih =>
    rw [firstFree_succ] at h
    split at h
    · next hlo =>
      obtain ⟨⟨hle, hfree⟩, hleast⟩ := ih h
      refine ⟨⟨by omega, hfree⟩, fun j ⟨hj, hused⟩ ↦ hleast ⟨?_, hused⟩⟩
      have hne : j ≠ lo := fun heq ↦ hused (heq ▸ hlo)
      omega
    · next hlo =>
      obtain rfl := Option.some.inj h
      exact ⟨⟨le_refl lo, hlo⟩, fun j hj ↦ hj.1⟩

theorem lt_of_firstFree (h : firstFree lo n used = some i) : i < lo + n :=
  (List.mem_range'_1.mp (List.mem_of_find?_eq_some h)).2

theorem firstFree_eq_none_iff : firstFree lo n used = none ↔ ∀ i, lo ≤ i → i < lo + n → i ∈ used := by
  simp only [firstFree, List.find?_eq_none, List.mem_range'_1, Bool.not_eq_true', Bool.not_eq_false,
    List.contains_iff_mem, and_imp]

theorem firstFree_congr {used' : List ℕ} (h : ∀ i, lo ≤ i → i < lo + n → (i ∈ used' ↔ i ∈ used)) :
    firstFree lo n used' = none ↔ firstFree lo n used = none := by
  rw [firstFree_eq_none_iff, firstFree_eq_none_iff]
  exact forall_congr' fun i ↦ forall_congr' fun hlo ↦ forall_congr' fun hlt ↦ h i hlo hlt

theorem length_le_of_range (hnd : used.Nodup) (hrange : ∀ i ∈ used, lo ≤ i ∧ i < lo + n) : used.length ≤ n := by
  have hsub : used ⊆ List.range' lo n := fun i hi ↦ List.mem_range'_1.mpr (hrange i hi)
  have hle := (hnd.subperm hsub).length_le
  rwa [List.length_range'] at hle

/-- Different numbers of the range leave none free exactly if there are as many
as the range has. -/
theorem firstFree_eq_none_iff_length (hnd : used.Nodup) (hrange : ∀ i ∈ used, lo ≤ i ∧ i < lo + n) :
    firstFree lo n used = none ↔ used.length = n := by
  rw [firstFree_eq_none_iff]
  constructor
  · intro hall
    have hsub : List.range' lo n ⊆ used := fun i hi ↦
      hall i (List.mem_range'_1.mp hi).1 (List.mem_range'_1.mp hi).2
    have hle := ((List.nodup_range' (s := lo) (n := n)).subperm hsub).length_le
    rw [List.length_range'] at hle
    exact le_antisymm (length_le_of_range hnd hrange) hle
  · intro hlength i hlo hlt
    have hsub : used ⊆ List.range' lo n := fun i hi ↦ List.mem_range'_1.mpr (hrange i hi)
    have hperm := (hnd.subperm hsub).perm_of_length_le (by rw [List.length_range', hlength])
    exact hperm.mem_iff.mpr (List.mem_range'_1.mpr ⟨hlo, hlt⟩)

end Fbaodv.Foundation.Slots
