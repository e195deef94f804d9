import Mathlib.Data.Finset.Max
import Mathlib.Order.Bounds.Basic

namespace Fbaodv.Foundation.LatestRegister

variable {α : Type}

/-- A register takes the first item, and then one item over another when the
test says so. -/
def take (accepts : α → α → Bool) : Option α → α → Option α
  | none, a => some a
  | some m, a => if accepts m a then some a else some m

/-- The register after the deliveries `l`. -/
def held (accepts : α → α → Bool) (l : List α) : Option α := l.foldl (take accepts) none

variable {accepts : α → α → Bool} {l : List α} {a m : α}

theorem held_concat : held accepts (l ++ [a]) = take accepts (held accepts l) a := by
  rw [held, List.foldl_append, List.foldl_cons, List.foldl_nil, held]

theorem exists_held (hl : l ≠ []) : ∃ m ∈ l, held accepts l = some m := by
  induction l using List.reverseRecOn with
  | nil => exact absurd rfl hl
  | append_singleton l a ih =>
    rw [held_concat]
    rcases eq_or_ne l [] with rfl | hne
    · exact ⟨a, by simp, rfl⟩
    obtain ⟨m, hm, hheld⟩ := ih hne
    rw [hheld, take]
    split
    · exact ⟨a, by simp, rfl⟩
    · exact ⟨m, List.mem_append_left _ hm, rfl⟩

variable [LinearOrder α]

def Newest (l : List α) (m : α) : Prop := IsGreatest {a | a ∈ l} m

theorem exists_newest (hl : l ≠ []) : ∃ m, Newest l m := by
  have hne : l.toFinset.Nonempty := List.toFinset_nonempty_iff l |>.mpr hl
  refine ⟨l.toFinset.max' hne, ?_, fun a ha ↦ l.toFinset.le_max' a (List.mem_toFinset.mpr ha)⟩
  exact List.mem_toFinset.mp (l.toFinset.max'_mem hne)

theorem eq_of_newest_singleton (h : Newest [a] m) : m = a := List.mem_singleton.mp h.1

theorem newest_concat (h : Newest l m) (a : α) : Newest (l ++ [a]) (max m a) := by
  refine ⟨?_, fun b hb ↦ ?_⟩
  · rcases max_choice m a with hmax | hmax
    · rw [hmax]
      exact List.mem_append_left _ h.1
    · rw [hmax]
      exact List.mem_append_right _ List.mem_cons_self
  · rcases List.mem_append.mp hb with hb | hb
    · exact (h.2 hb).trans (le_max_left _ _)
    · exact (List.mem_singleton.mp hb).trans_le (le_max_right _ _)

/-- The register always holds the newest item exactly if the test tells newer
from older items each time. -/
theorem held_newest_iff (l : List α) : (∀ p, p <+: l → ∀ m, Newest p m → held accepts p = some m) ↔
    ∀ p a, p ++ [a] <+: l → ∀ m, Newest p m → m ≠ a → (accepts m a = true ↔ m < a) := by
  constructor
  · intro h p a hp m hm hne
    have hbefore := h p ((List.prefix_append p [a]).trans hp) m hm
    have hafter := h (p ++ [a]) hp _ (newest_concat hm a)
    rw [held_concat, hbefore, take] at hafter
    split at hafter
    · next hacc =>
      have hmax : a = max m a := Option.some.inj hafter
      exact ⟨fun _ ↦ lt_of_le_of_ne (hmax ▸ le_max_left m a) hne, fun _ ↦ hacc⟩
    · next hacc =>
      have hmax : m = max m a := Option.some.inj hafter
      exact ⟨fun h ↦ absurd h hacc, fun hlt ↦ absurd (hmax ▸ le_max_right m a) (not_le.mpr hlt)⟩
  · intro h p
    induction p using List.reverseRecOn with
    | nil => exact fun _ m hm ↦ absurd hm.1 List.not_mem_nil
    | append_singleton p a ih =>
      intro hp m hm
      have hp' : p <+: l := (List.prefix_append p [a]).trans hp
      rcases eq_or_ne p [] with rfl | hne
      · rw [eq_of_newest_singleton hm]
        rfl
      obtain ⟨m', hm'⟩ := exists_newest hne
      obtain rfl : m = max m' a := hm.unique (newest_concat hm' a)
      rw [held_concat, ih hp' m' hm', take]
      rcases eq_or_ne m' a with rfl | hma
      · rw [max_self, ite_self]
      rcases lt_or_gt_of_ne hma with hlt | hlt
      · rw [if_pos ((h p a hp m' hm' hma).mpr hlt), max_eq_right hlt.le]
      · have hold : ¬ accepts m' a = true := fun hacc ↦ absurd ((h p a hp m' hm' hma).mp hacc) hlt.not_gt
        rw [if_neg hold, max_eq_left hlt.le]

end Fbaodv.Foundation.LatestRegister
