import Mathlib.Data.List.Range

/-! Tickets that are drawn from a counter. -/

namespace Fbaodv.Foundation.Tickets

variable {α : Type} {ticket : ℕ → α} {k k' k'' : ℕ} {l l' : List α}

/-- Between the counts `k` and `k'` the tickets `l` were drawn and used, in this
order and each at most once. -/
structure Draws (ticket : ℕ → α) (k k' : ℕ) (l : List α) : Prop where
  le : k ≤ k'
  sublist : l.Sublist ((List.range' (k + 1) (k' - k)).map ticket)

theorem Draws.of_le (ticket : ℕ → α) (h : k ≤ k') : Draws ticket k k' [] := ⟨h, List.nil_sublist _⟩

theorem Draws.refl (ticket : ℕ → α) (k : ℕ) : Draws ticket k k [] := .of_le ticket le_rfl

theorem Draws.one (ticket : ℕ → α) (k : ℕ) : Draws ticket k (k + 1) [ticket (k + 1)] where
  le := Nat.le_succ k
  sublist := by simp

theorem Draws.trans (h : Draws ticket k k' l) (h' : Draws ticket k' k'' l') :
    Draws ticket k k'' (l ++ l') where
  le := h.le.trans h'.le
  sublist := by
    have hle := h.le
    have hle' := h'.le
    have hsplit : List.range' (k + 1) (k'' - k) =
        List.range' (k + 1) (k' - k) ++ List.range' (k' + 1) (k'' - k') := by
      have hcount : k'' - k = (k' - k) + (k'' - k') := by omega
      have hstart : k' + 1 = k + 1 + 1 * (k' - k) := by omega
      rw [hcount, hstart, List.range'_append]
    rw [hsplit, List.map_append]
    exact h.sublist.append h'.sublist

theorem Draws.length_le (h : Draws ticket k k' l) : l.length ≤ k' - k := by
  have hlength := h.sublist.length_le
  rwa [List.length_map, List.length_range'] at hlength

/-- What holds of any two tickets up to `k'` holds along the tickets that were
used. -/
theorem Draws.pairwise {r : α → α → Prop} (h : Draws ticket k k' l)
    (hr : ∀ i j, i < j → j ≤ k' → r (ticket i) (ticket j)) : l.Pairwise r := by
  have hle := h.le
  refine List.Pairwise.sublist h.sublist (List.pairwise_map.mpr ?_)
  refine List.Pairwise.imp_of_mem ?_ List.pairwise_lt_range'
  intro i j _ hj hij
  obtain ⟨d, hd, rfl⟩ := List.mem_range'.mp hj
  exact hr _ _ hij (by omega)

end Fbaodv.Foundation.Tickets
