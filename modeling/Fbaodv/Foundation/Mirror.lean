import Mathlib.Algebra.Order.Group.Multiset

namespace Fbaodv.Foundation

/-- A bag holds the elements of a list, what others have put there, and the stale
elements that requests have missed, as many as were missed. The elements that can
be asked for are `mine`. -/
structure Mirrors {α : Type*} (mine : α → Prop) (foreign listed bag : Multiset α) (missed : ℕ) : Prop where
  others : ∀ a ∈ foreign, ¬ mine a
  own : ∀ a ∈ listed, mine a
  split : ∃ stale : Multiset α, bag = foreign + listed + stale ∧ (∀ a ∈ stale, mine a) ∧ stale.card = missed

namespace Mirrors

variable {α : Type*} {mine : α → Prop} {foreign listed bag : Multiset α} {missed : ℕ} {a b : α}

theorem start (h : ∀ a ∈ foreign, ¬ mine a) : Mirrors mine foreign 0 foreign 0 := by
  refine ⟨h, fun a ha ↦ absurd ha (Multiset.notMem_zero a), 0, ?_, fun a ha ↦ absurd ha (Multiset.notMem_zero a), rfl⟩
  rw [add_zero, add_zero]

theorem mem_bag (h : Mirrors mine foreign listed bag missed) (ha : a ∈ listed) : a ∈ bag := by
  obtain ⟨stale, rfl, -⟩ := h.split
  exact Multiset.mem_add.mpr (.inl (Multiset.mem_add.mpr (.inr ha)))

theorem add (h : Mirrors mine foreign listed bag missed) (ha : mine a) :
    Mirrors mine foreign (a ::ₘ listed) (a ::ₘ bag) missed := by
  obtain ⟨stale, rfl, hstale, hcard⟩ := h.split
  refine ⟨h.others, ?_, stale, ?_, hstale, hcard⟩
  · intro b hb
    rcases Multiset.mem_cons.mp hb with rfl | hb
    · exact ha
    · exact h.own b hb
  · rw [Multiset.add_cons, Multiset.cons_add]

/-- A missed request leaves its element behind. -/
theorem miss (h : Mirrors mine foreign (a ::ₘ listed) bag missed) : Mirrors mine foreign listed bag (missed + 1) := by
  obtain ⟨stale, rfl, hstale, hcard⟩ := h.split
  refine ⟨h.others, fun b hb ↦ h.own b (Multiset.mem_cons_of_mem hb), a ::ₘ stale, ?_, ?_, ?_⟩
  · rw [Multiset.add_cons, Multiset.cons_add, Multiset.add_cons]
  · intro b hb
    rcases Multiset.mem_cons.mp hb with rfl | hb
    · exact h.own b (Multiset.mem_cons_self b listed)
    · exact hstale b hb
  · rw [Multiset.card_cons, hcard]

/-- A request takes one element that it may ask for, and that is not one of the
rest of the list. Where it is stale, the other one is stale from then on. -/
theorem take [DecidableEq α] (h : Mirrors mine foreign (a ::ₘ listed) bag missed) (hb : b ∈ bag) (hmine : mine b)
    (hrest : b ∉ listed) : Mirrors mine foreign listed (bag.erase b) missed := by
  have hlisted : ∀ c ∈ listed, mine c := fun c hc ↦ h.own c (Multiset.mem_cons_of_mem hc)
  have ha : mine a := h.own a (Multiset.mem_cons_self a listed)
  obtain ⟨stale, rfl, hstale, hcard⟩ := h.split
  by_cases hba : b = a
  · subst hba
    refine ⟨h.others, hlisted, stale, ?_, hstale, hcard⟩
    rw [Multiset.add_cons, Multiset.cons_add, Multiset.erase_cons_head]
  · have hin : b ∈ stale := by
      rcases Multiset.mem_add.mp hb with hb | hb
      · rcases Multiset.mem_add.mp hb with hb | hb
        · exact absurd hmine (h.others b hb)
        · exact absurd ((Multiset.mem_cons.mp hb).resolve_left hba) hrest
      · exact hb
    obtain ⟨rest, rfl⟩ := Multiset.exists_cons_of_mem hin
    refine ⟨h.others, hlisted, a ::ₘ rest, ?_, ?_, ?_⟩
    · have hbag : foreign + a ::ₘ listed + b ::ₘ rest = b ::ₘ (foreign + a ::ₘ listed + rest) := Multiset.add_cons ..
      rw [hbag, Multiset.erase_cons_head, Multiset.add_cons, Multiset.cons_add, Multiset.add_cons]
    · intro c hc
      rcases Multiset.mem_cons.mp hc with rfl | hc
      · exact ha
      · exact hstale c (Multiset.mem_cons_of_mem hc)
    · rw [Multiset.card_cons] at hcard ⊢
      exact hcard

end Mirrors

end Fbaodv.Foundation
