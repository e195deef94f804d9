import Fbaodv.Foundation.OrderedList

namespace Fbaodv.Foundation.Alarm

open OrderedList

variable {α β : Type} {key : α → ℕ} {covers : β → ℕ → Prop} {alarm : Option β} {q q' : List α} {x : α}

/-- The alarm is set, and it covers the first deadline of the queue. -/
def Guards (key : α → ℕ) (covers : β → ℕ → Prop) (alarm : Option β) (q : List α) : Prop :=
  ∀ x ∈ q.head?, ∃ a ∈ alarm, covers a (key x)

/-- What covers a deadline covers every later one. -/
def Lasting (covers : β → ℕ → Prop) : Prop := ∀ a s t, s ≤ t → covers a s → covers a t

theorem guards_nil : Guards key covers alarm [] := nofun

/-- In an ordered queue the first deadline stands for all. -/
theorem guards_iff (hlast : Lasting covers) (hq : Sorted key q) :
    Guards key covers alarm q ↔ ∀ x ∈ q, ∃ a ∈ alarm, covers a (key x) := by
  constructor
  · intro h x hx
    cases q with
    | nil => exact absurd hx List.not_mem_nil
    | cons y q =>
      obtain ⟨a, ha, hcover⟩ := h y rfl
      refine ⟨a, ha, ?_⟩
      rcases List.mem_cons.mp hx with rfl | hx
      · exact hcover
      · exact hlast a _ _ ((List.pairwise_cons.mp hq).1 x hx) hcover
  · intro h x hx
    exact h x (List.mem_of_mem_head? hx)

/-- Deadlines may be given up without setting the alarm anew. -/
theorem Guards.sublist (hlast : Lasting covers) (hq : Sorted key q) (h : Guards key covers alarm q)
    (hsub : q'.Sublist q) : Guards key covers alarm q' := by
  rw [guards_iff hlast (hq.sublist hsub)]
  intro x hx
  exact (guards_iff hlast hq).mp h x (hsub.subset hx)

theorem guards_insertBy {before : α → Bool} (hlast : Lasting covers) (hq : Sorted key q)
    (hq' : Sorted key (insertBy before x q)) :
    Guards key covers alarm (insertBy before x q) ↔
      (∃ a ∈ alarm, covers a (key x)) ∧ Guards key covers alarm q := by
  rw [guards_iff hlast hq, guards_iff hlast hq']
  constructor
  · intro h
    refine ⟨h x (mem_insertBy.mpr (.inl rfl)), ?_⟩
    intro y hy
    exact h y (mem_insertBy.mpr (.inr hy))
  · rintro ⟨hx, hall⟩ y hy
    rcases mem_insertBy.mp hy with rfl | hy
    · exact hx
    · exact hall y hy

end Fbaodv.Foundation.Alarm
