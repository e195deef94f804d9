import Fbaodv.Foundation.OrderedList
import Mathlib.Data.List.Forall2

namespace Fbaodv.Foundation.Pointwise

variable {α β : Type} {R : α → α → Prop} {l l' l'' : List α}

theorem forall₂_trans (htrans : ∀ {a b c}, R a b → R b c → R a c)
    (h : List.Forall₂ R l l') (h' : List.Forall₂ R l' l'') : List.Forall₂ R l l'' := by
  induction h generalizing l'' with
  | nil => exact h'
  | cons hab _ ih =>
    cases h' with
    | cons hbc h' => exact .cons (htrans hab hbc) (ih h')

theorem exists_of_mem_right (h : List.Forall₂ R l l') {b : α} (hb : b ∈ l') :
    ∃ a ∈ l, R a b := by
  induction h with
  | nil => cases hb
  | cons hab _ ih =>
    rcases List.mem_cons.mp hb with rfl | hb
    · exact ⟨_, List.mem_cons_self, hab⟩
    · obtain ⟨a, ha, hR⟩ := ih hb
      exact ⟨a, List.mem_cons_of_mem _ ha, hR⟩

theorem exists_of_mem_left (h : List.Forall₂ R l l') {a : α} (ha : a ∈ l) :
    ∃ b ∈ l', R a b := by
  obtain ⟨b, hb, hR⟩ := exists_of_mem_right (R := flip R) h.flip ha
  exact ⟨b, hb, hR⟩

theorem map_eq (h : List.Forall₂ R l l') {g : α → β} (hg : ∀ {a b}, R a b → g b = g a) :
    l'.map g = l.map g := by
  induction h with
  | nil => rfl
  | cons hab _ ih => rw [List.map_cons, List.map_cons, hg hab, ih]

theorem forall₂_map {f : α → α} (h : ∀ a ∈ l, R a (f a)) : List.Forall₂ R l (l.map f) :=
  List.forall₂_map_right_iff.mpr (List.forall₂_same.mpr h)

theorem forall₂_modifyFirst (hrefl : ∀ a, R a a) {p : α → Bool} {f : α → α}
    (h : ∀ a ∈ l, p a = true → R a (f a)) :
    List.Forall₂ R l (OrderedList.modifyFirst p f l) := by
  induction l with
  | nil => exact .nil
  | cons a l ih =>
    simp only [OrderedList.modifyFirst]
    split
    · next hp => exact .cons (h a List.mem_cons_self hp) (List.forall₂_same.mpr fun b _ ↦ hrefl b)
    · exact .cons (hrefl a) (ih fun b hb ↦ h b (List.mem_cons_of_mem _ hb))

end Fbaodv.Foundation.Pointwise
