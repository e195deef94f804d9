import Mathlib.Data.List.Basic
import Mathlib.Data.Nat.Notation

namespace Fbaodv.Foundation.TwoPhase

/-- A rule of two-phase expiry: what is due is retired at first, and goes when
it is due again after that. -/
structure Rule (α : Type) where
  due : α → Bool
  retired : α → Bool
  retire : α → α

variable {α : Type} {R : Rule α} {x y : α} {l l₁ l₂ : List α}

namespace Rule

def dies (R : Rule α) (x : α) : Bool := R.due x && R.retired x

def turn (R : Rule α) (x : α) : Option α :=
  if R.due x then if R.retired x then none else some (R.retire x) else some x

/-- One round of the rule over a list. -/
def sweep (R : Rule α) (l : List α) : List α := l.filterMap R.turn

theorem turn_fresh (h : R.due x = false) : R.turn x = some x := by
  simp [turn, h]

theorem turn_retire (h : R.due x) (hr : R.retired x = false) : R.turn x = some (R.retire x) := by
  simp [turn, h, hr]

theorem turn_dies (h : R.due x) (hr : R.retired x) : R.turn x = none := by
  simp [turn, h, hr]

theorem turn_eq_none_iff : R.turn x = none ↔ R.dies x = true := by
  cases hdue : R.due x <;> cases hr : R.retired x <;> simp [turn, dies, hdue, hr]

theorem sweep_cons_some (h : R.turn x = some y) : R.sweep (x :: l) = y :: R.sweep l :=
  List.filterMap_cons_some h

theorem sweep_cons_none (h : R.turn x = none) : R.sweep (x :: l) = R.sweep l :=
  List.filterMap_cons_none h

theorem sweep_length : (R.sweep l).length + l.countP R.dies = l.length := by
  induction l with
  | nil => rfl
  | cons x l ih =>
    cases hdue : R.due x with
    | false =>
      rw [sweep_cons_some (turn_fresh hdue), List.countP_cons_of_neg (by simp [dies, hdue])]
      simp only [List.length_cons]
      omega
    | true =>
      cases hr : R.retired x with
      | false =>
        rw [sweep_cons_some (turn_retire hdue hr), List.countP_cons_of_neg (by simp [dies, hr])]
        simp only [List.length_cons]
        omega
      | true =>
        rw [sweep_cons_none (turn_dies hdue hr), List.countP_cons_of_pos (by simp [dies, hdue, hr])]
        simp only [List.length_cons]
        omega

/-- When retiring puts the next term into the future, nothing is due after a
round. -/
theorem not_due_of_sweep (hR : ∀ x, R.due (R.retire x) = false) (hy : y ∈ R.sweep l) :
    R.due y = false := by
  obtain ⟨x, -, hx⟩ := List.mem_filterMap.mp hy
  cases hdue : R.due x with
  | false =>
    rw [turn_fresh hdue] at hx
    cases hx
    exact hdue
  | true =>
    cases hr : R.retired x with
    | false =>
      rw [turn_retire hdue hr] at hx
      cases hx
      exact hR x
    | true => simp [turn_dies hdue hr] at hx

end Rule

end Fbaodv.Foundation.TwoPhase
