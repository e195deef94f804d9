import Mathlib.Data.Nat.Notation
import Mathlib.Data.Int.Notation
import Mathlib.Tactic.ByContra

namespace Fbaodv.Foundation.WrapTime

/-- The difference of two counters as a machine with modulus `m` sees it:
reduced to the signed representative. -/
def signedDiff (m a b : ℕ) : ℤ := Int.bmod ((a : ℤ) - b) m

/-- `a` lies before `b` on the wrapping clock. -/
def before (m a b : ℕ) : Bool := decide (signedDiff m a b < 0)

/-- A set of times is exact for the modulus when all of it fits into one
window of less than half the modulus. -/
def Window (m base : ℕ) (t : ℕ) : Prop := base ≤ t ∧ 2 * (t - base) < m

variable {m a b base : ℕ}

theorem signedDiff_eq (h : -(m : ℤ) ≤ 2 * ((a : ℤ) - b)) (h' : 2 * ((a : ℤ) - b) < m) :
    signedDiff m a b = a - b := by
  have hm : 0 < m := by omega
  rw [signedDiff, Int.bmod_eq_iff hm]
  exact ⟨by omega, by omega, by simp⟩

/-- Inside one window the wrapping comparison is the comparison of the
untruncated times. -/
theorem before_iff (ha : Window m base a) (hb : Window m base b) :
    before m a b = true ↔ a < b := by
  obtain ⟨ha, ha'⟩ := ha
  obtain ⟨hb, hb'⟩ := hb
  rw [before, decide_eq_true_iff, signedDiff_eq (by omega) (by omega)]
  omega

/-- A time that is not half the modulus ahead cannot be taken for a past one. -/
theorem lt_of_before (h : 2 * a < 2 * b + m) (hb : before m a b = true) : a < b := by
  by_contra hab
  rw [before, decide_eq_true_iff, signedDiff_eq (by omega) (by omega)] at hb
  omega

theorem Window.mono {base' t : ℕ} (h : Window m base t) (hb : base ≤ base') (ht : base' ≤ t) :
    Window m base' t := by
  obtain ⟨_, h⟩ := h
  exact ⟨ht, by omega⟩

end Fbaodv.Foundation.WrapTime
