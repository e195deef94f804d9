import Mathlib.Algebra.BigOperators.Group.Finset.Basic
import Mathlib.Algebra.Order.BigOperators.Group.Finset
import Mathlib.Data.Multiset.AddSub

namespace Fbaodv.Foundation.Stock

open scoped BigOperators

variable {σ α : Type} {stock : σ → Multiset α} {used : σ → ℕ} {s s' s'' : σ}

/-- What is used from `s` to `s'` is taken from the stock. -/
def Spends (stock : σ → Multiset α) (used : σ → ℕ) (s s' : σ) : Prop :=
  used s' + (stock s').card ≤ used s + (stock s).card

theorem Spends.of_eq (hused : used s' = used s) (hstock : stock s' = stock s) :
    Spends stock used s s' := by
  rw [Spends, hused, hstock]

theorem Spends.trans (h : Spends stock used s s') (h' : Spends stock used s' s'') :
    Spends stock used s s'' := le_trans h' h

variable [DecidableEq α]

/-- How much of the stock is new. -/
def gained (stock : σ → Multiset α) (s s' : σ) : ℕ := (stock s' - stock s).card

/-- `Spends` for a stock that may grow. -/
def Funded (stock : σ → Multiset α) (used : σ → ℕ) (s s' : σ) : Prop :=
  used s' + (stock s').card ≤ used s + (stock s).card + gained stock s s'

theorem Spends.funded (h : Spends stock used s s') : Funded stock used s s' :=
  le_trans h (Nat.le_add_right _ _)

theorem Funded.of_unused (h : used s' = used s) : Funded stock used s s' := by
  have hcard := Multiset.card_le_card (le_add_tsub (a := stock s') (b := stock s))
  rw [Multiset.card_add] at hcard
  rw [Funded, gained, h]
  omega

/-- What a run uses is bounded by what it had and what it gained. -/
theorem used_le {run : ℕ → σ} {k : ℕ} (h : ∀ i < k, Funded stock used (run i) (run (i + 1))) :
    used (run k) + (stock (run k)).card ≤ used (run 0) + (stock (run 0)).card +
      ∑ i ∈ Finset.range k, gained stock (run i) (run (i + 1)) := by
  induction k with
  | zero => simp
  | succ k ih =>
    have hrest := ih fun i hi ↦ h i (Nat.lt_succ_of_lt hi)
    have hlast := h k (Nat.lt_succ_self k)
    rw [Finset.sum_range_succ]
    unfold Funded at hlast
    omega

end Fbaodv.Foundation.Stock
