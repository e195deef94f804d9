import Mathlib.Data.Nat.Digits.Lemmas

namespace Fbaodv.Foundation

/-- The number that digits spell, the highest first. -/
def spelled (b : ℕ) (l : List ℕ) : ℕ := l.foldl (fun v d => v * b + d) 0

/-- The digits of a number, the highest first and none superfluous. -/
def numeral (b n : ℕ) : List ℕ := if n = 0 then [0] else (b.digits n).reverse

structure IsNumeral (b : ℕ) (l : List ℕ) : Prop where
  ne_nil : l ≠ []
  lt_base : ∀ d ∈ l, d < b
  lead : l.head? = some 0 → l = [0]

variable {b : ℕ}

theorem spelled_eq (b : ℕ) (l : List ℕ) : spelled b l = Nat.ofDigits b l.reverse := by
  rw [Nat.ofDigits_eq_foldr, List.foldr_reverse, spelled]
  congr 1
  funext v d
  rw [Nat.cast_id, mul_comm, add_comm]

theorem spelled_numeral (b n : ℕ) : spelled b (numeral b n) = n := by
  by_cases hn : n = 0
  · subst hn
    rw [numeral, if_pos rfl, spelled_eq, List.reverse_singleton, Nat.ofDigits_singleton]
  · rw [numeral, if_neg hn, spelled_eq, List.reverse_reverse, Nat.ofDigits_digits]

theorem isNumeral_numeral (hb : 1 < b) (n : ℕ) : IsNumeral b (numeral b n) := by
  by_cases hn : n = 0
  · subst hn
    refine ⟨by simp [numeral], ?_, fun _ => by simp [numeral]⟩
    intro d hd
    rw [numeral, if_pos rfl, List.mem_singleton] at hd
    omega
  · have hne : b.digits n ≠ [] := Nat.digits_ne_nil_iff_ne_zero.mpr hn
    rw [numeral, if_neg hn]
    refine ⟨by simpa using hne, ?_, ?_⟩
    · intro d hd
      exact Nat.digits_lt_base hb (List.mem_reverse.mp hd)
    · intro h
      rw [List.head?_reverse, List.getLast?_eq_some_getLast hne, Option.some.injEq] at h
      exact absurd h (Nat.getLast_digit_ne_zero b hn)

/-- A numeral without superfluous zeros is the one of the number that it spells. -/
theorem numeral_spelled (hb : 1 < b) {l : List ℕ} (hl : IsNumeral b l) :
    numeral b (spelled b l) = l := by
  by_cases hlead : l.head? = some 0
  · rw [hl.lead hlead, spelled_eq, List.reverse_singleton, Nat.ofDigits_singleton, numeral,
      if_pos rfl]
  · have hne : l.reverse ≠ [] := by simpa using hl.ne_nil
    have hdigits : b.digits (Nat.ofDigits b l.reverse) = l.reverse := by
      apply Nat.digits_ofDigits b hb
      · intro d hd
        exact hl.lt_base d (List.mem_reverse.mp hd)
      · intro _ hlast
        apply hlead
        rw [List.getLast_reverse] at hlast
        rw [List.head?_eq_some_head hl.ne_nil, hlast]
    have hpos : Nat.ofDigits b l.reverse ≠ 0 := by
      intro h
      rw [h, Nat.digits_zero] at hdigits
      exact hne hdigits.symm
    rw [spelled_eq, numeral, if_neg hpos, hdigits, List.reverse_reverse]

theorem numeral_length_le (hb : 1 < b) {n k : ℕ} (hk : 0 < k) (hn : n < b ^ k) :
    (numeral b n).length ≤ k := by
  by_cases h : n = 0
  · rw [numeral, if_pos h, List.length_singleton]
    exact hk
  · rw [numeral, if_neg h, List.length_reverse, Nat.digits_length_le_iff hb]
    exact hn

end Fbaodv.Foundation
