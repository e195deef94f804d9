import Fbaodv.Foundation.OrderedList

namespace Fbaodv.Foundation.Clusters

section FirstMax

variable {α : Type}

/-- The first position at which `size`, a number read off the list from there on,
is largest, and that number, if it exceeds the best one so far. -/
def firstMax (size : List α → ℕ) : List α → ℕ → ℕ × ℕ → ℕ × ℕ
  | [], _, best => best
  | d :: l, i, best => firstMax size l (i + 1) (if size (d :: l) > best.2 then (i, size (d :: l)) else best)

variable (size : List α → ℕ)

theorem le_firstMax (l : List α) (i : ℕ) (best : ℕ × ℕ) : best.2 ≤ (firstMax size l i best).2 ∧
    ∀ j < l.length, size (l.drop j) ≤ (firstMax size l i best).2 := by
  induction l generalizing i best with
  | nil => exact ⟨le_rfl, fun j hj ↦ absurd hj (Nat.not_lt_zero j)⟩
  | cons d l ih =>
    obtain ⟨hbest, hrest⟩ := ih (i + 1) (if size (d :: l) > best.2 then (i, size (d :: l)) else best)
    rw [firstMax]
    have hboth : best.2 ≤ (if size (d :: l) > best.2 then (i, size (d :: l)) else best).2 ∧
        size (d :: l) ≤ (if size (d :: l) > best.2 then (i, size (d :: l)) else best).2 := by
      split
      · next hgt => exact ⟨hgt.le, le_rfl⟩
      · next hgt => exact ⟨le_rfl, not_lt.mp hgt⟩
    refine ⟨hboth.1.trans hbest, fun j hj ↦ ?_⟩
    cases j with
    | zero => exact hboth.2.trans hbest
    | succ j => exact hrest j (Nat.lt_of_succ_lt_succ hj)

theorem firstMax_found (l : List α) (i : ℕ) (best : ℕ × ℕ) : firstMax size l i best = best ∨
    ∃ k < l.length, firstMax size l i best = (i + k, size (l.drop k)) ∧ best.2 < size (l.drop k) ∧
      ∀ j < k, size (l.drop j) < size (l.drop k) := by
  induction l generalizing i best with
  | nil => exact .inl rfl
  | cons d l ih =>
    rw [firstMax]
    rcases ih (i + 1) (if size (d :: l) > best.2 then (i, size (d :: l)) else best) with h | ⟨k, hk, h, hlt, hfirst⟩
    · rw [h]
      split
      · next hgt =>
        exact .inr ⟨0, Nat.succ_pos _, by simp, hgt, fun j hj ↦ absurd hj (Nat.not_lt_zero j)⟩
      · exact .inl rfl
    · have hboth : best.2 < size (l.drop k) ∧ size (d :: l) < size (l.drop k) := by
        split at hlt
        · next hgt => exact ⟨hgt.trans hlt, hlt⟩
        · next hgt => exact ⟨hlt, (not_lt.mp hgt).trans_lt hlt⟩
      refine .inr ⟨k + 1, Nat.succ_lt_succ hk, ?_, hboth.1, fun j hj ↦ ?_⟩
      · rw [h, List.drop_succ_cons]
        congr 1
        omega
      · cases j with
        | zero => exact hboth.2
        | succ j => exact hfirst j (Nat.lt_of_succ_lt_succ hj)

end FirstMax

variable {α : Type} [LinearOrder α]

/-- The members of the list in the interval from `a` to `upper a`. -/
def cluster (upper : α → α) (l : List α) (a : α) : List α := l.filter fun d ↦ a ≤ d ∧ d ≤ upper a

/-- The members in the interval that begins with the first of the list. -/
def headCluster (upper : α → α) : List α → List α
  | [] => []
  | a :: l => (a :: l).filter fun d ↦ d ≤ upper a

variable {upper : α → α} {l : List α} {a : α}

theorem headCluster_sublist (upper : α → α) (l : List α) : (headCluster upper l).Sublist l := by
  cases l with
  | nil => exact List.Sublist.refl _
  | cons a l => exact List.filter_sublist

/-- On a sorted list such an interval is a run. -/
theorem headCluster_cons (hupper : ∀ a, a ≤ upper a) (hl : (a :: l).Pairwise (· ≤ ·)) :
    headCluster upper (a :: l) = a :: l.takeWhile fun d ↦ d ≤ upper a := by
  rw [headCluster, List.filter_cons_of_pos (by simpa using hupper a),
    OrderedList.takeWhile_eq_filter (List.pairwise_cons.mp hl).2]
  intro b _ c _ hbc hc
  exact decide_eq_true (hbc.trans (of_decide_eq_true hc))

/-- On a sorted list no interval has more members than one that begins with a
member. -/
theorem exists_headCluster (hupper : Monotone upper) (hl : l.Pairwise (· ≤ ·)) (hne : cluster upper l a ≠ []) :
    ∃ i < l.length, (cluster upper l a).length ≤ (headCluster upper (l.drop i)).length := by
  induction l with
  | nil => exact absurd rfl hne
  | cons b l ih =>
    obtain ⟨hb, hl'⟩ := List.pairwise_cons.mp hl
    by_cases hin : a ≤ b ∧ b ≤ upper a
    · refine ⟨0, Nat.succ_pos _, ?_⟩
      have hsub : ∀ d, decide (a ≤ d ∧ d ≤ upper a) = true → decide (d ≤ upper b) = true := by
        intro d hd
        exact decide_eq_true ((of_decide_eq_true hd).2.trans (hupper hin.1))
      exact (List.monotone_filter_right (b :: l) hsub).length_le
    · have hrest : cluster upper (b :: l) a = cluster upper l a :=
        List.filter_cons_of_neg fun h ↦ hin (of_decide_eq_true h)
      rw [hrest] at hne ⊢
      obtain ⟨i, hi, hle⟩ := ih hl' hne
      exact ⟨i + 1, Nat.succ_lt_succ hi, hle⟩

theorem headCluster_drop {i : ℕ} (hl : l.Pairwise (· ≤ ·)) (hi : i < l.length) :
    (headCluster upper (l.drop i)).length ≤ (cluster upper l l[i]).length := by
  have hdrop : l.drop i = l[i] :: l.drop (i + 1) := List.drop_eq_getElem_cons hi
  have hsorted : (l[i] :: l.drop (i + 1)).Pairwise (· ≤ ·) := hdrop ▸ hl.sublist (List.drop_sublist i l)
  have hcluster : headCluster upper (l.drop i) = cluster upper (l.drop i) l[i] := by
    rw [hdrop, headCluster, cluster]
    refine List.filter_congr fun d hd ↦ ?_
    have hle : l[i] ≤ d := by
      rcases List.mem_cons.mp hd with rfl | hd
      · exact le_rfl
      · exact (List.pairwise_cons.mp hsorted).1 d hd
    simp [hle]
  rw [hcluster]
  exact ((List.drop_sublist i l).filter _).length_le

end Fbaodv.Foundation.Clusters
