import Fbaodv.Foundation.Clusters
import Fbaodv.Proofs.DelayLoops
import Mathlib.Algebra.Order.BigOperators.Group.List
import Mathlib.Algebra.Order.Ring.Nat

namespace Fbaodv.Proofs.DelayClusters

open Fbaodv.Model Fbaodv.Foundation Fbaodv.Foundation.Clusters
open Fbaodv.Proofs.DelayLoops

/-- The upper end of the range of delays that begins at `a`. -/
def rangeEnd (a : ℕ) : ℕ := a + ettRange.toNat

/-- The measurements of a window. -/
def measured (e : EttParams) : List ℕ := (e.recvDelays.take e.ettWindow.toNat).map UInt32.toNat

theorem le_rangeEnd (a : ℕ) : a ≤ rangeEnd a := Nat.le_add_right a _

theorem rangeEnd_mono : Monotone rangeEnd := fun _ _ h ↦ Nat.add_le_add_right h _

section Ranges

variable {l : List UInt32} {d : UInt32} {i : ℕ}

theorem takeWhile_congr {α : Type} {p q : α → Bool} {l : List α} (h : ∀ a ∈ l, p a = q a) :
    l.takeWhile p = l.takeWhile q := by
  induction l with
  | nil => rfl
  | cons a l ih =>
    rw [List.takeWhile_cons, List.takeWhile_cons, h a List.mem_cons_self,
      ih fun b hb ↦ h b (List.mem_cons_of_mem _ hb)]

theorem map_sorted (hl : l.Pairwise (· ≤ ·)) : (l.map UInt32.toNat).Pairwise (· ≤ ·) :=
  List.pairwise_map.mpr (hl.imp fun h ↦ UInt32.le_iff_toNat_le.mp h)

/-- `find_delay_range` counts the others in the range that begins with a delay. -/
theorem findDelayRange_eq (hl : (d :: l).Pairwise (· ≤ ·)) :
    (headCluster rangeEnd ((d :: l).map UInt32.toNat)).length = Node.findDelayRange d l + 1 := by
  have hsorted := map_sorted hl
  rw [List.map_cons] at hsorted ⊢
  rw [headCluster_cons le_rangeEnd hsorted, List.length_cons, List.takeWhile_map, List.length_map,
    Node.findDelayRange]
  refine congrArg (fun l : List UInt32 ↦ l.length + 1) (takeWhile_congr fun d' hd' ↦ ?_)
  have hle := (List.pairwise_cons.mp hl).1 d' hd'
  have hle' := UInt32.le_iff_toNat_le.mp hle
  rw [Function.comp_apply, decide_eq_decide, UInt32.le_iff_toNat_le, UInt32.toNat_sub_of_le _ _ hle, rangeEnd]
  omega

/-- The search of `compute_delay` is for the largest such range. -/
theorem largestRange_eq (hl : l.Pairwise (· ≤ ·)) (best : ℕ × ℕ) : Node.largestRange l i best =
    firstMax (fun l ↦ (headCluster rangeEnd l).length - 1) (l.map UInt32.toNat) i best := by
  induction l generalizing i best with
  | nil => rfl
  | cons d l ih =>
    have hsize : (headCluster rangeEnd (d.toNat :: l.map UInt32.toNat)).length = Node.findDelayRange d l + 1 :=
      findDelayRange_eq hl
    rw [Node.largestRange, List.map_cons, firstMax, hsize, Nat.add_sub_cancel, ih (List.pairwise_cons.mp hl).2]

/-- The delays of such a range stand next to each other. -/
theorem headCluster_eq_take {k : ℕ} (hl : l.Pairwise (· ≤ ·)) (hk : k < l.length) :
    headCluster rangeEnd ((l.map UInt32.toNat).drop k) =
      ((l.drop k).take (headCluster rangeEnd ((l.map UInt32.toNat).drop k)).length).map UInt32.toNat := by
  have hdrop : (l.map UInt32.toNat).drop k = (l.drop k).map UInt32.toNat := (List.map_drop).symm
  have hcons : l.drop k = l[k] :: l.drop (k + 1) := List.drop_eq_getElem_cons hk
  have hsorted : ((l.drop k).map UInt32.toNat).Pairwise (· ≤ ·) := map_sorted (hl.sublist (List.drop_sublist k l))
  rw [hdrop, List.map_take]
  refine List.prefix_iff_eq_take.mp ?_
  rw [hcons, List.map_cons] at hsorted ⊢
  rw [headCluster_cons le_rangeEnd hsorted]
  exact List.prefix_cons_inj _ |>.mpr (List.takeWhile_prefix _)

theorem foldl_delay (l : List UInt32) (acc : UInt32) : (l.foldl (fun acc d ↦ d + acc) acc).toNat =
    (acc.toNat + (l.map UInt32.toNat).sum) % 2 ^ 32 := by
  induction l generalizing acc with
  | nil => simp [Nat.mod_eq_of_lt acc.toNat_lt]
  | cons d l ih =>
    rw [List.foldl_cons, ih, UInt32.toNat_add, List.map_cons, List.sum_cons]
    omega

end Ranges

theorem sum_headCluster_le {e : EttParams}
    (hbound : ∀ d ∈ e.recvDelays.take e.ettWindow.toNat, d ≤ defaultEttMetric) (k : ℕ) :
    (headCluster rangeEnd ((measured e).drop k)).sum ≤
      (headCluster rangeEnd ((measured e).drop k)).length * defaultEttMetric.toNat := by
  refine List.sum_le_card_nsmul _ _ fun d hd ↦ ?_
  have hmem : d ∈ measured e := List.mem_of_mem_drop ((headCluster_sublist _ _).subset hd)
  obtain ⟨d', hd', rfl⟩ := List.mem_map.mp hmem
  exact UInt32.le_iff_toNat_le.mp (hbound d' hd')

/-- The sum over the largest range is that of its measurements. -/
theorem sum_of_headCluster {e : EttParams} {k count : ℕ} (hlen : e.recvDelays.length = ettProbesMax)
    (hwindow : e.ettWindow.toNat ≤ ettProbesMax)
    (hsorted : (e.recvDelays.take e.ettWindow.toNat).Pairwise (· ≤ ·))
    (hbound : ∀ d ∈ e.recvDelays.take e.ettWindow.toNat, d ≤ defaultEttMetric) (hk : k < (measured e).length)
    (hsize : (headCluster rangeEnd ((measured e).drop k)).length = count + 1) :
    (((e.recvDelays.drop k).take (count + 1)).foldl (fun acc d ↦ d + acc) 0).toNat =
        (headCluster rangeEnd ((measured e).drop k)).sum ∧ count + 1 ≤ ettProbesMax := by
  have hmax : ettProbesMax = 10 := rfl
  have hmetric : defaultEttMetric.toNat = 1000000 := rfl
  have hle := sum_headCluster_le hbound k
  rw [hsize, hmetric] at hle
  generalize hv : e.recvDelays.take e.ettWindow.toNat = v at hsorted hbound
  have hmeasured : measured e = v.map UInt32.toNat := by rw [measured, hv]
  have hvlen : v.length = e.ettWindow.toNat := by
    rw [← hv]
    exact List.length_take_of_le (by omega)
  rw [hmeasured, List.length_map] at hk
  rw [hmeasured] at hsize hle ⊢
  have hrun := headCluster_eq_take hsorted hk
  rw [hsize] at hrun
  have hfits : count + 1 ≤ v.length - k := by
    have hlength := congrArg List.length hrun
    rw [hsize, List.length_map, List.length_take, List.length_drop] at hlength
    omega
  have hsame : (v.drop k).take (count + 1) = (e.recvDelays.drop k).take (count + 1) := by
    rw [← hv, List.drop_take, List.take_take, Nat.min_eq_left (by omega)]
  refine ⟨?_, by omega⟩
  rw [← hsame, foldl_delay, ← hrun, UInt32.toNat_zero, Nat.zero_add]
  exact Nat.mod_eq_of_lt (by omega)

/-- The cluster that `compute_delay` takes. -/
structure TakesCluster (e : EttParams) (i : ℕ) (found : List ℕ) : Prop where
  inside : i < (measured e).length
  run : found = headCluster rangeEnd ((measured e).drop i)
  largest : ∀ j < (measured e).length, (headCluster rangeEnd ((measured e).drop j)).length ≤ found.length
  first : ∀ j < i, (headCluster rangeEnd ((measured e).drop j)).length < found.length
  all : ∀ a, (cluster rangeEnd (measured e) a).length ≤ found.length

theorem computeDelay_spec {e : EttParams} (hlen : e.recvDelays.length = ettProbesMax)
    (hwindow : e.ettWindow.toNat ≤ ettProbesMax)
    (hsorted : (e.recvDelays.take e.ettWindow.toNat).Pairwise (· ≤ ·))
    (hbound : ∀ d ∈ e.recvDelays.take e.ettWindow.toNat, d ≤ defaultEttMetric) :
    (Node.computeDelay e = (0, e) ∧ ∀ a, (cluster rangeEnd (measured e) a).length < 3) ∨
    ∃ i found delay, TakesCluster e i found ∧ (∃ a, 3 ≤ (cluster rangeEnd (measured e) a).length) ∧
      delay.toNat = found.sum / found.length ∧
      Node.computeDelay e = (delay, { e with recvDelays := Node.delayVectorInit }) := by
  have hmeasured : (measured e).Pairwise (· ≤ ·) := map_sorted hsorted
  have hsearch := largestRange_eq (i := 0) hsorted (0, 0)
  change Node.largestRange _ 0 (0, 0) = firstMax _ (measured e) 0 (0, 0) at hsearch
  have hlargest := (le_firstMax (fun l ↦ (headCluster rangeEnd l).length - 1) (measured e) 0 (0, 0)).2
  have hfound := firstMax_found (fun l ↦ (headCluster rangeEnd l).length - 1) (measured e) 0 (0, 0)
  rw [← hsearch] at hlargest hfound
  unfold Node.computeDelay
  dsimp only
  clear hsearch
  generalize Node.largestRange (e.recvDelays.take e.ettWindow.toNat) 0 (0, 0) = best at *
  obtain ⟨maxPos, maxCount⟩ := best
  dsimp only at hlargest ⊢
  have hcluster : ∀ a, (cluster rangeEnd (measured e) a).length ≤ maxCount + 1 := by
    intro a
    rcases eq_or_ne (cluster rangeEnd (measured e) a) [] with hnil | hne
    · rw [hnil]
      exact Nat.zero_le _
    · obtain ⟨i, hi, hle⟩ := exists_headCluster rangeEnd_mono hmeasured hne
      have hsize := hlargest i hi
      omega
  split
  · next hfew =>
    refine .inl ⟨rfl, fun a ↦ ?_⟩
    have hle := hcluster a
    omega
  · next hmany =>
    rcases hfound with hnone | ⟨k, hk, hbest, -, hfirst⟩
    · cases hnone
      exact absurd (by decide) hmany
    obtain ⟨rfl, hcount⟩ : maxPos = 0 + k ∧ maxCount = _ := Prod.mk.inj hbest
    rw [Nat.zero_add]
    have hsize : (headCluster rangeEnd ((measured e).drop k)).length = maxCount + 1 := by omega
    obtain ⟨hsum, hfits⟩ := sum_of_headCluster hlen hwindow hsorted hbound hk hsize
    refine .inr ⟨k, _, _, ⟨hk, rfl, fun j hj ↦ ?_, fun j hj ↦ ?_, fun a ↦ ?_⟩, ⟨(measured e)[k], ?_⟩, ?_, rfl⟩
    · have hle := hlargest j hj
      omega
    · have hlt := hfirst j hj
      omega
    · rw [hsize]
      exact hcluster a
    · have hle : (headCluster rangeEnd ((measured e).drop k)).length ≤
          (cluster rangeEnd (measured e) (measured e)[k]).length := headCluster_drop hmeasured hk
      omega
    · have hmax : ettProbesMax = 10 := rfl
      have hcount : (UInt32.ofNat (maxCount + 1)).toNat = maxCount + 1 := by
        rw [UInt32.toNat_ofNat']
        omega
      rw [UInt32.toNat_div, hsum, hcount, hsize]

/-- When three measurements of the window are close together, `compute_delay`
returns the mean of the first largest cluster, and resets the delays. When not,
it returns 0 and leaves them. -/
theorem compute_delay_largest_cluster (e : EttParams) (hlen : e.recvDelays.length = ettProbesMax)
    (hwindow : e.ettWindow.toNat ≤ ettProbesMax)
    (hsorted : (e.recvDelays.take e.ettWindow.toNat).Pairwise (· ≤ ·))
    (hbound : ∀ d ∈ e.recvDelays.take e.ettWindow.toNat, d ≤ defaultEttMetric) :
    ((∃ a, 3 ≤ (cluster rangeEnd (measured e) a).length) → ∃ i found delay, TakesCluster e i found ∧
      delay.toNat = found.sum / found.length ∧
      DelayVector.computeDelay e = some (delay, { e with recvDelays := Node.delayVectorInit })) ∧
    ((¬ ∃ a, 3 ≤ (cluster rangeEnd (measured e) a).length) → DelayVector.computeDelay e = some (0, e)) := by
  rw [computeDelay_checked hlen hwindow hsorted hbound]
  rcases computeDelay_spec hlen hwindow hsorted hbound with ⟨hzero, hfew⟩ | ⟨i, found, delay, htakes, hmany, hmean, h⟩
  · exact ⟨fun ⟨a, ha⟩ ↦ absurd ha (not_le.mpr (hfew a)), fun _ ↦ congrArg some hzero⟩
  · exact ⟨fun _ ↦ ⟨i, found, delay, htakes, hmean, congrArg some h⟩, fun hnone ↦ absurd hmany hnone⟩

/-- Four measurements of which the first three lie within 50 microseconds. -/
def threeClose : EttParams where
  countRcv := 4
  lastCount := 4
  ettWindow := 4
  sec := 0
  usec := 0
  measDelay := defaultEttMetric
  recvDelays := [300, 310, 350, 900] ++ List.replicate 6 defaultEttMetric
  reset := 0
  interval := ettFastInterval
  fixedRate := 0

theorem compute_delay_three_close : ∃ delay, DelayVector.computeDelay threeClose =
    some (delay, { threeClose with recvDelays := Node.delayVectorInit }) := by
  have hall : (threeClose.recvDelays.take threeClose.ettWindow.toNat).all (· ≤ defaultEttMetric) := by decide
  have hbound : ∀ d ∈ threeClose.recvDelays.take threeClose.ettWindow.toNat, d ≤ defaultEttMetric :=
    fun d hd ↦ of_decide_eq_true (List.all_eq_true.mp hall d hd)
  obtain ⟨hclose, -⟩ := compute_delay_largest_cluster threeClose rfl (by decide) (by decide) hbound
  obtain ⟨-, -, delay, -, -, h⟩ := hclose ⟨300, by decide⟩
  exact ⟨delay, h⟩

end Fbaodv.Proofs.DelayClusters
