import Fbaodv.Model.DelayVector

namespace Fbaodv.Proofs.DelayLoops

open Fbaodv.Model DelayVector

variable {v p r s : List UInt32} {d delay : UInt32} {i j : ℕ}

theorem readAt_mid (h : p.length < ettProbesMax) : readAt (p ++ d :: s) p.length = some d := by
  rw [readAt, if_pos h]
  simp

theorem writeAt_mid (h : p.length < ettProbesMax) (x : UInt32) :
    writeAt (p ++ d :: s) p.length x = some (p ++ x :: s) := by
  rw [writeAt, if_pos h]
  simp

theorem shiftLoop_eq (t : ℕ) (ht : t ≤ s.length) (hlen : p.length + t < ettProbesMax) :
    shiftLoop t (p.length + t) (p ++ d :: s) = some (p ++ d :: (d :: s).take t ++ s.drop t) := by
  induction t generalizing s with
  | zero => simp [shiftLoop]
  | succ t ih =>
    obtain ⟨a, z, b, rfl, ha⟩ : ∃ a z b, s = a ++ z :: b ∧ a.length = t := by
      refine ⟨s.take t, s[t], s.drop (t + 1), ?_, List.length_take_of_le (by omega)⟩
      rw [List.getElem_cons_drop, List.take_append_drop]
    -- `y` is the delay that the turn moves to where `z` stood
    obtain ⟨a', y, hy⟩ : ∃ a' y, d :: a = a' ++ [y] :=
      ⟨_, _, (List.dropLast_concat_getLast (List.cons_ne_nil d a)).symm⟩
    have ha' : a'.length = t := by
      have hlength := congrArg List.length hy
      simp only [List.length_cons, List.length_append, List.length_nil] at hlength
      omega
    have hv : ∀ x, p ++ d :: (a ++ x :: b) = (p ++ a') ++ y :: x :: b := fun x ↦ by
      rw [← List.cons_append, hy]
      simp
    have hread : readAt (p ++ d :: (a ++ z :: b)) (p.length + (t + 1) - 1) = some y := by
      have hmid := readAt_mid (p := p ++ a') (d := y) (s := z :: b) (by simp; omega)
      rw [hv, ← hmid, List.length_append, ha']
      congr 1
    have hwrite : writeAt (p ++ d :: (a ++ z :: b)) (p.length + (t + 1)) y =
        some (p ++ d :: (a ++ y :: b)) := by
      have hmid := writeAt_mid (p := p ++ a' ++ [y]) (d := z) (s := b) (by simp; omega) y
      rw [hv, hv]
      simpa [ha'] using hmid
    rw [shiftLoop, hread, Option.bind_eq_bind, Option.bind_some, hwrite, Option.bind_eq_bind,
      Option.bind_some, Nat.add_succ_sub_one,
      ih (s := a ++ y :: b) (by rw [List.length_append]; omega) (by omega)]
    have hshort : (d :: (a ++ y :: b)).take t = a' ∧ (a ++ y :: b).drop t = y :: b := by
      rw [← List.cons_append, hy, List.append_assoc]
      exact ⟨List.take_left' ha', List.drop_left' ha⟩
    have hlong : (d :: (a ++ z :: b)).take (t + 1) = a' ++ [y] ∧ (a ++ z :: b).drop (t + 1) = b := by
      constructor
      · rw [List.take_succ_cons, List.take_left' ha, hy]
      · rw [← List.singleton_append, ← List.append_assoc]
        apply List.drop_left'
        rw [List.length_append, ha, List.length_singleton]
    rw [hshort.1, hshort.2, hlong.1, hlong.2]
    simp

/-- What `delay_vector_add` makes of the first `count` delays. -/
def addDelay (delay : UInt32) (count : ℕ) (v : List UInt32) : List UInt32 :=
  let l := v.take count
  if l.any fun d ↦ delay < d then
    ((l.takeWhile fun d ↦ !(delay < d)) ++ delay :: l.dropWhile fun d ↦ !(delay < d)).take l.length ++
      v.drop count
  else v

theorem delayVectorAdd_eq (ett : EttParams) : Node.delayVectorAdd delay ett =
    { ett with recvDelays := addDelay delay (ett.countRcv.toNat + 1) ett.recvDelays } := by
  rw [Node.delayVectorAdd, addDelay]
  dsimp only
  split <;> rfl

theorem addDelay_cons_of_lt {t : ℕ} (ht : t ≤ s.length) (h : delay < d) :
    addDelay delay (t + 1) (d :: s) = delay :: ((d :: s).take t ++ s.drop t) := by
  have htake : (d :: s.take t).take t = (d :: s).take t := by
    rw [← List.take_succ_cons, List.take_take, Nat.min_eq_left (Nat.le_succ t)]
  have hmin : min t s.length = t := Nat.min_eq_left ht
  simp [addDelay, h, hmin, htake]

theorem addDelay_cons_of_not_lt {t : ℕ} (h : ¬ delay < d) :
    addDelay delay (t + 1) (d :: s) = d :: addDelay delay t s := by
  simp only [addDelay, List.take_succ_cons, List.any_cons, h, decide_false, Bool.false_or,
    List.drop_succ_cons]
  split
  · simp [h]
  · rfl

theorem addLoop_eq (turns : ℕ) (hturns : turns ≤ s.length)
    (hlen : p.length + turns ≤ ettProbesMax) :
    addLoop delay (p.length + turns - 1) turns p.length (p ++ s) =
      some (p ++ addDelay delay turns s) := by
  induction turns generalizing p s with
  | zero => simp [addLoop, addDelay]
  | succ turns ih =>
    obtain ⟨d, s, rfl⟩ : ∃ d s', s = d :: s' := List.exists_cons_of_length_pos (by omega)
    have hread : readAt (p ++ d :: s) p.length = some d := readAt_mid (by omega)
    rw [addLoop, hread, Option.bind_eq_bind, Option.bind_some]
    split
    · next hlt =>
      have hshift := shiftLoop_eq (p := p) (d := d) (s := s) turns (by simpa using hturns) (by omega)
      have hcount : p.length + (turns + 1) - 1 - p.length = turns := by omega
      have hlast : p.length + (turns + 1) - 1 = p.length + turns := by omega
      rw [hcount, hlast, hshift, Option.bind_eq_bind, Option.bind_some, List.append_assoc,
        List.cons_append, writeAt_mid (by omega), addDelay_cons_of_lt (by simpa using hturns) hlt]
    · next hlt =>
      have hrest := ih (p := p ++ [d]) (s := s) (by simpa using hturns) (by simp; omega)
      simp only [List.length_append, List.length_singleton, List.append_assoc, List.singleton_append] at hrest
      have hlast : p.length + (turns + 1) - 1 = p.length + 1 + turns - 1 := by omega
      rw [hlast, hrest, addDelay_cons_of_not_lt hlt]

/-- Inside its array `delay_vector_add` is the insertion. -/
theorem delayVectorAdd_checked {ett : EttParams} (hlen : ett.recvDelays.length = ettProbesMax)
    (hcount : ett.countRcv.toNat < ettProbesMax) :
    DelayVector.delayVectorAdd delay ett = some (Node.delayVectorAdd delay ett) := by
  have hloop := @addLoop_eq [] ett.recvDelays delay (ett.countRcv.toNat + 1)
    (by omega) (by simp; omega)
  rw [delayVectorAdd_eq]
  simp only [List.length_nil, Nat.zero_add, Nat.add_sub_cancel, List.nil_append] at hloop
  rw [DelayVector.delayVectorAdd, hloop]
  rfl

theorem rangeLoop_eq (count : ℕ) (hlen : p.length + r.length ≤ ettProbesMax)
    (hle : ∀ x ∈ r, delay ≤ x) :
    rangeLoop (p ++ r ++ s) delay r.length p.length count =
      some (count + Node.findDelayRange delay r) := by
  induction r generalizing p count with
  | nil => rfl
  | cons x r ih =>
    have hx : delay ≤ x := hle x List.mem_cons_self
    have hread : readAt (p ++ x :: r ++ s) p.length = some x := by
      rw [List.append_assoc]
      exact readAt_mid (by simp at hlen; omega)
    have hminus : minus x delay = some (x - delay) := if_neg (UInt32.not_lt.mpr hx)
    rw [List.length_cons, rangeLoop, hread, Option.bind_eq_bind, Option.bind_some, hminus,
      Option.bind_some]
    split
    · next hclose =>
      have hrest := ih (p := p ++ [x]) (count + 1) (by simp at hlen ⊢; omega)
        fun y hy ↦ hle y (List.mem_cons_of_mem _ hy)
      simp only [List.length_append, List.length_singleton, List.append_assoc,
        List.cons_append, List.nil_append] at hrest
      rw [List.append_assoc, List.cons_append, hrest]
      simp only [Node.findDelayRange, List.takeWhile_cons, hclose, decide_true, if_true,
        List.length_cons]
      congr 1
      omega
    · next hfar => simp [Node.findDelayRange, hfar]

theorem searchLoop_eq (best : ℕ × ℕ) (hlen : p.length + r.length ≤ ettProbesMax)
    (hsorted : r.Pairwise (· ≤ ·)) :
    searchLoop (p ++ r ++ s) (p.length + r.length) r.length p.length best =
      some (Node.largestRange r p.length best) := by
  induction r generalizing p best with
  | nil => rfl
  | cons x r ih =>
    obtain ⟨hx, hr⟩ := List.pairwise_cons.mp hsorted
    simp only [List.length_cons] at hlen ⊢
    have hread : readAt (p ++ x :: r ++ s) p.length = some x := by
      rw [List.append_assoc]
      exact readAt_mid (by omega)
    have hrange : findDelayRange (p ++ x :: r ++ s) x p.length (p.length + (r.length + 1)) =
        some (Node.findDelayRange x r) := by
      have hloop := rangeLoop_eq (p := p ++ [x]) (s := s) 0 (by simp; omega) hx
      simp only [List.length_append, List.length_singleton, List.append_assoc,
        List.cons_append, List.nil_append, Nat.zero_add] at hloop
      have hturns : p.length + (r.length + 1) - (p.length + 1) = r.length := by omega
      rw [findDelayRange, hturns, List.append_assoc, List.cons_append, hloop]
    have hrest := ih (p := p ++ [x])
      (if Node.findDelayRange x r > best.2 then (p.length, Node.findDelayRange x r) else best)
      (by simp; omega) hr
    simp only [List.length_append, List.length_singleton, List.append_assoc,
      List.cons_append, List.nil_append] at hrest
    have hwindow : p.length + (r.length + 1) = p.length + 1 + r.length := by omega
    rw [searchLoop, hread, Option.bind_eq_bind, Option.bind_some, hrange, Option.bind_eq_bind,
      Option.bind_some, hwindow, List.append_assoc, List.cons_append, hrest]
    rfl

theorem sumLoop_eq (acc : UInt32) (hlen : p.length + r.length ≤ ettProbesMax)
    (hbound : ∀ x ∈ r, x ≤ defaultEttMetric)
    (hsum : acc.toNat + r.length * defaultEttMetric.toNat < UInt32.size) :
    sumLoop (p ++ r ++ s) r.length p.length acc = some (r.foldl (fun acc d ↦ d + acc) acc) := by
  induction r generalizing p acc with
  | nil => rfl
  | cons x r ih =>
    have hread : readAt (p ++ x :: r ++ s) p.length = some x := by
      rw [List.append_assoc]
      exact readAt_mid (by simp at hlen; omega)
    have hx : x.toNat ≤ defaultEttMetric.toNat :=
      UInt32.le_iff_toNat_le.mp (hbound x List.mem_cons_self)
    simp only [List.length_cons] at hlen hsum ⊢
    have hfits : x.toNat + acc.toNat < UInt32.size := by
      rw [Nat.add_mul] at hsum
      omega
    have hvalue : (x + acc).toNat = x.toNat + acc.toNat := by
      rw [UInt32.toNat_add, Nat.mod_eq_of_lt hfits]
    have hrest := ih (p := p ++ [x]) (x + acc) (by simp; omega)
      (fun y hy ↦ hbound y (List.mem_cons_of_mem _ hy)) (by
        rw [hvalue]
        rw [Nat.add_mul] at hsum
        omega)
    simp only [List.length_append, List.length_singleton, List.append_assoc,
      List.cons_append, List.nil_append] at hrest
    rw [sumLoop, hread, Option.bind_eq_bind, Option.bind_some, plus, if_pos hfits,
      Option.bind_some, List.append_assoc, List.cons_append, hrest]
    rfl

/-- A range does not reach beyond the delays it is found among. -/
theorem largestRange_bound (best : ℕ × ℕ) (hbest : best.1 + best.2 < i + r.length ∨ best.2 = 0) :
    (Node.largestRange r i best).1 + (Node.largestRange r i best).2 < i + r.length ∨
      (Node.largestRange r i best).2 = 0 := by
  induction r generalizing i best with
  | nil => exact hbest
  | cons x r ih =>
    rw [Node.largestRange, List.length_cons]
    have hcount : Node.findDelayRange x r ≤ r.length := (List.takeWhile_sublist _).length_le
    have hnext := ih (i := i + 1)
      (if Node.findDelayRange x r > best.2 then (i, Node.findDelayRange x r) else best) (by
        rw [List.length_cons] at hbest
        split
        · left
          simp only
          omega
        · omega)
    omega

theorem computeDelay_checked {ett : EttParams} (hlen : ett.recvDelays.length = ettProbesMax)
    (hwindow : ett.ettWindow.toNat ≤ ettProbesMax)
    (hsorted : (ett.recvDelays.take ett.ettWindow.toNat).Pairwise (· ≤ ·))
    (hbound : ∀ d ∈ ett.recvDelays.take ett.ettWindow.toNat, d ≤ defaultEttMetric) :
    DelayVector.computeDelay ett = some (Node.computeDelay ett) := by
  have hmax : ettProbesMax = 10 := rfl
  have hmetric : defaultEttMetric.toNat = 1000000 := rfl
  generalize hw : ett.ettWindow.toNat = w at hwindow hsorted hbound
  have htake : (ett.recvDelays.take w).length = w := List.length_take_of_le (by omega)
  have hsearch := searchLoop_eq (p := []) (r := ett.recvDelays.take w) (s := ett.recvDelays.drop w)
    (0, 0) (by simp; omega) hsorted
  simp only [List.length_nil, Nat.zero_add, List.nil_append, List.take_append_drop, htake] at hsearch
  have hreach := largestRange_bound (r := ett.recvDelays.take w) (i := 0) (0, 0) (.inr rfl)
  rw [htake] at hreach
  rw [DelayVector.computeDelay, Node.computeDelay, hw]
  simp only [hsearch, Option.bind_eq_bind, Option.bind_some]
  generalize Node.largestRange (ett.recvDelays.take w) 0 (0, 0) = found at hreach ⊢
  obtain ⟨pos, count⟩ := found
  simp only at hreach ⊢
  split
  · rfl
  · next hmany =>
    have hfits : pos + (count + 1) ≤ w := by omega
    have hrange : ((ett.recvDelays.drop pos).take (count + 1)).length = count + 1 := by
      rw [List.length_take_of_le (by rw [List.length_drop]; omega)]
    have hpos : (ett.recvDelays.take pos).length = pos := List.length_take_of_le (by omega)
    have hmem : (ett.recvDelays.drop pos).take (count + 1) ⊆ ett.recvDelays.take w := by
      have hsub : (ett.recvDelays.drop pos).take (count + 1) = (ett.recvDelays.take (pos + (count + 1))).drop pos := by
        rw [List.take_drop]
      rw [hsub, ← Nat.min_eq_left hfits, ← List.take_take]
      exact fun d hd ↦ List.mem_of_mem_take (List.mem_of_mem_drop hd)
    have hsum := sumLoop_eq (p := ett.recvDelays.take pos)
      (r := (ett.recvDelays.drop pos).take (count + 1))
      (s := (ett.recvDelays.drop pos).drop (count + 1)) 0 (by omega)
      (fun d hd ↦ hbound d (hmem hd)) (by
        rw [hrange, hmetric]
        have hzero : (0 : UInt32).toNat = 0 := rfl
        have hsize : UInt32.size = 4294967296 := rfl
        omega)
    rw [List.append_assoc, List.take_append_drop, List.take_append_drop, hrange, hpos] at hsum
    rw [hsum]
    rfl

end Fbaodv.Proofs.DelayLoops
