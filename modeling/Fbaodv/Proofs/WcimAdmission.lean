import Fbaodv.Foundation.Pointwise
import Fbaodv.Proofs.NeighLoss
import Mathlib.Algebra.Order.BigOperators.Group.List
import Mathlib.Tactic.Ring

namespace Fbaodv.Proofs.WcimAdmission

open Fbaodv.Foundation Fbaodv.Foundation.Pointwise Fbaodv.Model Fbaodv.Model.Node
open Fbaodv.Proofs.PacketDiscovery

/-- `alpha` for a neighbour of the receiver. -/
def alpha (x : AodvNeigh) (ip : Ip) : ℕ := if hearsOf x ip then 1 else 2

/-- Twice `alpha` for a neighbour of a neighbour. -/
def alpha2h (x : AodvNeigh) (ip : Ip) : ℕ := if hearsOf x ip then 2 else 1

/-- The load around the receiver, with `x` as the transmitter. -/
def exactLoad (x : AodvNeigh) (n : Node) : ℕ :=
  n.routing.load.toNat + x.loadMetric.load.toNat +
    ((n.aodvNeighList.filter fun y ↦ y.ip != x.ip).map fun y ↦
      alpha x y.ip * y.loadMetric.load.toNat).sum +
    (n.aodvNeighList2h.map fun y ↦ alpha2h x y.ip * y.load.toNat / 2).sum

/-- The bandwidth of the link from `x` for a flow, in Kbps. -/
def exactBandwidth (flow : FlowType) (x : AodvNeigh) : ℕ :=
  x.recvRate.toNat * x.etxMetric.toNat * (computeCoef flow.avgSize x.recvRate).toNat / 100

/-- Whether the bandwidth that is left carries the flow, in exact integers. -/
def Admissible (flow : FlowType) (x : AodvNeigh) (n : Node) : Prop :=
  (flow.avgRate.toNat : ℤ) < (exactBandwidth flow x : ℤ) * (100 - (exactLoad x n : ℤ)) / 100

/-- `wcim_metric` returns 0. -/
def Admits (x : AodvNeigh) (tos : UInt8) (pathMetric : UInt32) (n : Node) : Prop :=
  ∃ pathMetric', n.wcimMetric x tos pathMetric = some (some pathMetric')

/-- What is left of a bandwidth `b < 65536` at a load `l < 256`, as a number of
16 bits. -/
def residual (b l : ℕ) : ℕ :=
  if l ≤ 100 then b * (100 - l) / 100 else (65536 - b * (l - 100) / 100 % 65536) % 65536

/-- When no loss of high bits changes the decision: at a load below 100 the low
half of the bandwidth is enough if all of it is, and from 100 on what the low
bits say is no more than the rate. -/
def Agrees (bandwidth load rate : ℕ) : Prop :=
  if load < 100 then
    bandwidth * (100 - load) < 100 * (rate + 1) ∨ 100 * (rate + 1) ≤ bandwidth % 65536 * (100 - load)
  else if load % 256 ≤ 100 then bandwidth % 65536 * (100 - load % 256) < 100 * (rate + 1)
  else
    bandwidth % 65536 * (load % 256 - 100) / 100 % 65536 = 0 ∨
      65536 ≤ bandwidth % 65536 * (load % 256 - 100) / 100 % 65536 + rate

/-- The same neighbours at a higher load. -/
structure Busier (x x' : AodvNeigh) (n n' : Node) : Prop where
  ip : x'.ip = x.ip
  recvRate : x'.recvRate = x.recvRate
  sendRate : x'.sendRate = x.sendRate
  etxMetric : x'.etxMetric = x.etxMetric
  neighTx : x'.loadMetric.neighTx = x.loadMetric.neighTx
  load : x.loadMetric.load ≤ x'.loadMetric.load
  own : n'.routing.load = n.routing.load
  neigh : List.Forall₂ (fun y y' : AodvNeigh ↦ y'.ip = y.ip ∧ y.loadMetric.load ≤ y'.loadMetric.load)
    n.aodvNeighList n'.aodvNeighList
  neigh2h : List.Forall₂ (fun y y' : AodvNeigh2h ↦ y'.ip = y.ip ∧ y.load ≤ y'.load)
    n.aodvNeighList2h n'.aodvNeighList2h

variable {n n' : Node} {x x' : AodvNeigh} {tos : UInt8} {flow : FlowType} {pathMetric : UInt32}

section Load

theorem foldl_add_toNat {α : Type} {f : α → UInt8} {g : α → ℕ} (h : ∀ y, (f y).toNat = g y % 256)
    (l : List α) (a : UInt8) :
    (l.foldl (fun load y ↦ load + f y) a).toNat = (a.toNat + (l.map g).sum) % 256 := by
  induction l generalizing a with
  | nil =>
    have ha := a.toNat_lt
    simp only [List.foldl_nil, List.map_nil, List.sum_nil, Nat.add_zero]
    omega
  | cons y l ih =>
    rw [List.foldl_cons, ih, UInt8.toNat_add, h, List.map_cons, List.sum_cons]
    omega

theorem sum_transmitter {l : List AodvNeigh} (hx : x ∈ l) (hips : (l.map AodvNeigh.ip).Nodup) (g : AodvNeigh → ℕ) :
    (l.map fun y ↦ if y.ip = x.ip then x.loadMetric.load.toNat else g y).sum =
      x.loadMetric.load.toNat + ((l.filter fun y ↦ y.ip != x.ip).map g).sum := by
  induction l with
  | nil => cases hx
  | cons y l ih =>
    obtain ⟨hy, hips⟩ := List.nodup_cons.mp (List.map_cons ▸ hips)
    rcases List.mem_cons.mp hx with rfl | hx
    · have hothers : ∀ z ∈ l, z.ip ≠ x.ip := fun z hz hip ↦ hy (hip ▸ List.mem_map_of_mem hz)
      have hself : l.filter (fun z ↦ z.ip != x.ip) = l :=
        List.filter_eq_self.mpr fun z hz ↦ by simpa using hothers z hz
      rw [List.map_cons, List.sum_cons, if_pos rfl, List.filter_cons_of_neg (by simp), hself]
      refine congrArg _ (congrArg List.sum (List.map_congr_left fun z hz ↦ ?_))
      rw [if_neg (hothers z hz)]
    · have hne : y.ip ≠ x.ip := fun hip ↦ hy (hip ▸ List.mem_map_of_mem hx)
      rw [List.map_cons, List.sum_cons, if_neg hne, ih hx hips, List.filter_cons_of_pos (by simpa using hne),
        List.map_cons, List.sum_cons]
      omega

/-- The load that `wcim_metric` computes is the low byte of the load. -/
theorem wcimLoad_toNat (hx : x ∈ n.aodvNeighList) (hips : (n.aodvNeighList.map AodvNeigh.ip).Nodup) :
    (n.wcimLoad x).toNat = exactLoad x n % 256 := by
  have hneigh : (n.aodvNeighList.foldl (fun load y ↦
      if y.ip == x.ip then load + x.loadMetric.load
      else load + y.loadMetric.load * (if hearsOf x y.ip then 1 else 2)) n.routing.load).toNat =
      (n.routing.load.toNat + (x.loadMetric.load.toNat +
        ((n.aodvNeighList.filter fun y ↦ y.ip != x.ip).map fun y ↦
          alpha x y.ip * y.loadMetric.load.toNat).sum)) % 256 := by
    rw [← sum_transmitter hx hips, ← foldl_add_toNat (f := fun y : AodvNeigh ↦
      if y.ip = x.ip then x.loadMetric.load else y.loadMetric.load * (if hearsOf x y.ip then 1 else 2))]
    · refine congrArg UInt8.toNat (congrArg (List.foldl · _ _) (funext fun load ↦ funext fun y ↦ ?_))
      by_cases hip : y.ip = x.ip
      · simp [hip]
      · simp [hip]
    · intro y
      have hload := x.loadMetric.load.toNat_lt
      unfold alpha
      split
      · omega
      split
      · simp
      · rw [UInt8.toNat_mul, Nat.mul_comm]
        rfl
  unfold wcimLoad exactLoad
  dsimp only
  rw [foldl_add_toNat (g := fun y : AodvNeigh2h ↦ alpha2h x y.ip * y.load.toNat / 2), hneigh]
  · omega
  · intro y
    rw [UInt8.toNat_ofNat', Nat.mul_comm]
    rfl

theorem Busier.exactLoad_le (h : Busier x x' n n') : exactLoad x n ≤ exactLoad x' n' := by
  have hhears : ∀ ip, hearsOf x' ip = hearsOf x ip := fun ip ↦ by rw [hearsOf, hearsOf, h.neighTx]
  have hneigh : ((n.aodvNeighList.filter fun y ↦ y.ip != x.ip).map fun y ↦
      alpha x y.ip * y.loadMetric.load.toNat).sum ≤
      ((n'.aodvNeighList.filter fun y ↦ y.ip != x'.ip).map fun y ↦
        alpha x' y.ip * y.loadMetric.load.toNat).sum := by
    refine List.Forall₂.sum_le_sum (List.forall₂_map_left_iff.mpr (List.forall₂_map_right_iff.mpr ?_))
    refine (List.rel_filter (fun y y' hy ↦ ?_) h.neigh).imp fun y y' hy ↦ ?_
    · dsimp only
      rw [hy.1, h.ip]
    · rw [alpha, alpha, hy.1, hhears]
      exact Nat.mul_le_mul_left _ hy.2
  have hneigh2h : (n.aodvNeighList2h.map fun y ↦ alpha2h x y.ip * y.load.toNat / 2).sum ≤
      (n'.aodvNeighList2h.map fun y ↦ alpha2h x' y.ip * y.load.toNat / 2).sum := by
    refine List.Forall₂.sum_le_sum (List.forall₂_map_left_iff.mpr (List.forall₂_map_right_iff.mpr ?_))
    refine h.neigh2h.imp fun y y' hy ↦ ?_
    rw [alpha2h, alpha2h, hy.1, hhears]
    exact Nat.div_le_div_right (Nat.mul_le_mul_left _ hy.2)
  have hload : x.loadMetric.load.toNat ≤ x'.loadMetric.load.toNat := h.load
  unfold exactLoad
  rw [h.own]
  omega

end Load

section Admission

theorem residual_lt {b l : ℕ} (hb : b < 65536) : residual b l < 65536 := by
  unfold residual
  split
  · next hl =>
    have hle : b * (100 - l) ≤ b * 100 := Nat.mul_le_mul_left b (by omega)
    omega
  · omega

theorem ofInt_natCast (k : ℕ) : (UInt16.ofInt k).toNat = k % 65536 := by
  rw [UInt16.ofInt, UInt16.toNat_ofNat']
  omega

theorem ofInt_neg_natCast (k : ℕ) : (UInt16.ofInt (-k)).toNat = (65536 - k % 65536) % 65536 := by
  rw [UInt16.ofInt, UInt16.toNat_ofNat']
  omega

theorem residual_toNat (b : UInt16) (l : UInt8) :
    (UInt16.ofInt (((b.toNat : ℤ) * (100 - l.toNat)).tdiv 100)).toNat = residual b.toNat l.toNat := by
  have hlt := residual_lt (l := l.toNat) b.toNat_lt
  unfold residual at hlt ⊢
  split
  · next hl =>
    rw [if_pos hl] at hlt
    have hcast : (b.toNat : ℤ) * (100 - l.toNat) = ((b.toNat * (100 - l.toNat) : ℕ) : ℤ) := by
      push_cast [hl]
      rfl
    have hdiv : ((b.toNat * (100 - l.toNat) : ℕ) : ℤ).tdiv 100 =
        ((b.toNat * (100 - l.toNat) / 100 : ℕ) : ℤ) := Int.ofNat_tdiv _ _
    rw [hcast, hdiv, ofInt_natCast, Nat.mod_eq_of_lt hlt]
  · next hl =>
    have hcast : (b.toNat : ℤ) * (100 - l.toNat) = -((b.toNat * (l.toNat - 100) : ℕ) : ℤ) := by
      push_cast [Nat.cast_sub (R := ℤ) (le_of_not_ge hl)]
      ring
    have hdiv : ((b.toNat * (l.toNat - 100) : ℕ) : ℤ).tdiv 100 =
        ((b.toNat * (l.toNat - 100) / 100 : ℕ) : ℤ) := Int.ofNat_tdiv _ _
    rw [hcast, Int.neg_tdiv, hdiv, ofInt_neg_natCast]

/-- What `wcim_metric` computes on a measured link for a known flow. -/
theorem wcimMetric_eq (hflow : findFlowType tos = some flow) (hrate : rateUnknown x = false)
    (hx : x ∈ n.aodvNeighList) (hips : (n.aodvNeighList.map AodvNeigh.ip).Nodup) :
    n.wcimMetric x tos pathMetric = some (
      if residual (exactBandwidth flow x % 65536) (exactLoad x n % 256) ≤ flow.avgRate.toNat then none
      else some (pathMetric + UInt32.ofNat (flow.avgSize.toNat * 8000 /
        residual (exactBandwidth flow x % 65536) (exactLoad x n % 256)))) := by
  obtain ⟨recvBw, hbw, hmetric⟩ : ∃ recvBw : UInt16,
      recvBw.toNat = residual (exactBandwidth flow x % 65536) (exactLoad x n % 256) ∧
      n.wcimMetric x tos pathMetric = if recvBw ≤ flow.avgRate then some none
        else some (some (pathMetric + UInt32.ofNat (flow.avgSize.toNat * 8000 / recvBw.toNat))) := by
    refine ⟨UInt16.ofInt (((UInt16.ofNat (exactBandwidth flow x)).toNat *
      (100 - (n.wcimLoad x).toNat : ℤ)).tdiv 100), ?_, ?_⟩
    · rw [residual_toNat, UInt16.toNat_ofNat', wcimLoad_toNat hx hips]
    · rw [wcimMetric, if_neg (by simp [hrate]), hflow]
      rfl
  rw [hmetric, ← hbw]
  by_cases hle : recvBw ≤ flow.avgRate
  · rw [if_pos hle, if_pos (UInt16.le_iff_toNat_le.mp hle)]
  · rw [if_neg hle, if_neg fun h ↦ hle (UInt16.le_iff_toNat_le.mpr h)]

theorem admits_iff (hflow : findFlowType tos = some flow) (hrate : rateUnknown x = false)
    (hx : x ∈ n.aodvNeighList) (hips : (n.aodvNeighList.map AodvNeigh.ip).Nodup) :
    Admits x tos pathMetric n ↔
      flow.avgRate.toNat < residual (exactBandwidth flow x % 65536) (exactLoad x n % 256) := by
  unfold Admits
  rw [wcimMetric_eq hflow hrate hx hips]
  split
  · next hle => simp [hle]
  · next hle => simpa using hle

theorem admissible_iff : Admissible flow x n ↔
    exactLoad x n < 100 ∧ 100 * (flow.avgRate.toNat + 1) ≤ exactBandwidth flow x * (100 - exactLoad x n) := by
  unfold Admissible
  generalize exactLoad x n = load
  generalize exactBandwidth flow x = bw
  by_cases hload : load < 100
  · have hcast : (bw : ℤ) * (100 - load) = ((bw * (100 - load) : ℕ) : ℤ) := by
      push_cast [hload.le]
      rfl
    rw [hcast]
    omega
  · have hneg : (bw : ℤ) * (100 - load) ≤ 0 := Int.mul_nonpos_of_nonneg_of_nonpos (by omega) (by omega)
    omega

/-- Where the decision in 16 and 8 bits is the exact one. -/
theorem agrees_iff (bw load rate : ℕ) :
    (rate < residual (bw % 65536) (load % 256) ↔ load < 100 ∧ 100 * (rate + 1) ≤ bw * (100 - load)) ↔
      Agrees bw load rate := by
  unfold residual Agrees
  by_cases hload : load < 100
  · have hmod : load % 256 = load := Nat.mod_eq_of_lt (by omega)
    have hle : bw % 65536 * (100 - load) ≤ bw * (100 - load) :=
      Nat.mul_le_mul_right _ (Nat.mod_le _ _)
    rw [if_pos hload, hmod, if_pos hload.le]
    generalize bw % 65536 * (100 - load) = low at hle
    generalize bw * (100 - load) = all at hle
    omega
  · rw [if_neg hload]
    split
    · generalize bw % 65536 * (100 - load % 256) = low
      omega
    · generalize bw % 65536 * (load % 256 - 100) / 100 = low
      omega

/-- Nothing is cut off from a bandwidth of 16 bits at a load of up to 100. -/
theorem agrees_of_small {bw load : ℕ} (hbw : bw < 65536) (hload : load ≤ 100) (rate : ℕ) :
    Agrees bw load rate := by
  unfold Agrees
  rw [Nat.mod_eq_of_lt hbw, Nat.mod_eq_of_lt (show load < 256 by omega)]
  rcases hload.lt_or_eq with hload | rfl
  · rw [if_pos hload]
    omega
  · simp

/-- For every flow of the table, every measured transmitter and all neighbour
lists: `wcim_metric` admits the flow just when the exact bandwidth carries it
exactly when the two truncations agree. There it rejects from a load of 100 on,
and a higher load of the neighbours makes no rejection an admission. -/
theorem wcim_admission_exact_iff (hflow : findFlowType tos = some flow) (hrate : rateUnknown x = false)
    (hx : x ∈ n.aodvNeighList) (hips : (n.aodvNeighList.map AodvNeigh.ip).Nodup) (pathMetric : UInt32) :
    ((Admits x tos pathMetric n ↔ Admissible flow x n) ↔
        Agrees (exactBandwidth flow x) (exactLoad x n) flow.avgRate.toNat) ∧
      (Agrees (exactBandwidth flow x) (exactLoad x n) flow.avgRate.toNat → 100 ≤ exactLoad x n →
        ¬ Admits x tos pathMetric n) ∧
      ∀ (x' : AodvNeigh) (n' : Node), Busier x x' n n' → x' ∈ n'.aodvNeighList →
        Agrees (exactBandwidth flow x) (exactLoad x n) flow.avgRate.toNat →
        Agrees (exactBandwidth flow x') (exactLoad x' n') flow.avgRate.toNat →
        ¬ Admits x tos pathMetric n → ¬ Admits x' tos pathMetric n' := by
  have hiff : ∀ {x n}, rateUnknown x = false → x ∈ n.aodvNeighList →
      (n.aodvNeighList.map AodvNeigh.ip).Nodup → ((Admits x tos pathMetric n ↔ Admissible flow x n) ↔
        Agrees (exactBandwidth flow x) (exactLoad x n) flow.avgRate.toNat) := by
    intro x n hrate hx hips
    rw [admits_iff hflow hrate hx hips, admissible_iff]
    exact agrees_iff _ _ _
  refine ⟨hiff hrate hx hips, fun hagrees hload hadmits ↦ ?_, fun x' n' hbusier hx' hagrees hagrees' h h' ↦ ?_⟩
  · have hexact := admissible_iff.mp (((hiff hrate hx hips).mpr hagrees).mp hadmits)
    omega
  · have hrate' : rateUnknown x' = false := by
      rwa [rateUnknown, hbusier.recvRate, hbusier.sendRate, hbusier.etxMetric]
    have hips' : (n'.aodvNeighList.map AodvNeigh.ip).Nodup := by
      rwa [Pointwise.map_eq hbusier.neigh fun hy ↦ hy.1]
    have hbw : exactBandwidth flow x' = exactBandwidth flow x := by
      rw [exactBandwidth, exactBandwidth, hbusier.recvRate, hbusier.etxMetric]
    obtain ⟨hload, hexact⟩ := admissible_iff.mp (((hiff hrate' hx' hips').mpr hagrees').mp h')
    have hle := hbusier.exactLoad_le
    refine h (((hiff hrate hx hips).mpr hagrees).mpr (admissible_iff.mpr ⟨by omega, ?_⟩))
    rw [hbw] at hexact
    exact hexact.trans (Nat.mul_le_mul_left _ (by omega))

/-- The neighbour 192.168.1.2 at a rate of 54 Mbps. -/
def measuredNeigh (load : UInt8) : AodvNeigh :=
  let x := newAodvNeigh station.cfg 0x0201a8c0
  { x with
    recvRate := 540
    sendRate := 540
    etxMetric := 100
    loadMetric := { x.loadMetric with load := load } }

/-- A station with a load of its own and that neighbour. -/
def loadedStation (load : UInt8) : Node :=
  { station with
    routing := { station.routing with load := 56 }
    aodvNeighList := [measuredNeigh load] }

/-- The transmitter 192.168.1.2 when it hears 192.168.1.3 and 192.168.1.7. -/
def hearingNeigh : AodvNeigh :=
  { measuredNeigh 10 with
    loadMetric := { (measuredNeigh 10).loadMetric with neighTx := [0x0301a8c0, 0x0701a8c0] } }

/-- A station among two other neighbours and two 2-hop neighbours, of which the
transmitter hears one each. -/
def surroundedStation : Node :=
  { station with
    routing := { station.routing with load := 5 }
    aodvNeighList := [hearingNeigh, { measuredNeigh 3 with ip := 0x0301a8c0 },
      { measuredNeigh 4 with ip := 0x0501a8c0 }]
    aodvNeighList2h := [⟨0x0701a8c0, 10100, 6, 1⟩, ⟨0x0901a8c0, 10100, 7, 1⟩] }

theorem wcim_admission_exact_iff_loaded : exactLoad hearingNeigh surroundedStation = 5 + 10 + (3 + 2 * 4) + (6 + 3) ∧
    Admissible ⟨2, 1472, 1000⟩ hearingNeigh surroundedStation ∧ Admits hearingNeigh 2 0 surroundedStation := by
  have hagrees : Agrees (exactBandwidth ⟨2, 1472, 1000⟩ hearingNeigh) (exactLoad hearingNeigh surroundedStation) 1000 :=
    agrees_of_small (by decide +kernel) (by decide +kernel) 1000
  have hadmissible : Admissible ⟨2, 1472, 1000⟩ hearingNeigh surroundedStation := by
    unfold Admissible
    decide +kernel
  have hflow : findFlowType 2 = some ⟨2, 1472, 1000⟩ := by decide
  have hlisted : hearingNeigh ∈ surroundedStation.aodvNeighList := List.mem_cons_self
  have hiff := (wcim_admission_exact_iff hflow (by decide) hlisted (by decide) 0).1.mpr hagrees
  exact ⟨by decide +kernel, hadmissible, hiff.mpr hadmissible⟩

/-- At a load of 256 the flow is admitted. -/
theorem loadedStation_admits : ¬ ∀ (n : Node) (x : AodvNeigh) (tos : UInt8) (flow : FlowType),
    findFlowType tos = some flow → rateUnknown x = false → x.etxMetric ≤ 100 → x ∈ n.aodvNeighList →
    (n.aodvNeighList.map AodvNeigh.ip).Nodup → (Admits x tos 0 n ↔ Admissible flow x n) := by
  intro h
  have hiff := h (loadedStation 200) (measuredNeigh 200) 2 ⟨2, 1472, 1000⟩ (by decide) (by decide)
    (by decide) List.mem_cons_self (by decide)
  have hadmits : ((loadedStation 200).wcimMetric (measuredNeigh 200) 2 0).map Option.isSome = some true := by
    decide +kernel
  obtain ⟨r, hr, hsome⟩ := Option.map_eq_some_iff.mp hadmits
  obtain ⟨pathMetric, rfl⟩ := Option.isSome_iff_exists.mp hsome
  exact absurd (hiff.mp ⟨pathMetric, hr⟩) (by unfold Admissible; decide +kernel)

end Admission

end Fbaodv.Proofs.WcimAdmission
