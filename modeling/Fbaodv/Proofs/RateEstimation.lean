import Fbaodv.Proofs.DelayClusters
import Fbaodv.Proofs.DelayWindow
import Fbaodv.Proofs.ProbeChains

namespace Fbaodv.Proofs.RateEstimation

open Fbaodv.Model Fbaodv.Model.Node Fbaodv.Foundation
open Fbaodv.Proofs.NodeRun Fbaodv.Proofs.DelayClusters Fbaodv.Proofs.DelayWindow
open Fbaodv.Proofs.NeighLoss Fbaodv.Proofs.ProbeChains

/-- `compute_estimation` passes the estimation `d` to `compute_rate`. -/
structure Passes (e : EttParams) (d : UInt32) : Prop where
  full : e.countRcv + 1 = e.ettWindow
  delay : (Node.computeDelay { e with countRcv := e.countRcv + 1 }).1 = d
  some : d ≠ 0
  measured : d ≠ defaultEttMetric

/-- What `compute_rate` divides by. -/
def divisor (d : UInt32) : ℕ := d.toNat % 65536

/-- The quotients at which `compute_rate` goes over to the next rate. -/
def rateBands : List ℕ := [38, 53, 78, 105, 150, 210, 255]

/-- The delays, in microseconds, from which on the quotient is below each of these. -/
def delayLimits : List ℕ := [1625, 1165, 792, 589, 412, 295, 243]

/-- How many of the limits the delay reaches that `compute_rate` is given. -/
def delayBand (d : UInt32) : ℕ := delayLimits.countP fun limit ↦ limit ≤ divisor d

def rateOf : ℕ → UInt16
  | 0 => 540
  | 1 => 480
  | 2 => 360
  | 3 => 240
  | 4 => 180
  | 5 => 120
  | 6 => 90
  | _ => 60

section Rates

variable {d d' : UInt32}

theorem divisor_eq (d : UInt32) : d.toUInt16.toNat = divisor d := by
  rw [UInt32.toNat_toUInt16, divisor]

theorem computeRate_eq_none : computeRate d = none ↔ divisor d = 0 := by
  have hzero : d.toUInt16 = 0 ↔ divisor d = 0 := by
    rw [← divisor_eq, ← UInt16.toNat_inj]
    rfl
  unfold computeRate
  split
  · next h => exact iff_of_true rfl (hzero.mp h)
  · next h => exact iff_of_false (Option.some_ne_none _) fun h' ↦ h (hzero.mpr h')

/-- The rate falls with the number of bands above the quotient. -/
theorem computeRate_eq (h : divisor d ≠ 0) :
    computeRate d = some (rateOf (rateBands.countP fun t ↦ probePacketSize / divisor d < t)) := by
  have hne : d.toUInt16 ≠ 0 := fun heq ↦ h (by rw [← divisor_eq, heq]; rfl)
  have hquot : probePacketSize / divisor d ≤ 61740 := Nat.div_le_self _ _
  unfold computeRate
  rw [if_neg hne, divisor_eq]
  generalize probePacketSize / divisor d = q at hquot ⊢
  have hq : ∀ t : ℕ, t < 65536 → (UInt16.ofNat q < UInt16.ofNat t ↔ q < t) := by
    intro t ht
    rw [UInt16.lt_iff_toNat_lt, UInt16.toNat_ofNat', UInt16.toNat_ofNat', Nat.mod_eq_of_lt (by omega),
      Nat.mod_eq_of_lt ht]
  have h38 : UInt16.ofNat q < 38 ↔ q < 38 := hq 38 (by decide)
  have h53 : UInt16.ofNat q < 53 ↔ q < 53 := hq 53 (by decide)
  have h78 : UInt16.ofNat q < 78 ↔ q < 78 := hq 78 (by decide)
  have h105 : UInt16.ofNat q < 105 ↔ q < 105 := hq 105 (by decide)
  have h150 : UInt16.ofNat q < 150 ↔ q < 150 := hq 150 (by decide)
  have h210 : UInt16.ofNat q < 210 ↔ q < 210 := hq 210 (by decide)
  have h255 : UInt16.ofNat q < 255 ↔ q < 255 := hq 255 (by decide)
  have hband : q < 38 ∨ 38 ≤ q ∧ q < 53 ∨ 53 ≤ q ∧ q < 78 ∨ 78 ≤ q ∧ q < 105 ∨ 105 ≤ q ∧ q < 150 ∨
      150 ≤ q ∧ q < 210 ∨ 210 ≤ q ∧ q < 255 ∨ 255 ≤ q := by omega
  simp only [h38, h53, h78, h105, h150, h210, h255, rateBands, List.countP_cons, List.countP_nil, decide_eq_true_eq]
  rcases hband with h | h | h | h | h | h | h | h
  all_goals simp (disch := omega) only [if_pos, if_neg, Nat.zero_add, rateOf]

/-- The quotient is below a band just if the delay is past the quotient of the band. -/
theorem bands_eq (h : divisor d ≠ 0) : rateBands.countP (fun t ↦ probePacketSize / divisor d < t) = delayBand d := by
  have hlimits : delayLimits = rateBands.map fun t ↦ probePacketSize / t + 1 := by decide
  have hpos : ∀ t ∈ rateBands, 0 < t := by decide
  rw [delayBand, hlimits, List.countP_map]
  refine List.countP_congr fun t ht ↦ ?_
  rw [Function.comp_apply, decide_eq_true_eq, decide_eq_true_eq, Nat.div_lt_iff_lt_mul (Nat.pos_of_ne_zero h),
    Nat.succ_le_iff, Nat.div_lt_iff_lt_mul (hpos t ht), Nat.mul_comm]

theorem computeRate_band (h : divisor d ≠ 0) : computeRate d = some (rateOf (delayBand d)) := by
  rw [computeRate_eq h, bands_eq h]

theorem delayBand_mono (h : divisor d ≤ divisor d') : delayBand d ≤ delayBand d' :=
  List.countP_mono_left fun _ _ hlimit ↦ decide_eq_true ((of_decide_eq_true hlimit).trans h)

theorem delayBand_le_iff : delayBand d ≤ delayBand d' ↔ divisor d ≤ divisor d' ∨ delayBand d = delayBand d' := by
  constructor
  · intro h
    rcases le_total (divisor d) (divisor d') with hle | hge
    · exact .inl hle
    · exact .inr (h.antisymm (delayBand_mono hge))
  · rintro (h | h)
    · exact delayBand_mono h
    · exact h.le

theorem rateOf_le_iff : ∀ a < 8, ∀ b < 8, rateOf a ≤ rateOf b ↔ b ≤ a := by decide

theorem computeRate_le_iff : (∃ r r', computeRate d = some r ∧ computeRate d' = some r' ∧ r' ≤ r) ↔
    divisor d ≠ 0 ∧ divisor d' ≠ 0 ∧ (divisor d ≤ divisor d' ∨ delayBand d = delayBand d') := by
  by_cases hd : divisor d = 0
  · rw [computeRate_eq_none.mpr hd]
    simp [hd]
  by_cases hd' : divisor d' = 0
  · rw [computeRate_eq_none.mpr hd']
    simp [hd']
  have hbands : ∀ d, delayBand d < 8 := fun _ ↦ Nat.lt_succ_of_le List.countP_le_length
  have horder : (∃ r r', computeRate d = some r ∧ computeRate d' = some r' ∧ r' ≤ r) ↔
      rateOf (delayBand d') ≤ rateOf (delayBand d) := by
    rw [computeRate_band hd, computeRate_band hd']
    simp
  rw [horder, rateOf_le_iff _ (hbands _) _ (hbands _), delayBand_le_iff]
  simp [hd, hd']

/-- What fits into the 16 bits of the parameter is not shortened. -/
theorem ordered_of_small (hd : 0 < d) (h : d ≤ d') (hsmall : d'.toNat < 65536) :
    divisor d ≠ 0 ∧ divisor d' ≠ 0 ∧ divisor d ≤ divisor d' := by
  have hd := UInt32.lt_iff_toNat_lt.mp hd
  have hle := UInt32.le_iff_toNat_le.mp h
  rw [UInt32.toNat_zero] at hd
  rw [divisor, divisor, Nat.mod_eq_of_lt hsmall, Nat.mod_eq_of_lt (hle.trans_lt hsmall)]
  refine ⟨by omega, by omega, hle⟩

end Rates

section Estimations

variable {e : EttParams} {d : UInt32} {n : Node} {ip : Ip} {x : AodvNeigh}

/-- An estimation is a mean of delays, and those are bounded. -/
theorem Passes.bounds (he : EttWindow e) (h : Passes e d) : 0 < d ∧ d < defaultEttMetric := by
  have hd0 : d.toNat ≠ 0 := fun heq ↦ h.some (UInt32.toNat_inj.mp heq)
  have hdmax : d.toNat ≠ 1000000 := fun heq ↦ h.measured (UInt32.toNat_inj.mp heq)
  have hle : d.toNat ≤ 1000000 := by
    have hbound : ∀ d ∈ e.recvDelays.take e.ettWindow.toNat, d ≤ defaultEttMetric :=
      fun d hd ↦ he.bounded d (List.mem_of_mem_take hd)
    rcases computeDelay_spec (e := { e with countRcv := e.countRcv + 1 }) he.length he.largest
      (he.sorted.sublist (List.take_sublist _ _)) hbound with ⟨hzero, -⟩ | ⟨i, found, delay, htakes, -, hmean, hdelay⟩
    · have hd := h.delay
      rw [hzero] at hd
      exact absurd hd.symm h.some
    · have hd := h.delay
      rw [hdelay] at hd
      rw [← hd, hmean]
      refine Nat.div_le_of_le_mul ?_
      have hsum := sum_headCluster_le (e := { e with countRcv := e.countRcv + 1 }) hbound i
      rwa [← htakes.run] at hsum
  constructor
  · rw [UInt32.lt_iff_toNat_lt, UInt32.toNat_zero]
    omega
  · rw [UInt32.lt_iff_toNat_lt]
    change d.toNat < 1000000
    omega

/-- The division is all that may fail once the estimation is passed on. -/
theorem computeEstimation_ne_none (hx : n.findAodvNeigh ip = some x) (h : Passes x.ett d) :
    n.computeEstimation ip ≠ none ↔ divisor d ≠ 0 := by
  rw [← not_iff_not, not_not, not_not, ← computeRate_eq_none]
  unfold computeEstimation
  rw [hx, Option.bind_eq_bind, Option.bind_some]
  dsimp only
  rw [if_neg (not_not.mpr h.full)]
  have hdelay := h.delay
  generalize Node.computeDelay { x.ett with countRcv := x.ett.countRcv + 1 } = found at hdelay ⊢
  obtain ⟨d', ett⟩ := found
  obtain rfl : d' = d := hdelay
  dsimp only
  rw [useEstimation, if_neg fun hzero ↦ h.some hzero.1, if_neg h.some, if_neg h.measured]
  cases computeRate d' <;> simp

end Estimations

/-- However the probes come, `compute_estimation` divides by zero exactly if the
estimation is a multiple of 65536. The rates of two estimations are in order exactly
if their low 16 bits are or lie in the same band of delays, and so they are for all
estimations that fit into 16 bits. -/
theorem rate_defined_antitone_iff (d d' : UInt32) :
    (∀ ip n x last, ProbeRun ip n → n.findAodvNeigh ip = some x →
      Passes (Node.delayVectorAdd last x.ett) d → 0 < d ∧ d < defaultEttMetric ∧
        ((n.modifyNeigh ip (updateEtt (Node.delayVectorAdd last))).computeEstimation ip ≠ none ↔ divisor d ≠ 0)) ∧
    (0 < d → d ≤ d' → d' < defaultEttMetric →
      ((∃ r r', computeRate d = some r ∧ computeRate d' = some r' ∧ r' ≤ r) ↔
        divisor d ≠ 0 ∧ divisor d' ≠ 0 ∧ (divisor d ≤ divisor d' ∨ delayBand d = delayBand d'))) ∧
    (0 < d → d ≤ d' → d'.toNat < 65536 →
      ∃ r r', computeRate d = some r ∧ computeRate d' = some r' ∧ r' ≤ r) := by
  refine ⟨fun ip n x last hrun hx hpasses ↦ ?_, fun _ _ _ ↦ computeRate_le_iff, fun hd hle hsmall ↦ ?_⟩
  · have hbounds := hpasses.bounds ((hrun.window hx).delayVectorAdd last)
    have hadded := ((Becomes.refl hx).modify (f := updateEtt (Node.delayVectorAdd last)) fun _ ↦ rfl).found
    exact ⟨hbounds.1, hbounds.2, computeEstimation_ne_none hadded hpasses⟩
  · obtain ⟨hd, hd', hordered⟩ := ordered_of_small hd hle hsmall
    exact computeRate_le_iff.mpr ⟨hd, hd', .inl hordered⟩

/-- Another large probe, with a delay of 900 microseconds. -/
def probedAgain (n : Node) : Option Node :=
  n.recvLprobe { createTask .recvLEtt 0 with srcIp := 0x0201a8c0 } ⟨0, 0, 0x0101a8c0, 0x0201a8c0, 0, 0, 900⟩

theorem rate_defined_antitone_probed :
    (∃ n, ProbeRun 0x0201a8c0 n ∧
      (n.modifyNeigh 0x0201a8c0 (updateEtt (Node.delayVectorAdd 900))).computeEstimation 0x0201a8c0 ≠ none) ∧
    (∃ r r', computeRate 400 = some r ∧ computeRate 500 = some r' ∧ r' ≤ r) ∧
    (∃ r r', computeRate 2000 = some r ∧ computeRate 67236 = some r' ∧ r' ≤ r) ∧
    ¬ ∃ r r', computeRate 2000 = some r ∧ computeRate 65936 = some r' ∧ r' ≤ r := by
  have hfull : ((probedAgain probedStation).bind probedAgain).bind (fun n ↦ (n.findAodvNeigh 0x0201a8c0).map fun x ↦
      (x.ett.countRcv + 1 == x.ett.ettWindow, (Node.computeDelay { Node.delayVectorAdd 900 x.ett with
        countRcv := (Node.delayVectorAdd 900 x.ett).countRcv + 1 }).1)) = some (true, 900) := by
    decide +kernel
  obtain ⟨n', hn', hfull⟩ := Option.bind_eq_some_iff.mp hfull
  obtain ⟨n, hn, hn'⟩ := Option.bind_eq_some_iff.mp hn'
  obtain ⟨x, hx, hfull⟩ := Option.map_eq_some_iff.mp hfull
  obtain ⟨hcount, hdelay⟩ := Prod.mk.inj hfull
  have hrun : ProbeRun 0x0201a8c0 n' := (probeRun_probedStation.lprobe hn).lprobe hn'
  have hcount : (Node.delayVectorAdd 900 x.ett).countRcv + 1 = (Node.delayVectorAdd 900 x.ett).ettWindow := by
    rw [DelayLoops.delayVectorAdd_eq]
    exact beq_iff_eq.mp hcount
  refine ⟨⟨n', hrun, ?_⟩, ?_, ?_, ?_⟩
  · obtain ⟨hdefined, -⟩ := rate_defined_antitone_iff 900 900
    exact (hdefined _ n' x 900 hrun hx ⟨hcount, hdelay, by decide, by decide⟩).2.2.mpr (by decide)
  · obtain ⟨-, -, hsmall⟩ := rate_defined_antitone_iff 400 500
    exact hsmall (by decide) (by decide) (by decide)
  -- 67236 leaves 1700, which is below 2000 and in its band
  · obtain ⟨-, hordered, -⟩ := rate_defined_antitone_iff 2000 67236
    exact (hordered (by decide) (by decide) (by decide)).mpr (by decide)
  -- 65936 leaves 400, which is not
  · obtain ⟨-, hordered, -⟩ := rate_defined_antitone_iff 2000 65936
    exact fun h ↦ absurd ((hordered (by decide) (by decide) (by decide)).mp h) (by decide)

/-- Three pairs of probes, and the start of a fourth, from a neighbour that says
that the delay is 65536 microseconds. -/
def slowProbes : List Event :=
  let pair (i : UInt8) := told (.sprobe ⟨i, 0x0101a8c0, 0x0201a8c0, 0, 0⟩) ++
    told (.lprobe ⟨i, 60, 0x0101a8c0, 0x0201a8c0, 0, 0, 65536⟩)
  meetNeigh ++ pair 1 ++ pair 2 ++ pair 3 ++ (pair 4).dropLast

/-- The fourth measurement divides by zero, and a longer delay than 65535
microseconds gets the highest rate. -/
theorem rate_of_slow_probes : (∃ n t, Reachable n ∧ n.tasks.pop.1 = some t ∧ t.type = .recvLEtt ∧
      n.step .thread = none) ∧ computeRate 65536 = none ∧
    computeRate 65535 = some 60 ∧ computeRate 65537 = some 540 := by
  have hrun : (runs slowProbes ettStation).map (fun n ↦ (n.step .thread).isNone &&
      n.tasks.pop.1.any fun t ↦ t.type == .recvLEtt) = some true := by
    decide +kernel
  obtain ⟨n, hn, hfacts⟩ := Option.map_eq_some_iff.mp hrun
  simp only [Bool.and_eq_true, Option.isNone_iff_eq_none, Option.any_eq_true, beq_iff_eq] at hfacts
  obtain ⟨hfault, t, hpop, htype⟩ := hfacts
  have hinit : Reachable ettStation := .init trivial
  exact ⟨⟨n, t, hinit.of_runs hn, hpop, htype, hfault⟩, by decide, by decide, by decide⟩

end Fbaodv.Proofs.RateEstimation
