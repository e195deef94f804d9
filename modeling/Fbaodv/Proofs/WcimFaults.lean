import Fbaodv.Proofs.HandlerSpecs
import Fbaodv.Proofs.NeighTables
import Fbaodv.Proofs.NetOps
import Fbaodv.Proofs.RreqUpdate
import Fbaodv.Proofs.WcimAdmission

namespace Fbaodv.Proofs.WcimFaults

open Fbaodv.Foundation Fbaodv.Model Fbaodv.Model.Node
open Fbaodv.Proofs.RouteFrame Fbaodv.Proofs.RoutingInvariant Fbaodv.Proofs.HandlerSpecs
open Fbaodv.Proofs.NodeRun Fbaodv.Proofs.NeighTables Fbaodv.Proofs.WcimAdmission
open Fbaodv.Proofs.PacketDiscovery Fbaodv.Proofs.NetOps
open Fbaodv.Proofs.RreqUpdate (Heard Improves CallsSucceed Divides)

/-- The link is too fast for the share of its time that a packet of the flow
takes to be a whole percentage, or the flow is not in the table. -/
def LoadUndefined (sendRate : UInt16) (tos : UInt8) : Prop :=
  sendRate ≠ 0 ∧ ∀ flow, findFlowType tos = some flow →
    8000 * flow.avgSize.toNat < 124 * sendRate.toNat

/-- `recv_rreq` comes to the metric of the RREQ. -/
structure AsksMetric (t : Task) (m : Rreq) (n : Node) : Prop where
  inScope : 1 < t.ttl ∨ n.iamDestination m = true
  foreign : n.cfg.gMeshIp ≠ m.srcIp
  ungated : (n.cfg.gAodvGateway && m.dstIp == gNullIp && m.gateway != n.cfg.gMeshIp) = false

/-- What `recv_rreq` tells `rreq_aodv_route`. -/
def heardRreq (m : Rreq) (x : AodvNeigh) (pathMetric : UInt32) : Heard :=
  ⟨m.dstIp, m.srcIp, m.tos, x.ip, x.sendRate, m.numHops + 1, m.dstId, pathMetric⟩

/-- What `recv_rrep` tells `rreq_aodv_route`. -/
def heardRrep (m : Rrep) (x : AodvNeigh) (pathMetric : UInt32) : Heard :=
  ⟨m.srcIp, m.dstIp, m.tos, x.ip, x.sendRate, m.numHops, m.dstId, pathMetric⟩

/-- The bandwidth that is left for a flow on the link from `x`. -/
def leftFor (flow : FlowType) (x : AodvNeigh) (n : Node) : ℕ :=
  residual (exactBandwidth flow x % 65536) (exactLoad x n % 256)

/-- The route is stored only with a load that is defined. -/
def Storable (c : Heard) (cfg : Config) (r : Routing) : Prop :=
  Improves c r → CallsSucceed c cfg r → ¬LoadUndefined c.sendRate c.tos

/-- The ToS of the RREQ is in the table when its metric is asked for, and its
route has a load when it is stored. -/
def RreqDefined (t : Task) (m : Rreq) (x : AodvNeigh) (n : Node) : Prop :=
  AsksMetric t m n → rateUnknown x = false → ∃ flow, findFlowType m.tos = some flow ∧
    (flow.avgRate.toNat < leftFor flow x n → Storable
      (heardRreq m x (m.pathMetric + UInt32.ofNat (flow.avgSize.toNat * 8000 / leftFor flow x n)))
      n.cfg n.routing)

/-- The route of the RREP has a load when it is stored. -/
def RrepDefined (m : Rrep) (x : AodvNeigh) (n : Node) : Prop :=
  if isRrepSource n m then Storable (heardRrep m x m.pathMetric) n.cfg n.routing
  else ∀ recv m' n₁, n.rrepRecvRoute m = some (some recv, m', n₁) →
    Storable (heardRrep m' x (m'.pathMetric - recv.pathMetric)) n.cfg n₁.routing

variable {n n' : Node} {t : Task} {x : AodvNeigh} {tos : UInt8} {flow : FlowType} {rate : UInt16}
  {c : Heard} {cfg : Config} {now : ℕ} {r r' : Routing}

section Loads

theorem flow_bounds (hflow : findFlowType tos = some flow) :
    172 ≤ flow.avgSize.toNat ∧ flow.avgSize.toNat ≤ 1472 ∧
      100 ≤ flow.avgRate.toNat ∧ flow.avgRate.toNat ≤ 1000 := by
  have hall : ∀ f ∈ flowTypeTable, 172 ≤ f.avgSize.toNat ∧ f.avgSize.toNat ≤ 1472 ∧
      100 ≤ f.avgRate.toNat ∧ f.avgRate.toNat ≤ 1000 := by decide
  exact hall flow (List.mem_of_find?_eq_some hflow)

/-- The quotient of `compute_coef` in exact integers. -/
def coefQuotient (size rate : ℕ) : ℕ :=
  size * 8000 / rate * 100 / ((size * 8000 + 470000) / rate + 12200)

theorem coefQuotient_le (size rate : ℕ) : coefQuotient size rate ≤ 100 := by
  have hle : size * 8000 / rate ≤ (size * 8000 + 470000) / rate := Nat.div_le_div_right (by omega)
  rw [coefQuotient]
  refine Nat.div_le_of_le_mul ?_
  omega

theorem computeCoef_toNat {size : UInt16} (hsize : size ≠ 0) (hrate : rate ≠ 0) (hle : size.toNat ≤ 1472) :
    (computeCoef size rate).toNat = coefQuotient size.toNat rate.toNat := by
  have hpos : 0 < rate.toNat := Nat.pos_of_ne_zero fun h ↦ hrate (UInt16.toNat_inj.mp h)
  have hnominal : size.toNat * 8000 / rate.toNat ≤ 11776000 := (Nat.div_le_self _ _).trans (by omega)
  have hall : (size.toNat * 8000 + 470000) / rate.toNat ≤ 12246000 := (Nat.div_le_self _ _).trans (by omega)
  have hquot := coefQuotient_le size.toNat rate.toNat
  have hsize₁ : (size.toUInt32 * 8000).toNat = size.toNat * 8000 := by
    rw [UInt32.toNat_mul, UInt16.toNat_toUInt32]
    exact Nat.mod_eq_of_lt (by simp; omega)
  have hsize₂ : (size.toUInt32 * 8000 + 470 * 1000).toNat = size.toNat * 8000 + 470000 := by
    rw [UInt32.toNat_add, hsize₁]
    exact Nat.mod_eq_of_lt (by simp; omega)
  unfold coefQuotient at hquot ⊢
  rw [computeCoef, if_neg (by simp [hsize, hrate])]
  dsimp only
  rw [UInt32.toNat_toUInt8, UInt32.toNat_div, UInt32.toNat_mul, UInt32.toNat_add, UInt32.toNat_div,
    UInt32.toNat_div, hsize₁, hsize₂, UInt16.toNat_toUInt32]
  have h₁ : size.toNat * 8000 / rate.toNat * UInt32.toNat 100 % 2 ^ 32 =
      size.toNat * 8000 / rate.toNat * 100 := Nat.mod_eq_of_lt (by simp; omega)
  have h₂ : ((size.toNat * 8000 + 470000) / rate.toNat + UInt32.toNat (122 * 100)) % 2 ^ 32 =
      (size.toNat * 8000 + 470000) / rate.toNat + 12200 := Nat.mod_eq_of_lt (by simp; omega)
  rw [h₁, h₂]
  exact Nat.mod_eq_of_lt (by omega)

theorem coefQuotient_eq_zero_iff {size rate : ℕ} (hsize : 172 ≤ size) (hrate : 0 < rate) :
    coefQuotient size rate = 0 ↔ 8000 * size < 124 * rate := by
  have hle : size * 8000 / rate ≤ (size * 8000 + 470000) / rate := Nat.div_le_div_right (by omega)
  rw [coefQuotient, Nat.div_eq_zero_iff_lt (Nat.add_pos_right _ (by decide))]
  constructor
  · intro h
    by_contra hfast
    have hnominal : 124 ≤ size * 8000 / rate := (Nat.le_div_iff_mul_le hrate).mpr (by omega)
    -- headers and payload together take no more than 1.4 times the payload
    have hheaders : 10 * ((size * 8000 + 470000) / rate) ≤ 14 * (size * 8000 / rate + 1) := by
      have hlt : size * 8000 < (size * 8000 / rate + 1) * rate := by
        rw [Nat.mul_comm _ rate]
        exact Nat.lt_mul_div_succ _ hrate
      have hmul : (size * 8000 + 470000) / rate * rate ≤ size * 8000 + 470000 := Nat.div_mul_le_self _ _
      refine Nat.le_of_mul_le_mul_right ?_ hrate
      rw [Nat.mul_assoc, Nat.mul_assoc]
      omega
    omega
  · intro h
    have hnominal : size * 8000 / rate < 124 := (Nat.div_lt_iff_lt_mul hrate).mpr (by omega)
    omega

theorem computeCoef_eq_zero_iff (hflow : findFlowType tos = some flow) (hrate : rate ≠ 0) :
    computeCoef flow.avgSize rate = 0 ↔ 8000 * flow.avgSize.toNat < 124 * rate.toNat := by
  obtain ⟨hlow, hhigh, -, -⟩ := flow_bounds hflow
  have hsize : flow.avgSize ≠ 0 := fun h ↦ by simp [h] at hlow
  have hpos : 0 < rate.toNat := Nat.pos_of_ne_zero fun h ↦ hrate (UInt16.toNat_inj.mp h)
  rw [← UInt8.toNat_inj, computeCoef_toNat hsize hrate hhigh]
  exact coefQuotient_eq_zero_iff hlow hpos

/-- `compute_load` divides by zero just for these. -/
theorem computeLoad_eq_none_iff : computeLoad rate tos = none ↔ LoadUndefined rate tos := by
  unfold computeLoad LoadUndefined
  by_cases hrate : rate = 0
  · simp [hrate]
  have hpos : rate.toNat ≠ 0 := fun h ↦ hrate (UInt16.toNat_inj.mp h)
  rw [if_neg hrate]
  cases hflow : findFlowType tos with
  | none => simp [computeCoef, hrate]
  | some flow =>
    have hcoef := computeCoef_eq_zero_iff hflow hrate
    rw [← UInt8.toNat_inj] at hcoef
    simp [hrate, hpos, ← hcoef]

theorem callsSucceed_of_some {o : AodvRoute × RouteState}
    (h : r.rreqEntry cfg c.srcIp c.dstIp c.tos c.dstId c.pathMetric = (some o, r')) : CallsSucceed c cfg r := by
  obtain ⟨e₀, st⟩ := o
  have hstrands : ¬RreqUpdate.Strands c r := (RreqUpdate.rreqEntry_some h).2.1
  unfold CallsSucceed
  unfold Routing.rreqEntry at h
  cases hfind : r.findAodvRoute c.srcIp c.dstIp c.tos with
  | none =>
    have hmem : r.kmalloc.next = true := by
      rw [← Bool.not_eq_false]
      intro hmem
      simp [hfind, Routing.createAodvRoute, hmem] at h
    exact ⟨hmem, fun hunlisted hrefused ↦ hstrands ⟨hfind, hmem, hunlisted, hrefused⟩⟩
  | some e =>
    intro hstate
    by_contra hdel
    simp only [hfind] at h
    split at h
    · cases (Prod.mk.inj h).1
    · cases (Prod.mk.inj h).1

/-- `rreq_aodv_route` faults when it stores a route whose load is undefined. -/
theorem call_eq_none_iff : c.call cfg now r = none ↔
    Improves c r ∧ CallsSucceed c cfg r ∧ cfg.gRoutingMetric = .wcim ∧ LoadUndefined c.sendRate c.tos := by
  rw [← computeLoad_eq_none_iff]
  constructor
  · intro h
    unfold Heard.call Routing.rreqAodvRoute at h
    rcases hentry : r.rreqEntry cfg c.srcIp c.dstIp c.tos c.dstId c.pathMetric with ⟨_ | ⟨e, st⟩, r₁⟩
    · simp [hentry] at h
    · refine ⟨(RreqUpdate.rreqEntry_some hentry).1, callsSucceed_of_some hentry, ?_⟩
      simp only [hentry] at h
      split at h
      · next hwcim =>
        cases hload : computeLoad c.sendRate c.tos with
        | none => exact ⟨hwcim, rfl⟩
        | some load => simp [hload] at h
      · simp at h
  · rintro ⟨himp, hcalls, hdivides⟩
    obtain ⟨e, st, r₁, hentry⟩ := RreqUpdate.rreqEntry_of_improves himp hcalls
    simp [Heard.call, Routing.rreqAodvRoute, hentry, hdivides.1, hdivides.2]

theorem call_isSome_iff (now : ℕ) (hwcim : cfg.gRoutingMetric = .wcim) :
    (c.call cfg now r).isSome ↔ Storable c cfg r := by
  rw [Option.isSome_iff_ne_none, ne_eq, call_eq_none_iff, Storable]
  simp [hwcim]

end Loads

section Requests

theorem foldl_modifyFirst {α β : Type} {g : β → α → β} {f : α → α} (h : ∀ b a, g b (f a) = g b a)
    (p : α → Bool) (l : List α) (b : β) :
    (OrderedList.modifyFirst p f l).foldl g b = l.foldl g b := by
  induction l generalizing b with
  | nil => rfl
  | cons a l ih =>
    simp only [OrderedList.modifyFirst]
    split
    · rw [List.foldl_cons, List.foldl_cons, h]
    · rw [List.foldl_cons, List.foldl_cons, ih]

theorem wcimMetric_updateNeighLifetime (ip : Ip) (x : AodvNeigh) (tos : UInt8) (pathMetric : UInt32)
    (n : Node) :
    (n.updateNeighLifetime ip).wcimMetric x tos pathMetric = n.wcimMetric x tos pathMetric := by
  have hload : (n.updateNeighLifetime ip).wcimLoad x = n.wcimLoad x := by
    have hneigh : (n.updateNeighLifetime ip).aodvNeighList.foldl (fun load y ↦
        if y.ip == x.ip then load + x.loadMetric.load
        else load + y.loadMetric.load * (if hearsOf x y.ip then 1 else 2)) n.routing.load =
        n.aodvNeighList.foldl (fun load y ↦
          if y.ip == x.ip then load + x.loadMetric.load
          else load + y.loadMetric.load * (if hearsOf x y.ip then 1 else 2)) n.routing.load :=
      foldl_modifyFirst (f := fun y : AodvNeigh ↦
        { y with lifetime := helloInterval * (1 + allowedHelloLoss) + 20 + n.now }) (fun _ _ ↦ rfl) _ _ _
    exact congrArg (n.aodvNeighList2h.foldl _) hneigh
  unfold wcimMetric
  rw [hload]

theorem TablesOrdered.ips_nodup (hn : TablesOrdered n) : (n.aodvNeighList.map AodvNeigh.ip).Nodup := by
  refine List.pairwise_map.mpr (hn.neigh.imp fun h heq ↦ ?_)
  exact Nat.ne_of_lt h (congrArg UInt32.toNat heq)

theorem wcimMetric_leftFor {pathMetric : UInt32} (hn : TablesOrdered n) (hx : x ∈ n.aodvNeighList)
    (hflow : findFlowType tos = some flow) (hrate : rateUnknown x = false) :
    n.wcimMetric x tos pathMetric = some (
      if leftFor flow x n ≤ flow.avgRate.toNat then none
      else some (pathMetric + UInt32.ofNat (flow.avgSize.toNat * 8000 / leftFor flow x n))) :=
  wcimMetric_eq hflow hrate hx (TablesOrdered.ips_nodup hn)

/-- The part of `recv_rreq` from the metric on. -/
def takeRreq (t : Task) (m : Rreq) (x : AodvNeigh) (n : Node) : Option Node := do
  match ← n.rreqMetric x m with
  | none => some n
  | some pathMetric =>
    let m := { m with pathMetric := pathMetric }
    let (ok, n) ← n.rreqRoute m.dstIp m.srcIp m.tos x m.numHops m.dstId m.pathMetric
    some (if ok then n.acceptRreq t m else n)

theorem recvRreq_cases (hx : n.findAodvNeigh t.srcIp = some x) (m : Rreq) :
    (AsksMetric t m n → n.recvRreq t m =
      takeRreq t { m with numHops := m.numHops + 1 } x (n.updateNeighLifetime x.ip)) ∧
    (¬AsksMetric t m n → n.recvRreq t m = some n ∨ n.recvRreq t m = some (n.updateNeighLifetime x.ip)) := by
  have hcfg : (n.updateNeighLifetime x.ip).cfg = n.cfg := rfl
  have hscope : (decide (t.ttl ≤ 1) && !n.iamDestination m) = true ↔
      ¬(1 < t.ttl ∨ n.iamDestination m = true) := by
    simp [not_or]
  unfold recvRreq
  constructor
  · rintro ⟨h₁, h₂, h₃⟩
    rw [if_neg (hscope.not.mpr (not_not.mpr h₁)), hx]
    dsimp only
    rw [hcfg, if_neg h₂, if_neg (by simp [h₃])]
    rfl
  · intro hasks
    by_cases h₁ : 1 < t.ttl ∨ n.iamDestination m = true
    · rw [if_neg (hscope.not.mpr (not_not.mpr h₁)), hx]
      dsimp only
      rw [hcfg]
      right
      by_cases h₂ : n.cfg.gMeshIp = m.srcIp
      · rw [if_pos h₂]
      · rw [if_neg h₂, if_pos]
        by_contra h₃
        exact hasks ⟨h₁, h₂, eq_false_of_ne_true h₃⟩
    · exact .inl (if_pos (hscope.mpr h₁))

theorem rreqRoute_isSome_iff (hwcim : n.cfg.gRoutingMetric = .wcim) (srcIp dstIp : Ip) (tos : UInt8)
    (x : AodvNeigh) (hops : UInt8) (dstId pathMetric : UInt32) :
    (n.rreqRoute srcIp dstIp tos x hops dstId pathMetric).isSome ↔
      Storable ⟨srcIp, dstIp, tos, x.ip, x.sendRate, hops, dstId, pathMetric⟩ n.cfg n.routing := by
  rw [← call_isSome_iff n.now hwcim, rreqRoute, Heard.call]
  cases n.routing.rreqAodvRoute n.cfg n.now srcIp dstIp tos x.ip x.sendRate hops dstId pathMetric with
  | none => rfl
  | some p => rfl

theorem recvRreq_isSome_iff (hwcim : n.cfg.gRoutingMetric = .wcim) (hn : TablesOrdered n)
    (hx : n.findAodvNeigh t.srcIp = some x) (m : Rreq) :
    (n.recvRreq t m).isSome ↔ RreqDefined t m x n := by
  have hmem : x ∈ n.aodvNeighList := (hn.find_iff.mp hx).1
  unfold RreqDefined
  by_cases hasks : AsksMetric t m n
  · rw [(recvRreq_cases hx m).1 hasks, takeRreq]
    have hmetric : (n.updateNeighLifetime x.ip).rreqMetric x { m with numHops := m.numHops + 1 } =
        n.wcimMetric x m.tos m.pathMetric := by
      have hcfg : (n.updateNeighLifetime x.ip).cfg = n.cfg := rfl
      rw [rreqMetric, hcfg, hwcim]
      exact wcimMetric_updateNeighLifetime _ _ _ _ _
    rw [hmetric]
    cases hrate : rateUnknown x with
    | true =>
      have hnone : n.wcimMetric x m.tos m.pathMetric = some none := if_pos hrate
      rw [hnone]
      exact iff_of_true rfl (by simp)
    | false =>
      cases hflow : findFlowType m.tos with
      | none =>
        have hnone : n.wcimMetric x m.tos m.pathMetric = none := by
          rw [wcimMetric, if_neg (by simp [hrate]), hflow]
          rfl
        rw [hnone]
        exact iff_of_false (by simp) (by simp [hasks])
      | some flow =>
        rw [wcimMetric_leftFor hn hmem hflow hrate]
        by_cases hleft : flow.avgRate.toNat < leftFor flow x n
        · have hroute := rreqRoute_isSome_iff (n := n.updateNeighLifetime x.ip) hwcim m.dstIp m.srcIp m.tos x
            (m.numHops + 1) m.dstId
            (m.pathMetric + UInt32.ofNat (flow.avgSize.toNat * 8000 / leftFor flow x n))
          have hdefined : (AsksMetric t m n → false = false → ∃ flow', some flow = some flow' ∧
              (flow'.avgRate.toNat < leftFor flow' x n → Storable (heardRreq m x (m.pathMetric +
                UInt32.ofNat (flow'.avgSize.toNat * 8000 / leftFor flow' x n))) n.cfg n.routing)) ↔
              Storable (heardRreq m x (m.pathMetric +
                UInt32.ofNat (flow.avgSize.toNat * 8000 / leftFor flow x n))) n.cfg n.routing := by
            constructor
            · intro h
              obtain ⟨_, ⟨⟩, hstorable⟩ := h hasks rfl
              exact hstorable hleft
            · exact fun h _ _ ↦ ⟨flow, rfl, fun _ ↦ h⟩
          rw [if_neg (not_le.mpr hleft), hdefined]
          refine Iff.trans ?_ hroute
          dsimp only [Option.bind_eq_bind, Option.bind_some]
          cases (n.updateNeighLifetime x.ip).rreqRoute m.dstIp m.srcIp m.tos x (m.numHops + 1) m.dstId
              (m.pathMetric + UInt32.ofNat (flow.avgSize.toNat * 8000 / leftFor flow x n)) with
          | none => rfl
          | some p => rfl
        · rw [if_pos (not_lt.mp hleft)]
          exact iff_of_true rfl fun _ _ ↦ ⟨flow, rfl, fun h ↦ absurd h hleft⟩
  · refine iff_of_true ?_ fun h ↦ absurd h hasks
    rcases (recvRreq_cases hx m).2 hasks with h | h
    · rw [h]
      rfl
    · rw [h]
      rfl

end Requests

section Replies

theorem entryAt_isSome_iff {ptr : ℕ} : (r.entryAt ptr).isSome ↔ ∃ e ∈ r.table, e.ptr = ptr := by
  rw [Routing.entryAt, List.find?_isSome]
  simp

theorem Soft.entryAt_isSome {ptr : ℕ} (h : Soft r r') (hptr : (r.entryAt ptr).isSome) :
    (r'.entryAt ptr).isSome := by
  obtain ⟨e, he, hptr⟩ := entryAt_isSome_iff.mp hptr
  obtain ⟨e', he', hsoft⟩ := Pointwise.exists_of_mem_left h.entries he
  obtain ⟨_, _, _, _, rfl⟩ := hsoft
  exact entryAt_isSome_iff.mpr ⟨_, he', hptr⟩

theorem rrepRoute_of_entryAt {ptr : ℕ} (h : (n.routing.entryAt ptr).isSome) :
    ∃ n', n.rrepRoute ptr = some n' ∧ Soft n.routing n'.routing := by
  obtain ⟨e, he⟩ := Option.isSome_iff_exists.mp h
  have hreturns : (n.rrepRoute ptr).isSome := by
    unfold rrepRoute Routing.rrepAodvRoute
    rw [he]
    simp only [Option.bind_eq_bind, Option.bind_some]
    cases n.routing.findSrcListEntry e.srcIp with
    | none => rfl
    | some s =>
      dsimp only
      split
      · rfl
      · rfl
  obtain ⟨n', hn'⟩ := Option.isSome_iff_exists.mp hreturns
  obtain ⟨o, r, packets, hrep, rfl⟩ := rrepRoute_routing hn'
  exact ⟨_, hn', soft_rrepAodvRoute hrep⟩

theorem recvRrepSource_isSome_iff (hwcim : n.cfg.gRoutingMetric = .wcim) (m : Rrep) (x : AodvNeigh) :
    (n.recvRrepSource m x).isSome ↔ Storable (heardRrep m x m.pathMetric) n.cfg n.routing := by
  have hroute := rreqRoute_isSome_iff (n := n.updateTimers) hwcim m.srcIp m.dstIp m.tos x m.numHops m.dstId
    m.pathMetric
  refine Iff.trans ?_ hroute
  unfold recvRrepSource
  dsimp only
  cases hcall : n.updateTimers.rreqRoute m.srcIp m.dstIp m.tos x m.numHops m.dstId m.pathMetric with
  | none => rfl
  | some p =>
    obtain ⟨ok, n₁⟩ := p
    refine iff_of_true ?_ rfl
    dsimp only [Option.bind_eq_bind, Option.bind_some]
    cases hfind : n₁.routing.findAodvRouteById m.dstIp m.dstId with
    | none => rfl
    | some e =>
      have hentry : ((n₁.removeTimer m.srcIp m.dstIp m.tos .resendRreq).routing.entryAt e.ptr).isSome :=
        entryAt_isSome_iff.mpr ⟨e, (findAodvRouteById_some hfind).1, rfl⟩
      obtain ⟨n₂, hrep, -⟩ := rrepRoute_of_entryAt hentry
      dsimp only
      rw [hrep]
      rfl

theorem call_entryAt {ok : Bool} {ptr : ℕ} (hr : WellFormed cfg r) (h : c.call cfg now r = some (ok, r'))
    (hptr : (r.entryAt ptr).isSome) : (r'.entryAt ptr).isSome := by
  obtain ⟨e, he, hptr⟩ := entryAt_isSome_iff.mp hptr
  obtain ⟨e', he', hsame, -⟩ := RreqUpdate.call_notBehind ⟨hr.distinct, hr.fresh⟩ h e he
  exact entryAt_isSome_iff.mpr ⟨e', he', hsame.trans hptr⟩

theorem rrepRecvRoute_entryAt {m m' : Rrep} {recv : AodvRoute} (hr : WellFormed n.cfg n.routing)
    (h : n.rrepRecvRoute m = some (some recv, m', n')) : n'.cfg = n.cfg ∧
      (n'.routing.entryAt recv.ptr).isSome := by
  rcases rrepRecvRoute_cases hr h with ⟨hnone | ⟨-, hfind, -⟩, rfl⟩ | ⟨-, -, e, new, r, he, rfl, hcopy, hptr⟩
  · cases hnone
  · exact ⟨rfl, entryAt_isSome_iff.mpr ⟨recv, (findAodvRouteById_some hfind.symm).1, rfl⟩⟩
  · cases he
    exact ⟨rfl, entryAt_isSome_iff.mpr ⟨new, hcopy.inserts.mem.mpr (.inl rfl), hptr.symm⟩⟩

theorem recvRrepForward_isSome_iff (hwcim : n.cfg.gRoutingMetric = .wcim) (hr : WellFormed n.cfg n.routing)
    (m : Rrep) (x : AodvNeigh) :
    ((n.recvRrepForward m x).isSome ∨ n.rrepRecvRoute m = none) ↔
      ∀ recv m' n₁, n.rrepRecvRoute m = some (some recv, m', n₁) →
        Storable (heardRrep m' x (m'.pathMetric - recv.pathMetric)) n.cfg n₁.routing := by
  unfold recvRrepForward
  cases hrecv : n.rrepRecvRoute m with
  | none => exact iff_of_true (.inr rfl) (by simp)
  | some p =>
    obtain ⟨_ | recv, m', n₁⟩ := p
    · exact iff_of_true (.inl rfl) (by simp)
    obtain ⟨hcfg, hentry⟩ := rrepRecvRoute_entryAt hr hrecv
    have hr₁ : WellFormed n₁.cfg n₁.routing := by
      rw [hcfg]
      exact WellFormed.rrepRecvRoute hr hrecv
    have hwcim₁ : n₁.cfg.gRoutingMetric = .wcim := by rw [hcfg, hwcim]
    have hroute := rreqRoute_isSome_iff hwcim₁ m'.srcIp m'.dstIp m'.tos x m'.numHops
      m'.dstId (m'.pathMetric - recv.pathMetric)
    have hcall : (n₁.rreqRoute m'.srcIp m'.dstIp m'.tos x m'.numHops m'.dstId
        (m'.pathMetric - recv.pathMetric)).isSome ↔ ∀ recv' m'' n₂,
          some (some recv, m', n₁) = some (some recv', m'', n₂) →
          Storable (heardRrep m'' x (m''.pathMetric - recv'.pathMetric)) n.cfg n₂.routing := by
      rw [hroute, hcfg]
      constructor
      · rintro h _ _ _ ⟨⟩
        exact h
      · exact fun h ↦ h _ _ _ rfl
    rw [← hcall]
    simp only [reduceCtorEq, or_false]
    dsimp only [Option.bind_eq_bind, Option.bind_some]
    cases hstore : n₁.rreqRoute m'.srcIp m'.dstIp m'.tos x m'.numHops m'.dstId
        (m'.pathMetric - recv.pathMetric) with
    | none => rfl
    | some p =>
      obtain ⟨ok, n₂⟩ := p
      refine iff_of_true ?_ rfl
      obtain ⟨⟨ok₁, r₂⟩, hwrite, hn₂⟩ := Option.bind_eq_some_iff.mp hstore
      obtain ⟨rfl, rfl⟩ := Prod.mk.inj (Option.some.inj hn₂)
      have hentry₂ : (r₂.entryAt recv.ptr).isSome := call_entryAt (c := heardRrep m' x _) hr₁ hwrite hentry
      dsimp only [Option.bind_some]
      cases hfind : r₂.findAodvRouteById m'.dstIp m'.dstId with
      | none => rfl
      | some send =>
        have hsend₂ : (r₂.entryAt send.ptr).isSome :=
          entryAt_isSome_iff.mpr ⟨send, (findAodvRouteById_some hfind).1, rfl⟩
        obtain ⟨n₃, hrep₃, hsoft₃⟩ := rrepRoute_of_entryAt (n := { n₁ with routing := r₂ }) hentry₂
        obtain ⟨n₄, hrep₄, hsoft₄⟩ := rrepRoute_of_entryAt (Soft.entryAt_isSome hsoft₃ hsend₂)
        have hsoft := hsoft₃.trans hsoft₄
        obtain ⟨recv', hrecv'⟩ := Option.isSome_iff_exists.mp (Soft.entryAt_isSome hsoft hentry₂)
        obtain ⟨send', hsend'⟩ := Option.isSome_iff_exists.mp (Soft.entryAt_isSome hsoft hsend₂)
        dsimp only
        rw [hrep₃, Option.bind_some, hrep₄, Option.bind_some, hrecv', Option.bind_some, hsend']
        rfl

theorem recvRrep_isSome_iff (hwcim : n.cfg.gRoutingMetric = .wcim) (hr : WellFormed n.cfg n.routing)
    (hx : n.findAodvNeigh t.srcIp = some x) (m : Rrep) :
    ((n.recvRrep t m).isSome ∨ isRrepSource n m = false ∧
      (n.updateNeighLifetime x.ip).rrepRecvRoute { m with numHops := m.numHops + 1 } = none) ↔
      RrepDefined { m with numHops := m.numHops + 1 } x (n.updateNeighLifetime x.ip) := by
  have hbranch : n.recvRrep t m = if isRrepSource n m then
      (n.updateNeighLifetime x.ip).recvRrepSource { m with numHops := m.numHops + 1 } x
      else (n.updateNeighLifetime x.ip).recvRrepForward { m with numHops := m.numHops + 1 } x := by
    rw [recvRrep, hx]
    rfl
  have hdefined : RrepDefined { m with numHops := m.numHops + 1 } x (n.updateNeighLifetime x.ip) ↔
      if isRrepSource n m then
        Storable (heardRrep { m with numHops := m.numHops + 1 } x m.pathMetric) n.cfg n.routing
      else ∀ recv m' n₁,
        (n.updateNeighLifetime x.ip).rrepRecvRoute { m with numHops := m.numHops + 1 } =
          some (some recv, m', n₁) →
        Storable (heardRrep m' x (m'.pathMetric - recv.pathMetric)) n.cfg n₁.routing := Iff.rfl
  rw [hbranch, hdefined]
  cases isRrepSource n m with
  | true =>
    simp only [if_true, Bool.true_eq_false, false_and, or_false]
    exact recvRrepSource_isSome_iff (n := n.updateNeighLifetime x.ip) hwcim _ x
  | false =>
    simp only [Bool.false_eq_true, if_false, true_and]
    exact recvRrepForward_isSome_iff (n := n.updateNeighLifetime x.ip) hwcim hr _ x

end Replies

section Totality

theorem computeCoef_divisors (size : UInt16) (hrate : rate ≠ 0) :
    rate.toUInt32 ≠ 0 ∧ (size.toUInt32 * 8000 + 470 * 1000) / rate.toUInt32 + 122 * 100 ≠ 0 := by
  have hsize : size.toNat < 65536 := size.toNat_lt
  have hdiv := Nat.div_le_self (size.toNat * 8000 + 470000) rate.toNat
  refine ⟨fun h ↦ hrate ?_, fun h ↦ ?_⟩
  · rw [← UInt16.toNat_inj]
    have hzero := congrArg UInt32.toNat h
    simpa using hzero
  · have hzero := congrArg UInt32.toNat h
    have hmul : (size.toUInt32 * 8000).toNat = size.toNat * 8000 := by
      rw [UInt32.toNat_mul, UInt16.toNat_toUInt32]
      exact Nat.mod_eq_of_lt (by simp; omega)
    have hadd : (size.toUInt32 * 8000 + 470 * 1000).toNat = size.toNat * 8000 + 470000 := by
      rw [UInt32.toNat_add, hmul]
      exact Nat.mod_eq_of_lt (by simp; omega)
    have hlt : (size.toNat * 8000 + 470000) / rate.toNat + 12200 < 2 ^ 32 := by omega
    rw [UInt32.toNat_add, UInt32.toNat_div, hadd, UInt16.toNat_toUInt32] at hzero
    exact absurd ((Nat.mod_eq_of_lt hlt).symm.trans hzero) (Nat.succ_ne_zero _)

/-- In WCIM mode, for every message from a known neighbour `x`: `recv_rreq` comes
to its end exactly when the ToS is in the table where the metric needs it and
the load of a stored route is defined, and `recv_rrep` exactly when that load
is, unless there is no memory for the copy of a DTN hello. No other division is
by zero. -/
theorem wcim_total_iff (hwcim : n.cfg.gRoutingMetric = .wcim) (hn : TablesOrdered n)
    (hr : WellFormed n.cfg n.routing) (hx : n.findAodvNeigh t.srcIp = some x) :
    (∀ m, (n.recvRreq t m).isSome ↔ RreqDefined t m x n) ∧
      (∀ m, ((n.recvRrep t m).isSome ∨ isRrepSource n m = false ∧
          (n.updateNeighLifetime x.ip).rrepRecvRoute { m with numHops := m.numHops + 1 } = none) ↔
        RrepDefined { m with numHops := m.numHops + 1 } x (n.updateNeighLifetime x.ip)) ∧
      (∀ flow, flow.avgRate.toNat < leftFor flow x n → leftFor flow x n ≠ 0) ∧
      ∀ size rate : UInt16, rate ≠ 0 →
        rate.toUInt32 ≠ 0 ∧ (size.toUInt32 * 8000 + 470 * 1000) / rate.toUInt32 + 122 * 100 ≠ 0 :=
  ⟨recvRreq_isSome_iff hwcim hn hx, recvRrep_isSome_iff hwcim hr hx, fun _ h ↦ Nat.ne_of_gt (by omega),
    fun size _ ↦ computeCoef_divisors size⟩

/-- A station in WCIM mode that measured its neighbour 192.168.1.2. -/
def wcimStation : Node :=
  { loadedStation 10 with cfg := { station.cfg with gRoutingMetric := .wcim } }

theorem wcimStation_ordered : TablesOrdered wcimStation where
  neigh := List.pairwise_singleton _ _
  neigh2h := List.Pairwise.nil
  disjoint := by
    have hnone : wcimStation.aodvNeighList2h = [] := rfl
    simp [hnone]
  meshIp := by
    have hnone : wcimStation.aodvNeighList2h = [] := rfl
    simp [hnone]

theorem wcimStation_wellFormed : WellFormed wcimStation.cfg wcimStation.routing := by
  have hstation : Reachable station := .init trivial
  have hr := reach_wellFormed hstation
  exact ⟨hr.fresh, hr.distinct, hr.sorted, hr.localFresh, hr.localEntry, hr.neighRoute⟩

def fromNeigh : Task := { createTask .recvRreq 0 with srcIp := 0x0201a8c0, ttl := 5 }

/-- An RREQ of 192.168.1.7 for 192.168.1.9. -/
def tosRreq (tos : UInt8) : Rreq := ⟨tos, 0, 0, 0x0901a8c0, 0x0701a8c0, 5, 0, 0⟩

theorem wcim_total_iff_station : (wcimStation.recvRreq fromNeigh (tosRreq 2)).isSome := by
  refine ((wcim_total_iff rfl wcimStation_ordered wcimStation_wellFormed (x := measuredNeigh 10)
    (by decide)).1 _).mpr fun _ _ ↦ ⟨⟨2, 1472, 1000⟩, by decide, fun _ _ _ h ↦ ?_⟩
  exact absurd (h.2 ⟨2, 1472, 1000⟩ (by decide)) (by decide)

/-- An RREQ with a ToS that is not in the table. -/
theorem wcimStation_faults : ¬ ∀ (n : Node) (x : AodvNeigh) (t : Task), n.cfg.gRoutingMetric = .wcim →
    TablesOrdered n → WellFormed n.cfg n.routing → n.findAodvNeigh t.srcIp = some x →
    (∀ m, (n.recvRreq t m).isSome) ∧ ∀ m, (n.recvRrep t m).isSome := by
  intro h
  have hsome := (h wcimStation (measuredNeigh 10) fromNeigh rfl wcimStation_ordered wcimStation_wellFormed
    (by decide)).1 (tosRreq 0)
  exact absurd hsome (by decide +kernel)

end Totality

end Fbaodv.Proofs.WcimFaults
