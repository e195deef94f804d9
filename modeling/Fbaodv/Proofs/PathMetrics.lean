import Fbaodv.Proofs.NetRuns
import Fbaodv.Proofs.WcimFaults

namespace Fbaodv.Proofs.PathMetrics

open Fbaodv.Foundation Fbaodv.Model Fbaodv.Model.Node
open Fbaodv.Proofs.Background Fbaodv.Proofs.NodeRun Fbaodv.Proofs.NodeOps Fbaodv.Proofs.Upkeep
open Fbaodv.Proofs.NeighActs Fbaodv.Proofs.NeighTables Fbaodv.Proofs.WcimAdmission
open Fbaodv.Proofs.WcimFaults Fbaodv.Proofs.PacketDiscovery Fbaodv.Proofs.NeighLoss

/-- The node as it takes the task `t` in some run. -/
def Takes (t : Task) (n : Node) : Prop :=
  ∃ n₁ tasks, Reachable n₁ ∧ n₁.tasks.pop = (some t, tasks) ∧ n = { n₁ with tasks := tasks }

/-- Among what has been sent is a copy of an RREQ. -/
def SendsRreq (n n' : Node) (ttl : UInt8) (m : Rreq) : Prop :=
  ∃ posts, n'.sent = n.sent ++ posts ∧ .broadcast ttl (.rreq m) ∈ posts

/-- The copies of RREQs that have travelled `k` hops between nodes of one metric. -/
inductive Travels (g : Metric) : ℕ → UInt8 → Rreq → Prop
  | gen {n n' : Node} {srcIp dstIp : Ip} {tos ttl : UInt8} {m : Rreq}
      (h : n.genRreq srcIp dstIp tos = some n') (hsent : SendsRreq n n' ttl m) : Travels g 0 ttl m
  | resend {n n' : Node} {t : Task} {ttl : UInt8} {m : Rreq} (h : n.resendRreq t = some n')
      (hsent : SendsRreq n n' ttl m) : Travels g 0 ttl m
  | relay {k : ℕ} {n n' : Node} {t : Task} {ttl : UInt8} {m m' : Rreq} (hm : Travels g k t.ttl m)
      (hn : Takes t n) (hg : n.cfg.gRoutingMetric = g) (h : n.recvRreq t m = some n')
      (hsent : SendsRreq n n' ttl m') : Travels g (k + 1) ttl m'

/-- The new path metric in exact integers. -/
def exactMetric (x : AodvNeigh) (m : Rreq) (n : Node) : ℕ :=
  match n.cfg.gRoutingMetric with
  | .hops => m.numHops.toNat + 1
  | .ett => m.pathMetric.toNat + probePacket * 1000 / (x.recvRate.toNat * x.etxMetric.toNat)
  | .wcim =>
    match findFlowType m.tos with
    | none => 0
    | some flow => m.pathMetric.toNat + flow.avgSize.toNat * 8000 / leftFor flow x n

/-- The bound that `compute_etx` establishes. -/
def EtxBounded (n : Node) : Prop := ∀ x ∈ n.aodvNeighList, x.etxMetric ≤ 100

variable {g : Metric} {k : ℕ} {ttl : UInt8} {m : Rreq} {n n' : Node} {t : Task} {x : AodvNeigh}

section Bound

theorem EtxBounded.touched (hn : EtxBounded n)
    (h : List.Forall₂ NeighTouch n.aodvNeighList n'.aodvNeighList) : EtxBounded n' := by
  intro x' hx'
  obtain ⟨x, hx, htouch⟩ := Pointwise.exists_of_mem_right h hx'
  exact htouch.etxMetric (hn x hx)

theorem EtxBounded.of_eq (hn : EtxBounded n) (h : n'.aodvNeighList = n.aodvNeighList) : EtxBounded n' := by
  intro x hx
  exact hn x (h ▸ hx)

theorem EtxBounded.modifyNeigh (hn : EtxBounded n) (ip : Ip) {f : AodvNeigh → AodvNeigh}
    (hf : ∀ x, (f x).etxMetric = x.etxMetric) : EtxBounded (n.modifyNeigh ip f) := by
  intro x' hx'
  rcases OrderedList.mem_modifyFirst hx' with hx | ⟨x, hx, -, rfl⟩
  · exact hn x' hx
  · exact hf x ▸ hn x hx

theorem updateNeighLoad_etx (load : UInt8) (loadSeq : UInt16) (x : AodvNeigh) :
    (updateNeighLoad load loadSeq x).etxMetric = x.etxMetric := by
  unfold updateNeighLoad
  split
  · rfl
  · rfl

theorem updateNeightx_etx (neightx : Ip) (x : AodvNeigh) :
    (updateNeightx neightx x).etxMetric = x.etxMetric := by
  unfold updateNeightx
  dsimp only
  split
  · rfl
  split
  · rfl
  · rfl

theorem EtxBounded.act {n₀ : Node} (hn : EtxBounded n) (h : NeighAct n₀ t n n') : EtxBounded n' := by
  cases h with
  | same h => exact hn.touched h.neigh
  | refresh => exact EtxBounded.modifyNeigh (hn.of_eq rfl) t.srcIp fun _ ↦ rfl
  | arm | rearm | stop | probe | renew => exact hn.of_eq rfl
  | meet _ _ _ h =>
    have hn₁ : EtxBounded (n.takeNeigh2h t.srcIp).2.2 := hn.of_eq (takeNeigh2h_frame _ n).2
    rcases createAodvNeigh_spec h with ⟨-, h⟩ | ⟨-, h⟩
    · exact hn₁.touched h.neigh
    · intro x hx
      rw [h.neigh] at hx
      rcases OrderedList.mem_insertBy.mp hx with rfl | hx
      · exact UInt8.zero_le
      · exact hn₁ x hx
  | lose =>
    have herase := (unlinkNeigh_frame t.srcIp n).2.1
    intro x hx
    exact hn x (List.mem_of_mem_eraseP (herase ▸ hx))
  | lose2h => exact hn.of_eq (deleteAodvNeigh2h_frame _ n).2
  | takeLoad => exact hn.modifyNeigh _ fun _ ↦ rfl
  | ownLoad => exact hn.modifyNeigh _ (updateNeighLoad_etx _ _)
  | extLoad => exact hn.modifyNeigh _ (updateNeighLoad_etx _ _)
  | refresh2h => exact hn.of_eq (refreshNeigh2h_frame _ n).2
  | extLoad2h => exact hn.of_eq rfl
  | neightx => exact hn.modifyNeigh _ (updateNeightx_etx _)

theorem EtxBounded.acts {n₀ : Node} (hn : EtxBounded n) (h : Acts n₀ t n n') : EtxBounded n' := by
  induction h with
  | refl => exact hn
  | tail _ hact ih => exact ih.act hact

theorem step_etxBounded {e : Event} (hn : EtxBounded n) (h : n.step e = some n') : EtxBounded n' := by
  cases step_neigh h with
  | wait ms => exact hn.of_eq rfl
  | idle h => exact hn.of_eq h.neigh
  | signal => exact hn.of_eq (signal_neigh n).2.2.1
  | @thread t tasks _ hpop h => exact EtxBounded.acts (n := { n with tasks := tasks }) hn h

theorem reach_etxBounded {I : Config → Environment → Prop} {C : Node → Event → Prop} (h : Reach I C n) :
    EtxBounded n := by
  refine h.induct (fun cfg env _ ↦ ?_) fun _ _ _ hn _ hs ↦ step_etxBounded hn hs
  intro x hx
  rw [(init_neighLists cfg env).1] at hx
  cases hx

theorem Takes.etxBounded (h : Takes t n) : EtxBounded n := by
  obtain ⟨n₁, tasks, hreach, -, rfl⟩ := h
  have hn₁ : EtxBounded n₁ := reach_etxBounded hreach
  exact hn₁

theorem Takes.tablesOrdered (h : Takes t n) : TablesOrdered n := by
  obtain ⟨n₁, tasks, hreach, -, rfl⟩ := h
  exact (reach_tablesOrdered hreach).lists rfl rfl rfl

end Bound

section Metric

theorem rate_lt (hetx : x.etxMetric ≤ 100) : x.recvRate.toNat * x.etxMetric.toNat ≤ 6553500 := by
  have hrate : x.recvRate.toNat < 65536 := x.recvRate.toNat_lt
  have hmul := Nat.mul_le_mul (Nat.le_of_lt_succ hrate) (UInt8.le_iff_toNat_le.mp hetx)
  exact hmul

theorem rate_pos (h : rateUnknown x = false) : 0 < x.recvRate.toNat * x.etxMetric.toNat := by
  simp only [rateUnknown, Bool.or_eq_false_iff, beq_eq_false_iff_ne] at h
  refine Nat.mul_pos (Nat.pos_of_ne_zero fun hzero ↦ h.1.1 ?_) (Nat.pos_of_ne_zero fun hzero ↦ h.2 ?_)
  · exact UInt16.toNat_inj.mp hzero
  · exact UInt8.toNat_inj.mp hzero

theorem ett_bounds (hrate : rateUnknown x = false) (hetx : x.etxMetric ≤ 100) :
    1 ≤ probePacket * 1000 / (x.recvRate.toNat * x.etxMetric.toNat) ∧
      probePacket * 1000 / (x.recvRate.toNat * x.etxMetric.toNat) ≤ 11776000 := by
  have hpos := rate_pos hrate
  have hle := rate_lt hetx
  refine ⟨(Nat.le_div_iff_mul_le hpos).mpr ?_, Nat.div_le_self _ _⟩
  rw [probePacket]
  omega

theorem wcim_bounds {flow : FlowType} {tos : UInt8} (hflow : findFlowType tos = some flow)
    (hleft : flow.avgRate.toNat < leftFor flow x n) :
    1 ≤ flow.avgSize.toNat * 8000 / leftFor flow x n ∧
      flow.avgSize.toNat * 8000 / leftFor flow x n ≤ 11776000 := by
  obtain ⟨hlow, hhigh, -, -⟩ := flow_bounds hflow
  have hlt : leftFor flow x n < 65536 := residual_lt (Nat.mod_lt _ (by decide))
  refine ⟨(Nat.le_div_iff_mul_le (by omega)).mpr (by omega), (Nat.div_le_self _ _).trans (by omega)⟩

theorem add_toNat {a : UInt32} {b : ℕ} (h : a.toNat + b < 2 ^ 32) : (a + UInt32.ofNat b).toNat = a.toNat + b := by
  rw [UInt32.toNat_add, UInt32.toNat_ofNat', Nat.add_mod_mod, Nat.mod_eq_of_lt h]

/-- One hop: the metric is exact, and it grows by no more than 11776000. -/
theorem rreqMetric_spec {pathMetric : UInt32} (hn : TablesOrdered n) (hetx : EtxBounded n)
    (hx : n.findAodvNeigh t.srcIp = some x) (hhops : m.numHops.toNat + 1 < 256)
    (hmetric : m.pathMetric.toNat + 11776000 < 2 ^ 32)
    (hcount : n.cfg.gRoutingMetric = .hops → m.pathMetric.toNat = m.numHops.toNat)
    (h : n.rreqMetric x { m with numHops := m.numHops + 1 } = some (some pathMetric)) :
    pathMetric.toNat = exactMetric x m n ∧ m.pathMetric.toNat < exactMetric x m n ∧
      exactMetric x m n ≤ m.pathMetric.toNat + 11776000 := by
  obtain ⟨hmem, -⟩ := hn.find_iff.mp hx
  unfold rreqMetric at h
  unfold exactMetric
  cases hcfg : n.cfg.gRoutingMetric with
  | hops =>
    simp only [hcfg, Option.some.injEq] at h
    have hpath := hcount hcfg
    subst h
    have hnum : (m.numHops + 1).toUInt32.toNat = m.numHops.toNat + 1 := by
      rw [UInt8.toNat_toUInt32, UInt8.toNat_add]
      exact Nat.mod_eq_of_lt hhops
    refine ⟨hnum, ?_, ?_⟩
    · dsimp only
      omega
    · dsimp only
      omega
  | ett =>
    simp only [hcfg, ettMetric] at h
    split at h
    · simp at h
    next hrate =>
    have hrate : rateUnknown x = false := eq_false_of_ne_true hrate
    obtain ⟨hlow, hhigh⟩ := ett_bounds hrate (hetx x hmem)
    simp only [Option.some.injEq, ettOfNeigh] at h
    subst h
    dsimp only
    generalize probePacket * 1000 / (x.recvRate.toNat * x.etxMetric.toNat) = q at hlow hhigh ⊢
    refine ⟨add_toNat (by omega), ?_, ?_⟩
    · omega
    · omega
  | wcim =>
    simp only [hcfg] at h
    have hrate : rateUnknown x = false := by
      cases hrate : rateUnknown x with
      | false => rfl
      | true => simp [wcimMetric, hrate] at h
    cases hflow : findFlowType m.tos with
    | none => simp [wcimMetric, hrate, hflow] at h
    | some flow =>
      rw [wcimMetric_leftFor hn hmem hflow hrate] at h
      split at h
      · simp at h
      next hleft =>
      have hleft : flow.avgRate.toNat < leftFor flow x n := not_le.mp hleft
      obtain ⟨hlow, hhigh⟩ := wcim_bounds hflow hleft
      simp only [Option.some.injEq] at h
      subst h
      refine ⟨add_toNat (by omega), ?_, ?_⟩
      · dsimp only
        omega
      · dsimp only
        omega

end Metric

section Relay

theorem not_sends_of_eq (h : n'.sent = n.sent) : ¬SendsRreq n n' ttl m := by
  rintro ⟨posts, hsent, hmem⟩
  have hnil : posts = [] := List.append_right_eq_self.mp (hsent.symm.trans h)
  simp [hnil] at hmem

theorem rreqMetric_updateNeighLifetime (ip : Ip) (x : AodvNeigh) (m : Rreq) (n : Node) :
    (n.updateNeighLifetime ip).rreqMetric x m = n.rreqMetric x m := by
  have hcfg : (n.updateNeighLifetime ip).cfg = n.cfg := rfl
  rw [rreqMetric, rreqMetric, hcfg, wcimMetric_updateNeighLifetime]

/-- What a copy that `recv_rreq` passes on was made from. -/
theorem relay_spec {m' : Rreq} (h : n.recvRreq t m = some n') (hsent : SendsRreq n n' ttl m') :
    ∃ x pathMetric, n.findAodvNeigh t.srcIp = some x ∧ 1 < t.ttl ∧ ttl = t.ttl - 1 ∧
      n.rreqMetric x { m with numHops := m.numHops + 1 } = some (some pathMetric) ∧
      m'.numHops = m.numHops + 1 ∧ m'.pathMetric = pathMetric := by
  rcases HandlerSpecs.recvRreq_paths h with rfl | ⟨ip, rfl⟩ | ⟨x, pathMetric, ok, r, hcall, -, rfl⟩
  · exact absurd hsent (not_sends_of_eq rfl)
  · exact absurd hsent (not_sends_of_eq rfl)
  have hmetric := hcall.metric
  rw [rreqMetric_updateNeighLifetime] at hmetric
  split at hsent
  swap
  · exact absurd hsent (not_sends_of_eq rfl)
  unfold acceptRreq at hsent
  split at hsent
  · split at hsent
    · exact absurd hsent (not_sends_of_eq rfl)
    · exact absurd hsent (not_sends_of_eq rfl)
  next hdest =>
  have hscope : 1 < t.ttl := by
    have hnot : n.iamDestination m = false := eq_false_of_ne_true hdest
    have hscope := hcall.ttl
    rw [hnot, Bool.not_false, Bool.and_true, decide_eq_false_iff_not] at hscope
    exact UInt8.not_le.mp hscope
  obtain ⟨posts, hsent, hmem⟩ := hsent
  dsimp only [localBroadcast] at hsent
  refine ⟨x, pathMetric, hcall.neigh, hscope, ?_⟩
  have hlate : ¬(t.ttl - 1 < 1) := by
    rw [UInt8.lt_iff_toNat_lt, UInt8.toNat_sub_of_le _ _ (UInt8.le_of_lt hscope)]
    have hlt := UInt8.lt_iff_toNat_lt.mp hscope
    simp at hlt ⊢
    omega
  rw [if_neg hlate] at hsent
  dsimp only at hsent
  split at hsent
  · have hposts := List.append_cancel_left ((List.append_assoc _ _ _).symm.trans hsent)
    rw [← hposts] at hmem
    rcases List.mem_append.mp hmem with hmem | hmem
    · simp at hmem
    · obtain ⟨rfl, hm⟩ := Sent.broadcast.inj (List.mem_singleton.mp hmem)
      obtain rfl := Message.rreq.inj hm
      exact ⟨rfl, hmetric, rfl, rfl⟩
  · have hposts : _ = posts := List.append_cancel_left hsent
    rw [← hposts] at hmem
    obtain ⟨rfl, hm⟩ := Sent.broadcast.inj (List.mem_singleton.mp hmem)
    obtain rfl := Message.rreq.inj hm
    exact ⟨rfl, hmetric, rfl, rfl⟩

theorem flooded_sends {srcIp dstIp : Ip} {tos retries : UInt8} {m' : Rreq}
    (h : Flooded n srcIp dstIp tos retries m' n') (hsent : SendsRreq n n' ttl m) :
    ttl = netDiameter ∧ m.numHops = 0 ∧ m.pathMetric = 0 := by
  obtain ⟨posts, hsent, hmem⟩ := hsent
  rw [← List.append_cancel_left (h.sent.symm.trans hsent)] at hmem
  obtain ⟨rfl, hm⟩ := Sent.broadcast.inj (List.mem_singleton.mp hmem)
  obtain rfl := Message.rreq.inj hm
  exact ⟨rfl, h.fresh⟩

theorem gen_sends {srcIp dstIp : Ip} {tos : UInt8} (h : n.genRreq srcIp dstIp tos = some n')
    (hsent : SendsRreq n n' ttl m) : ttl = netDiameter ∧ m.numHops = 0 ∧ m.pathMetric = 0 := by
  rcases genRreq_cases h with ⟨-, rfl⟩ | ⟨m', h⟩
  · exact absurd hsent (not_sends_of_eq rfl)
  · exact flooded_sends h hsent

theorem resend_sends (h : n.resendRreq t = some n') (hsent : SendsRreq n n' ttl m) :
    ttl = netDiameter ∧ m.numHops = 0 ∧ m.pathMetric = 0 := by
  rcases resendRreq_cases h with ⟨-, rfl⟩ | ⟨-, ⟨-, rfl⟩ | ⟨m', h⟩⟩
  · exact absurd hsent (not_sends_of_eq rfl)
  · exact absurd hsent (not_sends_of_eq rfl)
  · exact flooded_sends h hsent

end Relay

section Path

/-- What holds of a copy after `k` hops, of which the TTL allows ten. -/
structure OnPath (g : Metric) (k : ℕ) (ttl : UInt8) (m : Rreq) : Prop where
  scope : ttl.toNat + k = 10
  left : 1 ≤ ttl.toNat
  numHops : m.numHops.toNat = k
  pathMetric : m.pathMetric.toNat ≤ 11776000 * k
  hops : g = .hops → m.pathMetric.toNat = k

theorem onPath_fresh (h : ttl = netDiameter ∧ m.numHops = 0 ∧ m.pathMetric = 0) : OnPath g 0 ttl m := by
  obtain ⟨rfl, hhops, hmetric⟩ := h
  exact ⟨rfl, by decide, by rw [hhops]; rfl, by rw [hmetric]; exact le_rfl, fun _ ↦ by rw [hmetric]; rfl⟩

/-- The metric on the way, which the TTL keeps from wrapping. -/
theorem OnPath.metric {pathMetric : UInt32} (h : OnPath g k t.ttl m) (hn : Takes t n)
    (hg : n.cfg.gRoutingMetric = g) (hx : n.findAodvNeigh t.srcIp = some x)
    (hmetric : n.rreqMetric x { m with numHops := m.numHops + 1 } = some (some pathMetric)) :
    pathMetric.toNat = exactMetric x m n ∧ m.pathMetric.toNat < exactMetric x m n ∧
      exactMetric x m n ≤ m.pathMetric.toNat + 11776000 := by
  have httl := h.scope
  have hpath := h.pathMetric
  refine rreqMetric_spec hn.tablesOrdered hn.etxBounded hx ?_ (by omega) (fun hcfg ↦ ?_) hmetric
  · rw [h.numHops]
    omega
  · rw [h.numHops, h.hops (hg.symm.trans hcfg)]

theorem OnPath.relay {m' : Rreq} (h : OnPath g k t.ttl m) (hn : Takes t n)
    (hg : n.cfg.gRoutingMetric = g) (hrun : n.recvRreq t m = some n') (hsent : SendsRreq n n' ttl m') :
    OnPath g (k + 1) ttl m' ∧ m.pathMetric < m'.pathMetric := by
  obtain ⟨x, pathMetric, hx, hscope, rfl, hmetric, hhops', rfl⟩ := relay_spec hrun hsent
  obtain ⟨hexact, hlow, hhigh⟩ := h.metric hn hg hx hmetric
  have httl := h.scope
  have hpath := h.pathMetric
  have hnum := h.numHops
  have hless : (t.ttl - 1).toNat = t.ttl.toNat - 1 := UInt8.toNat_sub_of_le _ _ (UInt8.le_of_lt hscope)
  have hscope : 1 < t.ttl.toNat := UInt8.lt_iff_toNat_lt.mp hscope
  refine ⟨⟨?_, ?_, ?_, ?_, fun hcfg ↦ ?_⟩, UInt32.lt_iff_toNat_lt.mpr (hexact ▸ hlow)⟩
  · omega
  · omega
  · rw [hhops', UInt8.toNat_add, hnum]
    exact Nat.mod_eq_of_lt (show k + 1 < 256 by omega)
  · omega
  · rw [hexact, exactMetric, hg.trans hcfg]
    dsimp only
    omega

theorem Travels.onPath (h : Travels g k ttl m) : OnPath g k ttl m := by
  induction h with
  | gen h hsent => exact onPath_fresh (gen_sends h hsent)
  | resend h hsent => exact onPath_fresh (resend_sends h hsent)
  | relay _ hn hg h hsent ih => exact (ih.relay hn hg h hsent).1

/-- Along every path of nodes that use one metric, the path metric grows at
every hop and nothing that it is computed from wraps. -/
theorem path_metrics_grow (hm : Travels g k t.ttl m) (hn : Takes t n) (hg : n.cfg.gRoutingMetric = g) :
    m.numHops.toNat = k ∧ m.numHops.toNat + 1 < 2 ^ 8 ∧
      (∀ x, n.findAodvNeigh t.srcIp = some x → x.recvRate.toNat * x.etxMetric.toNat < 2 ^ 31 ∧
        ∀ pathMetric, n.rreqMetric x { m with numHops := m.numHops + 1 } = some (some pathMetric) →
          pathMetric.toNat = exactMetric x m n ∧ exactMetric x m n < 2 ^ 32) ∧
      ∀ n' ttl' m', n.recvRreq t m = some n' → SendsRreq n n' ttl' m' →
        m'.numHops.toNat = k + 1 ∧ m.pathMetric < m'.pathMetric := by
  have hpath := hm.onPath
  have httl := hpath.scope
  have hbound := hpath.pathMetric
  refine ⟨hpath.numHops, ?_, fun x hx ↦ ⟨?_, fun pathMetric hmetric ↦ ?_⟩, fun n' ttl' m' hrun hsent ↦ ?_⟩
  · rw [hpath.numHops]
    omega
  · obtain ⟨hmem, -⟩ := hn.tablesOrdered.find_iff.mp hx
    exact (rate_lt (hn.etxBounded x hmem)).trans_lt (by decide)
  · obtain ⟨hexact, -, hhigh⟩ := hpath.metric hn hg hx hmetric
    exact ⟨hexact, by omega⟩
  · obtain ⟨hnext, hless⟩ := hpath.relay hn hg hrun hsent
    exact ⟨hnext.numHops, hless⟩

end Path

section Station

/-- The station 192.168.1.2. -/
def sender : Node := Node.init { station.cfg with gMeshIp := 0x0201a8c0 } NetRuns.plainEnvironment

/-- Its RREQ for 192.168.1.9. -/
def sought : Rreq := ⟨0, 0, 0, 0x0901a8c0, 0x0201a8c0, 2, 0, 0⟩

theorem sought_travels : Travels .hops 0 10 sought := by
  have hgen : sender.genRreq 0x0201a8c0 0x0901a8c0 0 =
      some ((sender.genRreq 0x0201a8c0 0x0901a8c0 0).getD sender) := rfl
  exact .gen hgen ⟨[.broadcast 10 (.rreq sought)], by decide +kernel, List.mem_singleton_self _⟩

/-- The RREQ reaches the station, which knows its neighbour 192.168.1.2. -/
def reachedStation : Node :=
  (runs [.input (heard 0x0201a8c0 (.rreq sought))] metStation).getD station

def takenTask : Task := reachedStation.tasks.pop.1.getD (createTask .recvRreq 0)

def takingStation : Node := { reachedStation with tasks := reachedStation.tasks.pop.2 }

theorem takingStation_takes : Takes takenTask takingStation :=
  ⟨reachedStation, reachedStation.tasks.pop.2,
    metStation_reachable.of_runs (l := [.input (heard 0x0201a8c0 (.rreq sought))]) rfl, rfl, rfl⟩

theorem path_metrics_grow_station :
    ∃ n' m', takingStation.recvRreq takenTask sought = some n' ∧ SendsRreq takingStation n' 9 m' ∧
      m'.numHops.toNat = 1 ∧ sought.pathMetric < m'.pathMetric := by
  have hsent : SendsRreq takingStation
      ((takingStation.recvRreq takenTask sought).getD takingStation) 9
      { sought with numHops := 1, pathMetric := 1 } :=
    ⟨[.broadcast 9 (.rreq { sought with numHops := 1, pathMetric := 1 })], by decide +kernel,
      List.mem_singleton_self _⟩
  refine ⟨_, _, rfl, hsent, ?_⟩
  exact (path_metrics_grow (t := takenTask) sought_travels takingStation_takes rfl).2.2.2 _ _ _ rfl hsent

end Station

end Fbaodv.Proofs.PathMetrics
