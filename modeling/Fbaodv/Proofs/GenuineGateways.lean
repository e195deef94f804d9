import Fbaodv.Proofs.GatewayExpiry
import Fbaodv.Proofs.RrepRecognition

namespace Fbaodv.Proofs.GenuineGateways

open Fbaodv.Model Fbaodv.Model.Node Fbaodv.Foundation Fbaodv.Foundation.Interleaving Relation
open Fbaodv.Proofs.RoutingInvariant Fbaodv.Proofs.Background Fbaodv.Proofs.RouteEffects
open Fbaodv.Proofs.HandlerSpecs Fbaodv.Proofs.NodeRun Fbaodv.Proofs.NodeOps Fbaodv.Proofs.NetOps
open Fbaodv.Proofs.NetPaths Fbaodv.Proofs.NetRuns Fbaodv.Proofs.GatewayExpiry
open Fbaodv.Proofs.Isolation (TimersBare runs_eq step_cfg)
open Fbaodv.Proofs.PacketDiscovery (station)
open Fbaodv.Proofs.RrepRecognition (appended_of_path)

/-- The gateway `g` has announced itself under the number. -/
def Announced (net : Network) (g : Ip) (dstId : UInt32) : Prop :=
  (net g).cfg.gAodvGateway = true ∧ .broadcast netDiameter (.strreq ⟨0, g, dstId, 0⟩) ∈ (net g).sent

/-- The address is that of a gateway, or of none. -/
def NamesGateway (net : Network) (g : Ip) : Prop := g = gNullIp ∨ ∃ dstId, Announced net g dstId

/-- What a node says of a gateway comes from the gateway, over so many hops. -/
structure GenuineEntry (net : Network) (n : Node) (x : GwEntry) : Prop where
  announced : Announced net x.ip x.dstId
  other : x.ip ≠ n.cfg.gMeshIp
  hops : 1 ≤ x.numHops.toNat ∧ x.numHops.toNat ≤ netDiameter.toNat
  metric : n.cfg.gRoutingMetric = .hops → x.metric = x.numHops.toUInt32

/-- An announcement on its way, with the TTL it travels with. -/
structure GenuineFlood (net : Network) (ttl : UInt8) (m : RreqSt) : Prop where
  announced : Announced net m.gwIp m.dstId
  hops : m.numHops.toNat + ttl.toNat = netDiameter.toNat
  alive : 1 ≤ ttl.toNat

/-- An RREQ for the outside names a gateway, if any. -/
def GenuineRreq (net : Network) (m : Rreq) : Prop := m.dstIp = gNullIp → NamesGateway net m.gateway

/-- An RREP for the outside is one that a gateway has sent. -/
def GenuineRrep (net : Network) (m : Rrep) : Prop :=
  m.dstIp = gNullIp → ∃ g ip ttl m₀, (net g).cfg.gAodvGateway = true ∧
    .unicast ip ttl (.rrep m₀) ∈ (net g).sent ∧ m₀.dstIp = gNullIp ∧ m₀.dstId = m.dstId ∧
      m₀.srcIp = m.srcIp ∧ m₀.tos = m.tos

structure GenuineSent (net : Network) (s : Sent) : Prop where
  strreq : ∀ b ttl m, s.reaches b ttl (.strreq m) → GenuineFlood net ttl m
  rreq : ∀ m, payload s = some (.rreq m) → GenuineRreq net m
  rrep : ∀ m, payload s = some (.rrep m) → GenuineRrep net m

/-- The node answers for the outside as a gateway, or the address stands for DTN. -/
def AnswersOutside (n : Node) (t : Task) : Prop :=
  t.type = .sendRrep → t.dstIp = gNullIp →
    n.cfg.gAodvGateway = true ∨ n.dtnRegister = true ∧ n.cfg.dtnHelloIp = gNullIp

structure GenuineTask (net : Network) (n : Node) (t : Task) : Prop where
  strreq : ∀ m, t.data = some (.strreq m) → GenuineFlood net t.ttl m
  rreq : ∀ m, t.data = some (.rreq m) → GenuineRreq net m
  rrep : ∀ m, t.data = some (.rrep m) → GenuineRrep net m
  answers : AnswersOutside n t

/-- What holds of a node's knowledge of gateways in every run. -/
structure Genuine (net : Network) (n : Node) : Prop where
  distinct : (n.gwList.map GwEntry.ip).Nodup
  entries : ∀ x ∈ n.gwList, GenuineEntry net n x
  chosen : n.gDefaultGw ≠ n.cfg.gMeshIp ∨ n.gDefaultGw = gNullIp
  default : NamesGateway net n.gDefaultGw
  sent : ∀ s ∈ n.sent, GenuineSent net s
  tasks : ∀ t ∈ n.tasks.elems, GenuineTask net n t
  timers : ∀ t ∈ n.timers.queue, AnswersOutside n t

section Handlers

variable {n n' n'' : Node} {t : Task}

/-- A transmission that announces no gateway. If it is an RREQ, it names the
default gateway or what the RREQ of the task names. -/
def GwPlain (n : Node) (t : Task) (s : Sent) : Prop :=
  match payload s with
  | some (.strreq _) => False
  | some (.rreq m) => m.gateway = n.rreqGateway m.dstIp ∨
      ∃ m₀, t.data = some (.rreq m₀) ∧ m.dstIp = m₀.dstIp ∧ m.gateway = m₀.gateway
  | _ => True

/-- What a handler leaves alone that has nothing to do with gateways. -/
structure GwKept (t : Task) (n n' : Node) : Prop where
  gwList : n'.gwList = n.gwList
  gDefaultGw : n'.gDefaultGw = n.gDefaultGw
  sent : ∀ s ∈ n'.sent, s ∈ n.sent ∨ GwPlain n t s

theorem GwKept.refl (t : Task) (n : Node) : GwKept t n n := ⟨rfl, rfl, fun _ ↦ .inl⟩

theorem GwPlain.of_eq {s : Sent} (hgw : n'.gDefaultGw = n.gDefaultGw) (h : GwPlain n' t s) : GwPlain n t s := by
  have hnames : ∀ ip, n'.rreqGateway ip = n.rreqGateway ip := fun ip ↦ by
    rw [rreqGateway, rreqGateway, hgw]
  unfold GwPlain at h ⊢
  split at h
  · exact h
  · rwa [hnames] at h
  · trivial

theorem GwKept.trans (h : GwKept t n n') (h' : GwKept t n' n'') : GwKept t n n'' where
  gwList := h'.gwList.trans h.gwList
  gDefaultGw := h'.gDefaultGw.trans h.gDefaultGw
  sent s hs := (h'.sent s hs).elim (h.sent s) fun hs ↦ .inr (hs.of_eq h.gDefaultGw)

theorem gwPlain_of_isPlain {s : Sent} (h : isPlain s) : GwPlain n t s := by
  cases s with
  | broadcast ttl m => cases m <;> trivial
  | unicast ip ttl m => cases m <;> trivial
  | toDtn => trivial

theorem gwKept_of_calm {P : Sent → Prop} (hP : ∀ s, P s → GwPlain n t s) (h : Calm P n n') : GwKept t n n' := by
  obtain ⟨l, hl, hall⟩ := h.sent
  refine ⟨h.gwList, h.gDefaultGw, fun s hs ↦ ?_⟩
  rw [hl] at hs
  exact (List.mem_append.mp hs).imp_right fun hs ↦ hP s (hall s hs)

theorem gwKept_of_plain (h : Calm isPlain n n') : GwKept t n n' := gwKept_of_calm (fun _ ↦ gwPlain_of_isPlain) h

theorem gwKept_of_eq (hlist : n'.gwList = n.gwList) (hgw : n'.gDefaultGw = n.gDefaultGw)
    (hsent : n'.sent = n.sent) : GwKept t n n' := ⟨hlist, hgw, fun _ hs ↦ .inl (hsent ▸ hs)⟩

theorem GwKept.of_routing {r : Routing} (h : GwKept t { n with routing := r } n') : GwKept t n n' :=
  ⟨h.gwList, h.gDefaultGw, h.sent⟩

theorem gwKept_localBroadcast {ttl : UInt8} {m : Message} (hm : GwPlain n t (.broadcast ttl m)) :
    GwKept t n (n.localBroadcast ttl m) := by
  unfold localBroadcast
  split
  · exact .refl t n
  · refine ⟨rfl, rfl, fun s hs ↦ ?_⟩
    rcases List.mem_append.mp hs with hs | hs
    · exact .inl hs
    · exact .inr (List.mem_singleton.mp hs ▸ hm)

/-- An RREQ of the node's own names its default gateway. -/
theorem gwKept_of_flood {srcIp : Ip} (h : Floods srcIp n n') : GwKept t n n' := by
  rcases h with h | ⟨dstIp, tos, dttl, dstId, -, -, h⟩
  · exact gwKept_of_plain (calm_of_quiet h)
  · refine gwKept_of_calm (fun s hs ↦ ?_) (calm_of_quiet h)
    rw [hs]
    exact .inl rfl

theorem gwKept_of_floods {srcIp : Ip} (h : ReflTransGen (Floods srcIp) n n') : GwKept t n n' := by
  induction h with
  | refl => exact .refl t n
  | tail _ hflood ih => exact ih.trans (gwKept_of_flood hflood)

theorem gwKept_recvHello {m : Hello} (hr : WellFormed n.cfg n.routing) (h : n.recvHello t m = some n') :
    GwKept t n n' := by
  obtain ⟨r, n₁, n₂, -, -, hcalm₁, hfloods, hcalm₂⟩ := recvHello_cases hr h
  have hfirst : GwKept t n n₁ := (gwKept_of_plain hcalm₁).of_routing
  exact (hfirst.trans (gwKept_of_floods hfloods)).trans (gwKept_of_plain hcalm₂)

theorem gwKept_acceptRreq {m m₀ : Rreq} (hdata : t.data = some (.rreq m₀)) (hdst : m.dstIp = m₀.dstIp)
    (hgateway : m.gateway = m₀.gateway) (n : Node) : GwKept t n (n.acceptRreq t m) := by
  have hdtn : GwKept t n (n.send2dtn dtnLocationPort m.srcIp m.tos.toUInt32 0 0) :=
    gwKept_of_plain (calm_of_quiet steady_send2dtn.quiet)
  unfold acceptRreq
  split
  · split
    · exact .refl t n
    · exact gwKept_of_eq rfl rfl rfl
  · refine GwKept.trans ?_ (gwKept_localBroadcast (.inr ⟨m₀, hdata, hdst, hgateway⟩))
    split
    · exact hdtn
    · exact .refl t n

theorem gwKept_recvRreq {m : Rreq} (hdata : t.data = some (.rreq m)) (h : n.recvRreq t m = some n') :
    GwKept t n n' := by
  rcases recvRreq_cases h with hcalm | ⟨x, pathMetric, ok, r, -, -, rfl⟩
  · exact gwKept_of_plain hcalm
  · split
    · have hfirst : GwKept t n { n.updateNeighLifetime x.ip with routing := r } := gwKept_of_eq rfl rfl rfl
      exact hfirst.trans
        (gwKept_acceptRreq (m := { m with numHops := m.numHops + 1, pathMetric := pathMetric }) hdata rfl rfl _)
    · exact gwKept_of_eq rfl rfl rfl

theorem gwKept_genRrep {srcIp dstIp : Ip} {tos : UInt8} (hr : WellFormed n.cfg n.routing)
    (h : n.genRrep srcIp dstIp tos = some n') : GwKept t n n' := by
  rcases genRrep_cases hr h with hcalm | ⟨r, e, n₁, -, hcalm, -, dstId, e', o, r₂, dttl, -, -, -, hans⟩
  · exact gwKept_of_plain hcalm
  · have hfirst : GwKept t n n₁ := (gwKept_of_plain hcalm).of_routing
    refine hfirst.trans (gwKept_of_calm (fun s hs ↦ ?_) hans).of_routing
    rcases hs with hs | rfl
    · exact gwPlain_of_isPlain hs
    · trivial

theorem gwKept_recvRrep {m : Rrep} (hr : WellFormed n.cfg n.routing) (h : n.recvRrep t m = some n') :
    GwKept t n n' := by
  unfold recvRrep at h
  split at h
  · obtain rfl := Option.some.inj h
    exact .refl t n
  next x hx =>
  dsimp only at h
  split at h
  · obtain ⟨ok, r₁, r₂, -, -, hcalm⟩ := recvRrepSource_cases h
    have hfirst : GwKept t n (n.updateNeighLifetime x.ip) := gwKept_of_eq rfl rfl rfl
    exact hfirst.trans (gwKept_of_plain hcalm).of_routing
  · obtain ⟨o, m', n₁, hrecv, hcases⟩ := recvRrepForward_cases h
    have hfirst : GwKept t n n₁ := by
      rcases rrepRecvRoute_cases (n := n.updateNeighLifetime x.ip) hr hrecv with ⟨-, rfl⟩ | ⟨-, -, e, new, r, -, rfl, -⟩
      · exact gwKept_of_eq rfl rfl rfl
      · exact gwKept_of_eq rfl rfl rfl
    refine hfirst.trans ?_
    rcases hcases with ⟨-, rfl⟩ | ⟨recv, ok, r₁, -, -, ⟨-, rfl⟩ | ⟨send, o₂, r₂, o₃, r₃, recv', -, -, -, -, hcalm⟩⟩
    · exact .refl t _
    · exact gwKept_of_eq rfl rfl rfl
    · refine (gwKept_of_calm (fun s hs ↦ ?_) hcalm).of_routing
      rcases hs with hs | rfl
      · exact gwPlain_of_isPlain hs
      · trivial

/-- What handling a task does to what the node knows of gateways and says of them. -/
inductive GwEffect (t : Task) (n n' : Node) : Prop
  | kept (h : GwKept t n n')
  | expires (hlist : n'.gwList.Sublist n.gwList) (hsent : n'.sent = n.sent)
      (hgw : n'.gDefaultGw = gNullIp ∨ ∃ x ∈ n.gwList, x.ip = n'.gDefaultGw)
  | announces {dstId : UInt32} (hgateway : n.cfg.gAodvGateway = true) (hlist : n'.gwList = n.gwList)
      (hgw : n'.gDefaultGw = n.gDefaultGw)
      (hsent : n'.sent = n.sent ++ [.broadcast netDiameter (.strreq ⟨0, n.cfg.gMeshIp, dstId, 0⟩)])
  | hears {m : RreqSt} {pathMetric : UInt32} (hdata : t.data = some (.strreq m))
      (hother : m.gwIp ≠ n.cfg.gMeshIp)
      (hmetric : n.cfg.gRoutingMetric = .hops → pathMetric = (m.numHops + 1).toUInt32)
      (hdistinct : (n.gwList.map GwEntry.ip).Nodup → (n'.gwList.map GwEntry.ip).Nodup)
      (hlist : ∀ x ∈ n'.gwList, x ∈ n.gwList ∨ x.ip = m.gwIp ∧ x.dstId = m.dstId ∧
        x.numHops = m.numHops + 1 ∧ x.metric = pathMetric)
      (hgw : n'.gDefaultGw = n.gDefaultGw)
      (hsent : ∀ s ∈ n'.sent, s ∈ n.sent ∨ ¬ t.ttl - 1 < 1 ∧
        s = .broadcast (t.ttl - 1) (.strreq { m with numHops := m.numHops + 1, pathMetric := pathMetric }))

theorem mem_updateGw {gwIp : Ip} {dstId pathMetric : UInt32} {numHops : UInt8} {x : GwEntry}
    (hx : x ∈ (n.updateGw gwIp dstId numHops pathMetric).2.gwList) :
    x ∈ n.gwList ∨ x.ip = gwIp ∧ x.dstId = dstId ∧ x.numHops = numHops ∧ x.metric = pathMetric := by
  unfold updateGw at hx
  split at hx
  · split at hx
    · exact .inl hx
    split at hx
    · exact .inl hx
    · rcases OrderedList.mem_modifyFirst hx with hx | ⟨y, -, hy, rfl⟩
      · exact .inl hx
      · exact .inr ⟨beq_iff_eq.mp hy, rfl, rfl, rfl⟩
  · dsimp only at hx
    split at hx
    · exact .inl hx
    · rcases List.mem_cons.mp hx with rfl | hx
      · exact .inr ⟨rfl, rfl, rfl, rfl⟩
      · exact .inl hx

theorem gwEffect_recvRreqSt {m : RreqSt} (hdata : t.data = some (.strreq m)) :
    GwEffect t n (n.recvRreqSt t m) := by
  unfold recvRreqSt
  split
  · exact .kept (.refl t n)
  next y hy =>
  dsimp only
  split
  · exact .kept (gwKept_of_eq rfl rfl rfl)
  next hother =>
  split
  · exact .kept (gwKept_of_eq rfl rfl rfl)
  next pathMetric hmetric =>
  obtain ⟨gwList, kmalloc, hgw⟩ :=
    updateGw_frame m.gwIp m.dstId (m.numHops + 1) pathMetric (n.updateNeighLifetime y.ip)
  have hlist : ∀ x ∈ gwList, x ∈ n.gwList ∨ x.ip = m.gwIp ∧ x.dstId = m.dstId ∧
      x.numHops = m.numHops + 1 ∧ x.metric = pathMetric := by
    intro x hx
    have hmem : x ∈ ((n.updateNeighLifetime y.ip).updateGw m.gwIp m.dstId (m.numHops + 1) pathMetric).2.gwList := by
      rw [hgw]
      exact hx
    exact mem_updateGw (n := n.updateNeighLifetime y.ip) hmem
  have hdistinct : (n.gwList.map GwEntry.ip).Nodup → (gwList.map GwEntry.ip).Nodup := by
    intro hn
    have hnodup := @updateGw_gateways (n.updateNeighLifetime y.ip) m.gwIp m.dstId pathMetric (m.numHops + 1) hn
    rwa [hgw] at hnodup
  have hhops : n.cfg.gRoutingMetric = .hops → pathMetric = (m.numHops + 1).toUInt32 := by
    intro hcfg
    have hcfg : (n.updateNeighLifetime y.ip).cfg.gRoutingMetric = .hops := hcfg
    rw [if_pos hcfg] at hmetric
    exact (Option.some.inj hmetric).symm
  rw [hgw]
  split
  · refine .hears hdata (Ne.symm hother) hhops ?_ ?_ ?_ fun s hs ↦ ?_
    · unfold localBroadcast
      split <;> exact hdistinct
    · unfold localBroadcast
      split <;> exact hlist
    · unfold localBroadcast
      split <;> rfl
    · unfold localBroadcast at hs
      split at hs
      · exact .inl hs
      · next hone => exact (List.mem_append.mp hs).imp_right fun hs ↦ ⟨hone, List.mem_singleton.mp hs⟩
  · exact .hears hdata (Ne.symm hother) hhops hdistinct hlist rfl fun s hs ↦ .inl hs

theorem gwLifetimesLoop_cases {now : ℕ} {l gws : List GwEntry} {best : Ip × UInt32}
    {r : List GwEntry × Ip} (h : gwLifetimesLoop now l gws best = r) :
    r.1.Sublist gws ∧ (r.2 = best.1 ∨ ∃ x ∈ l, x.ip = r.2) := by
  induction l generalizing gws best with
  | nil =>
    subst h
    exact ⟨List.Sublist.refl _, .inl rfl⟩
  | cons g l ih =>
    unfold gwLifetimesLoop at h
    split at h
    · obtain ⟨hsub, hbest⟩ := ih h
      refine ⟨hsub.trans (List.eraseP_sublist ..), hbest.imp_right ?_⟩
      rintro ⟨x, hx, heq⟩
      exact ⟨x, List.mem_cons_of_mem _ hx, heq⟩
    · obtain ⟨hsub, hbest⟩ := ih h
      refine ⟨hsub, ?_⟩
      rcases hbest with hbest | ⟨x, hx, heq⟩
      · split at hbest
        · exact .inr ⟨g, List.mem_cons_self, hbest.symm⟩
        · exact .inl hbest
      · exact .inr ⟨x, List.mem_cons_of_mem _ hx, heq⟩

theorem gwEffect_gwCleanup (n : Node) : GwEffect t n
    (n.updateGwLifetimes.insertTimer .gwCleanup activeGwrouteTimeout n.cfg.gMeshIp).updateTimers := by
  obtain ⟨hsub, hbest⟩ := @gwLifetimesLoop_cases n.now n.gwList n.gwList (gNullIp, defaultEttMetric) _ rfl
  exact .expires hsub rfl hbest

theorem gwEffect_genStRreq (h : n.genStRreq = some n') : GwEffect t n n' := by
  unfold genStRreq at h
  split at h
  · exact .kept (gwKept_of_eq (Option.some.inj h ▸ rfl) (Option.some.inj h ▸ rfl) (Option.some.inj h ▸ rfl))
  next hgateway =>
  dsimp only at h
  split at h
  · exact .kept (gwKept_of_eq (Option.some.inj h ▸ rfl) (Option.some.inj h ▸ rfl) (Option.some.inj h ▸ rfl))
  split at h
  · exact .kept (gwKept_of_eq (Option.some.inj h ▸ rfl) (Option.some.inj h ▸ rfl) (Option.some.inj h ▸ rfl))
  · obtain rfl := Option.some.inj h
    exact .announces (by simpa using hgateway) rfl rfl rfl

theorem handle_gw (hr : WellFormed n.cfg n.routing) (h : n.handle t = some n') : GwEffect t n n' := by
  have hplain : Calm isPlain n n' → GwEffect t n n' := fun h ↦ .kept (gwKept_of_plain h)
  unfold handle at h
  split at h
  · exact .kept (gwKept_of_flood (genRreq_floods hr.localEntry h))
  · exact .kept (gwKept_recvRrep hr h)
  · exact hplain (calm_of_quiet (steady_recvRerr h).quiet)
  · exact .kept (gwKept_recvHello hr h)
  · exact hplain (Option.some.inj h ▸ calm_of_quiet (steady_recvRcvp _ _).quiet)
  · exact hplain (Option.some.inj h ▸ calm_of_quiet (steady_recvRrdp _ _ _).quiet)
  · obtain rfl := Option.some.inj h
    exact .kept (gwKept_of_eq rfl rfl rfl)
  · obtain rfl := Option.some.inj h
    refine .kept (gwKept_of_calm (fun s hs ↦ ?_) (calm_genHello n))
    obtain ⟨ext, rfl⟩ := hs
    trivial
  · exact gwEffect_genStRreq h
  · obtain rfl := Option.some.inj h
    exact gwEffect_gwCleanup n
  · exact hplain (calm_deleteAodvNeigh h)
  · obtain rfl := Option.some.inj h
    exact .kept (gwKept_of_eq rfl rfl rfl)
  · exact hplain (Option.some.inj h ▸ calm_sendProbe _ _)
  · exact hplain (Option.some.inj h ▸ calm_recvSprobe _ _ _)
  · exact hplain (calm_recvLprobe h)
  · obtain ⟨x, -, h⟩ := Option.bind_eq_some_iff.mp h
    exact hplain (calm_resetEtt h)
  · exact hplain (Option.some.inj h ▸ calm_deleteAodvNeigh2h _ _)
  · next hdata => exact .kept (gwKept_recvRreq hdata h)
  · exact .kept (gwKept_of_flood (resendRreq_floods hr.localEntry h))
  · exact hplain (calm_recvEttInfo h)
  · exact .kept (gwKept_genRrep hr h)
  · next hdata =>
    obtain rfl := Option.some.inj h
    exact gwEffect_recvRreqSt hdata
  · obtain rfl := Option.some.inj h
    exact .kept (gwKept_of_eq rfl rfl rfl)
  · exact .kept (gwKept_of_flood (genRreq_floods hr.localEntry h))
  · obtain rfl := Option.some.inj h
    exact .kept (.refl t n)

theorem timer_of_path {n₀ : Node} {t' : Task} (h : NetPath n₀ t n n') (ht' : t' ∈ n'.timers.queue)
    (hflow : isFlowType t'.type = true) : t' ∈ n.timers.queue ∨ ∃ k, TimerFrom n₀ t k t' := by
  induction h with
  | refl => exact .inl ht'
  | tail _ hop ih => exact (timer_of_op hop ht' hflow).elim ih fun ht' ↦ .inr ⟨_, ht'⟩

end Handlers

section Hooks

variable {n n' : Node} {e : Event}

theorem inputHandler_gw (p : Packet) (n : Node) :
    (n.inputHandler p).2.gwList = n.gwList ∧ (n.inputHandler p).2.gDefaultGw = n.gDefaultGw := by
  have hdtn : (n.dtnInput p).gwList = n.gwList ∧ (n.dtnInput p).gDefaultGw = n.gDefaultGw := by
    unfold dtnInput
    dsimp only
    split <;> split <;> split <;> exact ⟨rfl, rfl⟩
  have hinsert : ∀ (m : Message) (k : Node),
      (k.insertTask p m).gwList = k.gwList ∧ (k.insertTask p m).gDefaultGw = k.gDefaultGw := by
    intro m k
    unfold insertTask
    dsimp only
    split
    · exact ⟨rfl, rfl⟩
    split <;> exact ⟨rfl, rfl⟩
  unfold inputHandler
  dsimp only
  split
  · exact hdtn
  split
  · unfold packetIn
    split
    · exact hdtn
    split
    · exact hdtn
    · exact ⟨(hinsert _ _).1.trans hdtn.1, (hinsert _ _).2.trans hdtn.2⟩
  · exact hdtn

theorem outputHandler_gw {skb : Skb} {v : Verdict} (h : n.outputHandler skb = some (v, n')) :
    n'.gwList = n.gwList ∧ n'.gDefaultGw = n.gDefaultGw := by
  have hsame : ∀ {w : Verdict}, some (w, n) = some (v, n') → n'.gwList = n.gwList ∧ n'.gDefaultGw = n.gDefaultGw := by
    intro w heq
    obtain ⟨-, rfl⟩ := Prod.mk.inj (Option.some.inj heq)
    exact ⟨rfl, rfl⟩
  unfold outputHandler at h
  split at h
  · exact hsame h
  dsimp only at h
  split at h
  · exact hsame h
  split at h
  · split at h
    · split at h
      · cases h
      · obtain ⟨-, rfl⟩ := Prod.mk.inj (Option.some.inj h)
        exact ⟨rfl, rfl⟩
    · split at h
      · exact hsame h
      · exact hsame h
  · obtain ⟨-, rfl⟩ := Prod.mk.inj (Option.some.inj h)
    split
    · split
      · exact ⟨rfl, rfl⟩
      · exact ⟨rfl, rfl⟩
    · exact ⟨rfl, rfl⟩

/-- Outside of its handlers a node learns nothing of gateways. -/
theorem step_gw (h : n.step e = some n') : (∃ t tasks, e = .thread ∧ n.tasks.pop = (some t, tasks) ∧
      { n with tasks := tasks }.handle t = some n') ∨
    Hooked n e n' ∧ n'.gwList = n.gwList ∧ n'.gDefaultGw = n.gDefaultGw := by
  cases e with
  | wait ms =>
    obtain rfl := Option.some.inj h
    exact .inr ⟨{ Hooked.refl n _ with }, rfl, rfl⟩
  | input p =>
    obtain rfl := Option.some.inj h
    exact .inr ⟨hooked_inputHandler p, inputHandler_gw p n⟩
  | output skb =>
    obtain ⟨⟨v, n₁⟩, hsend, rfl⟩ := Option.map_eq_some_iff.mp h
    obtain ⟨⟨w, n₂⟩, hout, hsend⟩ := Option.bind_eq_some_iff.mp hsend
    have hhooked : Hooked n (.output skb) n₂ := hooked_outputHandler hout
    have hsame := outputHandler_gw hout
    dsimp only at hsend
    split at hsend
    · obtain ⟨-, rfl⟩ := Prod.mk.inj (Option.some.inj hsend)
      exact .inr ⟨{ hhooked with }, hsame⟩
    · obtain ⟨-, rfl⟩ := Prod.mk.inj (Option.some.inj hsend)
      exact .inr ⟨hhooked, hsame⟩
  | signal =>
    obtain rfl := Option.some.inj h
    obtain ⟨tasks, heq, -⟩ := signal_eq n
    exact .inr ⟨hooked_signal, by rw [heq], by rw [heq]⟩
  | thread =>
    simp only [step, threadStep] at h
    split at h
    · obtain rfl := Option.some.inj h
      exact .inr ⟨.refl n _, rfl, rfl⟩
    · next t tasks hpop => exact .inl ⟨t, tasks, rfl, hpop, h⟩

end Hooks

section Growth

variable {net net' : Network} {n n' : Node}

/-- The nodes keep their parameters and what they have sent. -/
def Extends (net net' : Network) : Prop :=
  ∀ g, (net' g).cfg = (net g).cfg ∧ ∀ s ∈ (net g).sent, s ∈ (net' g).sent

theorem Announced.mono {g : Ip} {dstId : UInt32} (h : Announced net g dstId) (hext : Extends net net') :
    Announced net' g dstId :=
  ⟨(congrArg Config.gAodvGateway (hext g).1).trans h.1, (hext g).2 _ h.2⟩

theorem NamesGateway.mono {g : Ip} (h : NamesGateway net g) (hext : Extends net net') : NamesGateway net' g :=
  h.imp_right fun ⟨dstId, h⟩ ↦ ⟨dstId, h.mono hext⟩

theorem GenuineFlood.mono {ttl : UInt8} {m : RreqSt} (h : GenuineFlood net ttl m) (hext : Extends net net') :
    GenuineFlood net' ttl m := { h with announced := h.announced.mono hext }

theorem GenuineRreq.mono {m : Rreq} (h : GenuineRreq net m) (hext : Extends net net') : GenuineRreq net' m :=
  fun hdst ↦ (h hdst).mono hext

theorem GenuineRrep.mono {m : Rrep} (h : GenuineRrep net m) (hext : Extends net net') : GenuineRrep net' m := by
  intro hdst
  obtain ⟨g, ip, ttl, m₀, hgateway, hsent, hrest⟩ := h hdst
  exact ⟨g, ip, ttl, m₀, (congrArg Config.gAodvGateway (hext g).1).trans hgateway, (hext g).2 _ hsent, hrest⟩

theorem GenuineSent.mono {s : Sent} (h : GenuineSent net s) (hext : Extends net net') : GenuineSent net' s where
  strreq b ttl m hreach := (h.strreq b ttl m hreach).mono hext
  rreq m hm := (h.rreq m hm).mono hext
  rrep m hm := (h.rrep m hm).mono hext

theorem AnswersOutside.mono {t : Task} (h : AnswersOutside n t) (hcfg : n'.cfg = n.cfg)
    (hdtn : n.dtnRegister = true → n'.dtnRegister = true) : AnswersOutside n' t := by
  intro htype hdst
  rw [hcfg]
  exact (h htype hdst).imp_right fun ⟨hregister, hhello⟩ ↦ ⟨hdtn hregister, hhello⟩

theorem GenuineTask.mono {t : Task} (h : GenuineTask net n t) (hext : Extends net net') (hcfg : n'.cfg = n.cfg)
    (hdtn : n.dtnRegister = true → n'.dtnRegister = true) : GenuineTask net' n' t where
  strreq m hm := (h.strreq m hm).mono hext
  rreq m hm := (h.rreq m hm).mono hext
  rrep m hm := (h.rrep m hm).mono hext
  answers := h.answers.mono hcfg hdtn

theorem GenuineEntry.mono {x : GwEntry} (h : GenuineEntry net n x) (hext : Extends net net')
    (hcfg : n'.cfg = n.cfg) : GenuineEntry net' n' x where
  announced := h.announced.mono hext
  other := by
    rw [hcfg]
    exact h.other
  hops := h.hops
  metric := by
    rw [hcfg]
    exact h.metric

theorem Genuine.mono (h : Genuine net n) (hext : Extends net net') : Genuine net' n where
  distinct := h.distinct
  entries x hx := (h.entries x hx).mono hext rfl
  chosen := h.chosen
  default := h.default.mono hext
  sent s hs := (h.sent s hs).mono hext
  tasks t ht := (h.tasks t ht).mono hext rfl id
  timers := h.timers

end Growth

section Steps

variable {net : Network} {a : Ip} {n₀ n : Node} {t : Task} {e : Event}

theorem extends_update (hcfg : n.cfg = (net a).cfg) (hsent : ∃ l, n.sent = (net a).sent ++ l) :
    Extends net (Function.update net a n) := by
  obtain ⟨l, hl⟩ := hsent
  intro g
  by_cases hg : g = a
  · subst hg
    rw [Function.update_self]
    exact ⟨hcfg, fun s hs ↦ hl ▸ List.mem_append_left l hs⟩
  · rw [Function.update_of_ne hg]
    exact ⟨rfl, fun _ hs ↦ hs⟩

theorem payload_of_reaches {s : Sent} {b : Ip} {ttl : UInt8} {m : Message} (h : s.reaches b ttl m) :
    payload s = some m := by
  cases s with
  | broadcast ttl' m' => exact congrArg some h.2
  | unicast ip ttl' m' => exact congrArg some h.2.2
  | toDtn => exact h.elim

/-- What a node takes in is what another one has sent. -/
theorem genuine_delivered {m : Message} (h : ∀ b, Genuine net (net b)) (hm : Delivered net a t m) :
    GenuineTask net n t := by
  obtain ⟨s, hs, hpayload, hreach⟩ := hm.sent
  obtain ⟨sec, usec, hdata⟩ := hm.data
  have hsent := (h t.srcIp).sent s hs
  refine ⟨fun m' hm' ↦ ?_, fun m' hm' ↦ ?_, fun m' hm' ↦ ?_, fun htype ↦ ?_⟩
  · have hstamp : m.stamp sec usec = .strreq m' := Option.some.inj (hdata.symm.trans hm')
    cases m with
    | strreq => exact hsent.strreq a t.ttl m' (Message.strreq.inj hstamp ▸ hreach)
    | _ => cases hstamp
  · have hstamp : m.stamp sec usec = .rreq m' := Option.some.inj (hdata.symm.trans hm')
    cases m with
    | rreq => exact hsent.rreq m' (Message.rreq.inj hstamp ▸ hpayload)
    | _ => cases hstamp
  · have hstamp : m.stamp sec usec = .rrep m' := Option.some.inj (hdata.symm.trans hm')
    cases m with
    | rrep => exact hsent.rrep m' (Message.rrep.inj hstamp ▸ hpayload)
    | _ => cases hstamp
  · have htask : m.taskType = .sendRrep := hm.type.symm.trans htype
    cases m <;> cases htask

/-- The node that an RREQ for the outside is meant for is a gateway. -/
theorem gateway_of_destination {m : Rreq} (ha : n₀.cfg.gMeshIp ≠ gNullIp) (hdst : m.dstIp = gNullIp)
    (hm : NamesGateway net m.gateway) (hdest : n₀.iamDestination m = true)
    (hnet : (net n₀.cfg.gMeshIp).cfg = n₀.cfg) : n₀.cfg.gAodvGateway = true := by
  rw [iamDestination, Bool.or_eq_true, beq_iff_eq, beq_iff_eq] at hdest
  rcases hdest with hself | hself
  · exact absurd (hself.symm.trans hdst) ha
  rcases hm with hnull | ⟨dstId, hannounced⟩
  · exact absurd (hself.symm.trans hnull) ha
  · have hgateway := hannounced.1
    rw [hself, hnet] at hgateway
    exact hgateway

/-- An RREP for the outside that a node sends. -/
theorem genuineRrep_of_sent {m : Rrep} {s : Sent} {k : Node} (ha : n₀.cfg.gMeshIp ≠ gNullIp)
    (ht : GenuineTask net n₀ t) (hs : SentFrom n₀ t k s) (hm : payload s = some (.rrep m))
    (hmem : s ∈ (net n₀.cfg.gMeshIp).sent) (hcfg : (net n₀.cfg.gMeshIp).cfg = n₀.cfg) : GenuineRrep net m := by
  intro hdst
  cases hs with
  | routeless h =>
    cases s with
    | broadcast ttl m' =>
      obtain rfl : m' = .rrep m := Option.some.inj hm
      exact h.elim
    | unicast ip ttl m' =>
      obtain rfl : m' = .rrep m := Option.some.inj hm
      exact h.elim
    | toDtn => cases hm
  | flood | forward => cases hm
  | @answer e m' _ htype he h =>
    obtain rfl : m' = m := Message.rrep.inj (Option.some.inj hm)
    have hsrc : e.srcIp = gNullIp := h.message.2.1.symm.trans hdst
    have hgateway : n₀.cfg.gAodvGateway = true := by
      rcases he with ⟨hdtn, he, -⟩ | ⟨-, -, he⟩
      · rcases ht.answers htype (he.symm.trans hsrc) with hgateway | ⟨hregister, hhello⟩
        · exact hgateway
        · rw [isDtnAnswer, hregister, ← he, hsrc, hhello] at hdtn
          cases hdtn
      · exact absurd (he.symm.trans hsrc) ha
    exact ⟨_, _, _, m', (congrArg Config.gAodvGateway hcfg).trans hgateway, hmem, hdst, rfl, rfl, rfl⟩
  | @relay m' _ _ _ _ hdata =>
    obtain rfl := Message.rrep.inj (Option.some.inj hm)
    exact ht.rrep m' hdata hdst

theorem Genuine.handled {tasks : ClassQueue Task} (ha : a ≠ gNullIp) (haddress : (net a).cfg.gMeshIp = a)
    (hr : WellFormed (net a).cfg (net a).routing) (h : Genuine net (net a)) (hpop : (net a).tasks.pop = (some t, tasks))
    (hrun : { net a with tasks := tasks }.handle t = some n) : Genuine (Function.update net a n) n := by
  have hpath : NetPath { net a with tasks := tasks } t { net a with tasks := tasks } n :=
    handle_path (n := { net a with tasks := tasks }) hr hrun
  have honward := onward_of_path hpath
  have hcfg : n.cfg = (net a).cfg := honward.cfg
  have hdtn : (net a).dtnRegister = true → n.dtnRegister = true := honward.dtnRegister.trans
  have hext : Extends net (Function.update net a n) := extends_update hcfg honward.sent
  have hself : Function.update net a n (net a).cfg.gMeshIp = n := by rw [haddress, Function.update_self]
  have ht : GenuineTask (Function.update net a n) (net a) t := (h.tasks t (ClassQueue.pop_mem hpop)).mono hext rfl id
  have hold := h.mono hext
  have hentries : ∀ x ∈ (net a).gwList, GenuineEntry (Function.update net a n) n x := fun x hx ↦
    (h.entries x hx).mono hext hcfg
  have hrrep : ∀ s ∈ n.sent, s ∉ (net a).sent → ∀ m, payload s = some (.rrep m) →
      GenuineRrep (Function.update net a n) m := by
    intro s hs hnew m hm
    obtain ⟨l, hl, hall⟩ := appended_of_path hpath
    rw [hl] at hs
    obtain ⟨k, hfrom⟩ := hall s ((List.mem_append.mp hs).resolve_left hnew)
    have hpopped : ({ net a with tasks := tasks } : Node).cfg.gMeshIp ≠ gNullIp := by
      rw [haddress]
      exact ha
    refine genuineRrep_of_sent hpopped ⟨ht.strreq, ht.rreq, ht.rrep, ht.answers⟩ hfrom hm ?_ ?_
    · rw [hself, hl]
      exact hs
    · rw [hself]
      exact hcfg
  have htasks : ∀ t' ∈ n.tasks.elems, GenuineTask (Function.update net a n) n t' := by
    intro t' ht'
    rw [honward.tasks] at ht'
    exact (h.tasks t' (ClassQueue.pop_subset hpop ht')).mono hext hcfg hdtn
  have htimers : ∀ t' ∈ n.timers.queue, AnswersOutside n t' := by
    intro t' ht' htype hdst
    rcases timer_of_path hpath ht' (by rw [htype]; rfl) with ht' | ⟨k, hfrom⟩
    · exact (h.timers t' ht').mono hcfg hdtn htype hdst
    · cases hfrom with
      | discovery htype' => cases htype'.symm.trans htype
      | @answer m _ _ _ hflow _ hdata _ _ hdest =>
        have hm : m.dstIp = gNullIp := hflow.2.1.symm.trans hdst
        rw [hcfg]
        have hold : (net a).cfg.gMeshIp ≠ gNullIp := by
          rw [haddress]
          exact ha
        refine .inl (gateway_of_destination hold hm (ht.rreq m hdata hm) hdest ?_)
        · rw [hself]
          exact hcfg
  have hchosen : n.gDefaultGw = (net a).gDefaultGw → n.gDefaultGw ≠ n.cfg.gMeshIp ∨ n.gDefaultGw = gNullIp := by
    intro hgw
    rw [hgw, hcfg]
    exact h.chosen
  have hdefault : n.gDefaultGw = (net a).gDefaultGw → NamesGateway (Function.update net a n) n.gDefaultGw := by
    intro hgw
    rw [hgw]
    exact hold.default
  have hsent : ∀ s ∈ n.sent, (s ∉ (net a).sent → (∀ b ttl m, s.reaches b ttl (.strreq m) →
      GenuineFlood (Function.update net a n) ttl m) ∧ ∀ m, payload s = some (.rreq m) →
        GenuineRreq (Function.update net a n) m) → GenuineSent (Function.update net a n) s := by
    intro s hs hnew
    by_cases hmem : s ∈ (net a).sent
    · exact hold.sent s hmem
    · exact ⟨(hnew hmem).1, (hnew hmem).2, hrrep s hs hmem⟩
  cases handle_gw (n := { net a with tasks := tasks }) hr hrun with
  | kept hkept =>
    refine ⟨?_, fun x hx ↦ hentries x (hkept.gwList ▸ hx), hchosen hkept.gDefaultGw, hdefault hkept.gDefaultGw,
      fun s hs ↦ hsent s hs fun hnew ↦ ?_, htasks, htimers⟩
    · rw [hkept.gwList]
      exact h.distinct
    · have hplain := (hkept.sent s hs).resolve_left hnew
      refine ⟨fun b ttl m hreach ↦ ?_, fun m hm hdst ↦ ?_⟩
      · rw [GwPlain, payload_of_reaches hreach] at hplain
        exact hplain.elim
      · rw [GwPlain, hm] at hplain
        rcases hplain with hplain | ⟨m₀, hdata, hdst₀, hgw⟩
        · rw [hplain, rreqGateway, if_pos hdst]
          exact hold.default
        · rw [hgw]
          exact ht.rreq m₀ hdata (hdst₀.symm.trans hdst)
  | expires hlist heq hgw =>
    refine ⟨h.distinct.sublist (hlist.map _), fun x hx ↦ hentries x (hlist.subset hx), ?_, ?_,
      fun s hs ↦ hsent s hs fun hnew ↦ absurd (heq ▸ hs) hnew, htasks, htimers⟩
    · rcases hgw with hgw | ⟨x, hx, hgw⟩
      · exact .inr hgw
      · exact .inl (hgw ▸ (hentries x hx).other)
    · rcases hgw with hgw | ⟨x, hx, hgw⟩
      · exact .inl hgw
      · exact .inr ⟨x.dstId, hgw ▸ (hentries x hx).announced⟩
  | @announces dstId hgateway hlist hgw heq =>
    refine ⟨hlist ▸ h.distinct, fun x hx ↦ hentries x (hlist ▸ hx), hchosen hgw, hdefault hgw,
      fun s hs ↦ hsent s hs fun hnew ↦ ?_, htasks, htimers⟩
    have hmem := hs
    rw [heq] at hs
    obtain rfl := List.mem_singleton.mp ((List.mem_append.mp hs).resolve_left hnew)
    refine ⟨fun b ttl m hreach ↦ ?_, fun m hm ↦ (by cases hm)⟩
    obtain ⟨rfl, rfl⟩ : netDiameter = ttl ∧ _ := ⟨hreach.1, Message.strreq.inj hreach.2⟩
    refine ⟨⟨?_, ?_⟩, rfl, by decide⟩
    · rw [hself, hcfg]
      exact hgateway
    · rw [hself]
      exact hmem
  | @hears m pathMetric hdata hother hmetric hdistinct hlist hgw heq =>
    have hflood := ht.strreq m hdata
    have hhops : (m.numHops + 1).toNat = m.numHops.toNat + 1 := by
      have hle := hflood.hops
      have hten : netDiameter.toNat = 10 := rfl
      rw [UInt8.toNat_add]
      exact Nat.mod_eq_of_lt (show m.numHops.toNat + 1 < 256 by omega)
    refine ⟨hdistinct h.distinct, fun x hx ↦ ?_, hchosen hgw, hdefault hgw,
      fun s hs ↦ hsent s hs fun hnew ↦ ?_, htasks, htimers⟩
    · rcases hlist x hx with hx | ⟨hip, hid, hnum, hpath⟩
      · exact hentries x hx
      · have hlive := hflood.alive
        have hsum := hflood.hops
        refine ⟨?_, ?_, ?_, fun hmode ↦ ?_⟩
        · rw [hip, hid]
          exact hflood.announced
        · rw [hip, hcfg]
          exact hother
        · rw [hnum, hhops]
          omega
        · rw [hpath, hnum]
          exact hmetric (hcfg ▸ hmode)
    · obtain ⟨hscope, rfl⟩ := (heq s hs).resolve_left hnew
      refine ⟨fun b ttl m' hreach ↦ ?_, fun m' hm' ↦ (by cases hm')⟩
      obtain ⟨rfl, rfl⟩ : t.ttl - 1 = ttl ∧ _ := ⟨hreach.1, Message.strreq.inj hreach.2⟩
      have hone : 1 ≤ (t.ttl - 1).toNat := UInt8.le_iff_toNat_le.mp (UInt8.not_lt.mp hscope)
      have hless : (t.ttl - 1).toNat = t.ttl.toNat - 1 :=
        UInt8.toNat_sub_of_le _ _ (UInt8.le_iff_toNat_le.mpr hflood.alive)
      have hlive := hflood.alive
      have hsum := hflood.hops
      refine ⟨hflood.announced, ?_, hone⟩
      rw [hless, hhops]
      omega

theorem Genuine.hooked (h : ∀ b, Genuine net (net b)) (hbare : TimersBare (net a)) (hhook : Hooked (net a) e n)
    (hin : ∀ p, e = .input p → net.Deliverable a p)
    (hgw : n.gwList = (net a).gwList ∧ n.gDefaultGw = (net a).gDefaultGw) :
    Genuine (Function.update net a n) n := by
  have hext : Extends net (Function.update net a n) :=
    extends_update hhook.cfg ⟨[], by rw [hhook.sent, List.append_nil]⟩
  have hold := (h a).mono hext
  refine ⟨?_, fun x hx ↦ ((h a).entries x (hgw.1 ▸ hx)).mono hext hhook.cfg, ?_, ?_,
    fun s hs ↦ hold.sent s (hhook.sent ▸ hs), fun t ht ↦ ?_, fun t ht htype hdst ↦ ?_⟩
  · rw [hgw.1]
    exact (h a).distinct
  · rw [hgw.2, hhook.cfg]
    exact (h a).chosen
  · rw [hgw.2]
    exact hold.default
  · rcases hhook.tasks t ht with ht | ht | harrival | hmiss
    · exact ((h a).tasks t ht).mono hext hhook.cfg hhook.dtnRegister
    · refine ⟨?_, ?_, ?_, ((h a).timers t ht).mono hhook.cfg hhook.dtnRegister⟩
      all_goals
        intro m hm
        cases (hbare t ht).symm.trans hm
    · obtain ⟨m, hm⟩ := delivered_of_arrival hin harrival
      exact (genuine_delivered (n := net a) h hm).mono hext hhook.cfg hhook.dtnRegister
    · obtain ⟨htype, hdata, -⟩ := hmiss
      refine ⟨?_, ?_, ?_, fun htype' ↦ by cases htype.symm.trans htype'⟩
      all_goals
        intro m hm
        cases hdata.symm.trans hm
  · rcases hhook.timers t ht (by rw [htype]; rfl) with ht | ⟨hregister, -, hhello⟩
    · exact ((h a).timers t ht).mono hhook.cfg hhook.dtnRegister htype hdst
    · exact .inr ⟨hregister, hhello.symm.trans hdst⟩

theorem Genuine.step (h : ∀ b, Placed b (net b) ∧ Genuine net (net b)) (hturn : Turn net a e n) :
    Placed a n ∧ Genuine (Function.update net a n) n := by
  obtain ⟨ha, hin, hstep⟩ := hturn
  have hplaced := (h a).1
  refine ⟨hplaced.step hstep, ?_⟩
  rcases step_gw hstep with ⟨t, tasks, rfl, hpop, hrun⟩ | ⟨hhook, hgw⟩
  · exact (h a).2.handled ha hplaced.address hplaced.routes hpop hrun
  · exact Genuine.hooked (fun b ↦ (h b).2) hplaced.bare hhook hin hgw

theorem genuine_init (h : net.Initial) (a : Ip) : Genuine net (net a) := by
  obtain ⟨cfg, env, -, hnet⟩ := h
  obtain ⟨hsent, htasks, htimers⟩ := init_queues (cfg a) (env a)
  have hlist : (Node.init (cfg a) (env a)).gwList = [] := by
    unfold Node.init
    dsimp only
    split <;> rfl
  have hdefault : (Node.init (cfg a) (env a)).gDefaultGw = gNullIp := by
    unfold Node.init
    dsimp only
    split <;> rfl
  rw [hnet]
  refine ⟨?_, ?_, .inr hdefault, .inl hdefault, ?_, ?_, fun t ht htype ↦ ?_⟩
  · simp [hlist]
  · simp [hlist]
  · simp [hsent]
  · simp [htasks]
  · have hflow := htimers t ht
    rw [htype] at hflow
    cases hflow

theorem genuine_of_run {net₀ : Network} (hinit : net₀.Initial) (h : ReflTransGen Network.Step net₀ net) (a : Ip) :
    Placed a (net a) ∧ Genuine net (net a) := by
  have hreaches : Reaches Turn net₀ net := ReflTransGen.mono (fun _ _ ↦ step_iff.mp) _ _ h
  refine hreaches.invariant (P := fun net a n ↦ Placed a n ∧ Genuine net n) (fun net a e n hall hturn ↦ ?_)
    (fun net a e n hall hturn b _ ↦ ?_) (fun a ↦ ⟨init_placed hinit a, genuine_init hinit a⟩) a
  · exact Genuine.step hall hturn
  · have hcfg : n.cfg = (net a).cfg := step_cfg (hall a).1.routes hturn.2.2
    exact ⟨(hall b).1, (hall b).2.mono (extends_update hcfg (sent_of_step (hall a).1.routes hturn.2.2))⟩

/-- In every run of a network, whatever is known of gateways comes from them: each
listed gateway has announced itself under the number it is listed with, at most the
diameter away; the default gateway is a listed one or none; and what is sought
outside is sought at a gateway and answered by one. -/
theorem genuine_gateways {net₀ : Network} (hinit : net₀.Initial) (h : ReflTransGen Network.Step net₀ net)
    (a : Ip) : ((net a).gwList.map GwEntry.ip).Nodup ∧ (∀ x ∈ (net a).gwList, GenuineEntry net (net a) x) ∧
      ((net a).gDefaultGw = gNullIp ∨ (net a).gDefaultGw ≠ a ∧ ∃ dstId, Announced net (net a).gDefaultGw dstId) ∧
        ∀ s ∈ (net a).sent, (∀ m, payload s = some (.rreq m) → GenuineRreq net m) ∧
          ∀ m, payload s = some (.rrep m) → GenuineRrep net m := by
  obtain ⟨hplaced, hgenuine⟩ := genuine_of_run hinit h a
  refine ⟨hgenuine.distinct, hgenuine.entries, ?_,
    fun s hs ↦ ⟨(hgenuine.sent s hs).rreq, (hgenuine.sent s hs).rrep⟩⟩
  rcases hgenuine.chosen with hne | hnull
  · rw [hplaced.address] at hne
    exact hgenuine.default.imp_right fun hannounced ↦ ⟨hne, hannounced⟩
  · exact .inl hnull

end Steps

section Stations

/-- Stations, of which 192.168.1.2 is a gateway. -/
def gatewayStations : Network := fun a ↦
  Node.init { station.cfg with gMeshIp := a, gAodvGateway := a == 0x0201a8c0 } plainEnvironment

/-- The gateway announces itself to its neighbours and to all. -/
def gatewayAnnounces : List Event := [.wait 1001, .signal, .thread, .thread]

/-- A station gets to know the gateway and chooses it before it looks for the
outside. -/
def hearsGateway : List Event :=
  [.wait 500, .input (packetAt 0x0201a8c0 0x0101a8c0 1 (.hello ⟨0, 0, 1, []⟩)), .thread,
      .input (packetAt 0x0201a8c0 0x0101a8c0 10 (.strreq ⟨0, 0x0201a8c0, 2, 0⟩)), .thread,
      .wait 20501, .signal] ++
    List.replicate 4 .thread ++
      [.output { id := 0, saddr := 0x0101a8c0, daddr := 0x08080808, tos := 0, udpDest := 80 }, .thread]

theorem gatewayStations_initial : gatewayStations.Initial :=
  ⟨fun a ↦ { station.cfg with gMeshIp := a, gAodvGateway := a == 0x0201a8c0 }, fun _ ↦ plainEnvironment,
    fun _ ↦ rfl, fun _ ↦ rfl⟩

/-- 192.168.1.1 seeks the outside at the gateway 192.168.1.2. -/
theorem genuine_gateways_default : ∃ net, ReflTransGen Network.Step gatewayStations net ∧
    (net 0x0101a8c0).gDefaultGw = 0x0201a8c0 ∧ ∃ dstId, Announced net 0x0201a8c0 dstId := by
  have hrun : (runs gatewayAnnounces (gatewayStations 0x0201a8c0)).map Node.sent =
      some [.broadcast 1 (.hello ⟨0, 0, 1, []⟩), .broadcast 10 (.strreq ⟨0, 0x0201a8c0, 2, 0⟩)] := by
    decide +kernel
  obtain ⟨g, hg, hsent⟩ := Option.map_eq_some_iff.mp hrun
  have hrun' : (runs hearsGateway (gatewayStations 0x0101a8c0)).map Node.gDefaultGw = some 0x0201a8c0 := by
    decide +kernel
  obtain ⟨n, hn, hgw⟩ := Option.map_eq_some_iff.mp hrun'
  have hfirst : ReflTransGen Network.Step gatewayStations (Function.update gatewayStations 0x0201a8c0 g) :=
    reaches_alone (by decide) (by simp [gatewayAnnounces]) hg
  have hother : Function.update gatewayStations 0x0201a8c0 g 0x0101a8c0 = gatewayStations 0x0101a8c0 :=
    Function.update_of_ne (by decide) _ _
  have hsecond : ReflTransGen Network.Step (Function.update gatewayStations 0x0201a8c0 g)
      (Function.update (Function.update gatewayStations 0x0201a8c0 g) 0x0101a8c0 n) := by
    refine reaches_alone (by decide) (fun p hp ↦ ?_) (hother ▸ hn)
    simp only [hearsGateway, List.cons_append, List.nil_append, List.mem_cons, List.mem_append, List.mem_replicate,
      Event.input.injEq, reduceCtorEq, List.not_mem_nil, or_false, false_or, and_false] at hp
    rcases hp with rfl | rfl
    all_goals
      refine ⟨rfl, by decide, fun m hm ↦ ?_⟩
      obtain rfl := Option.some.inj hm
      rw [packetAt, Function.update_self, hsent]
    · exact ⟨_, List.mem_cons_self, rfl, rfl⟩
    · exact ⟨_, List.mem_cons_of_mem _ List.mem_cons_self, rfl, rfl⟩
  have hnet := hfirst.trans hsecond
  have hdefault : (Function.update (Function.update gatewayStations 0x0201a8c0 g) 0x0101a8c0 n 0x0101a8c0).gDefaultGw =
      0x0201a8c0 := by rw [Function.update_self, hgw]
  refine ⟨_, hnet, hdefault, ?_⟩
  obtain ⟨-, -, hgenuine, -⟩ := genuine_gateways gatewayStations_initial hnet 0x0101a8c0
  rw [hdefault] at hgenuine
  rcases hgenuine with hnull | ⟨-, hannounced⟩
  · exact absurd hnull (by decide)
  · exact hannounced

end Stations

end Fbaodv.Proofs.GenuineGateways
