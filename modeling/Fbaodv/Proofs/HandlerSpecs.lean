import Fbaodv.Proofs.RouteEffects

namespace Fbaodv.Proofs.HandlerSpecs

open Fbaodv.Model Fbaodv.Model.Node Fbaodv.Foundation
open Fbaodv.Proofs.RouteFrame Fbaodv.Proofs.RoutingInvariant Fbaodv.Proofs.Background
open Fbaodv.Proofs.RouteEffects

variable {n n' : Node}

/-- The entry that `route_aodv_neigh` makes. -/
def neighEntry (cfg : Config) (ptr : ℕ) (ip : Ip) (dstId : UInt32) (lifetime : ℕ) : AodvRoute :=
  { freshEntry ptr cfg.gMeshIp ip 0 dstId lifetime with
    numHops := 1, pathMetric := 1, state := .active, neighRoute := true, selfRoute := true }

/-- The tables after `route_aodv_neigh`, with or without its kernel route. Only
when the kernel refuses the route has an entry been freed. -/
def AddsNeigh (cfg : Config) (ip : Ip) (dstId : UInt32) (r r' : Routing) : Prop :=
  ∃ lifetime r₁, Inserts (neighEntry cfg r.heap ip dstId lifetime) r r₁ ∧
    (Touches cfg r₁ r' ∨
      ∃ ok r₂ freed, r₁.newRoute cfg false cfg.gMeshIp ⟨ip, ip, 1⟩ = (ok, r₂) ∧
        (ok = true → freed = r₂.freed) ∧ Touches cfg { r₂ with freed := freed } r')

/-- The tables after an attempt to add a neighbour. -/
def MaybeAddsNeigh (n : Node) (ip : Ip) (r : Routing) : Prop :=
  Touches n.cfg n.routing r ∨
    ∃ dstId, n.localDstId = some dstId ∧ AddsNeigh n.cfg ip dstId n.routing r

theorem routeAodvNeigh_cases {ip : Ip} {ok : Bool} (hr : WellFormed n.cfg n.routing)
    (h : n.routeAodvNeigh ip = some (ok, n')) :
    ∃ r, n' = { n with routing := r } ∧ MaybeAddsNeigh n ip r := by
  obtain ⟨dstId, hdstId, h⟩ := Option.bind_eq_some_iff.mp h
  rcases hcreate : n.routing.createAodvRoute n.cfg.gMeshIp ip 0 dstId with ⟨o, r₀⟩
  rw [hcreate] at h
  rcases createAodvRoute_cases n.cfg hcreate with ⟨rfl, htouch⟩ | ⟨lifetime, rfl, hins⟩
  · simp only [Option.some.injEq, Prod.mk.injEq] at h
    exact ⟨r₀, h.2.symm, .inl htouch⟩
  have hneigh := hins.modifyAt hr (f := fun e ↦ { e with
    numHops := 1, pathMetric := 1, state := .active, neighRoute := true, selfRoute := true }) rfl rfl
  dsimp only at h
  split at h
  · simp only [Option.some.injEq, Prod.mk.injEq] at h
    exact ⟨_, h.2.symm, .inr ⟨dstId, hdstId, lifetime, _, hneigh, .inl (.refl _ _)⟩⟩
  · split at h
    · simp only [Option.some.injEq, Prod.mk.injEq] at h
      exact ⟨_, h.2.symm, .inr ⟨dstId, hdstId, lifetime, _, hneigh,
        .inr ⟨_, _, _, rfl, fun _ ↦ rfl, .refl _ _⟩⟩⟩
    · next hrefused =>
      simp only [Option.some.injEq, Prod.mk.injEq] at h
      exact ⟨_, h.2.symm, .inr ⟨dstId, hdstId, lifetime, _, hneigh,
        .inr ⟨_, _, _, rfl, fun hok ↦ absurd hok hrefused, .refl _ _⟩⟩⟩

/-- The new neighbour is on the list. -/
def linkNeigh (ip : Ip) (n : Node) : Node :=
  { n with
    aodvNeighList := OrderedList.insertBy (fun x ↦ x.ip < ip) (newAodvNeigh n.cfg ip) n.aodvNeighList }

/-- Its probe timers are set. -/
def armProbes (ip : Ip) (n : Node) : Node :=
  ((n.getRandom.2.insertTimer .sendEtt (ettJitterDelay n.getRandom.1 ip) ip).insertTimer .ettCleanup
    ettCleanupDelay ip).updateTimers

inductive CreatesNeigh (ip : Ip) (n : Node) : Bool → Node → Prop
  | refused (h : n.kmalloc.next = false ∨
      ((n.aodvNeighList.dropWhile fun x ↦ x.ip < ip).head?.any fun x ↦ x.ip == ip) = true) :
      CreatesNeigh ip n false n.alloc.2
  | noRoute {n₁ : Node} (hmem : n.kmalloc.next = true)
      (habsent : ((n.aodvNeighList.dropWhile fun x ↦ x.ip < ip).head?.any fun x ↦ x.ip == ip) = false)
      (hroute : n.alloc.2.routeAodvNeigh ip = some (false, n₁)) : CreatesNeigh ip n false n₁
  | linked {n₁ : Node} (hmem : n.kmalloc.next = true)
      (habsent : ((n.aodvNeighList.dropWhile fun x ↦ x.ip < ip).head?.any fun x ↦ x.ip == ip) = false)
      (hroute : n.alloc.2.routeAodvNeigh ip = some (true, n₁)) (hmetric : n₁.cfg.gRoutingMetric = .hops) :
      CreatesNeigh ip n true (linkNeigh ip n₁)
  | probed {n₁ : Node} (hmem : n.kmalloc.next = true)
      (habsent : ((n.aodvNeighList.dropWhile fun x ↦ x.ip < ip).head?.any fun x ↦ x.ip == ip) = false)
      (hroute : n.alloc.2.routeAodvNeigh ip = some (true, n₁)) (hmetric : n₁.cfg.gRoutingMetric ≠ .hops) :
      CreatesNeigh ip n true (armProbes ip (linkNeigh ip n₁))

theorem createAodvNeigh_inv {ip : Ip} {ok : Bool} (h : n.createAodvNeigh ip = some (ok, n')) :
    CreatesNeigh ip n ok n' := by
  unfold createAodvNeigh at h
  dsimp only at h
  split at h
  · next hmem =>
    obtain ⟨rfl, rfl⟩ := Prod.mk.inj (Option.some.inj h)
    exact .refused (.inl (by simpa [Node.alloc] using hmem))
  next hmem =>
  have hmem : n.kmalloc.next = true := by simpa [Node.alloc] using hmem
  split at h
  · next hlisted =>
    obtain ⟨rfl, rfl⟩ := Prod.mk.inj (Option.some.inj h)
    exact .refused (.inr hlisted)
  next habsent =>
  have habsent := eq_false_of_ne_true habsent
  obtain ⟨⟨ok₁, n₁⟩, hroute, h⟩ := Option.bind_eq_some_iff.mp h
  dsimp only at h
  split at h
  · next hfail =>
    obtain ⟨rfl, rfl⟩ := Prod.mk.inj (Option.some.inj h)
    obtain rfl : ok₁ = false := by simpa using hfail
    exact .noRoute hmem habsent hroute
  next hok =>
  obtain rfl : ok₁ = true := by simpa using hok
  split at h
  · next hmetric =>
    obtain ⟨rfl, rfl⟩ := Prod.mk.inj (Option.some.inj h)
    exact .probed hmem habsent hroute hmetric
  · next hmetric =>
    obtain ⟨rfl, rfl⟩ := Prod.mk.inj (Option.some.inj h)
    exact .linked hmem habsent hroute (not_ne_iff.mp hmetric)

theorem createAodvNeigh_cases {ip : Ip} {ok : Bool} (hr : WellFormed n.cfg n.routing)
    (h : n.createAodvNeigh ip = some (ok, n')) :
    ∃ r, MaybeAddsNeigh n ip r ∧ (n.kmalloc.next = true ∨ r = n.routing) ∧
      Calm isPlain { n with routing := r } n' := by
  have hcalm : ∀ {ok : Bool} {n₁ : Node}, n.alloc.2.routeAodvNeigh ip = some (ok, n₁) →
      ∃ r, MaybeAddsNeigh n ip r ∧ Calm isPlain { n with routing := r } n₁ := by
    intro ok n₁ hroute
    obtain ⟨r, rfl, hadds⟩ := routeAodvNeigh_cases (n := n.alloc.2) hr hroute
    exact ⟨r, hadds, { Calm.refl isPlain { n with routing := r } with }⟩
  have hlink : ∀ n₁ : Node, Calm isPlain n₁ (linkNeigh ip n₁) := fun n₁ ↦ { Calm.refl isPlain n₁ with }
  cases createAodvNeigh_inv h with
  | refused => exact ⟨n.routing, .inl (.refl _ _), .inr rfl, calm_alloc⟩
  | noRoute hmem _ hroute =>
    obtain ⟨r, hadds, hn₁⟩ := hcalm hroute
    exact ⟨r, hadds, .inl hmem, hn₁⟩
  | linked hmem _ hroute =>
    obtain ⟨r, hadds, hn₁⟩ := hcalm hroute
    exact ⟨r, hadds, .inl hmem, hn₁.trans (hlink _)⟩
  | probed hmem _ hroute =>
    obtain ⟨r, hadds, hn₁⟩ := hcalm hroute
    refine ⟨r, hadds, .inl hmem, hn₁.trans ((hlink _).trans ?_)⟩
    exact calm_getRandom.trans <| (calm_insertTimer .sendEtt _ ip _ rfl).trans <|
      (calm_insertTimer .ettCleanup _ ip _ rfl).trans (calm_updateTimers _)

theorem WellFormed.addsNeigh {cfg : Config} {ip : Ip} {dstId : UInt32} {r r' : Routing}
    (hr : WellFormed cfg r) (h : AddsNeigh cfg ip dstId r r') : WellFormed cfg r' := by
  obtain ⟨lifetime, r₁, hins, h⟩ := h
  have hr₁ : WellFormed cfg r₁ := hr.inserts hins fun _ ↦ rfl
  rcases h with h | ⟨ok, r₂, freed, hnew, -, h⟩
  · exact hr₁.touches h
  · have hr₂ : WellFormed cfg { r₂ with freed := freed } := { hr₁.newRoute hnew with }
    exact hr₂.touches h

theorem WellFormed.maybeAddsNeigh {ip : Ip} {r : Routing} (hr : WellFormed n.cfg n.routing)
    (h : MaybeAddsNeigh n ip r) : WellFormed n.cfg r := by
  rcases h with h | ⟨dstId, -, h⟩
  · exact hr.touches h
  · exact WellFormed.addsNeigh hr h

theorem takeNeigh2h_kmalloc (ip : Ip) (n : Node) : (n.takeNeigh2h ip).2.2.kmalloc = n.kmalloc := by
  unfold takeNeigh2h
  split
  · unfold deleteAodvNeigh2h
    split <;> rfl
  · rfl

theorem takeNeigh2h_calm (ip : Ip) (n : Node) :
    Calm isPlain n (n.takeNeigh2h ip).2.2 ∧ (n.takeNeigh2h ip).2.2.routing = n.routing := by
  unfold takeNeigh2h
  split
  · refine ⟨calm_deleteAodvNeigh2h _ _, ?_⟩
    unfold deleteAodvNeigh2h
    split <;> rfl
  · exact ⟨.refl _ _, rfl⟩

/-- `recv_hello` goes on to create a neighbour. -/
def isNewNeigh (n : Node) (ip : Ip) : Bool :=
  !n.cfg.aodvBlacklistIp.contains ip && (n.findAodvNeigh ip).isNone

/-- The three parts of `recv_hello`: a new neighbour with its route, the RREQs
of the recovery, and the rest. -/
theorem recvHello_cases {t : Task} {m : Hello} (hr : WellFormed n.cfg n.routing)
    (h : n.recvHello t m = some n') :
    ∃ r n₁ n₂, MaybeAddsNeigh n t.srcIp r ∧
      (isNewNeigh n t.srcIp = true ∧ n.kmalloc.next = true ∨ r = n.routing) ∧
      Calm isPlain { n with routing := r } n₁ ∧
      Relation.ReflTransGen (Floods n.cfg.gMeshIp) n₁ n₂ ∧ Calm isPlain n₂ n' := by
  unfold recvHello at h
  split at h
  · exact ⟨n.routing, n, n, .inl (.refl _ _), .inr rfl, .refl _ _, .refl,
      Option.some.inj h ▸ .refl _ _⟩
  next hblack =>
  split at h
  · exact ⟨n.routing, n, n, .inl (.refl _ _), .inr rfl, .refl _ _, .refl,
      Option.some.inj h ▸ calm_helloFromNeigh _ _ _⟩
  next hnone =>
  have hisNew : isNewNeigh n t.srcIp = true := by simpa [isNewNeigh, hnone] using hblack
  obtain ⟨⟨ok, n₃⟩, hnew, h⟩ := Option.bind_eq_some_iff.mp h
  have hlast : Calm isPlain n₃ n' := by
    obtain rfl := Option.some.inj h
    split
    · exact calm_helloFromNeigh _ _ _
    · exact .refl _ _
  obtain ⟨⟨ok₁, n₁⟩, hcreate, hnew⟩ := Option.bind_eq_some_iff.mp hnew
  obtain ⟨hcalm₀, hrouting₀⟩ := takeNeigh2h_calm t.srcIp n
  have hcfg₀ := hcalm₀.cfg
  obtain ⟨r, hadds, hmem, hcalm₁⟩ :=
    createAodvNeigh_cases (n := (n.takeNeigh2h t.srcIp).2.2) (by rwa [hcfg₀, hrouting₀]) hcreate
  have hadds' : MaybeAddsNeigh n t.srcIp r := by
    simpa only [MaybeAddsNeigh, localDstId, hcfg₀, hrouting₀] using hadds
  have hmem : isNewNeigh n t.srcIp = true ∧ n.kmalloc.next = true ∨ r = n.routing := by
    rw [takeNeigh2h_kmalloc, hrouting₀] at hmem
    exact hmem.imp_left fun hmem ↦ ⟨hisNew, hmem⟩
  have hr₁ := WellFormed.maybeAddsNeigh hr hadds'
  have hbase : Calm isPlain { n with routing := r } { (n.takeNeigh2h t.srcIp).2.2 with routing := r } :=
    { hcalm₀ with routing := .refl _ _ }
  have hcalm : Calm isPlain { n with routing := r } n₁ := hbase.trans hcalm₁
  have hcfg₁ : n₁.cfg = n.cfg := hcalm.cfg
  refine ⟨r, n₁, ?_⟩
  dsimp only at hnew
  split at hnew
  · simp only [Option.some.injEq, Prod.mk.injEq] at hnew
    exact ⟨n₁, hadds', hmem, hcalm, .refl, hnew.2 ▸ hlast⟩
  · obtain ⟨n₂, hrecover, hnew⟩ := Option.bind_eq_some_iff.mp hnew
    simp only [Option.some.injEq, Prod.mk.injEq] at hnew
    have hlocal : LocalEntry n₁.cfg n₁.routing := hcfg₁ ▸ (hr₁.touches hcalm.routing).localEntry
    refine ⟨n₂, hadds', hmem, hcalm, hcfg₁ ▸ recoverLinks_floods hlocal hrecover, ?_⟩
    refine (calm_of_quiet (steady_redirectRoutes n₂.routing.table n₂).quiet).trans (Calm.trans ?_ hlast)
    exact hnew.2 ▸ calm_modifyNeigh _ _ _

/-- `recv_rreq` gets as far as `rreq_aodv_route`, for the neighbour `x` and with
this path metric. -/
structure RreqCall (n : Node) (t : Task) (m : Rreq) (x : AodvNeigh) (pathMetric : UInt32) : Prop where
  ttl : (t.ttl ≤ 1 && !n.iamDestination m) = false
  neigh : n.findAodvNeigh t.srcIp = some x
  source : n.cfg.gMeshIp ≠ m.srcIp
  gateway : (n.cfg.gAodvGateway && m.dstIp == gNullIp && m.gateway != n.cfg.gMeshIp) = false
  metric : (n.updateNeighLifetime x.ip).rreqMetric x { m with numHops := m.numHops + 1 } =
    some (some pathMetric)

theorem recvRreq_paths {t : Task} {m : Rreq} (h : n.recvRreq t m = some n') :
    n' = n ∨ (∃ ip, n' = n.updateNeighLifetime ip) ∨ ∃ x pathMetric ok r, RreqCall n t m x pathMetric ∧
      n.routing.rreqAodvRoute n.cfg n.now m.dstIp m.srcIp m.tos x.ip x.sendRate (m.numHops + 1)
        m.dstId pathMetric = some (ok, r) ∧
      n' = if ok = true then
        { n.updateNeighLifetime x.ip with routing := r }.acceptRreq t
          { m with numHops := m.numHops + 1, pathMetric := pathMetric }
      else { n.updateNeighLifetime x.ip with routing := r } := by
  unfold recvRreq at h
  split at h
  · exact .inl (Option.some.inj h).symm
  next httl =>
  split at h
  · exact .inl (Option.some.inj h).symm
  next x hx =>
  right
  dsimp only at h
  split at h
  · exact .inl ⟨x.ip, (Option.some.inj h).symm⟩
  next hsource =>
  split at h
  · exact .inl ⟨x.ip, (Option.some.inj h).symm⟩
  next hgateway =>
  obtain ⟨pathMetric, hmetric, h⟩ := Option.bind_eq_some_iff.mp h
  cases pathMetric with
  | none => exact .inl ⟨x.ip, (Option.some.inj h).symm⟩
  | some pathMetric =>
    obtain ⟨⟨ok, n₁⟩, hroute, h⟩ := Option.bind_eq_some_iff.mp h
    obtain ⟨⟨ok₁, r⟩, hr, hn₁⟩ := Option.bind_eq_some_iff.mp hroute
    simp only [Option.some.injEq, Prod.mk.injEq] at hn₁
    obtain ⟨rfl, rfl⟩ := hn₁
    exact .inr ⟨x, pathMetric, ok₁, r,
      ⟨eq_false_of_ne_true httl, hx, hsource, eq_false_of_ne_true hgateway, hmetric⟩, hr,
      (Option.some.inj h).symm⟩

theorem recvRreq_cases {t : Task} {m : Rreq} (h : n.recvRreq t m = some n') :
    Calm isPlain n n' ∨ ∃ x pathMetric ok r, RreqCall n t m x pathMetric ∧
      n.routing.rreqAodvRoute n.cfg n.now m.dstIp m.srcIp m.tos x.ip x.sendRate (m.numHops + 1)
        m.dstId pathMetric = some (ok, r) ∧
      n' = if ok = true then
        { n.updateNeighLifetime x.ip with routing := r }.acceptRreq t
          { m with numHops := m.numHops + 1, pathMetric := pathMetric }
      else { n.updateNeighLifetime x.ip with routing := r } := by
  rcases recvRreq_paths h with rfl | ⟨ip, rfl⟩ | h
  · exact .inl (.refl _ _)
  · exact .inl (calm_updateNeighLifetime _ _)
  · exact .inr h

/-- `gen_rrep` answers a DTN hello. -/
def isDtnAnswer (n : Node) (dstIp : Ip) : Bool := n.dtnRegister && dstIp == n.cfg.dtnHelloIp

/-- The tables with the entry that `gen_rrep` makes to answer a DTN hello. -/
structure CopiesRoute (n : Node) (dst : Ip) (tos₀ : UInt8) (new : AodvRoute) (r : Routing) : Prop where
  inserts : Inserts new n.bumpLocalDstId.routing r
  state : new.state = .invalid
  neighRoute : new.neighRoute = false
  selfRoute : new.selfRoute = false
  srcIp : new.srcIp = n.cfg.gMeshIp
  dstIp : new.dstIp = dst
  tos : new.tos = tos₀

theorem CopiesRoute.wellFormed {dst : Ip} {tos : UInt8} {new : AodvRoute} {r : Routing}
    (h : CopiesRoute n dst tos new r) (hr : WellFormed n.cfg n.routing) : WellFormed n.cfg r :=
  (hr.touches (touches_setDstId hr.localEntry)).inserts h.inserts (by simp [h.neighRoute])

/-- The entry that `gen_rrep` answers from, and the tables that hold it. -/
def AnswersFrom (n : Node) (srcIp dstIp : Ip) (tos : UInt8) (r : Routing) (e : AodvRoute) : Prop :=
  (r = n.routing ∧ n.routing.findAodvRoute dstIp srcIp tos = some e ∧ isDtnAnswer n dstIp = false) ∨
    (isDtnAnswer n dstIp = true ∧ n.routing.findAodvRoute dstIp srcIp tos ≠ none ∧
      ∃ new, CopiesRoute n srcIp tos new r ∧ e.ptr = new.ptr)

theorem rrepRouteEntry_cases {src : AodvRoute} {srcIp dstIp : Ip} {tos : UInt8}
    {o : Option AodvRoute} (hr : WellFormed n.cfg n.routing)
    (h : n.rrepRouteEntry src srcIp dstIp tos = some (o, n')) :
    (o = some src ∧ n' = n ∧ isDtnAnswer n dstIp = false) ∨ (o = none ∧ Calm isPlain n n') ∨
      ∃ e new r, o = some e ∧ n' = { n with routing := r } ∧ isDtnAnswer n dstIp = true ∧
        CopiesRoute n srcIp tos new r ∧ e.ptr = new.ptr := by
  unfold rrepRouteEntry at h
  split at h
  · next hdtn =>
    obtain ⟨dstId, -, h⟩ := Option.bind_eq_some_iff.mp h
    have htouch : Touches n.cfg n.routing n.bumpLocalDstId.routing := touches_setDstId hr.localEntry
    have hr₀ := hr.touches htouch
    unfold createRoute at h
    rcases hcreate : n.bumpLocalDstId.routing.createAodvRoute n.cfg.gMeshIp srcIp tos dstId with ⟨o₁, r⟩
    have hcreate' : n.bumpLocalDstId.routing.createAodvRoute n.bumpLocalDstId.cfg.gMeshIp srcIp tos
        dstId = (o₁, r) := hcreate
    rw [hcreate'] at h
    rcases createAodvRoute_cases n.cfg hcreate with ⟨rfl, htouch'⟩ | ⟨lifetime, rfl, hins⟩
    · simp only [Option.some.injEq, Prod.mk.injEq] at h
      obtain ⟨rfl, rfl⟩ := h
      exact .inr (.inl ⟨rfl, calm_of_quiet (quiet_routing (htouch.trans htouch'))⟩)
    · simp only [Option.some.injEq, Prod.mk.injEq] at h
      obtain ⟨rfl, rfl⟩ := h
      have hnext := hins.modifyAt hr₀ (f := fun e ↦ { e with nextHop := src.nextHop }) rfl rfl
      have hlast := hnext.modifyAt hr₀ (f := fun e ↦ { e with lastHop := 0 }) rfl rfl
      exact .inr (.inr ⟨_, _, _, rfl, rfl, hdtn, ⟨hlast, rfl, rfl, rfl, rfl, rfl, rfl⟩, rfl⟩)
  · next hdtn =>
    simp only [Option.some.injEq, Prod.mk.injEq] at h
    exact .inl ⟨h.1.symm, h.2.symm, eq_false_of_ne_true hdtn⟩

theorem rrepRoute_routing {ptr : ℕ} (h : n.rrepRoute ptr = some n') :
    ∃ o r packets, n.routing.rrepAodvRoute n.cfg n.now ptr = some (o, r) ∧
      n' = { n with routing := r, packets := packets } := by
  obtain ⟨⟨o, r⟩, hrep, h⟩ := Option.bind_eq_some_iff.mp h
  cases o with
  | none => exact ⟨none, r, n.packets, hrep, (Option.some.inj h).symm⟩
  | some e => exact ⟨some e, r, _, hrep, (Option.some.inj h).symm⟩

theorem calm_packets {P : Sent → Prop} (n : Node) (packets : PacketQueue) :
    Calm P n { n with packets := packets } := { Calm.refl P n with }

/-- The RREP that goes out along the entry under `e.ptr`, once the node has taken
a new sequence number and installed the route. -/
def Answers (tos : UInt8) (e : AodvRoute) (n n' : Node) : Prop :=
  ∃ dstId e' o r dttl, n.bumpLocalDstId.localDstId = some dstId ∧
    n.bumpLocalDstId.routing.entryAt e.ptr = some e' ∧
    n.bumpLocalDstId.routing.rrepAodvRoute n.cfg n.now e.ptr = some (o, r) ∧
    Calm (fun s ↦ isPlain s ∨
      s = .unicast e'.nextHop netDiameter (.rrep (n.newRrep e' tos dttl dstId)))
      { n with routing := r } n'

theorem calm_setLastHop {P : Sent → Prop} (ptr : ℕ) (ip : Ip) (n : Node) :
    Calm P n (n.setLastHop ptr ip) :=
  calm_of_quiet (quiet_routing (touches_setLastHop _ _ _ _))

theorem answerRrep_answers {e : AodvRoute} {tos dttl : UInt8}
    (h : n.answerRrep e.ptr tos dttl = some n') : Answers tos e n n' := by
  obtain ⟨dstId, hd, h⟩ := Option.bind_eq_some_iff.mp h
  obtain ⟨e', he', h⟩ := Option.bind_eq_some_iff.mp h
  obtain ⟨n₁, hrep, h⟩ := Option.bind_eq_some_iff.mp h
  obtain ⟨o, r, packets, hr, rfl⟩ := rrepRoute_routing hrep
  refine ⟨dstId, e', o, r, dttl, hd, he', hr, ?_⟩
  have hbase : Calm isPlain { n with routing := r }
      { n.bumpLocalDstId with
        junk := n.bumpLocalDstId.junk.tail, routing := r, packets := packets } :=
    { Calm.refl isPlain { n with routing := r } with }
  obtain rfl := Option.some.inj h
  refine (hbase.mono fun _ ↦ .inl).trans ((calm_setLastHop e.ptr e'.srcIp _).trans ?_)
  exact calm_of_quiet (steady_sendMessage (.inr rfl)).quiet

theorem genRrep_cases {srcIp dstIp : Ip} {tos : UInt8} (hr : WellFormed n.cfg n.routing)
    (h : n.genRrep srcIp dstIp tos = some n') :
    Calm isPlain n n' ∨ ∃ r e n₁, AnswersFrom n srcIp dstIp tos r e ∧
      Calm isPlain { n with routing := r } n₁ ∧ n₁.routing = r ∧ Answers tos e n₁ n' := by
  unfold genRrep at h
  dsimp only at h
  split at h
  · exact .inl (Option.some.inj h ▸ calm_alloc)
  split at h
  · exact .inl (Option.some.inj h ▸ calm_alloc)
  next src hsrc =>
  have hsrc' : n.routing.findAodvRoute dstIp srcIp tos = some src := hsrc
  split at h
  · exact .inl (Option.some.inj h ▸ calm_alloc.trans calm_alloc)
  obtain ⟨⟨o, n₁⟩, hentry, h⟩ := Option.bind_eq_some_iff.mp h
  have hbase : ∀ r, Calm isPlain { n with routing := r } { n.alloc.2.alloc.2 with routing := r } :=
    fun r ↦ { Calm.refl isPlain { n with routing := r } with }
  rcases rrepRouteEntry_cases (n := n.alloc.2.alloc.2) hr hentry with ⟨rfl, rfl, hdtn⟩ | ⟨rfl, hcalm⟩ |
    ⟨e, new, r, rfl, rfl, hdtn, hcopy, hptr⟩
  · exact .inr ⟨_, src, _, .inl ⟨rfl, hsrc', hdtn⟩, hbase n.routing, rfl, answerRrep_answers h⟩
  · exact .inl (Option.some.inj h ▸ (calm_alloc.trans calm_alloc).trans hcalm)
  · exact .inr ⟨r, e, _, .inr ⟨hdtn, by simp [hsrc'], new, { hcopy with }, hptr⟩, hbase r, rfl,
      answerRrep_answers h⟩

/-- `recv_rrep` at the source of the flow: the update, then the installation of
the entry with the RREP's sequence number. -/
theorem recvRrepSource_cases {m : Rrep} {x : AodvNeigh} (h : n.recvRrepSource m x = some n') :
    ∃ ok r₁ r₂, n.routing.rreqAodvRoute n.cfg n.now m.srcIp m.dstIp m.tos x.ip x.sendRate m.numHops
        m.dstId m.pathMetric = some (ok, r₁) ∧
      (r₁.findAodvRouteById m.dstIp m.dstId = none ∧ r₂ = r₁ ∨
        ∃ e o, r₁.findAodvRouteById m.dstIp m.dstId = some e ∧
          r₁.rrepAodvRoute n.cfg n.now e.ptr = some (o, r₂)) ∧
      Calm isPlain { n with routing := r₂ } n' := by
  obtain ⟨⟨ok, n₁⟩, hroute, h⟩ := Option.bind_eq_some_iff.mp h
  obtain ⟨⟨ok₁, r₁⟩, hr₁, hn₁⟩ := Option.bind_eq_some_iff.mp hroute
  simp only [Option.some.injEq, Prod.mk.injEq] at hn₁
  obtain ⟨rfl, rfl⟩ := hn₁
  have htimers : Calm isPlain n (n.updateTimers.removeTimer m.srcIp m.dstIp m.tos .resendRreq) :=
    (calm_updateTimers n).trans (calm_removeTimer .resendRreq m.srcIp m.dstIp m.tos _ rfl)
  refine ⟨ok₁, r₁, ?_⟩
  cases hfind : r₁.findAodvRouteById m.dstIp m.dstId with
  | none =>
    simp only [hfind] at h
    exact ⟨r₁, hr₁, .inl ⟨rfl, rfl⟩, Option.some.inj h ▸ htimers.withRouting r₁⟩
  | some e =>
    simp only [hfind] at h
    obtain ⟨n₂, hrep, h⟩ := Option.bind_eq_some_iff.mp h
    obtain ⟨o, r₂, packets, hr₂, hn₂⟩ := rrepRoute_routing hrep
    have hcalm : Calm isPlain { n with routing := r₂ } n₂ :=
      hn₂ ▸ (htimers.withRouting r₂).trans (calm_packets _ packets)
    refine ⟨r₂, hr₁, .inr ⟨e, o, rfl, hr₂⟩, ?_⟩
    refine hcalm.trans ((calm_setLastHop e.ptr n₂.cfg.gMeshIp n₂).trans ?_)
    generalize n₂.setLastHop e.ptr n₂.cfg.gMeshIp = n₃ at h ⊢
    generalize hn₄ : (if m.dttl > 0 then _ else n₃) = n₄ at h
    have hdtn : Steady isPlain n₃ n₄ := hn₄ ▸ steady_ite steady_send2dtn (.refl _ _)
    obtain rfl := Option.some.inj h
    exact calm_of_quiet (hdtn.trans (steady_ite (steady_genRcvp _ _) (.refl _ _))).quiet

/-- The tables with the entry that `recv_rrep` makes for a DTN hello. -/
structure CopiesHello (m : Rrep) (new : AodvRoute) (r r' : Routing) : Prop where
  inserts : Inserts new r r'
  state : new.state = .invalid
  neighRoute : new.neighRoute = false
  selfRoute : new.selfRoute = false
  srcIp : new.srcIp = m.dstIp
  dstIp : new.dstIp = m.srcIp
  tos : new.tos = m.tos
  dstId : new.dstId = m.dstId

/-- The route that `recv_rrep` passes the RREP on by: the one with the number of
the RREQ that is answered, or for a DTN hello an entry of its own. -/
theorem rrepRecvRoute_cases {m m' : Rrep} {o : Option AodvRoute} (hr : WellFormed n.cfg n.routing)
    (h : n.rrepRecvRoute m = some (o, m', n')) :
    ((o = none ∨ ¬ m.dttl > 0 ∧ o = n.routing.findAodvRouteById m.srcIp m.srcId ∧ m' = m) ∧ n' = n) ∨
      m.dttl > 0 ∧ n.routing.findAodvRoute n.cfg.dtnHelloIp m.srcIp m.tos ≠ none ∧
        ∃ e new r, o = some e ∧ n' = { n with routing := r } ∧ CopiesHello m new n.routing r ∧
          e.ptr = new.ptr := by
  unfold rrepRecvRoute at h
  dsimp only at h
  split at h
  · next hdttl =>
    split at h
    · simp only [Option.some.injEq, Prod.mk.injEq] at h
      exact .inl ⟨.inl h.1.symm, h.2.2.symm⟩
    next old hold =>
    unfold createRoute at h
    rcases hcreate : n.routing.createAodvRoute m.dstIp m.srcIp m.tos m.dstId with ⟨o₁, r⟩
    rw [hcreate] at h
    rcases createAodvRoute_cases n.cfg hcreate with ⟨rfl, -⟩ | ⟨lifetime, rfl, hins⟩
    · cases h
    · simp only [Option.some.injEq, Prod.mk.injEq] at h
      obtain ⟨rfl, -, rfl⟩ := h
      have hlast := hins.modifyAt hr (f := fun e ↦ { e with lastHop := old.lastHop }) rfl rfl
      have hnext := hlast.modifyAt hr (f := fun e ↦ { e with nextHop := old.nextHop }) rfl rfl
      exact .inr ⟨hdttl, by simp [hold], _, _, _, rfl, rfl,
        ⟨hnext, rfl, rfl, rfl, rfl, rfl, rfl, rfl⟩, rfl⟩
  · next hdttl =>
    simp only [Option.some.injEq, Prod.mk.injEq] at h
    exact .inl ⟨.inr ⟨hdttl, h.1.symm, h.2.1.symm⟩, h.2.2.symm⟩

/-- The installations and the transmission at the end of `recv_rrep` on the way. -/
def Forwards (m : Rrep) (recv : AodvRoute) (r₁ : Routing) (n n' : Node) : Prop :=
  (r₁.findAodvRouteById m.dstIp m.dstId = none ∧ n' = { n with routing := r₁ }) ∨
    ∃ send o₂ r₂ o₃ r₃ recv', r₁.findAodvRouteById m.dstIp m.dstId = some send ∧
      r₁.rrepAodvRoute n.cfg n.now recv.ptr = some (o₂, r₂) ∧
      r₂.rrepAodvRoute n.cfg n.now send.ptr = some (o₃, r₃) ∧
      r₃.entryAt recv.ptr = some recv' ∧
      Calm (fun s ↦ isPlain s ∨ s = .unicast recv'.nextHop netDiameter (.rrep m))
        { n with routing := r₃ } n'

theorem recvRrepForward_cases {m : Rrep} {x : AodvNeigh} (h : n.recvRrepForward m x = some n') :
    ∃ o m' n₁, n.rrepRecvRoute m = some (o, m', n₁) ∧
      (o = none ∧ n' = n₁ ∨ ∃ recv ok r₁, o = some recv ∧
        n₁.routing.rreqAodvRoute n₁.cfg n₁.now m'.srcIp m'.dstIp m'.tos x.ip x.sendRate m'.numHops
          m'.dstId (m'.pathMetric - recv.pathMetric) = some (ok, r₁) ∧
        Forwards m' recv r₁ n₁ n') := by
  obtain ⟨⟨o, m', n₁⟩, hrecv, h⟩ := Option.bind_eq_some_iff.mp h
  refine ⟨o, m', n₁, hrecv, ?_⟩
  cases o with
  | none => exact .inl ⟨rfl, (Option.some.inj h).symm⟩
  | some recv =>
    right
    obtain ⟨⟨ok, n₂⟩, hroute, h⟩ := Option.bind_eq_some_iff.mp h
    obtain ⟨⟨ok₁, r₁⟩, hr₁, hn₂⟩ := Option.bind_eq_some_iff.mp hroute
    simp only [Option.some.injEq, Prod.mk.injEq] at hn₂
    obtain ⟨rfl, rfl⟩ := hn₂
    refine ⟨recv, ok₁, r₁, rfl, hr₁, ?_⟩
    cases hfind : r₁.findAodvRouteById m'.dstIp m'.dstId with
    | none =>
      simp only [hfind] at h
      exact .inl ⟨hfind, (Option.some.inj h).symm⟩
    | some send =>
      simp only [hfind] at h
      obtain ⟨n₃, hrep₁, h⟩ := Option.bind_eq_some_iff.mp h
      obtain ⟨n₄, hrep₂, h⟩ := Option.bind_eq_some_iff.mp h
      obtain ⟨recv', hrecv', h⟩ := Option.bind_eq_some_iff.mp h
      obtain ⟨send', hsend', h⟩ := Option.bind_eq_some_iff.mp h
      obtain ⟨o₂, r₂, packets₂, hr₂, hn₃⟩ := rrepRoute_routing hrep₁
      obtain ⟨o₃, r₃, packets₃, hr₃, hn₄⟩ := rrepRoute_routing hrep₂
      rw [hn₃] at hr₃ hn₄
      have hrouting : n₄.routing = r₃ := by rw [hn₄]
      refine .inr ⟨send, o₂, r₂, o₃, r₃, recv', hfind, hr₂, hr₃, hrouting ▸ hrecv', ?_⟩
      have hcalm : ∀ P, Calm P { n₁ with routing := r₃ } n₄ := fun P ↦
        hn₄ ▸ calm_packets { n₁ with routing := r₃ } packets₃
      obtain rfl := Option.some.inj h
      refine (hcalm _).trans <| (calm_setLastHop send'.ptr recv'.nextHop n₄).trans <|
        (calm_setLastHop recv'.ptr send'.nextHop _).trans ?_
      exact calm_of_quiet (steady_sendMessage (Or.inr rfl)).quiet

end Fbaodv.Proofs.HandlerSpecs
