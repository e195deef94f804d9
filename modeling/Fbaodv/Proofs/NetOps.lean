import Fbaodv.Model.Network
import Fbaodv.Proofs.NodeOps

namespace Fbaodv.Proofs.NetOps

open Fbaodv.Model Fbaodv.Model.Node Fbaodv.Foundation
open Fbaodv.Proofs.RouteFrame Fbaodv.Proofs.RoutingInvariant Fbaodv.Proofs.Background
open Fbaodv.Proofs.RouteEffects Fbaodv.Proofs.HandlerSpecs Fbaodv.Proofs.NodeRun
open Fbaodv.Proofs.NodeOps Relation

/-- A transmission that is neither an RREQ nor an RREP. -/
def isRouteless : Sent → Prop
  | .broadcast _ m | .unicast _ _ m =>
    match m with
    | .rreq _ | .rrep _ => False
    | _ => True
  | .toDtn .. => True

/-- The tasks that send an RREQ or an RREP of the node itself. -/
def isFlowType (type : TaskType) : Bool :=
  type == .resendRreq || type == .genRreq || type == .sendRrep

/-- What a handler leaves alone that has nothing to do with the numbers of
routes. -/
structure Silent (n n' : Node) : Prop where
  cfg : n'.cfg = n.cfg
  dtnRegister : n'.dtnRegister = n.dtnRegister
  tasks : n'.tasks = n.tasks
  routing : Soft n.routing n'.routing
  timers : ∀ t ∈ n'.timers.queue, isFlowType t.type = true → t ∈ n.timers.queue
  sent : ∃ l, n'.sent = n.sent ++ l ∧ ∀ s ∈ l, isRouteless s

/-- A route that a node hears of. -/
structure HeardRoute where
  srcIp : Ip
  dstIp : Ip
  tos : UInt8
  nextHop : AodvNeigh
  hops : UInt8
  dstId : UInt32
  pathMetric : UInt32

/-- The task `t`, which found the node as `n`, calls `rreq_aodv_route` with this
route when the tables are `r`. -/
inductive RouteCall (n : Node) (t : Task) : Routing → HeardRoute → Prop
  | rreq {m : Rreq} {x : AodvNeigh} {pathMetric : UInt32} (htype : t.type = .recvRreq)
      (hdata : t.data = some (.rreq m)) (hcall : RreqCall n t m x pathMetric) :
      RouteCall n t n.routing ⟨m.dstIp, m.srcIp, m.tos, x, m.numHops + 1, m.dstId, pathMetric⟩
  | rrepSource {m : Rrep} {x : AodvNeigh} (htype : t.type = .recvRrep)
      (hdata : t.data = some (.rrep m)) (hx : n.findAodvNeigh t.srcIp = some x)
      (hsource : isRrepSource n m = true) :
      RouteCall n t n.routing ⟨m.srcIp, m.dstIp, m.tos, x, m.numHops + 1, m.dstId, m.pathMetric⟩
  | rrepForward {m m' : Rrep} {x : AodvNeigh} {recv : AodvRoute} {n₁ : Node}
      (htype : t.type = .recvRrep) (hdata : t.data = some (.rrep m))
      (hx : n.findAodvNeigh t.srcIp = some x) (hsource : isRrepSource n m = false)
      (hrecv : (n.updateNeighLifetime x.ip).rrepRecvRoute { m with numHops := m.numHops + 1 } =
        some (some recv, m', n₁)) :
      RouteCall n t n₁.routing
        ⟨m.srcIp, m.dstIp, m.tos, x, m.numHops + 1, m.dstId, m.pathMetric - recv.pathMetric⟩

/-- The task creates the entry `new` without a look into the table. -/
inductive Creates (n : Node) (t : Task) (new : AodvRoute) : Prop
  | neigh {dstId : UInt32} {ptr lifetime : ℕ} (htype : t.type = .recvHello)
      (hisNew : isNewNeigh n t.srcIp = true) (hdstId : n.localDstId = some dstId)
      (hnew : new = neighEntry n.cfg ptr t.srcIp dstId lifetime)
  | answer {dstId : UInt32} (htype : t.type = .sendRrep) (hdtn : isDtnAnswer n t.dstIp = true)
      (hfind : n.routing.findAodvRoute t.dstIp t.srcIp t.tos ≠ none)
      (hdstId : n.localDstId = some dstId)
      (hkey : new.srcIp = n.cfg.gMeshIp ∧ new.dstIp = t.srcIp ∧ new.tos = t.tos)
      (hnew : new.dstId = dstId + 1 ∧ new.selfRoute = false ∧ new.neighRoute = false)
  | forward {m : Rrep} (htype : t.type = .recvRrep) (hdata : t.data = some (.rrep m))
      (hx : n.findAodvNeigh t.srcIp ≠ none) (hsource : isRrepSource n m = false) (hdttl : m.dttl > 0)
      (hfind : n.routing.findAodvRoute n.cfg.dtnHelloIp m.srcIp m.tos ≠ none)
      (hkey : new.srcIp = m.dstIp ∧ new.dstIp = m.srcIp ∧ new.tos = m.tos)
      (hnew : new.dstId = m.dstId ∧ new.selfRoute = false ∧ new.neighRoute = false)

/-- The tasks in which a node may flood an RREQ. -/
def isSeekType (type : TaskType) : Bool :=
  type == .genRreq || type == .resendRreq || type == .dtnHello || type == .recvHello

/-- The name under which a node floods an RREQ. -/
def SeeksAs (n : Node) (t : Task) (srcIp : Ip) : Prop :=
  isSeekType t.type = true ∧
    (srcIp = n.cfg.gMeshIp ∨ (t.type = .genRreq ∨ t.type = .resendRreq) ∧ srcIp = t.srcIp)

section Tables

variable {cfg : Config} {r r' r'' : Routing}

theorem soft_of_srcOnly (h : SrcOnly r r') : Soft r r' := .of_eq h.table h.localRoute

theorem soft_newRoute {byRrep ok : Bool} {srcIp : Ip} {k : KernelRoute}
    (h : r.newRoute cfg byRrep srcIp k = (ok, r')) : Soft r r' :=
  .of_eq (newRoute_table h).1 (newRoute_table h).2.2

theorem soft_delRoute {ok : Bool} {srcIp : Ip} {k : KernelRoute}
    (h : r.delRoute cfg srcIp k = (ok, r')) : Soft r r' :=
  .of_eq (delRoute_table h).1 (delRoute_table h).2.2

theorem soft_rrepAodvRoute {now ptr : ℕ} {o : Option AodvRoute}
    (h : r.rrepAodvRoute cfg now ptr = some (o, r')) : Soft r r' := by
  obtain ⟨e, -, ⟨-, -, rfl⟩ | ⟨hnew, -⟩ | ⟨r₁, -, hnew, -, rfl⟩⟩ := rrepAodvRoute_cases h
  · exact .refl _
  · exact soft_newRoute hnew
  · exact (soft_newRoute hnew).trans (soft_modifyAt fun _ ↦ ⟨_, _, _, _, rfl⟩)

theorem soft_createAodvRoute {srcIp dstIp : Ip} {tos : UInt8} {dstId : UInt32}
    (h : r.createAodvRoute srcIp dstIp tos dstId = (none, r')) : Soft r r' := by
  unfold Routing.createAodvRoute at h
  split at h
  · exact (Prod.mk.inj h).2 ▸ .of_eq rfl rfl
  · cases (Prod.mk.inj h).1

/-- `rreq_aodv_route` gives up what the entry `e` says for the route `c`. -/
def GivesWay (cfg : Config) (r : Routing) (c : HeardRoute) (e : AodvRoute) : Prop :=
  e.rejects c.dstId c.pathMetric = false ∧
    (e.state ≠ .invalid → (r.delRoute cfg e.srcIp e.kernelRoute).1 = true)

/-- What a call of `rreq_aodv_route` writes into the table: at most the use of
entries, a new entry without a next hop when there is no room for its source, a
new entry for the route, or the route in place of an older one. -/
inductive RouteWrite (cfg : Config) (now : ℕ) (r : Routing) (c : HeardRoute) : Bool → Routing → Prop
  | kept {r' : Routing} (h : Soft r r') : RouteWrite cfg now r c false r'
  | unlisted {r₀ r' : Routing} {lifetime : ℕ}
      (hfind : r.findAodvRoute c.srcIp c.dstIp c.tos = none)
      (h : Inserts (freshEntry r.heap c.srcIp c.dstIp c.tos c.dstId lifetime) r r₀) (hs : Soft r₀ r') :
      RouteWrite cfg now r c false r'
  | created {r₀ r' : Routing} {lifetime : ℕ}
      (hfind : r.findAodvRoute c.srcIp c.dstIp c.tos = none)
      (h : Inserts (rreqUpdate now c.nextHop.ip c.hops c.dstId c.pathMetric
        (freshEntry r.heap c.srcIp c.dstIp c.tos c.dstId lifetime)) r r₀) (hs : Soft r₀ r') :
      RouteWrite cfg now r c true r'
  | replaced {r' : Routing} {e : AodvRoute}
      (hfind : r.findAodvRoute c.srcIp c.dstIp c.tos = some e)
      (hgives : GivesWay cfg r c e)
      (hs : Soft (r.modifyAt e.ptr (rreqUpdate now c.nextHop.ip c.hops c.dstId c.pathMetric)) r') :
      RouteWrite cfg now r c true r'

theorem softEntry_rreqUpdate {now : ℕ} {nextHop : Ip} {hops : UInt8} {dstId pathMetric : UInt32}
    {e e' : AodvRoute} (h : SoftEntry e e') :
    SoftEntry (rreqUpdate now nextHop hops dstId pathMetric e)
      (rreqUpdate now nextHop hops dstId pathMetric e') := by
  obtain ⟨_, _, _, _, rfl⟩ := h
  exact ⟨_, _, _, _, rfl⟩

theorem soft_loaded {tos : UInt8} {sendRate : UInt16} {ptr : ℕ} {ok ok' : Bool} {st : RouteState}
    (h : (if cfg.gRoutingMetric = .wcim then do
        let load ← computeLoad sendRate tos
        let r := r.modifyAt ptr fun e ↦ { e with load := load }
        some (ok, if st = .active then r.updateMyLoad else r)
      else some (ok, r)) = some (ok', r')) : ok' = ok ∧ Soft r r' := by
  split at h
  · obtain ⟨load, -, h⟩ := Option.bind_eq_some_iff.mp h
    obtain ⟨rfl, rfl⟩ := Prod.mk.inj (Option.some.inj h)
    have hload : Soft r (r.modifyAt ptr fun e ↦ { e with load := load }) :=
      soft_modifyAt fun _ ↦ ⟨_, _, _, _, rfl⟩
    refine ⟨rfl, hload.trans ?_⟩
    split
    · exact soft_updateMyLoad _
    · exact .refl _
  · obtain ⟨rfl, rfl⟩ := Prod.mk.inj (Option.some.inj h)
    exact ⟨rfl, .refl _⟩

theorem rreqAodvRoute_write {now : ℕ} {c : HeardRoute} {ok : Bool} (hr : WellFormed cfg r)
    (h : r.rreqAodvRoute cfg now c.srcIp c.dstIp c.tos c.nextHop.ip c.nextHop.sendRate c.hops c.dstId
      c.pathMetric = some (ok, r')) : RouteWrite cfg now r c ok r' := by
  unfold Routing.rreqAodvRoute Routing.rreqEntry at h
  cases hfind : r.findAodvRoute c.srcIp c.dstIp c.tos with
  | none =>
    simp only [hfind] at h
    rcases hcreate : r.createAodvRoute c.srcIp c.dstIp c.tos c.dstId with ⟨_ | new, r₀⟩
    · simp only [hcreate, Option.some.injEq, Prod.mk.injEq] at h
      obtain ⟨rfl, rfl⟩ := h
      exact .kept (soft_createAodvRoute hcreate)
    obtain ⟨lifetime, hnew, hins⟩ : ∃ lifetime,
        some new = some (freshEntry r.heap c.srcIp c.dstIp c.tos c.dstId lifetime) ∧
          Inserts (freshEntry r.heap c.srcIp c.dstIp c.tos c.dstId lifetime) r r₀ :=
      (createAodvRoute_cases cfg hcreate).resolve_left fun hnone ↦ by cases hnone.1
    obtain rfl := Option.some.inj hnew
    simp only [hcreate] at h
    have hsource := srcOnly_sourceEntry cfg c.srcIp r₀
    rcases hsrc : r₀.sourceEntry cfg c.srcIp with ⟨_ | s, r₁⟩
    · simp only [hsrc, Option.some.injEq, Prod.mk.injEq] at h
      obtain ⟨rfl, rfl⟩ := h
      rw [hsrc] at hsource
      exact .unlisted hfind hins (soft_of_srcOnly hsource)
    · simp only [hsrc] at h
      rw [hsrc] at hsource
      obtain ⟨rfl, hload⟩ := soft_loaded h
      have hupdate := hins.modifyAt hr (f := rreqUpdate now c.nextHop.ip c.hops c.dstId c.pathMetric) rfl rfl
      refine .created hfind hupdate (Soft.trans ?_ hload)
      exact (soft_of_srcOnly (hsource.trans (srcOnly_modifySrc _ _ _))).modifyAt _ fun _ _ ↦
        softEntry_rreqUpdate
  | some e =>
    simp only [hfind] at h
    split at h
    · next heq =>
      simp only [Option.some.injEq, Prod.mk.injEq] at h
      obtain ⟨rfl, rfl⟩ := h
      refine .kept ?_
      split at heq
      · exact (Prod.mk.inj heq).2 ▸ .refl _
      split at heq
      · split at heq
        · cases heq
        · exact (Prod.mk.inj heq).2 ▸ soft_delRoute rfl
      · cases heq
    · next e' st r₁ heq =>
      have hentry : e' = e ∧ Soft r r₁ ∧ GivesWay cfg r c e := by
        split at heq
        · cases heq
        next hrej =>
        have hrej := eq_false_of_ne_true hrej
        split at heq
        · split at heq
          · next hdel =>
            simp only [Prod.mk.injEq, Option.some.injEq] at heq
            exact ⟨heq.1.1.symm, heq.2 ▸ soft_delRoute rfl, hrej, fun _ ↦ hdel⟩
          · cases heq
        · next hstate =>
          simp only [Prod.mk.injEq, Option.some.injEq] at heq
          exact ⟨heq.1.1.symm, heq.2 ▸ .refl _, hrej, fun h ↦ absurd h hstate⟩
      obtain ⟨rfl, hsoft, hgives⟩ := hentry
      obtain ⟨rfl, hload⟩ := soft_loaded h
      exact .replaced hfind hgives ((hsoft.modifyAt _ fun _ _ ↦ softEntry_rreqUpdate).trans hload)

theorem RouteWrite.entry {now : ℕ} {c : HeardRoute} (h : RouteWrite cfg now r c true r') :
    ∃ e ∈ r'.table, (e.srcIp = c.srcIp ∧ e.dstIp = c.dstIp ∧ e.tos = c.tos) ∧ e.dstId = c.dstId ∧
      e.pathMetric = c.pathMetric ∧ e.nextHop = c.nextHop.ip := by
  have hsoft : ∀ {r₀ : Routing} {e : AodvRoute}, Soft r₀ r' → e ∈ r₀.table →
      ∃ e' ∈ r'.table, SoftEntry e e' := fun hs he ↦ Pointwise.exists_of_mem_left hs.entries he
  cases h with
  | created _ h hs =>
    obtain ⟨e, he, _, _, _, _, rfl⟩ := hsoft hs (h.mem.mpr (.inl rfl))
    exact ⟨_, he, ⟨rfl, rfl, rfl⟩, rfl, rfl, rfl⟩
  | @replaced _ e₀ hfind _ hs =>
    obtain ⟨hmem, hkey⟩ := findAodvRoute_some hfind
    obtain ⟨e, he, _, _, _, _, rfl⟩ := hsoft hs (List.mem_map.mpr ⟨e₀, hmem, if_pos rfl⟩)
    exact ⟨_, he, hkey, rfl, rfl, rfl⟩

end Tables

/-- `gen_rrep` takes a number and answers along the entry `e` with `m`. -/
structure Answered (n : Node) (t : Task) (e : AodvRoute) (m : Rrep) (n' : Node) : Prop where
  number : ∃ dstId, n.localDstId = some dstId ∧ m.dstId = dstId + 1
  entry : ∃ ptr, n.bumpLocalDstId.routing.entryAt ptr = some e
  message : m.srcIp = e.dstIp ∧ m.dstIp = e.srcIp ∧ m.srcId = e.dstId ∧ m.pathMetric = e.pathMetric
  tos : m.tos = t.tos
  cfg : n'.cfg = n.cfg
  dtnRegister : n'.dtnRegister = n.dtnRegister
  tasks : n'.tasks = n.tasks
  timers : n'.timers = n.timers
  routing : Soft n.bumpLocalDstId.routing n'.routing
  sent : n'.sent = n.sent ∨ n'.sent = n.sent ++ [.unicast e.nextHop netDiameter (.rrep m)]

/-- The RREQ that is passed on when `m` has given the path metric `pathMetric`. -/
def passedRreq (m : Rreq) (pathMetric : UInt32) (dttl : UInt8) : Rreq :=
  { m with numHops := m.numHops + 1, pathMetric := pathMetric, dttl := dttl }

/-- The table has the route that the RREQ `m` has given. -/
def HasReverse (n : Node) (m : Rreq) (x : AodvNeigh) (pathMetric : UInt32) : Prop :=
  ∃ e ∈ n.routing.table, (e.srcIp = m.dstIp ∧ e.dstIp = m.srcIp ∧ e.tos = m.tos) ∧
    e.dstId = m.dstId ∧ e.pathMetric = pathMetric ∧ e.nextHop = x.ip

/-- An operation of the handler of `t`, which found the node as `n₀`, on routes
and their numbers. -/
inductive NetOp (n₀ : Node) (t : Task) : Node → Node → Prop
  | silent {n n' : Node} (h : Silent n n') : NetOp n₀ t n n'
  | flood {n n' : Node} {srcIp dstIp : Ip} {tos retries : UInt8} {m : Rreq} {dstId : UInt32}
      (hname : SeeksAs n t srcIp) (h : Flooded n srcIp dstIp tos retries m n')
      (hdtn : n'.dtnRegister = n.dtnRegister)
      (hdstId : n.localDstId = some dstId) (hm : m.dstId = dstId + 1 ∧ m.numHops = 0)
      (hgateway : m.gateway = gNullIp ∨ m.dstIp = gNullIp) : NetOp n₀ t n n'
  | create {n : Node} {new : AodvRoute} {r : Routing} (h : Inserts new n.routing r)
      (hmemory : n₀.routing.kmalloc.next = true) (hnew : Creates n₀ t new)
      (hr : WellFormed n.cfg n.routing) : NetOp n₀ t n { n with routing := r }
  | route {n : Node} {c : HeardRoute} {ok : Bool} {r : Routing} (hcall : RouteCall n₀ t n.routing c)
      (hr : WellFormed n.cfg n.routing) (h : RouteWrite n.cfg n.now n.routing c ok r) :
      NetOp n₀ t n { n with routing := r }
  | forward {n : Node} {m : Rreq} {x : AodvNeigh} {pathMetric : UInt32} (dttl : UInt8)
      (htype : t.type = .recvRreq) (hdata : t.data = some (.rreq m))
      (hcall : RreqCall n₀ t m x pathMetric) (hreverse : HasReverse n m x pathMetric) :
      NetOp n₀ t n
        { n with sent := n.sent ++ [.broadcast (t.ttl - 1) (.rreq (passedRreq m pathMetric dttl))] }
  | await {n : Node} {m : Rreq} {x : AodvNeigh} {pathMetric : UInt32}
      (htype : t.type = .recvRreq) (hdata : t.data = some (.rreq m))
      (hcall : RreqCall n₀ t m x pathMetric) (hreverse : HasReverse n m x pathMetric)
      (hdest : n₀.iamDestination m = true) :
      NetOp n₀ t n (n.insertTimerDir .sendRrep rrepTimer 0 m.srcIp m.dstIp m.tos)
  | bump {n : Node} (htype : t.type = .sendRrep) : NetOp n₀ t n n.bumpLocalDstId
  | answer {n n' : Node} {e : AodvRoute} {m : Rrep} (htype : t.type = .sendRrep)
      (he : isDtnAnswer n₀ t.dstIp = false ∧ e.srcIp = t.dstIp ∧ e.dstIp = t.srcIp ∧ e.tos = t.tos ∨
        isDtnAnswer n₀ t.dstIp = true ∧ n₀.routing.findAodvRoute t.dstIp t.srcIp t.tos ≠ none ∧
          e.srcIp = n₀.cfg.gMeshIp) (h : Answered n t e m n') : NetOp n₀ t n n'
  | relay {n : Node} {m : Rrep} {recv send : AodvRoute} (dttl : UInt8) (htype : t.type = .recvRrep)
      (hdata : t.data = some (.rrep m)) (hx : n₀.findAodvNeigh t.srcIp ≠ none)
      (hsource : isRrepSource n₀ m = false)
      (hdtn : m.dttl > 0 → n₀.routing.findAodvRoute n₀.cfg.dtnHelloIp m.srcIp m.tos ≠ none)
      (hdttl : ¬ m.dttl > 0 → dttl = m.dttl) (hrecv : recv ∈ n.routing.table)
      (hsend : send ∈ n.routing.table) (hto : send.dstIp = m.dstIp ∧ send.dstId = m.dstId) :
      NetOp n₀ t n
        { n with sent := n.sent ++
            [.unicast recv.nextHop netDiameter
              (.rrep { m with numHops := m.numHops + 1, dttl := dttl })] }
  | flush {n : Node} (hr : WellFormed n.cfg n.routing) : NetOp n₀ t n { n with routing := n.routing.flushAodvRouteTable n.cfg n.now }
  | strreq {n : Node} {e : AodvRoute} (htype : t.type = .st) (hr : WellFormed n.cfg n.routing)
      (he : n.routing.findAodvRoute n.cfg.gMeshIp n.cfg.gMeshIp 0 = some e) :
      NetOp n₀ t n
        { n with
          routing := n.routing.modifyAt e.ptr fun e ↦ { e with dstId := e.dstId + 1 }
          sent := n.sent ++ [.broadcast netDiameter (.strreq ⟨0, n.cfg.gMeshIp, e.dstId + 1, 0⟩)] }

def NetPath (n₀ : Node) (t : Task) : Node → Node → Prop := ReflTransGen (NetOp n₀ t)

section Silent

variable {n n' n'' : Node} {P : Sent → Prop}

theorem Silent.refl (n : Node) : Silent n n :=
  ⟨rfl, rfl, rfl, .refl _, fun _ ht _ ↦ ht, [], (List.append_nil _).symm, nofun⟩

theorem Silent.trans (h : Silent n n') (h' : Silent n' n'') : Silent n n'' where
  cfg := h'.cfg.trans h.cfg
  dtnRegister := h'.dtnRegister.trans h.dtnRegister
  tasks := h'.tasks.trans h.tasks
  routing := h.routing.trans h'.routing
  timers := fun t ht htype ↦ h.timers t (h'.timers t ht htype) htype
  sent := sent_trans h.sent h'.sent

theorem isRouteless_of_isPlain {s : Sent} (h : isPlain s) : isRouteless s := by
  cases s with
  | broadcast ttl m | unicast ip ttl m =>
    cases m
    all_goals first | exact trivial | exact h.elim
  | toDtn => exact trivial

theorem silent_of_calm (h : Calm P n n') (hP : ∀ s, P s → isRouteless s) (hops : ReportOps n n') :
    Silent n n' where
  cfg := h.cfg
  dtnRegister := h.dtnRegister
  tasks := h.tasks
  routing := reportOps_soft hops
  timers := by
    intro t ht htype
    by_cases hanswer : (t.type == .sendRrep) = true
    · have hmem : t ∈ n'.timers.queue.filter fun t ↦ t.type == .sendRrep :=
        List.mem_filter.mpr ⟨ht, hanswer⟩
      rw [h.answers] at hmem
      exact (List.mem_filter.mp hmem).1
    · refine reportOps_discovery hops ht ?_
      simpa [isFlowType, isDiscoveryType, eq_false_of_ne_true hanswer] using htype
  sent := by
    obtain ⟨l, hl, hall⟩ := h.sent
    exact ⟨l, hl, fun s hs ↦ hP s (hall s hs)⟩

theorem silent_of_plain (h : Calm isPlain n n') (hops : ReportOps n n') : Silent n n' :=
  silent_of_calm h (fun _ ↦ isRouteless_of_isPlain) hops

theorem silent_of_eq (hcfg : n'.cfg = n.cfg) (hdtn : n'.dtnRegister = n.dtnRegister) (htasks : n'.tasks = n.tasks)
    (hrouting : n'.routing = n.routing) (htimers : n'.timers.queue = n.timers.queue)
    (hsent : n'.sent = n.sent) : Silent n n' :=
  ⟨hcfg, hdtn, htasks, hrouting ▸ .refl _, fun _ ht _ ↦ htimers ▸ ht, [], by simp [hsent], nofun⟩

theorem silent_routing {r : Routing} (h : Soft n.routing r) : Silent n { n with routing := r } :=
  { Silent.refl n with routing := h }

theorem silent_updateTimers (n : Node) : Silent n n.updateTimers :=
  silent_of_eq rfl rfl rfl rfl (by simp [updateTimers]) rfl

theorem silent_send {s : Sent} (h : isRouteless s) : Silent n { n with sent := n.sent ++ [s] } :=
  { Silent.refl n with sent := ⟨[s], rfl, by simpa using h⟩ }

theorem NetPath.trans {n₀ : Node} {t : Task} (h : NetPath n₀ t n n') (h' : NetPath n₀ t n' n'') :
    NetPath n₀ t n n'' :=
  ReflTransGen.trans h h'

theorem Silent.path {n₀ : Node} {t : Task} (h : Silent n n') : NetPath n₀ t n n' := .single (.silent h)

end Silent

end Fbaodv.Proofs.NetOps
