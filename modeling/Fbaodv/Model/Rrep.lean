import Fbaodv.Model.Rcvp

namespace Fbaodv.Model.Node

/-- `rrep_aodv_route`: the kernel route, the state of the entry and the packets
that waited for it. -/
def rrepRoute (ptr : ℕ) (n : Node) : Option Node := do
  let (e, r) ← n.routing.rrepAodvRoute n.cfg n.now ptr
  let n := { n with routing := r }
  match e with
  | none => some n
  | some e => some { n with packets := n.packets.ipqSendIp e.srcIp e.dstIp e.tos }

def setLastHop (ptr : ℕ) (ip : Ip) (n : Node) : Node :=
  { n with routing := n.routing.modifyAt ptr fun e ↦ { e with lastHop := ip } }

def setNextHop (ptr : ℕ) (ip : Ip) (n : Node) : Node :=
  { n with routing := n.routing.modifyAt ptr fun e ↦ { e with nextHop := ip } }

/-- `create_aodv_route` on the node's table. -/
def createRoute (srcIp dstIp : Ip) (tos : UInt8) (dstId : UInt32) (n : Node) :
    Option AodvRoute × Node :=
  let (e, r) := n.routing.createAodvRoute srcIp dstIp tos dstId
  (e, { n with routing := r })

/-- The entry that `gen_rrep` answers from: the route to the source or, for a
DTN hello, a copy of it under the node's own address. -/
def rrepRouteEntry (src : AodvRoute) (srcIp dstIp : Ip) (tos : UInt8) (n : Node) :
    Option (Option AodvRoute × Node) := do
  if n.dtnRegister && dstIp == n.cfg.dtnHelloIp then
    let n := n.bumpLocalDstId
    let dstId ← n.localDstId
    match n.createRoute n.cfg.gMeshIp srcIp tos dstId with
    | (none, n) => some (none, n)
    | (some e, n) =>
      let n := (n.setNextHop e.ptr src.nextHop).setLastHop e.ptr 0
      some (some { e with nextHop := src.nextHop, lastHop := 0 }, n)
  else some (some src, n)

/-- The RREP that `gen_rrep` builds from the route to the source. Its gateway
field is not written. -/
def newRrep (src : AodvRoute) (tos dttl : UInt8) (dstId : UInt32) (n : Node) : Rrep where
  tos := tos
  numHops := 0
  dstIp := src.srcIp
  srcIp := src.dstIp
  dstId := dstId
  gateway := n.junk.headD 0
  pathMetric := src.pathMetric
  srcId := src.dstId
  dttl := dttl
  x := n.longitude
  y := n.latitude

/-- The part of `gen_rrep` that answers along the entry under `ptr`. -/
def answerRrep (ptr : ℕ) (tos dttl : UInt8) (n : Node) : Option Node := do
  let n := n.bumpLocalDstId
  let dstId ← n.localDstId
  let src ← n.routing.entryAt ptr
  let m := n.newRrep src tos dttl dstId
  let n ← { n with junk := n.junk.tail }.rrepRoute ptr
  let n := n.setLastHop ptr src.srcIp
  some (n.sendMessage src.nextHop netDiameter (.rrep m))

def genRrep (srcIp dstIp : Ip) (tos : UInt8) (n : Node) : Option Node := do
  let (ok, n) := n.alloc
  if !ok then some n
  else
    match n.routing.findAodvRoute dstIp srcIp tos with
    | none => some n
    | some src =>
      let (ok, n) := n.alloc
      if !ok then some n
      else do
        let dttl := if n.dtnRegister && dstIp == n.cfg.dtnHelloIp then dTtl else 0
        let (src, n) ← n.rrepRouteEntry src srcIp dstIp tos
        match src with
        | none => some n
        | some src => n.answerRrep src.ptr tos dttl

/-- The branch of `recv_rrep` for the source of the flow. -/
def recvRrepSource (m : Rrep) (x : AodvNeigh) (n : Node) : Option Node := do
  let n := n.updateTimers
  let (_, n) ← n.rreqRoute m.srcIp m.dstIp m.tos x m.numHops m.dstId m.pathMetric
  let sendRoute := n.routing.findAodvRouteById m.dstIp m.dstId
  let n := n.removeTimer m.srcIp m.dstIp m.tos .resendRreq
  match sendRoute with
  | none => some n
  | some e =>
    let n ← n.rrepRoute e.ptr
    let n := n.setLastHop e.ptr n.cfg.gMeshIp
    let n := if m.dttl > 0 then n.send2dtn reDtnHello m.dstIp m.x m.y 0 else n
    some (if (n.findFirstBrkLinkWithDst m.dstIp).isSome then n.genRcvp m.dstIp else n)

/-- The route back to the source that an intermediate node uses, with the
message as it is passed on. A DTN hello gets an entry of its own. -/
def rrepRecvRoute (m : Rrep) (n : Node) : Option (Option AodvRoute × Rrep × Node) := do
  let recvRoute := n.routing.findAodvRouteById m.srcIp m.srcId
  if m.dttl > 0 then
    let m' := if n.dtnRegister then { m with dttl := m.dttl - 1 } else m
    match n.routing.findAodvRoute n.cfg.dtnHelloIp m.srcIp m.tos with
    | none => some (none, m', n)
    | some old =>
      match n.createRoute m.dstIp m.srcIp m.tos m.dstId with
      | (none, _) => none
      | (some e, n) =>
        let n := (n.setLastHop e.ptr old.lastHop).setNextHop e.ptr old.nextHop
        some (some { e with lastHop := old.lastHop, nextHop := old.nextHop }, m', n)
  else some (recvRoute, m, n)

/-- The branch of `recv_rrep` for a node on the way. -/
def recvRrepForward (m : Rrep) (x : AodvNeigh) (n : Node) : Option Node := do
  let (recvRoute, m, n) ← n.rrepRecvRoute m
  match recvRoute with
  | none => some n
  | some recv =>
    let pathMetric := m.pathMetric - recv.pathMetric
    let (_, n) ← n.rreqRoute m.srcIp m.dstIp m.tos x m.numHops m.dstId pathMetric
    match n.routing.findAodvRouteById m.dstIp m.dstId with
    | none => some n
    | some send =>
      let n ← n.rrepRoute recv.ptr
      let n ← n.rrepRoute send.ptr
      let recv ← n.routing.entryAt recv.ptr
      let send ← n.routing.entryAt send.ptr
      let n := (n.setLastHop send.ptr recv.nextHop).setLastHop recv.ptr send.nextHop
      some (n.sendMessage recv.nextHop netDiameter (.rrep m))

def recvRrep (t : Task) (m : Rrep) (n : Node) : Option Node :=
  match n.findAodvNeigh t.srcIp with
  | none => some n
  | some x =>
    let n := n.updateNeighLifetime x.ip
    let m := { m with numHops := m.numHops + 1 }
    if m.srcIp == n.cfg.gMeshIp || (m.srcIp == gNullIp && m.gateway == n.cfg.gMeshIp) then
      n.recvRrepSource m x
    else n.recvRrepForward m x

end Fbaodv.Model.Node
