import Fbaodv.Model.RouteAlg

namespace Fbaodv.Model.Node

/-- The gateway field of an RREQ that a node originates. -/
def rreqGateway (dstIp : Ip) (n : Node) : Ip := if dstIp = gNullIp then n.gDefaultGw else gNullIp

/-- The RREQ that `gen_rreq` and `resend_rreq` build once the node has taken a
new sequence number. -/
def newRreq (srcIp dstIp : Ip) (tos dttl : UInt8) (dstId : UInt32) (n : Node) : Rreq where
  tos := tos
  numHops := 0
  gateway := n.rreqGateway dstIp
  dstIp := dstIp
  srcIp := srcIp
  dstId := dstId
  pathMetric := 0
  dttl := dttl

/-- `gen_rreq`, which returns 1 on all of its paths. -/
def genRreq (srcIp dstIp : Ip) (tos : UInt8) (n : Node) : Option Node := do
  let dttl := if dstIp = n.cfg.dtnHelloIp then dTtl else 0
  let (ok, n) := n.alloc
  if !ok then some n
  else do
    let n := n.bumpLocalDstId
    let dstId ← n.localDstId
    let n := n.localBroadcast netDiameter (.rreq (n.newRreq srcIp dstIp tos dttl dstId))
    some (n.insertTimerDir .resendRreq 0 rreqRetries srcIp dstIp tos).updateTimers

def resendRreq (t : Task) (n : Node) : Option Node := do
  if t.retries ≤ 0 then some { n with packets := n.packets.ipqDropIp t.srcIp t.dstIp t.tos }
  else
    let (ok, n) := n.alloc
    if !ok then some n
    else do
      let n := n.bumpLocalDstId
      let dstId ← n.localDstId
      let n := n.localBroadcast netDiameter (.rreq (n.newRreq t.srcIp t.dstIp t.tos 0 dstId))
      some (n.insertTimerDir .resendRreq 0 (t.retries - 1).toUInt8 t.srcIp t.dstIp t.tos).updateTimers

/-- The path metric of an RREQ that came from the neighbour `x`, with
`numHops` already counting this hop. -/
def rreqMetric (x : AodvNeigh) (m : Rreq) (n : Node) : Option (Option UInt32) :=
  match n.cfg.gRoutingMetric with
  | .ett => some (ettMetric x m.pathMetric)
  | .wcim => n.wcimMetric x m.tos m.pathMetric
  | .hops => some (some m.numHops.toUInt32)

/-- `rreq_aodv_route` on the node's tables. -/
def rreqRoute (srcIp dstIp : Ip) (tos : UInt8) (nextHop : AodvNeigh) (hops : UInt8)
    (dstId pathMetric : UInt32) (n : Node) : Option (Bool × Node) := do
  let (ok, r) ← n.routing.rreqAodvRoute n.cfg n.now srcIp dstIp tos nextHop.ip nextHop.sendRate hops
    dstId pathMetric
  some (ok, { n with routing := r })

def iamDestination (m : Rreq) (n : Node) : Bool :=
  m.dstIp == n.cfg.gMeshIp || m.gateway == n.cfg.gMeshIp

/-- What `recv_rreq` does with an RREQ that gave a new or a better route. -/
def acceptRreq (t : Task) (m : Rreq) (n : Node) : Node :=
  if n.iamDestination m then
    if findTimer m.srcIp m.dstIp m.tos .sendRrep n.timers then n
    else (n.insertTimerDir .sendRrep rrepTimer 0 m.srcIp m.dstIp m.tos).updateTimers
  else
    let toDtn := n.dtnRegister && m.dttl ≥ 1
    let n := if toDtn then n.send2dtn dtnLocationPort m.srcIp m.tos.toUInt32 0 0 else n
    n.localBroadcast (t.ttl - 1) (.rreq { m with dttl := if toDtn then m.dttl - 1 else m.dttl })

def recvRreq (t : Task) (m : Rreq) (n : Node) : Option Node := do
  if t.ttl ≤ 1 && !n.iamDestination m then some n
  else
    match n.findAodvNeigh t.srcIp with
    | none => some n
    | some x =>
      let n := n.updateNeighLifetime x.ip
      if n.cfg.gMeshIp = m.srcIp then some n
      else if n.cfg.gAodvGateway && m.dstIp == gNullIp && m.gateway != n.cfg.gMeshIp then some n
      else do
        let m := { m with numHops := m.numHops + 1 }
        match ← n.rreqMetric x m with
        | none => some n
        | some pathMetric =>
          let m := { m with pathMetric := pathMetric }
          let (ok, n) ← n.rreqRoute m.dstIp m.srcIp m.tos x m.numHops m.dstId m.pathMetric
          some (if ok then n.acceptRreq t m else n)

end Fbaodv.Model.Node
