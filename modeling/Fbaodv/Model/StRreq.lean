import Fbaodv.Model.ProbeEtt

namespace Fbaodv.Model.Node

open Fbaodv.Foundation

/-- `update_gw`: whether the ST-RREQ is to be passed on. -/
def updateGw (gwIp : Ip) (dstId : UInt32) (numHops : UInt8) (pathMetric : UInt32) (n : Node) :
    Bool × Node :=
  match n.gwList.find? fun g ↦ g.ip == gwIp with
  | some g =>
    if g.dstId > dstId then (false, n)
    else if g.dstId = dstId ∧ g.metric < pathMetric then (false, n)
    else
      (true, { n with
        gwList := OrderedList.modifyFirst (fun g ↦ g.ip == gwIp)
          (fun g ↦
            { g with
              metric := pathMetric
              numHops := numHops
              lifetime := n.now + activeGwrouteTimeout
              dstId := dstId }) n.gwList })
  | none =>
    let (ok, n) := n.alloc
    if !ok then (true, n)
    else
      (true, { n with
        gwList := ⟨gwIp, n.now + activeGwrouteTimeout, pathMetric, numHops, dstId⟩ :: n.gwList })

/-- The loop of `update_gw_lifetimes`: what stays of the list, and the best
gateway so far with its metric. -/
def gwLifetimesLoop (now : ℕ) : List GwEntry → List GwEntry → Ip × UInt32 → List GwEntry × Ip
  | [], gws, best => (gws, best.1)
  | g :: l, gws, best =>
    if timeAfter now g.lifetime then gwLifetimesLoop now l (gws.eraseP fun x ↦ x.ip == g.ip) best
    else gwLifetimesLoop now l gws (if g.metric < best.2 then (g.ip, g.metric) else best)

/-- `update_gw_lifetimes`. The source reads the next link of an entry that it has
had freed; here and in `gwLifetimesLoop` the list goes on as it was. -/
def updateGwLifetimes (n : Node) : Node :=
  let (gws, best) := gwLifetimesLoop n.now n.gwList n.gwList (gNullIp, defaultEttMetric)
  { n with gwList := gws, gDefaultGw := best }

def genStRreq (n : Node) : Option Node :=
  if !n.cfg.gAodvGateway then some n
  else
    let (ok, n) := n.alloc
    if !ok then some n
    else
      match n.routing.findAodvRoute n.cfg.gMeshIp n.cfg.gMeshIp 0 with
      | none => some n
      | some e =>
        let n := { n with
          routing := n.routing.modifyAt e.ptr fun e ↦ { e with dstId := e.dstId + 1 } }
        let m : RreqSt := ⟨0, n.cfg.gMeshIp, e.dstId + 1, 0⟩
        let n := n.localBroadcast netDiameter (.strreq m)
        some (n.insertTimer .st stInterval n.cfg.gMeshIp).updateTimers

def recvRreqSt (t : Task) (m : RreqSt) (n : Node) : Node :=
  match n.findAodvNeigh t.srcIp with
  | none => n
  | some x =>
    let n := n.updateNeighLifetime x.ip
    if n.cfg.gMeshIp = m.gwIp then n
    else
      let m := { m with numHops := m.numHops + 1 }
      let pathMetric :=
        if n.cfg.gRoutingMetric = .hops then some m.numHops.toUInt32 else ettMetric x m.pathMetric
      match pathMetric with
      | none => n
      | some pathMetric =>
        let m := { m with pathMetric := pathMetric }
        let (ok, n) := n.updateGw m.gwIp m.dstId m.numHops m.pathMetric
        if ok then n.localBroadcast (t.ttl - 1) (.strreq m) else n

end Fbaodv.Model.Node
