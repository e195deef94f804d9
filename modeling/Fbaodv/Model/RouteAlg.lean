import Fbaodv.Model.AodvNeigh

namespace Fbaodv.Model.Node

/-- What `PROBE_PACKET * 1000 / (recv_rate * etx_metric)` adds to a path
metric. -/
def ettOfNeigh (x : AodvNeigh) : UInt32 :=
  UInt32.ofNat (probePacket * 1000 / (x.recvRate.toNat * x.etxMetric.toNat))

def rateUnknown (x : AodvNeigh) : Bool :=
  x.recvRate == 0 || x.sendRate == 0 || x.etxMetric == 0

/-- `ett_metric`: the new path metric, unless the link is not measured. -/
def ettMetric (x : AodvNeigh) (pathMetric : UInt32) : Option UInt32 :=
  if rateUnknown x then none else some (pathMetric + ettOfNeigh x)

/-- Whether the transmitter `x` lists `ip` among its own neighbours. -/
def hearsOf (x : AodvNeigh) (ip : Ip) : Bool :=
  x.loadMetric.neighTx.any fun tx ↦ tx != 0 && tx == ip

/-- The load that `wcim_metric` sums up around the receiver. -/
def wcimLoad (x : AodvNeigh) (n : Node) : UInt8 :=
  let load := n.aodvNeighList.foldl
    (fun load y ↦
      if y.ip == x.ip then load + x.loadMetric.load
      else load + y.loadMetric.load * (if hearsOf x y.ip then 1 else 2))
    n.routing.load
  n.aodvNeighList2h.foldl
    (fun load y ↦ load + UInt8.ofNat (y.load.toNat * (if hearsOf x y.ip then 2 else 1) / 2)) load

/-- `wcim_metric`. The outer `none` is the unchecked dereference of the flow
type, the inner one rejects the RREQ. -/
def wcimMetric (x : AodvNeigh) (tos : UInt8) (pathMetric : UInt32) (n : Node) :
    Option (Option UInt32) :=
  if rateUnknown x then some none
  else do
    let flow ← findFlowType tos
    let coefRecv := computeCoef flow.avgSize x.recvRate
    let recvBw : UInt16 :=
      UInt16.ofNat (x.recvRate.toNat * x.etxMetric.toNat * coefRecv.toNat / 100)
    let recvBw : UInt16 :=
      UInt16.ofInt (((recvBw.toNat : ℤ) * (100 - (n.wcimLoad x).toNat)).tdiv 100)
    if recvBw ≤ flow.avgRate then some none
    else some (some (pathMetric + UInt32.ofNat (flow.avgSize.toNat * 8000 / recvBw.toNat)))

end Fbaodv.Model.Node
