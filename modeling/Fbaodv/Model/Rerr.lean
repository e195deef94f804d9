import Fbaodv.Model.BrkList

namespace Fbaodv.Model.Node

/-- `reply_to_rrer`. -/
def replyToRrer (source : Ip) (n : Node) : Bool :=
  source == n.cfg.gMeshIp || (source == gNullIp && n.cfg.gAodvGateway)

/-- The value of `last_avail_ip` in what a node reports itself. -/
def lastAvail (n : Node) : Ip := if n.dtnRegister then n.cfg.gMeshIp else 0

/-- The code that `send2dtn` receives for an RERR. -/
def rerrMessage : UInt32 := 126

def expireRoute (ptr : ℕ) (n : Node) : Node :=
  { n with routing := n.routing.expireAodvRoute n.now ptr }

/-- What `gen_rerr` does for one route through the broken hop before it expires
it. The second component says whether the loop goes on: it stops when there is
no memory for the message. -/
def genRerrRoute (e : AodvRoute) (n : Node) : Option (Bool × Node) :=
  if !n.replyToRrer e.srcIp then
    if e.state ≠ .invalid then
      let (ok, n) := n.alloc
      if !ok then some (false, n)
      else do
        let m : Rerr :=
          { numHops := 0
            dstIp := e.dstIp
            dstId := e.dstId
            lastAvailIp := n.lastAvail
            srcIp := e.srcIp }
        let n :=
          if n.dtnRegister then n.send2dtn dtnPort e.srcIp e.dstIp n.lastAvail rerrMessage else n
        let n := n.sendMessage e.lastHop netDiameter (.rerr m)
        let n ← n.recordBrkLink e.srcIp e.dstIp e.lastHop n.lastAvail
        some (true, n)
    else some (true, n)
  else do
    let n :=
      if n.dtnRegister then n.send2dtn dtnPort e.srcIp e.dstIp n.lastAvail rerrMessage else n
    let n ← n.recordBrkLink e.srcIp e.dstIp 0 n.lastAvail
    some (true, n)

/-- The loop of `gen_rerr` over the entries that the table had, with the number
of routes expired, or `none` for it when the loop was left early. -/
def genRerrLoop (brkDstIp : Ip) : List AodvRoute → ℕ → Node → Option (Option ℕ × Node)
  | [], expiredRoutes, n => some (some expiredRoutes, n)
  | e :: l, expiredRoutes, n =>
    if e.nextHop = brkDstIp ∧ !e.selfRoute ∧ !e.neighRoute then do
      let (go, n) ← n.genRerrRoute e
      if !go then some (none, n)
      else if e.state ≠ .invalid then genRerrLoop brkDstIp l (expiredRoutes + 1) (n.expireRoute e.ptr)
      else genRerrLoop brkDstIp l expiredRoutes n
    else genRerrLoop brkDstIp l expiredRoutes n

def genRerr (brkDstIp : Ip) (n : Node) : Option Node := do
  let (expiredRoutes, n) ← genRerrLoop brkDstIp n.routing.table 0 n
  match expiredRoutes with
  | none => some n
  | some expiredRoutes =>
    if n.cfg.gRoutingMetric = .wcim ∧ expiredRoutes ≠ 0 then
      some { n with routing := n.routing.updateMyLoad }
    else some n

/-- What `recv_rerr` does for the route that it found before it expires it. -/
def recvRerrRoute (m : Rerr) (firstDtn : Bool) (e : AodvRoute) (n : Node) : Option Node :=
  if !n.replyToRrer e.srcIp then
    if e.state ≠ .invalid then
      let m' : Rerr :=
        { numHops := m.numHops + 1
          dstIp := e.dstIp
          dstId := e.dstId
          lastAvailIp := if firstDtn then n.cfg.gMeshIp else m.lastAvailIp
          srcIp := e.srcIp }
      let n := n.sendMessage e.lastHop netDiameter (.rerr m')
      n.recordBrkLink e.srcIp e.dstIp e.lastHop m'.lastAvailIp
    else some n
  else n.recordBrkLink e.srcIp e.dstIp 0 (if firstDtn then n.cfg.gMeshIp else 0)

/-- `recv_rerr`, on a task that came from `t.srcIp`. -/
def recvRerr (t : Task) (m : Rerr) (n : Node) : Option Node :=
  let firstDtn := n.dtnRegister && m.lastAvailIp == 0
  let n :=
    if n.dtnRegister then
      n.send2dtn dtnPort m.srcIp m.dstIp (if firstDtn then n.cfg.gMeshIp else m.lastAvailIp)
        rerrMessage
    else n
  match n.routing.findAodvRouteById m.dstIp m.dstId with
  | none => some n
  | some e =>
    if e.nextHop ≠ t.srcIp then some n
    else do
      let n ← n.recvRerrRoute m firstDtn e
      if e.state ≠ .invalid then
        let n := n.expireRoute e.ptr
        some (if n.cfg.gRoutingMetric = .wcim then { n with routing := n.routing.updateMyLoad } else n)
      else some n

end Fbaodv.Model.Node
