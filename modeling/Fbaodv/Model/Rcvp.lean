import Fbaodv.Model.Rreq

namespace Fbaodv.Model.Node

def rcvpMessage : UInt32 := 122
def rrdpMessage : UInt32 := 123

/-- The loop of `gen_rcvp` over the links to one destination; it stops when
there is no memory for a message. -/
def genRcvpLoop (dstIp : Ip) : List BrkLink → Node → Node
  | [], n => n
  | x :: l, n =>
    if x.dstIp ≠ dstIp then n
    else if x.srcIp ≠ n.cfg.gMeshIp then
      let (ok, n) := n.alloc
      if !ok then n
      else
        let m : Rcvp := ⟨0, dstIp, x.srcIp, x.lastAvailIp⟩
        let n :=
          if n.dtnRegister then n.send2dtn dtnPort x.srcIp dstIp x.lastAvailIp rcvpMessage else n
        let n := n.sendMessage x.lastHop netDiameter (.rcvp m)
        genRcvpLoop dstIp l { n with brkList := n.brkList.eraseP fun y ↦ y.dstIp == dstIp }
    else
      let n := if n.dtnRegister then n.send2dtn dtnPort x.srcIp dstIp x.lastAvailIp rcvpMessage else n
      genRcvpLoop dstIp l { n with brkList := n.brkList.eraseP fun y ↦ y.dstIp == dstIp }

def genRcvp (dstIp : Ip) (n : Node) : Node :=
  genRcvpLoop dstIp (n.brkList.dropWhile fun x ↦ x.dstIp < dstIp) n

def recvRcvp (m : Rcvp) (n : Node) : Node :=
  let n :=
    if n.dtnRegister then n.send2dtn dtnPort m.srcIp m.dstIp m.lastAvailIp rcvpMessage else n
  match n.findBrkLink m.srcIp m.dstIp with
  | none => n
  | some x =>
    if m.srcIp = n.cfg.gMeshIp then n.removeBrkLink m.srcIp m.dstIp
    else
      let (ok, n) := n.alloc
      if !ok then n
      else
        let m : Rcvp := ⟨m.numHops + 1, m.dstIp, m.srcIp, x.lastAvailIp⟩
        (n.sendMessage x.lastHop netDiameter (.rcvp m)).removeBrkLink m.srcIp m.dstIp

def genRrdp (srcIp dstIp lastHop : Ip) (tos : UInt8) (n : Node) : Node :=
  let (ok, n) := n.alloc
  if !ok then n else n.sendMessage lastHop netDiameter (.rrdp ⟨0, dstIp, srcIp, tos⟩)

/-- `recv_rrdp`, and whether it has freed the message. The thread frees it in any
case, at the source of the route a second time. -/
def recvRrdp (t : Task) (m : Rrdp) (n : Node) : Bool × Node :=
  match n.routing.findAodvRoute m.srcIp m.dstIp m.tos with
  | none => (false, n)
  | some e =>
    if e.nextHop ≠ t.srcIp then (false, n)
    else if !n.replyToRrer e.srcIp then
      if e.state ≠ .invalid then
        (false, n.sendMessage e.lastHop netDiameter (.rrdp { m with numHops := m.numHops + 1 }))
      else (false, n)
    else
      let n := if n.dtnRegister then n.send2dtn dtnPort m.srcIp m.dstIp 0 rrdpMessage else n
      (true, n)

end Fbaodv.Model.Node
