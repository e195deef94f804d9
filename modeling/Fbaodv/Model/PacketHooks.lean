import Fbaodv.Model.StRreq

namespace Fbaodv.Model

/-- A packet that enters the input hook: header fields, the address of the
interface it came in on, its arrival time, its payload as an AODV message and
the first four words of the payload. -/
structure Packet where
  saddr : Ip
  daddr : Ip
  ttl : UInt8
  udp : Bool
  udpDest : UInt16
  ifaAddress : Ip
  sec : UInt32
  usec : UInt32
  message : Option Message
  words : UInt32 × UInt32 × UInt32 × UInt32
  deriving DecidableEq

/-- The type byte of a message as a task type. -/
def Message.taskType : Message → TaskType
  | .rreq _ => .recvRreq
  | .rrep _ => .recvRrep
  | .rerr _ => .recvRerr
  | .hello _ => .recvHello
  | .rcvp _ => .recvRcvp
  | .rrdp _ => .recvRrdp
  | .strreq _ => .recvStrreq
  | .sprobe _ => .recvSEtt
  | .lprobe _ => .recvLEtt
  | .ettInfo _ => .ettInfo

/-- `valid_aodv_packet` on a message of a known type; only a HELLO has a length
that depends on its contents. -/
def validAodvPacket : Message → Bool
  | .hello m => m.ext.length == m.neighCount.toNat
  | _ => true

/-- The arrival time that `valid_aodv_packet` writes into probes. -/
def Message.stamp (sec usec : UInt32) : Message → Message
  | .sprobe m => .sprobe { m with sec := sec, usec := usec }
  | .lprobe m => .lprobe { m with sec := sec, usec := usec }
  | m => m

/-- 192.168.1.255. -/
def dtnBroadcast : Ip := 0xff01a8c0

def dtnHelloPort : UInt16 := 9556

namespace Node

/-- `insert_task`: a task and a copy of the payload. -/
def insertTask (p : Packet) (m : Message) (n : Node) : Node :=
  let (ok₁, n) := n.alloc
  if !ok₁ then n
  else
    let (ok₂, n) := n.alloc
    if !ok₂ then n
    else
      n.queueTask
        { createTask m.taskType n.now with
          srcIp := p.saddr
          dstIp := p.daddr
          ttl := p.ttl
          data := some m }

def packetIn (p : Packet) (n : Node) : Verdict × Node :=
  match p.message with
  | none => (.drop, n)
  | some m =>
    if !validAodvPacket m then (.drop, n) else (.accept, n.insertTask p (m.stamp p.sec p.usec))

/-- What `input_handler` does for the DTN ports. -/
def dtnInput (p : Packet) (n : Node) : Node :=
  let n := if !n.dtnRegister && p.udpDest == dtnRegisterPort then { n with dtnRegister := true } else n
  let n :=
    if n.dtnRegister && p.udpDest == getDtnHello then
      (n.insertTimer .dtnHello 0 n.cfg.gMeshIp).updateTimers
    else n
  if n.dtnRegister && p.udpDest == aodvLocationPort then
    let (srcIp, tos, x, y) := p.words
    let n := { n with longitude := x, latitude := y }
    (n.insertTimerDir .sendRrep rrepTimer 0 srcIp n.cfg.dtnHelloIp tos.toUInt8).updateTimers
  else n

def inputHandler (p : Packet) (n : Node) : Verdict × Node :=
  let n := n.dtnInput p
  if p.udpDest == dtnHelloPort && p.daddr == dtnBroadcast && n.cfg.dtnBlacklistIp.contains p.saddr then
    (.drop, n)
  else if p.udp && p.udpDest == aodvPort && p.ifaAddress != p.saddr then n.packetIn p
  else (.accept, n)

/-- Signalling and broadcast packets, which `output_handler` always accepts. -/
def isSignalling (skb : Skb) : Bool :=
  skb.daddr == gBroadcastIp || skb.daddr >>> 24 == 0xff || skb.udpDest == aodvPort ||
    skb.udpDest == dhcp1 || skb.udpDest == dhcp2

/-- An address of a packet as `output_handler` looks it up: `g_null_ip` stands
for everything outside of the mesh. -/
def flowAddr (n : Node) (ip : Ip) : Ip := if isInternal n.cfg ip then ip else gNullIp

/-- `output_handler`; `none` is the write through the `NULL` that `create_task`
returned. -/
def outputHandler (skb : Skb) (n : Node) : Option (Verdict × Node) :=
  if isSignalling skb then some (.accept, n)
  else
    let destination := n.flowAddr skb.daddr
    let source := n.flowAddr skb.saddr
    if destination = source then some (.accept, n)
    else
      match (n.routing.findAodvRoute source destination skb.tos).filter fun e ↦ e.state ≠ .invalid with
      | none =>
        if source == n.cfg.gMeshIp || (source == gNullIp && n.cfg.gAodvGateway) then
          let (ok, n) := n.alloc
          if !ok then none
          else
            some (.queue, n.queueTaskAtFront
              { createTask .genRreq n.now with
                srcIp := source, dstIp := destination, tos := skb.tos })
        else if destination == gNullIp && n.cfg.gAodvGateway then some (.accept, n)
        else some (.drop, n)
      | some e =>
        let n :=
          if e.state = .replied then
            let n := { n with routing := n.routing.modifyAt e.ptr fun e ↦ { e with state := .active } }
            if n.cfg.gRoutingMetric = .wcim then n.insertTimer .updateLoad 1 n.cfg.gMeshIp else n
          else n
        some (.accept, { n with
          routing := n.routing.modifyAt e.ptr fun e ↦
            { e with lifetime := n.now + activeRouteTimeout } })

/-- A packet on its way out: the hook, and the queue for `NF_QUEUE`. A packet
that the queue refuses is dropped. -/
def sendPacket (skb : Skb) (n : Node) : Option (Verdict × Node) := do
  let (verdict, n) ← n.outputHandler skb
  if verdict = .queue then
    let (ok, q) := n.packets.ipqEnqueue skb
    some (if ok then .queue else .drop, { n with packets := q })
  else some (verdict, n)

end Node

end Fbaodv.Model
