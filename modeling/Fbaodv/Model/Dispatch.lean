import Fbaodv.Model.Thread
import Fbaodv.Model.Wire

namespace Fbaodv.Model

open Fbaodv.Foundation

/-- What the thread's `switch` makes of a number. -/
def TaskType.ofCode (code : UInt8) : TaskType :=
  match code.toNat with
  | 102 => .hello
  | 103 => .neighbor
  | 104 => .cleanup
  | 105 => .routeCleanup
  | 106 => .st
  | 107 => .gwCleanup
  | 109 => .sendEtt
  | 110 => .recvSEtt
  | 111 => .recvLEtt
  | 112 => .ettCleanup
  | 113 => .neighbor2h
  | 116 => .recvRreq
  | 119 => .resendRreq
  | 121 => .dtnHello
  | 122 => .recvRcvp
  | 123 => .recvRrdp
  | 124 => .ettInfo
  | 125 => .sendRrep
  | 126 => .recvRerr
  | 128 => .recvStrreq
  | 129 => .recvHello
  | 130 => .recvRrep
  | 131 => .updateLoad
  | 132 => .genRreq
  | code => .undefined code

/-- The types whose handlers are given the data of the task. -/
def TaskType.receives : TaskType → Bool
  | .recvRrep | .recvRerr | .recvHello | .recvRcvp | .recvRrdp | .recvSEtt | .recvLEtt | .recvRreq
  | .ettInfo | .recvStrreq => true
  | _ => false

/-- A task that `insert_task` made, with its data as bytes. -/
structure PacketTask where
  type : UInt8
  time : ℕ
  srcIp : Ip
  dstIp : Ip
  ttl : UInt8
  dataLen : ℕ
  data : Bytes

namespace SkBuff

def daddr (o : ByteOrder) (s : SkBuff) : Ip := UInt32.ofNat (o.get (field s.data 16 4))

def ttl (s : SkBuff) : UInt8 := byteAt s.data 8

/-- `insert_task`, where `payload` is what `packet_in` left of the payload and
the rest of the buffer. -/
def insertTask (o : ByteOrder) (now : ℕ) (type : UInt8) (payload : Bytes) (s : SkBuff) :
    PacketTask :=
  let dataLen := (s.data.length - startPoint) % 2 ^ 32
  { type := type
    time := now
    srcIp := s.saddr o
    dstIp := s.daddr o
    ttl := s.ttl
    dataLen := dataLen
    data := payload.take dataLen }

/-- The task that `packet_in` queues when there is memory for it. -/
def packetTask (o : ByteOrder) (now : ℕ) (sec usec : UInt32) (s : SkBuff) : Option PacketTask :=
  (s.packetIn o sec usec).2.map fun (type, payload) ↦ s.insertTask o now type payload

end SkBuff

namespace PacketTask

def task (t : PacketTask) : Task :=
  { createTask (.ofCode t.type) t.time with
    dstIp := t.dstIp
    srcIp := t.srcIp
    ttl := t.ttl }

section Reads

variable (o : ByteOrder) (t : PacketTask)

/-- A read of `k` bytes of the data, `none` where it passes `data_len`. -/
def read (offset k : ℕ) : Option Bytes :=
  if offset + k ≤ t.dataLen then some (field t.data offset k) else none

def u8 (offset : ℕ) : Option UInt8 := (t.read offset 1).map fun l ↦ byteAt l 0

def u16 (offset : ℕ) : Option UInt16 := (t.read offset 2).map fun l ↦ UInt16.ofNat (o.get l)

def u32 (offset : ℕ) : Option UInt32 := (t.read offset 4).map fun l ↦ UInt32.ofNat (o.get l)

/-- The fields of an RREQ. Here and below a field that the handler converts to
host byte order is read as `big`. -/
def readRreq : Option Rreq := do
  let tos ← t.u8 2
  let numHops ← t.u8 3
  let gateway ← t.u32 o 4
  let dstIp ← t.u32 o 8
  let srcIp ← t.u32 o 12
  let dstId ← t.u32 .big 16
  let pathMetric ← t.u32 .big 20
  let dttl ← t.u8 24
  some ⟨tos, numHops, gateway, dstIp, srcIp, dstId, pathMetric, dttl⟩

def readRrep : Option Rrep := do
  let tos ← t.u8 2
  let numHops ← t.u8 3
  let dstIp ← t.u32 o 4
  let srcIp ← t.u32 o 8
  let dstId ← t.u32 .big 12
  let gateway ← t.u32 o 16
  let pathMetric ← t.u32 .big 20
  let srcId ← t.u32 .big 24
  let dttl ← t.u8 28
  let x ← t.u32 o 32
  let y ← t.u32 o 36
  some ⟨tos, numHops, dstIp, srcIp, dstId, gateway, pathMetric, srcId, dttl, x, y⟩

def readRerr : Option Rerr := do
  let numHops ← t.u8 1
  let dstIp ← t.u32 o 4
  let dstId ← t.u32 .big 8
  let lastAvailIp ← t.u32 o 12
  let srcIp ← t.u32 o 16
  some ⟨numHops, dstIp, dstId, lastAvailIp, srcIp⟩

def readRcvp : Option Rcvp := do
  let numHops ← t.u8 1
  let dstIp ← t.u32 o 4
  let srcIp ← t.u32 o 12
  let lastAvailIp ← t.u32 o 16
  some ⟨numHops, dstIp, srcIp, lastAvailIp⟩

def readRrdp : Option Rrdp := do
  let numHops ← t.u8 1
  let dstIp ← t.u32 o 4
  let srcIp ← t.u32 o 8
  let tos ← t.u8 12
  some ⟨numHops, dstIp, srcIp, tos⟩

def readRreqSt : Option RreqSt := do
  let numHops ← t.u8 3
  let gwIp ← t.u32 o 4
  let dstId ← t.u32 .big 8
  let pathMetric ← t.u32 .big 12
  some ⟨numHops, gwIp, dstId, pathMetric⟩

def readSProbe : Option SProbe := do
  let nProbe ← t.u8 4
  let dstIp ← t.u32 o 8
  let srcIp ← t.u32 o 12
  let sec ← t.u32 o 16
  let usec ← t.u32 o 20
  some ⟨nProbe, dstIp, srcIp, sec, usec⟩

def readLProbe : Option LProbe := do
  let nProbe ← t.u8 1
  let myRate ← t.u16 .big 2
  let dstIp ← t.u32 o 4
  let srcIp ← t.u32 o 8
  let sec ← t.u32 o 12
  let usec ← t.u32 o 16
  let lastMeasDelay ← t.u32 .big 20
  some ⟨nProbe, myRate, dstIp, srcIp, sec, usec, lastMeasDelay⟩

def readEttInfo : Option EttInfo := do
  let fixedRate ← t.u8 1
  let myRate ← t.u16 .big 2
  let lastMeasDelay ← t.u32 .big 4
  some ⟨fixedRate, myRate, lastMeasDelay⟩

/-- The header of a HELLO, without its extensions. -/
def readHello : Option Hello := do
  let neighCount ← t.u8 2
  let load ← t.u8 5
  let loadSeq ← t.u16 o 6
  some ⟨neighCount, load, loadSeq, []⟩

/-- `*tmp_hello_extension`, with the pointer at an offset of the data. -/
def readExtension (offset : ℕ) : Option HelloExtension := do
  let ip ← t.u32 o offset
  let count ← t.u8 (offset + 4)
  let load ← t.u8 (offset + 5)
  let loadSeq ← t.u16 o (offset + 6)
  some ⟨ip, count, load, loadSeq⟩

/-- The loop of `recv_hello` with so many turns left and
`tmp_hello_extension` at an offset of the data. -/
def walkExtensions (orig : Ip) (m : Hello) : ℕ → ℕ → Node → Option Node
  | 0, _, n => some n
  | left + 1, offset, n => do
    let ext ← t.readExtension o offset
    if ext.ip = n.cfg.gMeshIp then
      let n := n.modifyNeigh orig fun x ↦ { x with etx := { x.etx with sendEtx := ext.count } }
      if n.cfg.gRoutingMetric = .ett then some n
      else walkExtensions orig m left (offset + sizeofHelloExtension) n
    else
      walkExtensions orig m left (offset + sizeofHelloExtension)
        (if n.cfg.gRoutingMetric = .wcim then n.recvHelloExtension orig m ext else n)

/-- The part of `recv_hello` that reads the data. In hop count mode it returns
before. -/
def helloFromNeigh (ip : Ip) (n : Node) : Option Node :=
  let n := n.updateNeighLifetime ip
  if n.cfg.gRoutingMetric = .hops then some n
  else do
    let n := n.modifyNeigh ip fun x ↦ { x with etx := { x.etx with count := x.etx.count + 1 } }
    let m ← t.readHello o
    let n :=
      if n.cfg.gRoutingMetric = .wcim then
        n.modifyNeigh ip (Node.updateNeighLoad m.load m.loadSeq)
      else n
    t.walkExtensions o ip m m.neighCount.toNat sizeofHello n

/-- `recv_hello` on the bytes. The outer `none` is a read past `data_len`, the
inner one a fault of the handler itself. -/
def recvHello (n : Node) : Option (Option Node) :=
  if n.cfg.aodvBlacklistIp.contains t.srcIp then some (some n)
  else
    match n.findAodvNeigh t.srcIp with
    | some _ => (t.helloFromNeigh o t.srcIp n).map some
    | none =>
      match n.newHelloNeigh t.srcIp with
      | none => some none
      | some (ok, n) => if ok then (t.helloFromNeigh o t.srcIp n).map some else some (some n)

/-- A handler that takes its message from the fields of one struct and may send
on as many bytes of the data as the struct has. -/
def receive {α : Type} (message : Option α) (sentOn : ℕ) (handler : α → Option Node) :
    Option (Option Node) := do
  let m ← message
  let _ ← t.read 0 sentOn
  some (handler m)

/-- The message in the data, by the type of the task. -/
def message : Option Message :=
  match TaskType.ofCode t.type with
  | .recvRrep => (t.readRrep o).map .rrep
  | .recvRerr => (t.readRerr o).map .rerr
  | .recvHello => some (.hello (Hello.ofBytes o t.data))
  | .recvRcvp => (t.readRcvp o).map .rcvp
  | .recvRrdp => (t.readRrdp o).map .rrdp
  | .recvSEtt => (t.readSProbe o).map .sprobe
  | .recvLEtt => (t.readLProbe o).map .lprobe
  | .recvRreq => (t.readRreq o).map .rreq
  | .ettInfo => t.readEttInfo.map .ettInfo
  | .recvStrreq => (t.readRreqSt o).map .strreq
  | _ => none

/-- The `switch` of the thread on a task that came as a packet. The cases that
receive nothing do not touch the data. -/
def handle (n : Node) : Option (Option Node) :=
  match TaskType.ofCode t.type with
  | .recvRrep => t.receive (t.readRrep o) sizeofRrep (n.recvRrep t.task)
  | .recvRerr => t.receive (t.readRerr o) sizeofRerr (n.recvRerr t.task)
  | .recvHello => t.recvHello o n
  | .recvRcvp => t.receive (t.readRcvp o) 0 fun m ↦ some (n.recvRcvp m)
  | .recvRrdp => t.receive (t.readRrdp o) sizeofRrdp fun m ↦ some (n.recvRrdp t.task m).2
  | .recvSEtt => t.receive (t.readSProbe o) 0 fun m ↦ some (n.recvSprobe t.task m)
  | .recvLEtt => t.receive (t.readLProbe o) 0 (n.recvLprobe t.task)
  | .recvRreq => t.receive (t.readRreq o) sizeofRreq (n.recvRreq t.task)
  | .ettInfo => t.receive t.readEttInfo 0 (n.recvEttInfo t.task)
  | .recvStrreq => t.receive (t.readRreqSt o) sizeofRreqSt fun m ↦ some (n.recvRreqSt t.task m)
  | _ => some (n.handle t.task)

end Reads

end PacketTask

end Fbaodv.Model
