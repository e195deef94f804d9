import Fbaodv.Foundation.StructLayout
import Fbaodv.Model.Dispatch

namespace Fbaodv.Model

open Fbaodv.Foundation

def storeU8 (offset : ℕ) (v : UInt8) : Store := ⟨offset, [v]⟩

def storeU16 (o : ByteOrder) (offset : ℕ) (v : UInt16) : Store := ⟨offset, o.put 2 v.toNat⟩

def storeU32 (o : ByteOrder) (offset : ℕ) (v : UInt32) : Store := ⟨offset, o.put 4 v.toNat⟩

section Builders

variable (o : ByteOrder)

/-- What `gen_rreq` and `resend_rreq` store into a fresh buffer. Here and below
a field that goes through `htonl` or `htons` is stored as `big`. Of the flags
only `d` is set. -/
def Rreq.stores (m : Rreq) : List Store :=
  [storeU32 .big 16 m.dstId, storeU32 o 8 m.dstIp, storeU32 o 4 m.gateway, storeU32 o 12 m.srcIp,
    storeU8 0 116, storeU8 3 m.numHops, storeU8 1 0x10, storeU32 .big 20 m.pathMetric,
    storeU8 2 m.tos, storeU8 24 m.dttl]

/-- What `recv_rreq` stores into the data of its task before it passes it on. -/
def Rreq.passStores (m : Rreq) : List Store :=
  [storeU8 3 m.numHops, storeU8 24 m.dttl, storeU32 .big 16 m.dstId, storeU32 .big 20 m.pathMetric]

/-- What `gen_rrep` stores; the gateway keeps what the buffer held. -/
def Rrep.stores (m : Rrep) : List Store :=
  [storeU8 0 130, storeU8 1 0, storeU32 o 8 m.srcIp, storeU32 o 4 m.dstIp, storeU32 .big 12 m.dstId,
    storeU8 3 m.numHops, storeU32 .big 24 m.srcId, storeU8 2 m.tos, storeU32 .big 20 m.pathMetric,
    storeU8 28 m.dttl, storeU32 o 32 m.x, storeU32 o 36 m.y]

def Rrep.passStores (m : Rrep) : List Store :=
  [storeU8 3 m.numHops, storeU8 28 m.dttl, storeU32 .big 12 m.dstId, storeU32 .big 24 m.srcId,
    storeU32 .big 20 m.pathMetric]

def Rerr.stores (m : Rerr) : List Store :=
  [storeU8 0 126, storeU8 3 0, storeU8 2 0, storeU8 1 m.numHops, storeU32 o 4 m.dstIp,
    storeU32 .big 8 m.dstId, storeU32 o 12 m.lastAvailIp, storeU32 o 16 m.srcIp]

/-- What `recv_rerr` stores; it leaves `last_avail_ip` alone unless the node is
the first one with DTN. -/
def Rerr.passStores (firstDtn : Bool) (m : Rerr) : List Store :=
  [storeU8 0 126, storeU8 3 0, storeU8 2 0, storeU8 1 m.numHops, storeU32 o 4 m.dstIp,
    storeU32 .big 8 m.dstId, storeU32 o 16 m.srcIp] ++
    (if firstDtn then [storeU32 o 12 m.lastAvailIp] else [])

/-- What `gen_rcvp` and `recv_rcvp` store, with the destination also as
`dst_id`. -/
def Rcvp.stores (m : Rcvp) : List Store :=
  [storeU32 o 4 m.dstIp, storeU32 .big 8 m.dstIp, storeU32 o 12 m.srcIp, storeU32 o 16 m.lastAvailIp,
    storeU8 0 122, storeU8 1 m.numHops]

def Rrdp.stores (m : Rrdp) : List Store :=
  [storeU8 0 123, storeU8 3 0, storeU8 2 0, storeU8 1 m.numHops, storeU32 o 4 m.dstIp,
    storeU32 o 8 m.srcIp, storeU8 12 m.tos]

def Rrdp.passStores (m : Rrdp) : List Store := [storeU8 1 m.numHops]

/-- What `gen_st_rreq` stores, with the flags `d`, `u` and `reserved`. -/
def RreqSt.stores (m : RreqSt) : List Store :=
  [storeU32 .big 8 m.dstId, storeU32 o 4 m.gwIp, storeU8 0 128, storeU8 3 m.numHops,
    storeU32 .big 12 m.pathMetric, storeU8 1 0x19, storeU8 2 0]

def RreqSt.passStores (m : RreqSt) : List Store :=
  [storeU8 3 m.numHops, storeU32 .big 8 m.dstId, storeU32 .big 12 m.pathMetric]

/-- What `send_probe` stores. The arrival time is left to the receiver. -/
def SProbe.stores (m : SProbe) : List Store :=
  [storeU8 0 110, storeU8 4 m.nProbe, storeU32 o 12 m.srcIp, storeU32 o 8 m.dstIp, storeU16 o 2 0]

def LProbe.stores (m : LProbe) : List Store :=
  [storeU8 0 111, storeU8 1 m.nProbe, storeU32 o 8 m.srcIp, storeU32 o 4 m.dstIp,
    storeU32 .big 20 m.lastMeasDelay, storeU16 .big 2 m.myRate]

def EttInfo.stores (m : EttInfo) : List Store :=
  [storeU8 0 124, storeU8 1 m.fixedRate, storeU16 .big 2 m.myRate, storeU32 .big 4 m.lastMeasDelay]

end Builders

/-- The data that a node hands to its socket for a message. A message of its
own is stored into a fresh buffer, which holds anything before; one that it
passes on is stored into the data of the task `t` that it came with. The size of
a HELLO is an `int`. `send_ett_info` asks for the size of a pointer only, but no
object of `kmalloc` is smaller than the 8 bytes that it stores and sends. -/
inductive SentAs (o : ByteOrder) (t : Option PacketTask) : Message → Bytes → Prop
  | rreq {m : Rreq} {buf : Bytes} (hbuf : buf.length = sizeofRreq) :
      SentAs o t (.rreq m) (storeAll buf (m.stores o))
  | passRreq {m m' : Rreq} {p : PacketTask} (ht : t = some p) (htype : p.type = 116)
      (hm : p.readRreq o = some m)
      (hm' : m' = { m with numHops := m'.numHops, pathMetric := m'.pathMetric, dttl := m'.dttl }) :
      SentAs o t (.rreq m') (storeAll p.data m'.passStores)
  | rrep {m : Rrep} {buf : Bytes} (hbuf : buf.length = sizeofRrep)
      (hgateway : m.gateway = UInt32.ofNat (o.get (field buf 16 4))) :
      SentAs o t (.rrep m) (storeAll buf (m.stores o))
  | passRrep {m m' : Rrep} {p : PacketTask} (ht : t = some p) (htype : p.type = 130)
      (hm : p.readRrep o = some m)
      (hm' : m' = { m with numHops := m'.numHops, dttl := m'.dttl }) :
      SentAs o t (.rrep m') (storeAll p.data m'.passStores)
  | rerr {m : Rerr} {buf : Bytes} (hbuf : buf.length = sizeofRerr) :
      SentAs o t (.rerr m) (storeAll buf (m.stores o))
  | passRerr {m m' : Rerr} {p : PacketTask} (firstDtn : Bool) (ht : t = some p) (htype : p.type = 126)
      (hm : p.readRerr o = some m)
      (hm' : firstDtn = false → m'.lastAvailIp = m.lastAvailIp) :
      SentAs o t (.rerr m') (storeAll p.data (m'.passStores o firstDtn))
  | hello {m : Hello} (a reserved2 : UInt8)
      (hsize : sizeofHello + sizeofHelloExtension * m.ext.length < 2 ^ 31) :
      SentAs o t (.hello m) (m.sentData o a reserved2)
  | rcvp {m : Rcvp} {buf : Bytes} (hbuf : buf.length = sizeofRcvp) :
      SentAs o t (.rcvp m) (storeAll buf (m.stores o))
  | rrdp {m : Rrdp} {buf : Bytes} (hbuf : buf.length = sizeofRrdp) :
      SentAs o t (.rrdp m) (storeAll buf (m.stores o))
  | passRrdp {m m' : Rrdp} {p : PacketTask} (ht : t = some p) (htype : p.type = 123)
      (hm : p.readRrdp o = some m)
      (hm' : m' = { m with numHops := m'.numHops }) :
      SentAs o t (.rrdp m') (storeAll p.data m'.passStores)
  | strreq {m : RreqSt} {buf : Bytes} (hbuf : buf.length = sizeofRreqSt) :
      SentAs o t (.strreq m) (storeAll buf (m.stores o))
  | passStrreq {m m' : RreqSt} {p : PacketTask} (ht : t = some p) (htype : p.type = 128)
      (hm : p.readRreqSt o = some m)
      (hm' : m' = { m with numHops := m'.numHops, pathMetric := m'.pathMetric }) :
      SentAs o t (.strreq m') (storeAll p.data m'.passStores)
  | sprobe {m : SProbe} {buf : Bytes} (hbuf : buf.length = sizeofSProbe) :
      SentAs o t (.sprobe m) (storeAll buf (m.stores o))
  | lprobe {m : LProbe} {buf : Bytes} (hbuf : buf.length = sizeofLProbe) :
      SentAs o t (.lprobe m) (storeAll buf (m.stores o))
  | ettInfo {m : EttInfo} {buf : Bytes} (hbuf : buf.length = sizeofEttInfo) :
      SentAs o t (.ettInfo m) (storeAll buf m.stores)

end Fbaodv.Model
