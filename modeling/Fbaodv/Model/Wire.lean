import Fbaodv.Foundation.ByteCodec
import Fbaodv.Model.PacketHooks

namespace Fbaodv.Model

open Fbaodv.Foundation

def byteAt (l : Bytes) (i : ℕ) : UInt8 := l.getD i 0

/-- A received socket buffer: its bytes from the IP header on, whether its
protocol is `ETH_P_IP`, and the address of the interface it came in on. -/
structure SkBuff where
  data : Bytes
  ethPIp : Bool
  ifaAddress : Ip
  deriving DecidableEq

namespace SkBuff

/-- `sizeof(struct udphdr) + sizeof(struct iphdr)`, where `packet_in` and
`insert_task` take the payload to start. -/
def startPoint : ℕ := 8 + 20

/-- Where the UDP header starts, by the `ihl` field of the IP header. -/
def udpOffset (s : SkBuff) : ℕ := 4 * (byteAt s.data 0 &&& 0x0f).toNat

def ipproto (s : SkBuff) : UInt8 := byteAt s.data 9

def saddr (o : ByteOrder) (s : SkBuff) : Ip := UInt32.ofNat (o.get (field s.data 12 4))

end SkBuff

/-- `htons(AODVPORT)` in memory. -/
def aodvPortBytes : Bytes := ByteOrder.big.put 2 aodvPort.toNat

/-- The sizes of the message structs, whose `u_int32_t` fields are aligned. -/
def sizeofRreqSt : ℕ := 20
def sizeofRreq : ℕ := 28
def sizeofRrep : ℕ := 40
def sizeofRerr : ℕ := 20
def sizeofRcvp : ℕ := 20
def sizeofRrdp : ℕ := 16
def sizeofSProbe : ℕ := 120
def sizeofLProbe : ℕ := 1464
def sizeofEttInfo : ℕ := 8
def sizeofHello : ℕ := 8
def sizeofHelloExtension : ℕ := 8

/-- The one length that `valid_aodv_packet` lets a packet of a type have. -/
def validLength (type : UInt8) (data : Bytes) : Option ℕ :=
  match type.toNat with
  | 128 => some sizeofRreqSt
  | 130 => some sizeofRrep
  | 126 => some sizeofRerr
  | 129 => some (sizeofHello + sizeofHelloExtension * (byteAt data 2).toNat)
  | 122 => some sizeofRcvp
  | 123 => some sizeofRrdp
  | 110 => some sizeofSProbe
  | 111 => some sizeofLProbe
  | 116 => some sizeofRreq
  | 124 => some sizeofEttInfo
  | _ => none

def putField (l : Bytes) (offset : ℕ) (v : Bytes) : Bytes :=
  l.take offset ++ (v ++ l.drop (offset + v.length))

/-- The arrival time that `valid_aodv_packet` writes into a probe. -/
def stampProbe (o : ByteOrder) (sec usec : UInt32) (type : UInt8) (data : Bytes) : Bytes :=
  match type.toNat with
  | 110 => putField data 16 (o.put 4 sec.toNat ++ o.put 4 usec.toNat)
  | 111 => putField data 12 (o.put 4 sec.toNat ++ o.put 4 usec.toNat)
  | _ => data

namespace SkBuff

/-- `packet_in`: the verdict, and the type and the data of the task that it
queues. -/
def packetIn (o : ByteOrder) (sec usec : UInt32) (s : SkBuff) : Verdict × Option (UInt8 × Bytes) :=
  let data := s.data.drop startPoint
  let aodvType := byteAt data 0
  if validLength aodvType data = some (s.data.length - startPoint) then
    (.accept, some (aodvType, stampProbe o sec usec aodvType data))
  else (.drop, none)

/-- The AODV part of `input_handler` for a packet that arrives at `sec`, `usec`. -/
def inputHandler (o : ByteOrder) (sec usec : UInt32) (s : SkBuff) :
    Verdict × Option (UInt8 × Bytes) :=
  if s.ipproto = 17 ∧ s.ethPIp ∧ field s.data (s.udpOffset + 2) 2 = aodvPortBytes ∧
      s.ifaAddress ≠ s.saddr o then
    s.packetIn o sec usec
  else (.accept, none)

end SkBuff

/-- The extension that `gen_hello` makes of a neighbour. -/
def AodvNeigh.extension (x : AodvNeigh) : HelloExtension :=
  ⟨x.ip, x.etx.recvEtx, x.loadMetric.load, x.loadMetric.loadSeq⟩

/-- An extension as `send_hello` writes it. -/
def HelloExtension.bytes (o : ByteOrder) (x : HelloExtension) : Bytes :=
  o.put 4 x.ip.toNat ++ (x.count :: x.load :: o.put 2 x.loadSeq.toNat)

def HelloExtension.ofBytes (o : ByteOrder) (l : Bytes) : HelloExtension where
  ip := UInt32.ofNat (o.get (field l 0 4))
  count := byteAt l 4
  load := byteAt l 5
  loadSeq := UInt16.ofNat (o.get (field l 6 2))

/-- What `send_hello` writes. The bit `a` and `reserved2` keep what the buffer
held before. -/
def Hello.bytes (o : ByteOrder) (a reserved2 : UInt8) (m : Hello) : Bytes :=
  129 :: (a &&& 0x80) :: m.neighCount :: 0 :: reserved2 :: m.load ::
    (o.put 2 m.loadSeq.toNat ++ m.ext.flatMap (HelloExtension.bytes o))

/-- `hello_size`, an `int`. -/
def helloSize (numNeigh : ℕ) : ℕ := (sizeofHello + sizeofHelloExtension * numNeigh) % 2 ^ 32

/-- The data that `send_hello` hands to `local_broadcast`. -/
def Hello.sentData (o : ByteOrder) (a reserved2 : UInt8) (m : Hello) : Bytes :=
  (m.bytes o a reserved2).take (helloSize m.ext.length)

/-- The HELLO that `recv_hello` finds in the data of its task, with the
extensions that its loop ranges over. -/
def Hello.ofBytes (o : ByteOrder) (l : Bytes) : Hello where
  neighCount := byteAt l 2
  load := byteAt l 5
  loadSeq := UInt16.ofNat (o.get (field l 6 2))
  ext := readRecords (HelloExtension.ofBytes o) sizeofHelloExtension (byteAt l 2).toNat
    (l.drop sizeofHello)

end Fbaodv.Model
