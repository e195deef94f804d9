import Mathlib.Data.List.Basic
import Mathlib.Data.Nat.Notation
import Mathlib.Data.Int.Notation
import Mathlib.Algebra.Ring.Nat
import Mathlib.Algebra.Ring.Int.Defs

namespace Fbaodv.Model

/-- An IPv4 address as the `u_int32_t` that holds it in network byte order;
all comparisons of the source are on this integer. -/
abbrev Ip := UInt32

def gNullIp : Ip := 0

def gBroadcastIp : Ip := 0xffffffff

def activeRouteTimeout : ℕ := 4800
def brkLinkTimeout : ℕ := 60000
def allowedHelloLoss : ℕ := 3
def helloInterval : ℕ := 1000
def deletePeriod : ℕ := allowedHelloLoss * helloInterval
def netDiameter : UInt8 := 10
def nodeTraversalTime : ℕ := 40
def netTraversalTime : ℕ := 2 * nodeTraversalTime * netDiameter.toNat
def rreqRetries : UInt8 := 2
def dTtl : UInt8 := 15
def stInterval : ℕ := 10000
def activeGwrouteTimeout : ℕ := stInterval * 2 + 1000
def ettInterval : UInt16 := 60000
def ettFastInterval : UInt16 := 20000
def ettProbesMax : ℕ := 10
def ettProbesMin : ℕ := 3
def ettRange : UInt32 := 50
def allowedEttLoss : ℕ := 2
def probePacket : ℕ := 11776
def defaultEttMetric : UInt32 := 1000000
def probePacketSize : ℕ := 61740
def defaultRouteTable : ℕ := 254
def maxRouteTables : ℕ := 252
def neighbor2hTimeout : ℕ := 10000
def rrepTimer : ℕ := 100
def undefinedLoad : UInt8 := 200
def neighTablesize : ℕ := 32
def noTos : UInt8 := 0

def aodvPort : UInt16 := 5002
def dhcp1 : UInt16 := 67
def dhcp2 : UInt16 := 68
def dtnRegisterPort : UInt16 := 9999
def dtnPort : UInt16 := 10000
def getDtnHello : UInt16 := 10001
def reDtnHello : UInt16 := 10002
def dtnLocationPort : UInt16 := 10003
def aodvLocationPort : UInt16 := 10004

/-- `g_routing_metric`. -/
inductive Metric
  | hops
  | ett
  | wcim
  deriving DecidableEq

/-- `route.state` and `brk_link.state`. -/
inductive RouteState
  | invalid
  | replied
  | active
  deriving DecidableEq

/-- The task types of `aodv.h`. A message that is received becomes a task
whose type is the message's own type code; codes that name no task are kept
as `undefined`. -/
inductive TaskType
  | hello
  | neighbor
  | cleanup
  | routeCleanup
  | st
  | gwCleanup
  | sendEtt
  | recvSEtt
  | recvLEtt
  | ettCleanup
  | neighbor2h
  | recvRreq
  | resendRreq
  | dtnHello
  | recvRcvp
  | recvRrdp
  | ettInfo
  | sendRrep
  | recvRerr
  | recvStrreq
  | recvHello
  | recvRrep
  | updateLoad
  | genRreq
  | undefined (code : ℕ)
  deriving DecidableEq

def TaskType.code : TaskType → ℕ
  | .hello => 102
  | .neighbor => 103
  | .cleanup => 104
  | .routeCleanup => 105
  | .st => 106
  | .gwCleanup => 107
  | .sendEtt => 109
  | .recvSEtt => 110
  | .recvLEtt => 111
  | .ettCleanup => 112
  | .neighbor2h => 113
  | .recvRreq => 116
  | .resendRreq => 119
  | .dtnHello => 121
  | .recvRcvp => 122
  | .recvRrdp => 123
  | .ettInfo => 124
  | .sendRrep => 125
  | .recvRerr => 126
  | .recvStrreq => 128
  | .recvHello => 129
  | .recvRrep => 130
  | .updateLoad => 131
  | .genRreq => 132
  | .undefined code => code

/-- RREQ message. -/
structure Rreq where
  tos : UInt8
  numHops : UInt8
  gateway : Ip
  dstIp : Ip
  srcIp : Ip
  dstId : UInt32
  pathMetric : UInt32
  dttl : UInt8
  deriving DecidableEq

/-- RREP message. -/
structure Rrep where
  tos : UInt8
  numHops : UInt8
  dstIp : Ip
  srcIp : Ip
  dstId : UInt32
  gateway : Ip
  pathMetric : UInt32
  srcId : UInt32
  dttl : UInt8
  x : UInt32
  y : UInt32
  deriving DecidableEq

/-- RERR message. -/
structure Rerr where
  numHops : UInt8
  dstIp : Ip
  dstId : UInt32
  lastAvailIp : Ip
  srcIp : Ip
  deriving DecidableEq

/-- One neighbour of the sender, as a HELLO lists it. -/
structure HelloExtension where
  ip : Ip
  count : UInt8
  load : UInt8
  loadSeq : UInt16
  deriving DecidableEq

structure Hello where
  neighCount : UInt8
  load : UInt8
  loadSeq : UInt16
  ext : List HelloExtension
  deriving DecidableEq

/-- Recovery path message. -/
structure Rcvp where
  numHops : UInt8
  dstIp : Ip
  srcIp : Ip
  lastAvailIp : Ip
  deriving DecidableEq

/-- Route redirection message. -/
structure Rrdp where
  numHops : UInt8
  dstIp : Ip
  srcIp : Ip
  tos : UInt8
  deriving DecidableEq

structure RreqSt where
  numHops : UInt8
  gwIp : Ip
  dstId : UInt32
  pathMetric : UInt32
  deriving DecidableEq

/-- Small probe; `sec` and `usec` are the arrival time, which the receiver
writes into the packet. -/
structure SProbe where
  nProbe : UInt8
  dstIp : Ip
  srcIp : Ip
  sec : UInt32
  usec : UInt32
  deriving DecidableEq

structure LProbe where
  nProbe : UInt8
  myRate : UInt16
  dstIp : Ip
  srcIp : Ip
  sec : UInt32
  usec : UInt32
  lastMeasDelay : UInt32
  deriving DecidableEq

structure EttInfo where
  fixedRate : UInt8
  myRate : UInt16
  lastMeasDelay : UInt32
  deriving DecidableEq

/-- The AODV payloads, with their multi-byte fields in host byte order. -/
inductive Message
  | rreq (m : Rreq)
  | rrep (m : Rrep)
  | rerr (m : Rerr)
  | hello (m : Hello)
  | rcvp (m : Rcvp)
  | rrdp (m : Rrdp)
  | strreq (m : RreqSt)
  | sprobe (m : SProbe)
  | lprobe (m : LProbe)
  | ettInfo (m : EttInfo)
  deriving DecidableEq

/-- `struct _task` without its queue links. -/
structure Task where
  type : TaskType
  time : ℕ
  dstIp : Ip
  srcIp : Ip
  ttl : UInt8
  retries : UInt16
  tos : UInt8
  data : Option Message
  deriving DecidableEq

/-- `create_task` once the allocation has succeeded. -/
def createTask (type : TaskType) (now : ℕ) : Task where
  type := type
  time := now
  dstIp := 0
  srcIp := 0
  ttl := 0
  retries := 0
  tos := 0
  data := none

/-- Outcomes of the next calls into the kernel, in call order. A call made
after the listed ones succeeds. -/
abbrev Outcomes := List Bool

def Outcomes.next (o : Outcomes) : Bool := o.headD true

def Outcomes.rest (o : Outcomes) : Outcomes := o.tail

/-- The module parameters. -/
structure Config where
  gMeshIp : Ip
  gMeshNetmask : Ip
  gAodvGateway : Bool
  gRoutingMetric : Metric
  gFixedRate : UInt16
  dtnHelloIp : Ip
  aodvBlacklistIp : List Ip
  dtnBlacklistIp : List Ip
  hz : ℕ

/-- `is_internal`. -/
def isInternal (cfg : Config) (destIp : Ip) : Bool :=
  cfg.gMeshIp &&& cfg.gMeshNetmask == destIp &&& cfg.gMeshNetmask

end Fbaodv.Model
