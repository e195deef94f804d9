import Fbaodv.Model.Routing
import Fbaodv.Model.TaskQueue
import Fbaodv.Model.PacketQueue

namespace Fbaodv.Model

open Fbaodv.Foundation

structure EtxParams where
  count : UInt8
  sendEtx : UInt8
  recvEtx : UInt8
  deriving DecidableEq

structure EttParams where
  countRcv : UInt8
  lastCount : UInt8
  ettWindow : UInt8
  sec : UInt64
  usec : UInt64
  measDelay : UInt32
  recvDelays : List UInt32
  reset : UInt8
  interval : UInt16
  fixedRate : UInt16
  deriving DecidableEq

/-- `load_params`; `neighTx` has `NEIGH_TABLESIZE` slots. -/
structure LoadParams where
  loadSeq : UInt16
  load : UInt8
  neighTx : List Ip
  deriving DecidableEq

structure AodvNeigh where
  ip : Ip
  lifetime : ℕ
  etx : EtxParams
  ett : EttParams
  loadMetric : LoadParams
  recvRate : UInt16
  sendRate : UInt16
  etxMetric : UInt8
  deriving DecidableEq

structure AodvNeigh2h where
  ip : Ip
  lifetime : ℕ
  load : UInt8
  loadSeq : UInt16
  deriving DecidableEq

structure BrkLink where
  lifetime : ℕ
  lastHop : Ip
  dstIp : Ip
  srcIp : Ip
  state : RouteState
  lastAvailIp : Ip
  deriving DecidableEq

structure GwEntry where
  ip : Ip
  lifetime : ℕ
  metric : UInt32
  numHops : UInt8
  dstId : UInt32
  deriving DecidableEq

/-- What a node hands to its sockets. -/
inductive Sent
  | broadcast (ttl : UInt8) (m : Message)
  | unicast (dstIp : Ip) (ttl : UInt8) (m : Message)
  | toDtn (port : UInt16) (para₀ para₁ para₂ para₃ : UInt32)
  deriving DecidableEq

/-- The state of one node. `now` is `getcurrtime()`, `rand` what
`get_random_bytes` returns, `junk` what a fresh message buffer holds. -/
structure Node where
  cfg : Config
  now : ℕ
  routing : Routing
  timers : TimerQueue
  tasks : ClassQueue Task
  packets : PacketQueue
  aodvNeighList : List AodvNeigh
  aodvNeighList2h : List AodvNeigh2h
  brkList : List BrkLink
  gwList : List GwEntry
  gDefaultGw : Ip
  count : ℕ
  countSend : UInt8
  dtnRegister : Bool
  longitude : UInt32
  latitude : UInt32
  sent : List Sent
  kmalloc : Outcomes
  rand : List UInt32
  junk : List Ip

namespace Node

/-- One call of `kmalloc` for a message, a task or a list element. -/
def alloc (n : Node) : Bool × Node := (n.kmalloc.next, { n with kmalloc := n.kmalloc.rest })

def getRandom (n : Node) : UInt32 × Node := (n.rand.headD 0, { n with rand := n.rand.tail })

def findAodvNeigh (targetIp : Ip) (n : Node) : Option AodvNeigh :=
  OrderedList.findWhile (fun x ↦ x.ip ≤ targetIp) (fun x ↦ x.ip == targetIp) n.aodvNeighList

def findAodvNeigh2h (targetIp : Ip) (n : Node) : Option AodvNeigh2h :=
  OrderedList.findWhile (fun x ↦ x.ip ≤ targetIp) (fun x ↦ x.ip == targetIp) n.aodvNeighList2h

def modifyNeigh (ip : Ip) (f : AodvNeigh → AodvNeigh) (n : Node) : Node :=
  { n with aodvNeighList := OrderedList.modifyFirst (fun x ↦ x.ip == ip) f n.aodvNeighList }

def modifyNeigh2h (ip : Ip) (f : AodvNeigh2h → AodvNeigh2h) (n : Node) : Node :=
  { n with aodvNeighList2h := OrderedList.modifyFirst (fun x ↦ x.ip == ip) f n.aodvNeighList2h }

def localBroadcast (ttl : UInt8) (m : Message) (n : Node) : Node :=
  if ttl < 1 then n else { n with sent := n.sent ++ [.broadcast ttl m] }

/-- `send_message`, which only sends to neighbours. -/
def sendMessage (dstIp : Ip) (ttl : UInt8) (m : Message) (n : Node) : Node :=
  if ttl = 0 then n
  else if (n.findAodvNeigh dstIp).isNone then n
  else { n with sent := n.sent ++ [.unicast dstIp ttl m] }

def send2dtn (port : UInt16) (para₀ para₁ para₂ para₃ : UInt32) (n : Node) : Node :=
  { n with sent := n.sent ++ [.toDtn port para₀ para₁ para₂ para₃] }

def insertTimer (type : TaskType) (delay : ℕ) (ip : Ip) (n : Node) : Node :=
  { n with timers := insertTimerSimple n.now type delay ip n.timers }

def insertTimerDir (type : TaskType) (delay : ℕ) (retries : UInt8) (srcIp dstIp : Ip) (tos : UInt8)
    (n : Node) : Node :=
  { n with timers := insertTimerDirectional n.now type delay retries srcIp dstIp tos n.timers }

def removeTimer (srcIp dstIp : Ip) (tos : UInt8) (type : TaskType) (n : Node) : Node :=
  { n with timers := deleteTimer srcIp dstIp tos type n.timers }

def updateTimers (n : Node) : Node :=
  { n with timers := updateTimerQueue n.cfg.hz n.now n.timers }

/-- The block headed "Update neighbor timelife" of the receiving handlers. -/
def updateNeighLifetime (ip : Ip) (n : Node) : Node :=
  let n := n.removeTimer ip ip noTos .neighbor
  let n := n.insertTimer .neighbor (helloInterval * (1 + allowedHelloLoss) + 100) ip
  let n := n.updateTimers
  n.modifyNeigh ip fun x ↦
    { x with lifetime := helloInterval * (1 + allowedHelloLoss) + 20 + n.now }

/-- `insert_task_at_front` and the other ways into the task queue. -/
def queueTask (t : Task) (n : Node) : Node :=
  { n with tasks := n.tasks.pushBack (fun t ↦ isControlTask t.type) t }

def queueTaskAtFront (t : Task) (n : Node) : Node :=
  { n with tasks := n.tasks.pushFront (fun t ↦ isControlTask t.type) t }

/-- `g_local_route->dst_id`. -/
def localDstId (n : Node) : Option UInt32 :=
  (n.routing.entryAt n.routing.localRoute).map AodvRoute.dstId

/-- `g_local_route->dst_id = g_local_route->dst_id + 1`. -/
def bumpLocalDstId (n : Node) : Node :=
  { n with
    routing := n.routing.modifyAt n.routing.localRoute fun e ↦ { e with dstId := e.dstId + 1 } }

end Node

end Fbaodv.Model
