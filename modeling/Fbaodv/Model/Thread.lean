import Fbaodv.Model.PacketHooks

namespace Fbaodv.Model.Node

open Fbaodv.Foundation

/-- `flush_aodv_route_table` with its timer. -/
def flushRoutes (n : Node) : Node :=
  let n := { n with routing := n.routing.flushAodvRouteTable n.cfg n.now }
  (n.insertTimer .cleanup helloInterval n.cfg.gMeshIp).updateTimers

/-- The `switch` of the thread `aodv`. A task of a receiving type carries the
message of that type. -/
def handle (t : Task) (n : Node) : Option Node :=
  match t.type, t.data with
  | .dtnHello, _ => n.genRreq n.cfg.gMeshIp n.cfg.dtnHelloIp t.tos
  | .recvRrep, some (.rrep m) => n.recvRrep t m
  | .recvRerr, some (.rerr m) => n.recvRerr t m
  | .recvHello, some (.hello m) => n.recvHello t m
  | .recvRcvp, some (.rcvp m) => some (n.recvRcvp m)
  | .recvRrdp, some (.rrdp m) => some (n.recvRrdp t m).2
  | .cleanup, _ => some n.flushRoutes
  | .hello, _ => some n.genHello
  | .st, _ => n.genStRreq
  | .gwCleanup, _ =>
    some (n.updateGwLifetimes.insertTimer .gwCleanup activeGwrouteTimeout n.cfg.gMeshIp).updateTimers
  | .neighbor, _ => n.deleteAodvNeigh t.srcIp
  | .routeCleanup, _ => some n.flushRoutes
  | .sendEtt, _ => some (n.sendProbe t.dstIp)
  | .recvSEtt, some (.sprobe m) => some (n.recvSprobe t m)
  | .recvLEtt, some (.lprobe m) => n.recvLprobe t m
  | .ettCleanup, _ => (n.findAodvNeigh t.srcIp).bind fun x ↦ n.resetEtt x.ip
  | .neighbor2h, _ => some (n.deleteAodvNeigh2h t.srcIp)
  | .recvRreq, some (.rreq m) => n.recvRreq t m
  | .resendRreq, _ => n.resendRreq t
  | .ettInfo, some (.ettInfo m) => n.recvEttInfo t m
  | .sendRrep, _ => n.genRrep t.srcIp t.dstIp t.tos
  | .recvStrreq, some (.strreq m) => some (n.recvRreqSt t m)
  | .updateLoad, _ => some { n with routing := n.routing.updateMyLoad }
  | .genRreq, _ => n.genRreq t.srcIp t.dstIp t.tos
  | _, _ => some n

/-- One turn of the loop around `get_task`. -/
def threadStep (n : Node) : Option Node :=
  match n.tasks.pop with
  | (none, _) => some n
  | (some t, tasks) => { n with tasks := tasks }.handle t

/-- `timer_queue_signal`, run by the kernel timer, which is then no longer
pending. -/
def signal (n : Node) : Node :=
  let (due, timers) := timerQueueSignal n.cfg.hz n.now { n.timers with aodvTimer := none }
  due.foldl (fun n t ↦ n.queueTask t) { n with timers := timers }

/-- What can happen to a node: time passes, the kernel calls a hook or the
timer, or the thread takes a task. -/
inductive Event
  | wait (ms : ℕ)
  | input (p : Packet)
  | output (skb : Skb)
  | signal
  | thread

def step (n : Node) : Event → Option Node
  | .wait ms => some { n with now := n.now + ms }
  | .input p => some (n.inputHandler p).2
  | .output skb => (n.sendPacket skb).map Prod.snd
  | .signal => some n.signal
  | .thread => n.threadStep

/-- `g_local_route` after `create_aodv_dev`, whose lifetime is `-1`. -/
def localEntry (cfg : Config) : AodvRoute where
  ptr := 0
  srcIp := cfg.gMeshIp
  dstIp := cfg.gMeshIp
  tos := noTos
  nextHop := cfg.gMeshIp
  lastHop := cfg.gMeshIp
  numHops := 0
  pathMetric := 0
  dstId := 1
  lifetime := 2 ^ 64 - 1
  load := 0
  neighRoute := false
  selfRoute := true
  state := .active

/-- The tables after `create_aodv_dev`. -/
def initRouting (cfg : Config) (kmalloc netlink : Outcomes) (junk : List ℕ) : Routing where
  table := [localEntry cfg]
  srcList := [⟨cfg.gMeshIp, if cfg.gMeshIp = gNullIp then defaultRouteTable else 1, 1⟩]
  kernel := {(localEntry cfg).kernelRoute}
  installed := ∅
  localRoute := 0
  load := 0
  loadSeq := 1
  heap := 1
  freed := []
  kmalloc := kmalloc
  netlink := netlink
  junk := junk

/-- What the kernel will answer, and what its memory holds. -/
structure Environment where
  now : ℕ
  routeMemory : Outcomes
  netlink : Outcomes
  routeJunk : List ℕ
  timerMemory : Outcomes
  packetMemory : Outcomes
  maxlen : ℤ
  memory : Outcomes
  rand : List UInt32
  junk : List Ip

/-- A node after `init_fbaodv_module`. -/
def init (cfg : Config) (env : Environment) : Node :=
  let n : Node :=
    { cfg := cfg
      now := env.now
      routing := initRouting cfg env.routeMemory env.netlink env.routeJunk
      timers := { initTimerQueue with kmalloc := env.timerMemory }
      tasks := ClassQueue.empty
      packets := { PacketQueue.ipqCreateQueue env.maxlen with kmalloc := env.packetMemory }
      aodvNeighList := []
      aodvNeighList2h := []
      brkList := []
      gwList := []
      gDefaultGw := gNullIp
      count := 0
      countSend := 0
      dtnRegister := false
      longitude := 0
      latitude := 0
      sent := []
      kmalloc := env.memory
      rand := env.rand
      junk := env.junk }
  let n := if cfg.gAodvGateway then n.insertTimer .st helloInterval cfg.gMeshIp else n
  let n := n.insertTimer .hello helloInterval cfg.gMeshIp
  let n := n.insertTimer .gwCleanup activeGwrouteTimeout cfg.gMeshIp
  (n.insertTimer .cleanup (helloInterval + helloInterval / 2) cfg.gMeshIp).updateTimers

end Fbaodv.Model.Node
