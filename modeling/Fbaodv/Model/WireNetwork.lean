import Fbaodv.Model.MessageBytes
import Fbaodv.Model.Network

namespace Fbaodv.Model

open Fbaodv.Foundation

/-- The byte order of the nodes, for which `dtnBroadcast` is written. -/
abbrev hostOrder : ByteOrder := .little

/-- A task in the queue of a node: one of its own, or one that came as a packet
and has its data as bytes. -/
inductive WireTask
  | own (t : Task)
  | packet (t : PacketTask)

namespace WireTask

def type : WireTask → TaskType
  | own t => t.type
  | packet t => .ofCode t.type

/-- The task with its data read as a message. -/
def task : WireTask → Task
  | own t => t
  | packet t => { t.task with data := t.message hostOrder }

/-- The packet that a task came as. -/
def origin : WireTask → Option PacketTask
  | own _ => none
  | packet t => some t

/-- The `switch` of the thread. The outer `none` is a read past the data. -/
def handle : WireTask → Node → Option (Option Node)
  | own t, n => some (n.handle t)
  | packet t, n => t.handle hostOrder n

end WireTask

namespace SkBuff

def udpDest (s : SkBuff) : UInt16 :=
  UInt16.ofNat (ByteOrder.big.get (field s.data (s.udpOffset + 2) 2))

/-- The `i`-th word of what `input_handler` takes for the payload. -/
def word (s : SkBuff) (i : ℕ) : UInt32 :=
  UInt32.ofNat (hostOrder.get (field s.data (startPoint + 4 * i) 4))

/-- The packet as the hook reads its headers, with a message for its payload. -/
def packet (s : SkBuff) (sec usec : UInt32) (m : Option Message) : Packet where
  saddr := s.saddr hostOrder
  daddr := s.daddr hostOrder
  ttl := s.ttl
  udp := s.ipproto == 17 && s.ethPIp
  udpDest := s.udpDest
  ifaAddress := s.ifaAddress
  sec := sec
  usec := usec
  message := m
  words := (s.word 0, s.word 1, s.word 2, s.word 3)

end SkBuff

/-- A node whose received packets and transmissions are bytes. Its tasks are
those of `queue`; the tasks of `core` are not looked at. -/
structure WireNode where
  core : Node
  queue : ClassQueue WireTask
  wire : List (Sent × Bytes)

/-- What can happen to a node, with the packet that comes in as bytes. -/
inductive WireEvent
  | wait (ms : ℕ)
  | input (s : SkBuff) (sec usec : UInt32)
  | output (skb : Skb)
  | signal
  | thread

namespace WireNode

/-- The node with its queue read as messages. -/
def view (w : WireNode) : Node := { w.core with tasks := w.queue.map WireTask.task }

def isControl (t : WireTask) : Bool := isControlTask t.type

def queueTask (t : WireTask) (w : WireNode) : WireNode :=
  { w with queue := w.queue.pushBack isControl t }

/-- `insert_task`, which allocates the task and the copy of the payload. -/
def insertTask (s : SkBuff) (type : UInt8) (payload : Bytes) (w : WireNode) : WireNode :=
  let (ok₁, n) := w.core.alloc
  if !ok₁ then { w with core := n }
  else
    let (ok₂, n) := n.alloc
    if !ok₂ then { w with core := n }
    else
      { w with core := n }.queueTask (.packet (s.insertTask hostOrder n.now type payload))

/-- `input_handler`. -/
def input (s : SkBuff) (sec usec : UInt32) (w : WireNode) : WireNode :=
  let w := { w with core := w.core.dtnInput (s.packet sec usec none) }
  if s.udpDest == dtnHelloPort && s.daddr hostOrder == dtnBroadcast &&
      w.core.cfg.dtnBlacklistIp.contains (s.saddr hostOrder) then w
  else
    match (s.inputHandler hostOrder sec usec).2 with
    | none => w
    | some (type, payload) => w.insertTask s type payload

/-- `output_handler` with the queue for `NF_QUEUE`; a packet that finds no route
puts a task at the front. -/
def output (skb : Skb) (w : WireNode) : Option WireNode := do
  let (verdict, n) ← w.core.outputHandler skb
  if verdict = .queue then
    some { w with
      core := { n with packets := (n.packets.ipqEnqueue skb).2 }
      queue := w.queue.pushFront isControl (.own
        { createTask .genRreq n.now with
          srcIp := n.flowAddr skb.saddr, dstIp := n.flowAddr skb.daddr, tos := skb.tos }) }
  else some { w with core := n }

/-- `timer_queue_signal`. -/
def signal (w : WireNode) : WireNode :=
  let (due, timers) :=
    timerQueueSignal w.core.cfg.hz w.core.now { w.core.timers with aodvTimer := none }
  { w with
    core := { w.core with timers := timers }
    queue := due.foldl (fun q t ↦ q.pushBack isControl (.own t)) w.queue }

/-- The bytes that go with a transmission made in the handling of a packet. What
goes to DTN is left open. -/
def Wired (t : Option PacketTask) : Sent → Bytes → Prop
  | .broadcast _ m, b | .unicast _ _ m, b => SentAs hostOrder t m b
  | .toDtn .., _ => True

/-- One step of a node. A handler that reads past its data or faults does not
come to its end. -/
inductive Step (w : WireNode) : WireEvent → WireNode → Prop
  | wait (ms : ℕ) : Step w (.wait ms) { w with core := { w.core with now := w.core.now + ms } }
  | input (s : SkBuff) (sec usec : UInt32) : Step w (.input s sec usec) (w.input s sec usec)
  | output {skb : Skb} {w' : WireNode} (h : w.output skb = some w') : Step w (.output skb) w'
  | signal : Step w .signal w.signal
  | idle {q : ClassQueue WireTask} (hpop : w.queue.pop = (none, q)) : Step w .thread w
  | handle {t : WireTask} {q : ClassQueue WireTask} {n : Node} {new : List (Sent × Bytes)}
      (hpop : w.queue.pop = (some t, q))
      (h : t.handle { w with queue := q }.view = some (some n))
      (hsent : n.sent = w.core.sent ++ new.map Prod.fst)
      (hwired : ∀ x ∈ new, Wired t.origin x.1 x.2) :
      Step w .thread { core := n, queue := q, wire := w.wire ++ new }

/-- A node after `init_fbaodv_module`. -/
def init (cfg : Config) (env : Node.Environment) : WireNode :=
  { core := Node.init cfg env, queue := .empty, wire := [] }

end WireNode

abbrev WireNetwork := Ip → WireNode

namespace WireNetwork

def view (net : WireNetwork) : Network := fun a ↦ (net a).view

/-- A packet that can reach the node `a`. One for the AODV port carries the
bytes that another node has sent, behind an IP header without options. -/
def Arrives (net : WireNetwork) (a : Ip) (s : SkBuff) : Prop :=
  s.ifaAddress = a ∧
    ((s.packet 0 0 none).isAodv →
      ∃ x ∈ (net (s.saddr hostOrder)).wire, ∃ m, x.1.reaches a s.ttl m ∧
        ∃ header, header.length = SkBuff.startPoint ∧ s.data = header ++ x.2)

inductive Step (net : WireNetwork) : WireNetwork → Prop
  | node (a : Ip) (e : WireEvent) (w : WireNode) (ha : a ≠ gNullIp)
      (hin : ∀ s sec usec, e = .input s sec usec → net.Arrives a s) (h : (net a).Step e w) :
      Step net (Function.update net a w)

def Initial (net : WireNetwork) : Prop :=
  ∃ (cfg : Ip → Config) (env : Ip → Node.Environment),
    (∀ a, (cfg a).gMeshIp = a) ∧ ∀ a, net a = WireNode.init (cfg a) (env a)

end WireNetwork

end Fbaodv.Model
