import Fbaodv.Model.Thread
import Mathlib.Logic.Function.Basic

namespace Fbaodv.Model

/-- The nodes of a network by address. An address at which nothing happens
stands for no node. -/
abbrev Network := Ip → Node

/-- The message, and the TTL it travels with, that reaches the node `b`. -/
def Sent.reaches (b : Ip) (ttl : UInt8) (m : Message) : Sent → Prop
  | .broadcast ttl' m' => ttl' = ttl ∧ m' = m
  | .unicast dstIp ttl' m' => dstIp = b ∧ ttl' = ttl ∧ m' = m
  | .toDtn .. => False

/-- A packet that `packet_in` gets to see. -/
def Packet.isAodv (p : Packet) : Bool := p.udp && p.udpDest == aodvPort && p.ifaAddress != p.saddr

namespace Network

/-- The AODV packets that can reach the node `b`: what another node has sent at
some time. Whether and how often and in which order they arrive is open. -/
def Deliverable (net : Network) (b : Ip) (p : Packet) : Prop :=
  p.ifaAddress = b ∧
    (p.isAodv → ∀ m, p.message = some m → ∃ s ∈ (net p.saddr).sent, s.reaches b p.ttl m)

/-- One node, whose address is that of an interface, takes one step. -/
inductive Step (net : Network) : Network → Prop
  | node (a : Ip) (e : Node.Event) (n : Node) (ha : a ≠ gNullIp)
      (hin : ∀ p, e = .input p → Deliverable net a p) (h : (net a).step e = some n) :
      Step net (Function.update net a n)

/-- Every node is just initialised and has the address under which it stands. -/
def Initial (net : Network) : Prop :=
  ∃ (cfg : Ip → Config) (env : Ip → Node.Environment),
    (∀ a, (cfg a).gMeshIp = a) ∧ ∀ a, net a = Node.init (cfg a) (env a)

end Network

end Fbaodv.Model
