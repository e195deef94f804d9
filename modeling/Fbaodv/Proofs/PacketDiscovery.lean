import Fbaodv.Model.Thread

namespace Fbaodv.Proofs.PacketDiscovery

open Fbaodv.Model Fbaodv.Model.PacketQueue Fbaodv.Model.Node Fbaodv.Foundation

theorem ipqEnqueue_list {skb : Skb} {q q' : PacketQueue} (h : q.ipqEnqueue skb = (true, q')) :
    q'.list = q.list ++ [ipqElement skb] := by
  unfold ipqEnqueue at h
  dsimp only at h
  split at h
  · simp at h
  split at h
  · simp at h
  split at h
  · simp at h
  · simp only [Prod.mk.injEq, true_and] at h
    rw [← h]

/-- A packet that the loop finds leaves the queue with the verdict. -/
theorem reinjectAll_of_cmp {cmp : IpqElement → Bool} {verdict : Verdict} {q : PacketQueue}
    {e : IpqElement} (he : e ∈ q.list) (hcmp : cmp e = true) :
    (e.skb, verdict) ∈ (q.reinjectAll cmp verdict).reinjected ∧
      e ∉ (q.reinjectAll cmp verdict).list := by
  constructor
  · have hit : e ∈ q.list.filter cmp := List.mem_filter.mpr ⟨he, hcmp⟩
    exact List.mem_append_right _ (List.mem_map.mpr ⟨e, hit, rfl⟩)
  · simp [reinjectAll, hcmp]

theorem outputHandler_queue {n n' : Node} {skb : Skb} (h : n.outputHandler skb = some (.queue, n')) :
    n' = n.alloc.2.queueTaskAtFront
      { createTask .genRreq n.now with
        srcIp := n.flowAddr skb.saddr, dstIp := n.flowAddr skb.daddr, tos := skb.tos } := by
  unfold outputHandler at h
  split at h
  · simp at h
  dsimp only at h
  split at h
  · simp at h
  split at h
  · split at h
    · split at h
      · simp at h
      · simp only [Option.some.injEq, Prod.mk.injEq, true_and] at h
        exact h.symm
    · split at h <;> simp at h
  · simp at h

/-- The queued packet and the discovery of a flow belong together: `ipq_enqueue`
stores an element of the flow, and when the route of the flow is installed or
its retries have run out, the packet is given back and gone. -/
structure BelongsTo (srcIp dstIp : Ip) (tos : UInt8) (skb : Skb) : Prop where
  stored : ∀ q q' : PacketQueue, q.ipqEnqueue skb = (true, q') →
    ∃ e, q'.list = q.list ++ [e] ∧ ipCmp srcIp dstIp tos e = true
  accepted : ∀ (n n' : Node) (ptr : ℕ) (e : AodvRoute) (r : Routing),
    ipqElement skb ∈ n.packets.list → e.srcIp = srcIp → e.dstIp = dstIp → e.tos = tos →
    n.routing.rrepAodvRoute n.cfg n.now ptr = some (some e, r) → n.rrepRoute ptr = some n' →
    (skb, .accept) ∈ n'.packets.reinjected ∧ ipqElement skb ∉ n'.packets.list
  dropped : ∀ (n n' : Node) (t : Task),
    ipqElement skb ∈ n.packets.list → t.srcIp = srcIp → t.dstIp = dstIp → t.tos = tos →
    t.retries ≤ 0 → n.resendRreq t = some n' →
    (skb, .drop) ∈ n'.packets.reinjected ∧ ipqElement skb ∉ n'.packets.list

theorem belongsTo_iff (srcIp dstIp : Ip) (tos : UInt8) (skb : Skb) :
    BelongsTo srcIp dstIp tos skb ↔ ipCmp srcIp dstIp tos (ipqElement skb) = true := by
  constructor
  · intro h
    have henq : (ipqCreateQueue 1).ipqEnqueue skb =
        (true, ((ipqCreateQueue 1).ipqEnqueue skb).2) := rfl
    obtain ⟨e, hlist, hcmp⟩ := h.stored _ _ henq
    have he : e = ipqElement skb := by
      rw [ipqEnqueue_list henq] at hlist
      simpa using (List.append_cancel_left hlist).symm
    rwa [he] at hcmp
  · intro hcmp
    refine ⟨fun q q' hq ↦ ⟨_, ipqEnqueue_list hq, hcmp⟩, ?_, ?_⟩
    · intro n n' ptr e r hmem hsrc hdst htos hroute hn'
      subst hsrc hdst htos
      simp only [rrepRoute, hroute] at hn'
      obtain rfl : _ = n' := by simpa using hn'
      exact reinjectAll_of_cmp hmem hcmp
    · intro n n' t hmem hsrc hdst htos hretries hn'
      subst hsrc hdst htos
      simp only [resendRreq, hretries, if_true] at hn'
      obtain rfl : _ = n' := by simpa using hn'
      exact reinjectAll_of_cmp hmem hcmp

theorem flowAddr_eq_iff (n : Node) (ip : Ip) :
    ip = n.flowAddr ip ↔ isInternal n.cfg ip = true ∨ ip = gNullIp := by
  unfold flowAddr
  split <;> simp [*]

/-- A packet that `output_handler` queues belongs to the discovery that it
starts exactly when both of its addresses are their own flow addresses: inside
the mesh, or `g_null_ip` itself. -/
theorem queued_packet_belongs_iff (n n' : Node) (skb : Skb)
    (h : n.outputHandler skb = some (.queue, n')) :
    ∃ t ∈ n'.tasks.elems, t.type = .genRreq ∧ t.srcIp = n.flowAddr skb.saddr ∧
      t.dstIp = n.flowAddr skb.daddr ∧ t.tos = skb.tos ∧
      (BelongsTo t.srcIp t.dstIp t.tos skb ↔
        (isInternal n.cfg skb.saddr = true ∨ skb.saddr = gNullIp) ∧
          (isInternal n.cfg skb.daddr = true ∨ skb.daddr = gNullIp)) := by
  rw [outputHandler_queue h]
  refine ⟨_, ClassQueue.mem_pushFront.mpr (.inl rfl), rfl, rfl, rfl, rfl, ?_⟩
  rw [belongsTo_iff, ← flowAddr_eq_iff, ← flowAddr_eq_iff]
  simp [ipCmp, ipqElement]

/-- A station 192.168.1.1/24 that knows no route. -/
def station : Node :=
  Node.init
    { gMeshIp := 0x0101a8c0
      gMeshNetmask := 0x00ffffff
      gAodvGateway := false
      gRoutingMetric := .hops
      gFixedRate := 0
      dtnHelloIp := 0x7f7f7f7f
      aodvBlacklistIp := []
      dtnBlacklistIp := []
      hz := 100 }
    { now := 0
      routeMemory := []
      netlink := []
      routeJunk := []
      timerMemory := []
      packetMemory := []
      maxlen := 100
      memory := []
      rand := []
      junk := [] }

def packetTo (daddr : Ip) : Skb where
  id := 0
  saddr := 0x0101a8c0
  daddr := daddr
  tos := 0
  udpDest := 80

theorem queued_packet_belongs_iff_station :
    ∃ n', station.outputHandler (packetTo 0x0201a8c0) = some (.queue, n') ∧
      ∃ t ∈ n'.tasks.elems, t.type = .genRreq ∧ BelongsTo t.srcIp t.dstIp t.tos (packetTo 0x0201a8c0) := by
  have h : station.outputHandler (packetTo 0x0201a8c0) = some (.queue, _) := rfl
  obtain ⟨t, ht, htype, -, -, -, hiff⟩ := queued_packet_belongs_iff _ _ _ h
  exact ⟨_, h, t, ht, htype, hiff.mpr (by decide)⟩

/-- The packet of the station to 8.8.8.8 waits under that address, while its
discovery is for `g_null_ip`. -/
theorem packet_to_internet_not_belongs :
    ∃ n', station.outputHandler (packetTo 0x08080808) = some (.queue, n') ∧
      ∀ t ∈ n'.tasks.elems, ¬ BelongsTo t.srcIp t.dstIp t.tos (packetTo 0x08080808) := by
  refine ⟨_, rfl, fun t ht ↦ ?_⟩
  rw [belongsTo_iff]
  revert t
  decide

end Fbaodv.Proofs.PacketDiscovery
