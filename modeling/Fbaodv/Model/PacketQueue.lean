import Fbaodv.Model.Types

namespace Fbaodv.Model

/-- A data packet: its identity and the header fields that the output hook and
the packet queue read. -/
structure Skb where
  id : ℕ
  saddr : Ip
  daddr : Ip
  tos : UInt8
  udpDest : UInt16
  deriving DecidableEq

inductive Verdict
  | drop
  | accept
  | queue
  deriving DecidableEq

/-- `ipq_queue_element` with its `rt_info`. -/
structure IpqElement where
  skb : Skb
  tos : UInt8
  daddr : Ip
  saddr : Ip
  deriving DecidableEq

/-- The queue of `packet_queue.c`, oldest packet first, and the packets that
were given back to netfilter. -/
structure PacketQueue where
  list : List IpqElement
  len : ℤ
  maxlen : ℤ
  flushing : Bool
  terminate : Bool
  reinjected : List (Skb × Verdict)
  kmalloc : Outcomes

namespace PacketQueue

def ipqCreateQueue (maxlen : ℤ) : PacketQueue where
  list := []
  len := 0
  maxlen := maxlen
  flushing := false
  terminate := false
  reinjected := []
  kmalloc := []

/-- The element that `ipq_enqueue` builds for a packet of the `POST_ROUTING`
hook. -/
def ipqElement (skb : Skb) : IpqElement where
  skb := skb
  tos := skb.tos
  daddr := skb.daddr
  saddr := skb.saddr

def ipqEnqueue (skb : Skb) (q : PacketQueue) : Bool × PacketQueue :=
  let ok := q.kmalloc.next
  let q := { q with kmalloc := q.kmalloc.rest }
  if !ok then (false, q)
  else if q.len ≥ q.maxlen then (false, q)
  else if q.flushing || q.terminate then (false, q)
  else (true, { q with list := q.list ++ [ipqElement skb], len := q.len + 1 })

def ipCmp (srcIp dstIp : Ip) (tos : UInt8) (e : IpqElement) : Bool :=
  e.saddr == srcIp && e.daddr == dstIp && e.tos == tos

/-- `ipq_dequeue`, which takes the oldest element that `cmp` accepts. -/
def ipqDequeue (cmp : IpqElement → Bool) (q : PacketQueue) : Option (IpqElement × PacketQueue) :=
  (q.list.find? cmp).map fun e ↦ (e, { q with list := q.list.eraseP cmp, len := q.len - 1 })

/-- The loop that dequeues until no element matches, and gives each packet back
with the verdict. -/
def reinjectAll (cmp : IpqElement → Bool) (verdict : Verdict) (q : PacketQueue) : PacketQueue :=
  let hits := q.list.filter cmp
  { q with
    list := q.list.filter fun e ↦ !cmp e
    len := q.len - hits.length
    reinjected := q.reinjected ++ hits.map fun e ↦ (e.skb, verdict) }

def ipqSendIp (srcIp dstIp : Ip) (tos : UInt8) (q : PacketQueue) : PacketQueue :=
  q.reinjectAll (ipCmp srcIp dstIp tos) .accept

def ipqDropIp (srcIp dstIp : Ip) (tos : UInt8) (q : PacketQueue) : PacketQueue :=
  q.reinjectAll (ipCmp srcIp dstIp tos) .drop

/-- The loop itself, for as many packets as it has turns. -/
def reinjectLoop (cmp : IpqElement → Bool) (verdict : Verdict) :
    ℕ → PacketQueue → Option PacketQueue
  | 0, q => if (q.ipqDequeue cmp).isSome then none else some q
  | turns + 1, q =>
    match q.ipqDequeue cmp with
    | none => some q
    | some (e, q) =>
      reinjectLoop cmp verdict turns { q with reinjected := q.reinjected ++ [(e.skb, verdict)] }

/-- The devices that netfilter notes for a packet, by their `ifindex`. -/
structure Devices where
  indev : Skb → Option UInt32
  outdev : Skb → Option UInt32

def devCmp (dev : Devices) (ifindex : UInt32) (e : IpqElement) : Bool :=
  dev.indev e.skb == some ifindex || dev.outdev e.skb == some ifindex

def ipqDevDrop (dev : Devices) (ifindex : UInt32) (turns : ℕ) (q : PacketQueue) :
    Option PacketQueue :=
  q.reinjectLoop (devCmp dev ifindex) .drop turns

def ipqFlush (turns : ℕ) (q : PacketQueue) : Option PacketQueue := do
  let q ← { q with flushing := true }.reinjectLoop (fun _ ↦ true) .drop turns
  some { q with flushing := false }

/-- `reinjectAll` is the loop over `ipq_dequeue`. -/
theorem reinjectAll_step (cmp : IpqElement → Bool) (verdict : Verdict) (q : PacketQueue) :
    q.reinjectAll cmp verdict =
      match q.ipqDequeue cmp with
      | none => q
      | some (e, q') =>
        { q' with reinjected := q'.reinjected ++ [(e.skb, verdict)] }.reinjectAll cmp verdict := by
  cases h : q.list.find? cmp with
  | none =>
    have hnone : ∀ e ∈ q.list, ¬ cmp e = true := by simpa using List.find?_eq_none.mp h
    have hkeep : (q.list.filter fun e ↦ !cmp e) = q.list :=
      List.filter_eq_self.mpr fun e he ↦ by simp [hnone e he]
    simp [reinjectAll, ipqDequeue, h, hkeep, List.filter_eq_nil_iff.mpr hnone]
  | some e =>
    obtain ⟨he, l₁, l₂, hl, hl₁⟩ := List.find?_eq_some_iff_append.mp h
    have hnone : ∀ x ∈ l₁, cmp x = false := fun x hx ↦ by simpa using hl₁ x hx
    have hnil : l₁.filter cmp = [] := List.filter_eq_nil_iff.mpr (by simpa using hnone)
    have herase : q.list.eraseP cmp = l₁ ++ l₂ := by
      rw [hl, List.eraseP_append_right _ (by simpa using hnone), List.eraseP_cons_of_pos he]
    simp only [reinjectAll, ipqDequeue, h, Option.map_some, herase]
    simp only [hl, List.filter_append, hnil, List.filter_cons_of_pos he, List.nil_append]
    simp [he]
    omega

end PacketQueue

end Fbaodv.Model
