import Fbaodv.Proofs.PacketDiscovery

namespace Fbaodv.Proofs.QueueConservation

open Fbaodv.Model PacketQueue PacketDiscovery

inductive QueueCall
  | enqueue (skb : Skb)
  | sendIp (srcIp dstIp : Ip) (tos : UInt8)
  | dropIp (srcIp dstIp : Ip) (tos : UInt8)
  | devDrop (ifindex : UInt32)
  | flush

/-- The queue after a call whose loop has as many turns as given. -/
def QueueCall.run (dev : Devices) (turns : ℕ) : QueueCall → PacketQueue → Option PacketQueue
  | .enqueue skb, q => some (q.ipqEnqueue skb).2
  | .sendIp srcIp dstIp tos, q => q.reinjectLoop (ipCmp srcIp dstIp tos) .accept turns
  | .dropIp srcIp dstIp tos, q => q.reinjectLoop (ipCmp srcIp dstIp tos) .drop turns
  | .devDrop ifindex, q => q.ipqDevDrop dev ifindex turns
  | .flush, q => q.ipqFlush turns

/-- The packets that a call takes in. -/
def QueueCall.accepted : QueueCall → PacketQueue → List Skb
  | .enqueue skb, q => if (q.ipqEnqueue skb).1 then [skb] else []
  | _, _ => []

/-- The queue after any calls, with all packets that it took in, in order. -/
inductive Reachable (dev : Devices) (maxlen : ℤ) (memory : Outcomes) :
    List Skb → PacketQueue → Prop
  | create : Reachable dev maxlen memory [] { ipqCreateQueue maxlen with kmalloc := memory }
  | call {l : List Skb} {q q' : PacketQueue} (h : Reachable dev maxlen memory l q) (c : QueueCall)
      (turns : ℕ) (hrun : c.run dev turns q = some q') :
      Reachable dev maxlen memory (l ++ c.accepted q) q'

/-- The length is right, and every packet that was taken in is queued or was
given back. Equal packets are counted; a packet's `id` tells it from others. -/
structure Conserved (maxlen : ℤ) (l : List Skb) (q : PacketQueue) : Prop where
  limit : q.maxlen = maxlen
  len : q.len = q.list.length
  bound : q.len ≤ maxlen
  built : ∀ e ∈ q.list, e = ipqElement e.skb
  order : (q.list.map IpqElement.skb).Sublist l
  count : ∀ skb, l.count skb =
    (q.list.map IpqElement.skb).count skb + (q.reinjected.map Prod.fst).count skb

/-- The packets of a flow are given back in the order of the queue, and the
others stay in theirs. -/
structure Reinjects (srcIp dstIp : Ip) (tos : UInt8) (verdict : Verdict) (q q' : PacketQueue) :
    Prop where
  given : q'.reinjected = q.reinjected ++
    ((q.list.map IpqElement.skb).filter fun p ↦
      p.saddr = srcIp ∧ p.daddr = dstIp ∧ p.tos = tos).map fun p ↦ (p, verdict)
  stay : q'.list.map IpqElement.skb = (q.list.map IpqElement.skb).filter fun p ↦
    ¬(p.saddr = srcIp ∧ p.daddr = dstIp ∧ p.tos = tos)

variable {dev : Devices} {maxlen : ℤ} {memory : Outcomes} {l : List Skb} {q q' : PacketQueue}
  {cmp : IpqElement → Bool} {verdict : Verdict} {turns : ℕ}

section Loop

theorem reinjectLoop_some (h : q.reinjectLoop cmp verdict turns = some q') :
    q' = q.reinjectAll cmp verdict := by
  induction turns generalizing q with
  | zero =>
    rw [reinjectLoop] at h
    rw [reinjectAll_step]
    cases hdeq : q.ipqDequeue cmp with
    | none =>
      simp only [hdeq, Option.isSome_none, Bool.false_eq_true, if_false, Option.some.injEq] at h
      exact h.symm
    | some p => simp [hdeq] at h
  | succ turns ih =>
    rw [reinjectLoop] at h
    rw [reinjectAll_step]
    cases hdeq : q.ipqDequeue cmp with
    | none =>
      simp only [hdeq, Option.some.injEq] at h
      exact h.symm
    | some p =>
      simp only [hdeq] at h
      exact ih h

theorem ipqDequeue_length {e : IpqElement} (h : q.ipqDequeue cmp = some (e, q')) :
    q'.list.length + 1 = q.list.length := by
  obtain ⟨x, hx, heq⟩ := Option.map_eq_some_iff.mp h
  obtain ⟨rfl, rfl⟩ := Prod.mk.inj heq
  have hmem := List.mem_of_find?_eq_some hx
  have hpos := List.length_pos_of_mem hmem
  rw [List.length_eraseP_of_mem hmem (List.find?_some hx)]
  omega

theorem reinjectLoop_ends (h : q.list.length ≤ turns) :
    ∃ q', q.reinjectLoop cmp verdict turns = some q' := by
  induction turns generalizing q with
  | zero =>
    have hnil : q.list = [] := List.length_eq_zero_iff.mp (by omega)
    exact ⟨q, by simp [reinjectLoop, ipqDequeue, hnil]⟩
  | succ turns ih =>
    rw [reinjectLoop]
    cases hdeq : q.ipqDequeue cmp with
    | none => exact ⟨q, rfl⟩
    | some p =>
      have hlength := ipqDequeue_length hdeq
      exact ih (q := { p.2 with reinjected := p.2.reinjected ++ [(p.1.skb, verdict)] })
        (by simp only; omega)

end Loop

section Conservation

theorem Conserved.reinjectAll (h : Conserved maxlen l q) :
    Conserved maxlen l (q.reinjectAll cmp verdict) where
  limit := h.limit
  len := by
    have hsplit := List.length_eq_length_filter_add (l := q.list) cmp
    have hlen := h.len
    simp only [PacketQueue.reinjectAll]
    omega
  bound := by
    have hbound := h.bound
    simp only [PacketQueue.reinjectAll]
    omega
  built := fun e he ↦ h.built e (List.mem_filter.mp he).1
  order := (List.filter_sublist.map _).trans h.order
  count := by
    intro skb
    have hsplit : ((q.list.filter cmp).map IpqElement.skb).count skb +
        ((q.list.filter fun e ↦ !cmp e).map IpqElement.skb).count skb =
          (q.list.map IpqElement.skb).count skb := by
      rw [← List.count_append, ← List.map_append]
      exact ((List.filter_append_perm cmp q.list).map IpqElement.skb).count_eq skb
    have hgiven : ((q.list.filter cmp).map fun e ↦ (e.skb, verdict)).map Prod.fst =
        (q.list.filter cmp).map IpqElement.skb := by
      rw [List.map_map]
      rfl
    rw [h.count skb]
    simp only [PacketQueue.reinjectAll, List.map_append, hgiven, List.count_append]
    omega

theorem Conserved.of_eq (h : Conserved maxlen l q) (hlimit : q'.maxlen = q.maxlen)
    (hlist : q'.list = q.list) (hlen : q'.len = q.len) (hgiven : q'.reinjected = q.reinjected) :
    Conserved maxlen l q' := by
  obtain ⟨hlimit', hlen', hbound, hbuilt, horder, hcount⟩ := h
  refine ⟨hlimit.trans hlimit', ?_, ?_, ?_, ?_, fun skb ↦ ?_⟩
  · rw [hlen, hlist, hlen']
  · rw [hlen]
    exact hbound
  · rw [hlist]
    exact hbuilt
  · rw [hlist]
    exact horder
  · rw [hlist, hgiven]
    exact hcount skb

theorem Conserved.enqueue (h : Conserved maxlen l q) (skb : Skb) :
    Conserved maxlen (l ++ (QueueCall.enqueue skb).accepted q) (q.ipqEnqueue skb).2 := by
  have hrest : Conserved maxlen l { q with kmalloc := q.kmalloc.rest } := h.of_eq rfl rfl rfl rfl
  simp only [QueueCall.accepted, ipqEnqueue]
  split
  · simpa using hrest
  split
  · simpa using hrest
  next hfull =>
  split
  · simpa using hrest
  · have hlimit := h.limit
    have hlen := h.len
    refine ⟨hlimit, ?_, ?_, ?_, ?_, fun p ↦ ?_⟩
    · simp only [List.length_append, List.length_singleton]
      omega
    · simp only at hfull ⊢
      omega
    · intro e he
      rcases List.mem_append.mp he with he | he
      · exact h.built e he
      · rw [List.mem_singleton.mp he]
        rfl
    · rw [List.map_append]
      exact h.order.append (List.Sublist.refl _)
    · have hcount := h.count p
      simp only [if_true, List.map_append, List.count_append]
      simp only [List.map_cons, List.map_nil, ipqElement]
      omega

theorem Conserved.run (h : Conserved maxlen l q) {c : QueueCall}
    (hrun : c.run dev turns q = some q') : Conserved maxlen (l ++ c.accepted q) q' := by
  have hnone : l ++ [] = l := List.append_nil l
  cases c with
  | enqueue skb =>
    cases hrun
    exact h.enqueue skb
  | sendIp => rw [reinjectLoop_some hrun]; exact hnone.symm ▸ h.reinjectAll
  | dropIp => rw [reinjectLoop_some hrun]; exact hnone.symm ▸ h.reinjectAll
  | devDrop => rw [reinjectLoop_some hrun]; exact hnone.symm ▸ h.reinjectAll
  | flush =>
    obtain ⟨q₁, hloop, hq'⟩ := Option.bind_eq_some_iff.mp hrun
    cases hq'
    have hflushing : Conserved maxlen l { q with flushing := true } := h.of_eq rfl rfl rfl rfl
    rw [reinjectLoop_some hloop]
    exact hnone.symm ▸ hflushing.reinjectAll.of_eq rfl rfl rfl rfl

theorem reachable_conserved (hmaxlen : 0 ≤ maxlen) (h : Reachable dev maxlen memory l q) :
    Conserved maxlen l q := by
  induction h with
  | create => exact ⟨rfl, rfl, hmaxlen, by simp [ipqCreateQueue], .slnil, fun _ ↦ rfl⟩
  | call _ c turns hrun ih => exact ih.run hrun

end Conservation

theorem Conserved.reinjects (h : Conserved maxlen l q) {srcIp dstIp : Ip} {tos : UInt8}
    (hloop : q.reinjectLoop (ipCmp srcIp dstIp tos) verdict turns = some q') :
    Reinjects srcIp dstIp tos verdict q q' := by
  have hcmp : ∀ e ∈ q.list, ipCmp srcIp dstIp tos e =
      decide (e.skb.saddr = srcIp ∧ e.skb.daddr = dstIp ∧ e.skb.tos = tos) := by
    intro e he
    rw [h.built e he, Bool.eq_iff_iff, decide_eq_true_iff]
    simp only [ipCmp, ipqElement, Bool.and_eq_true, beq_iff_eq, and_assoc]
  rw [reinjectLoop_some hloop]
  constructor
  · simp only [PacketQueue.reinjectAll]
    rw [List.filter_congr hcmp, List.filter_map, List.map_map]
    rfl
  · simp only [PacketQueue.reinjectAll]
    rw [List.filter_congr fun e he ↦ congrArg (!·) (hcmp e he), List.filter_map]
    simp [Function.comp_def]

/-- The packet queue loses nothing, doubles nothing and keeps its order. -/
theorem queue_conserved (dev : Devices) (maxlen : ℤ) (memory : Outcomes) (l : List Skb)
    (q : PacketQueue) (hmaxlen : 0 ≤ maxlen) (h : Reachable dev maxlen memory l q) :
    Conserved maxlen l q ∧
      (l.Nodup → ∀ skb ∈ l, (q.reinjected.map Prod.fst).count skb =
        if skb ∈ q.list.map IpqElement.skb then 0 else 1) ∧
      (∀ c turns, q.list.length ≤ turns → ∃ q', QueueCall.run dev turns c q = some q') ∧
      ∀ srcIp dstIp tos turns q',
        ((QueueCall.sendIp srcIp dstIp tos).run dev turns q = some q' →
          Reinjects srcIp dstIp tos .accept q q') ∧
        ((QueueCall.dropIp srcIp dstIp tos).run dev turns q = some q' →
          Reinjects srcIp dstIp tos .drop q q') := by
  have hq := reachable_conserved hmaxlen h
  refine ⟨hq, fun hnodup skb hskb ↦ ?_, fun c turns hturns ↦ ?_,
    fun srcIp dstIp tos turns q' ↦ ⟨hq.reinjects, hq.reinjects⟩⟩
  · have hone := List.count_eq_one_of_mem hnodup hskb
    have hcount := hq.count skb
    have hqueued := List.nodup_iff_count_le_one.mp (hnodup.sublist hq.order) skb
    split
    · next hmem =>
      have hpos := List.count_pos_iff.mpr hmem
      omega
    · next hmem =>
      rw [List.count_eq_zero_of_not_mem hmem] at hcount
      omega
  · cases c with
    | enqueue skb => exact ⟨_, rfl⟩
    | sendIp => exact reinjectLoop_ends hturns
    | dropIp => exact reinjectLoop_ends hturns
    | devDrop => exact reinjectLoop_ends hturns
    | flush =>
      obtain ⟨q₁, hloop⟩ : ∃ q₁, PacketQueue.reinjectLoop (fun _ ↦ true) .drop turns
          { q with flushing := true } = some q₁ := reinjectLoop_ends hturns
      exact ⟨{ q₁ with flushing := false }, by simp [QueueCall.run, ipqFlush, hloop]⟩

def laterPacket : Skb := { packetTo 0x0a01a8c0 with id := 1 }

/-- Two packets come, and the flow of the first is served. -/
theorem queue_conserved_served :
    ∃ q, Reachable ⟨fun _ ↦ none, fun _ ↦ none⟩ 1024 [] [packetTo 0x0901a8c0, laterPacket] q ∧
      q.len = 1 ∧ q.reinjected = [(packetTo 0x0901a8c0, .accept)] ∧
      q.list.map IpqElement.skb = [laterPacket] := by
  have hcreate : Reachable ⟨fun _ ↦ none, fun _ ↦ none⟩ 1024 [] []
      { ipqCreateQueue 1024 with kmalloc := [] } := .create
  have htwo := hcreate.call (.enqueue (packetTo 0x0901a8c0)) 0 rfl |>.call (.enqueue laterPacket) 0 rfl
  obtain ⟨hq, -, hends, hcalls⟩ := queue_conserved _ _ _ _ _ (by decide) htwo
  obtain ⟨q', hrun⟩ := hends (.sendIp 0x0101a8c0 0x0901a8c0 0) 2 (by decide)
  have hreinjects := (hcalls 0x0101a8c0 0x0901a8c0 0 2 q').1 hrun
  have hserved := htwo.call _ 2 hrun
  have hstay : q'.list.map IpqElement.skb = [laterPacket] := hreinjects.stay.trans (by decide)
  have hlen := (queue_conserved _ _ _ _ _ (by decide) hserved).1.len
  have hlength := congrArg List.length hstay
  rw [List.length_map] at hlength
  exact ⟨q', hserved, by rw [hlen, hlength]; rfl, hreinjects.given.trans (by decide), hstay⟩

end Fbaodv.Proofs.QueueConservation
