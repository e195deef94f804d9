import Fbaodv.Model.WireNetwork
import Fbaodv.Proofs.MessageRoundTrip
import Fbaodv.Proofs.NetRuns

namespace Fbaodv.Proofs.WireRefinement

open Fbaodv.Model Fbaodv.Model.Node Fbaodv.Model.WireNode Fbaodv.Foundation Relation
open Fbaodv.Proofs.HelloRoundTrip Fbaodv.Proofs.Dispatch Fbaodv.Proofs.MessageRoundTrip
open Fbaodv.Proofs.TwinRuns Fbaodv.Proofs.NetPaths Fbaodv.Proofs.NetRuns

variable {w w' : WireNode} {s : SkBuff} {sec usec : UInt32} {b : Bytes}

section Hooks

/-- The node with other tasks in its queue. -/
def withTasks (q : ClassQueue Task) (n : Node) : Node := { n with tasks := q }

variable {n : Node} {q : ClassQueue Task}

theorem dtnInput_withTasks (p : Packet) : (withTasks q n).dtnInput p = withTasks q (n.dtnInput p) := by
  have htwin : Twin q n (withTasks q n) := ⟨n.sent, rfl⟩
  obtain ⟨sent, hsent⟩ := twin_dtnInput htwin p
  have hkept : ((withTasks q n).dtnInput p).sent = n.sent := (hooked_dtnInput (e := .thread) p).sent
  have hplain : (n.dtnInput p).sent = n.sent := (hooked_dtnInput (e := .thread) p).sent
  rw [hsent] at hkept
  have heq : sent = (n.dtnInput p).sent := by rw [hplain, ← hkept]
  rw [hsent, heq]
  rfl

/-- `output_handler` looks at no task; at most it puts one at the front. -/
theorem outputHandler_withTasks (skb : Skb) :
    (withTasks q n).outputHandler skb = (n.outputHandler skb).map fun (v, n') ↦
      (v, withTasks
        (if v = .queue then
          q.pushFront (fun t ↦ isControlTask t.type)
            { createTask .genRreq n'.now with
              srcIp := n'.flowAddr skb.saddr, dstIp := n'.flowAddr skb.daddr, tos := skb.tos }
        else q) n') := by
  have hflow : ∀ ip, (withTasks q n).flowAddr ip = n.flowAddr ip := fun _ ↦ rfl
  have hrouting : (withTasks q n).routing = n.routing := rfl
  have hcfg : (withTasks q n).cfg = n.cfg := rfl
  unfold outputHandler
  dsimp only
  simp only [hflow, hrouting, hcfg]
  by_cases hsignal : isSignalling skb
  · simp only [hsignal, if_true]
    rfl
  simp only [hsignal, Bool.false_eq_true, if_false]
  by_cases hsame : n.flowAddr skb.daddr = n.flowAddr skb.saddr
  · simp only [hsame, if_true]
    rfl
  simp only [hsame, if_false]
  cases (n.routing.findAodvRoute (n.flowAddr skb.saddr) (n.flowAddr skb.daddr) skb.tos).filter
      fun e ↦ decide (e.state ≠ .invalid) with
  | none =>
    dsimp only
    split
    · have halloc : (withTasks q n).alloc = (n.alloc.1, withTasks q n.alloc.2) := rfl
      rw [halloc]
      dsimp only
      split
      · rfl
      · rfl
    · split
      · rfl
      · rfl
  | some e =>
    dsimp only
    split
    · split
      · rfl
      · rfl
    · rfl

theorem isControl_task (t : WireTask) : isControlTask t.task.type = isControl t := by
  cases t with
  | own t => rfl
  | packet t => rfl

theorem map_pushFront_task (t : WireTask) (q : ClassQueue WireTask) :
    (q.pushFront isControl t).map WireTask.task =
      (q.map WireTask.task).pushFront (fun t ↦ isControlTask t.type) t.task :=
  ClassQueue.map_pushFront WireTask.task isControl_task t q

theorem map_pushBack_task (t : WireTask) (q : ClassQueue WireTask) :
    (q.pushBack isControl t).map WireTask.task =
      (q.map WireTask.task).pushBack (fun t ↦ isControlTask t.type) t.task :=
  ClassQueue.map_pushBack WireTask.task isControl_task t q

theorem view_output {skb : Skb} (h : w.output skb = some w') :
    w.view.step (.output skb) = some w'.view := by
  have hview : w.view = withTasks (w.queue.map WireTask.task) w.core := rfl
  obtain ⟨⟨v, n⟩, hout, h⟩ := Option.bind_eq_some_iff.mp h
  have hsend : w.view.sendPacket skb = (w.view.outputHandler skb).bind fun r ↦
      if r.1 = .queue then
        some (if (r.2.packets.ipqEnqueue skb).1 then .queue else .drop,
          { r.2 with packets := (r.2.packets.ipqEnqueue skb).2 })
      else some r := rfl
  simp only [Node.step]
  rw [hsend, hview, outputHandler_withTasks, hout, Option.map_some, Option.bind_some]
  dsimp only at h ⊢
  by_cases hv : v = .queue
  · rw [if_pos hv] at h
    obtain rfl := Option.some.inj h
    rw [if_pos hv, if_pos hv, Option.map_some, Option.some.injEq]
    simp only [view, map_pushFront_task]
    rfl
  · rw [if_neg hv] at h
    obtain rfl := Option.some.inj h
    rw [if_neg hv, if_neg hv, Option.map_some]
    rfl

theorem view_queueTask (t : WireTask) (w : WireNode) :
    (w.queueTask t).view = w.view.queueTask t.task := by
  simp only [view, WireNode.queueTask, map_pushBack_task]
  rfl

theorem view_queueTasks (due : List Task) (w : WireNode) :
    { w with queue := due.foldl (fun q t ↦ q.pushBack isControl (.own t)) w.queue }.view =
      due.foldl (fun n t ↦ n.queueTask t) w.view := by
  induction due generalizing w with
  | nil => rfl
  | cons t due ih =>
    rw [List.foldl_cons, List.foldl_cons]
    have hstep : w.view.queueTask t = (w.queueTask (.own t)).view := (view_queueTask (.own t) w).symm
    rw [hstep, ← ih]
    rfl

theorem view_signal (w : WireNode) : w.signal.view = w.view.signal :=
  view_queueTasks _ { w with
    core := { w.core with
      timers := (timerQueueSignal w.core.cfg.hz w.core.now { w.core.timers with aodvTimer := none }).2 } }

theorem aodvPort_iff {l : Bytes} (h : l.length ≤ 2) :
    l = aodvPortBytes ↔ UInt16.ofNat (ByteOrder.big.get l) = aodvPort := by
  constructor
  · rintro rfl
    rfl
  · intro hport
    have hlt : ByteOrder.big.get l < 256 ^ l.length := ByteOrder.get_lt .big l
    have hle : 256 ^ l.length ≤ 256 ^ 2 := Nat.pow_le_pow_right (by omega) h
    have hget : ByteOrder.big.get l = 5002 := by
      have hnat := congrArg UInt16.toNat hport
      rw [UInt16.toNat_ofNat', Nat.mod_eq_of_lt (by omega)] at hnat
      exact hnat
    have hlength : l.length = 2 := by
      by_contra hne
      have hshort : 256 ^ l.length ≤ 256 ^ 1 := Nat.pow_le_pow_right (by omega) (by omega)
      omega
    have hput := ByteOrder.put_get .big l
    rw [hget, hlength] at hput
    exact hput.symm

theorem isAodv_iff {m : Option Message} : (s.packet sec usec m).isAodv = true ↔
    s.ipproto = 17 ∧ s.ethPIp = true ∧ field s.data (s.udpOffset + 2) 2 = aodvPortBytes ∧
      s.ifaAddress ≠ s.saddr hostOrder := by
  have hlength : (field s.data (s.udpOffset + 2) 2).length ≤ 2 := by
    rw [field, List.length_take]
    omega
  rw [aodvPort_iff hlength]
  simp only [Packet.isAodv, SkBuff.packet, SkBuff.udpDest, Bool.and_eq_true, beq_iff_eq, bne_iff_ne,
    ne_eq, and_assoc]

/-- The message `m` for the payload of a packet: its bytes read as `m`, or are
not accepted when `m` is not. -/
structure Explains (s : SkBuff) (sec usec : UInt32) (m : Message) : Prop where
  accepted : validAodvPacket m = true → ∃ header b, header.length = SkBuff.startPoint ∧
    s.data = header ++ b ∧ ReadAs hostOrder sec usec b (m.stamp sec usec)
  rejected : validAodvPacket m = false →
    validLength (byteAt (s.data.drop SkBuff.startPoint) 0) (s.data.drop SkBuff.startPoint) ≠
      some (s.data.length - SkBuff.startPoint)

theorem packetIn_rejected
    (h : validLength (byteAt (s.data.drop SkBuff.startPoint) 0) (s.data.drop SkBuff.startPoint) ≠
      some (s.data.length - SkBuff.startPoint)) :
    s.packetIn hostOrder sec usec = (.drop, none) := by
  rw [SkBuff.packetIn, if_neg h]

theorem view_insertTask {m : Message} {header : Bytes} (hheader : header.length = SkBuff.startPoint)
    (hdata : s.data = header ++ b) (hread : ReadAs hostOrder sec usec b (m.stamp sec usec)) (w : WireNode) :
    (w.insertTask s (byteAt b 0) (stampProbe hostOrder sec usec (byteAt b 0) b)).view =
      w.view.insertTask (s.packet sec usec (some m)) (m.stamp sec usec) := by
  have htype : (m.stamp sec usec).taskType = m.taskType := by cases m <;> rfl
  have halloc : w.view.alloc = (w.core.alloc.1, { w with core := w.core.alloc.2 }.view) := rfl
  have halloc' : { w with core := w.core.alloc.2 }.view.alloc =
      (w.core.alloc.2.alloc.1, { w with core := w.core.alloc.2.alloc.2 }.view) := rfl
  rw [WireNode.insertTask, Node.insertTask, halloc]
  dsimp only
  split
  · rfl
  · rw [halloc']
    dsimp only
    split
    · rfl
    · obtain ⟨hreceived, hbytes, hlen⟩ :=
        received_insertTask sec usec w.core.alloc.2.alloc.2.now hheader hdata hread.valid
      have hmessage := hread.message _ rfl hbytes hlen
      obtain ⟨m', hm'⟩ := reads_of_valid (o := hostOrder) hreceived.valid
      have heq : m.stamp sec usec = m' := Option.some.inj (hmessage.symm.trans hm'.message)
      rw [view_queueTask]
      congr 1
      rw [WireTask.task, hmessage, heq, hm'.type]
      rfl

theorem view_input {m : Option Message}
    (hm : (s.packet sec usec none).isAodv = true → ∃ m', m = some m' ∧ Explains s sec usec m') :
    (w.input s sec usec).view = (w.view.inputHandler (s.packet sec usec m)).2 := by
  have hdtn : w.view.dtnInput (s.packet sec usec m) =
      { w with core := w.core.dtnInput (s.packet sec usec none) }.view :=
    dtnInput_withTasks (n := w.core) (q := w.queue.map WireTask.task) (s.packet sec usec m)
  rw [WireNode.input, Node.inputHandler, hdtn]
  generalize ({ w with core := w.core.dtnInput (s.packet sec usec none) } : WireNode) = w₁
  by_cases hdrop : (s.udpDest == dtnHelloPort && s.daddr hostOrder == dtnBroadcast &&
      w₁.core.cfg.dtnBlacklistIp.contains (s.saddr hostOrder)) = true
  · have hdrop' : ((s.packet sec usec m).udpDest == dtnHelloPort &&
        (s.packet sec usec m).daddr == dtnBroadcast &&
        w₁.view.cfg.dtnBlacklistIp.contains (s.packet sec usec m).saddr) = true := hdrop
    rw [if_pos hdrop, if_pos hdrop']
  · have hdrop' : ¬((s.packet sec usec m).udpDest == dtnHelloPort &&
        (s.packet sec usec m).daddr == dtnBroadcast &&
        w₁.view.cfg.dtnBlacklistIp.contains (s.packet sec usec m).saddr) = true := hdrop
    rw [if_neg hdrop, if_neg hdrop']
    by_cases haodv : (s.packet sec usec none).isAodv = true
    · obtain ⟨m', rfl, hexplains⟩ := hm haodv
      have haodv' : ((s.packet sec usec (some m')).udp &&
          (s.packet sec usec (some m')).udpDest == aodvPort &&
          (s.packet sec usec (some m')).ifaAddress != (s.packet sec usec (some m')).saddr) = true :=
        haodv
      have hbytes := isAodv_iff.mp haodv
      have hin : s.inputHandler hostOrder sec usec = s.packetIn hostOrder sec usec :=
        if_pos ⟨hbytes.1, hbytes.2.1, hbytes.2.2.1, hbytes.2.2.2⟩
      rw [if_pos haodv', hin, Node.packetIn]
      have hmessage : (s.packet sec usec (some m')).message = some m' := rfl
      rw [hmessage]
      dsimp only
      cases hvalid : validAodvPacket m' with
      | false =>
        rw [packetIn_rejected (hexplains.rejected hvalid)]
        rfl
      | true =>
        obtain ⟨header, b, hheader, hdata, hread⟩ := hexplains.accepted hvalid
        rw [packetIn_accepted hheader hdata hread.valid]
        exact view_insertTask hheader hdata hread w₁
    · have haodv' : ¬((s.packet sec usec m).udp && (s.packet sec usec m).udpDest == aodvPort &&
          (s.packet sec usec m).ifaAddress != (s.packet sec usec m).saddr) = true := haodv
      have hin : s.inputHandler hostOrder sec usec = (.accept, none) := by
        apply if_neg
        rintro ⟨hproto, heth, hport, hsaddr⟩
        exact haodv (isAodv_iff.mpr ⟨hproto, heth, hport, hsaddr⟩)
      rw [if_neg haodv', hin]

end Hooks

section Runs

variable {e : WireEvent} {net net' net₀ : WireNetwork} {a : Ip}

/-- The bytes are those of the transmission, whatever reads them. -/
def Faithful (x : Sent × Bytes) : Prop :=
  ∀ m, payload x.1 = some m →
    (validAodvPacket m = true → ∀ sec usec, ReadAs hostOrder sec usec x.2 (m.stamp sec usec)) ∧
      (validAodvPacket m = false → validLength (byteAt x.2 0) x.2 ≠ some x.2.length)

/-- What holds of a node between two events. -/
structure Sound (w : WireNode) : Prop where
  received : ∀ p, .packet p ∈ w.queue.elems → Received p
  sent : w.wire.map Prod.fst = w.core.sent
  faithful : ∀ x ∈ w.wire, Faithful x

theorem faithful_of_wired {t : Option PacketTask} {x : Sent × Bytes} (h : Wired t x.1 x.2)
    (ht : ∀ p, t = some p → Received p) : Faithful x := by
  obtain ⟨x, b⟩ := x
  intro m hm
  cases x with
  | broadcast ttl m' =>
    obtain rfl := Option.some.inj hm
    exact ⟨fun hvalid _ _ ↦ recode_self (o := hostOrder) m' ▸ readAs_of_sentAs h ht hvalid,
      rejected_of_sentAs h⟩
  | unicast ip ttl m' =>
    obtain rfl := Option.some.inj hm
    exact ⟨fun hvalid _ _ ↦ recode_self (o := hostOrder) m' ▸ readAs_of_sentAs h ht hvalid,
      rejected_of_sentAs h⟩
  | toDtn => cases hm

theorem Sound.of_queue (h : Sound w) (hwire : w'.wire = w.wire) (hsent : w'.core.sent = w.core.sent)
    (hqueue : ∀ p, .packet p ∈ w'.queue.elems → .packet p ∈ w.queue.elems ∨ Received p) : Sound w' where
  received := by
    intro p hp
    rcases hqueue p hp with hp | hp
    · exact h.received p hp
    · exact hp
  sent := by rw [hwire, hsent, h.sent]
  faithful := by
    rw [hwire]
    exact h.faithful

theorem mem_pushOwn {t : WireTask} (due : List Task) (q : ClassQueue WireTask)
    (ht : t ∈ (due.foldl (fun q t ↦ q.pushBack isControl (.own t)) q).elems) :
    t ∈ q.elems ∨ ∃ t', t = .own t' := by
  induction due generalizing q with
  | nil => exact .inl ht
  | cons t' due ih =>
    rcases ih _ ht with ht | ht
    · rcases ClassQueue.mem_pushBack.mp ht with rfl | ht
      · exact .inr ⟨t', rfl⟩
      · exact .inl ht
    · exact .inr ht

theorem Sound.signal (h : Sound w) : Sound w.signal := by
  refine h.of_queue rfl rfl ?_
  intro p hp
  rcases mem_pushOwn _ _ hp with hp | ⟨t, ht⟩
  · exact .inl hp
  · cases ht

theorem Sound.output {skb : Skb} (h : Sound w) (hout : w.output skb = some w') : Sound w' := by
  obtain ⟨⟨v, n⟩, hhandler, hout⟩ := Option.bind_eq_some_iff.mp hout
  have hsent : n.sent = w.core.sent := (hooked_outputHandler (e := .thread) hhandler).sent
  dsimp only at hout
  split at hout
  · obtain rfl := Option.some.inj hout
    refine h.of_queue rfl hsent ?_
    intro p hp
    rcases ClassQueue.mem_pushFront.mp hp with hp | hp
    · cases hp
    · exact .inl hp
  · obtain rfl := Option.some.inj hout
    exact h.of_queue rfl hsent fun p hp ↦ .inl hp

theorem packetIn_valid {type : UInt8} {payload : Bytes}
    (h : (s.packetIn hostOrder sec usec).2 = some (type, payload)) :
    ∃ b, s.data.drop SkBuff.startPoint = b ∧ s.data.length - SkBuff.startPoint = b.length ∧
      type = byteAt b 0 ∧ payload = stampProbe hostOrder sec usec (byteAt b 0) b ∧
        validLength (byteAt b 0) b = some b.length := by
  refine ⟨_, rfl, (List.length_drop ..).symm, ?_⟩
  rw [SkBuff.packetIn] at h
  split at h
  · next hvalid =>
    rw [← List.length_drop] at hvalid
    obtain ⟨rfl, rfl⟩ := Prod.mk.inj (Option.some.inj h)
    exact ⟨rfl, rfl, hvalid⟩
  · cases h

theorem validLength_pos {type : UInt8} {l : Bytes} (h : validLength type l = some l.length) :
    0 < l.length := by
  cases l with
  | nil =>
    rw [validLength] at h
    split at h <;> cases h
  | cons c l => exact Nat.succ_pos _

theorem Sound.insertTask {type : UInt8} {payload : Bytes} (h : Sound w)
    (hin : (s.packetIn hostOrder sec usec).2 = some (type, payload)) :
    Sound (w.insertTask s type payload) := by
  obtain ⟨b, hdrop, hrest, rfl, rfl, hvalid⟩ := packetIn_valid hin
  have hpos := validLength_pos hvalid
  have hheader : (s.data.take SkBuff.startPoint).length = SkBuff.startPoint := by
    rw [List.length_take]
    omega
  have hdata : s.data = s.data.take SkBuff.startPoint ++ b := by
    rw [← hdrop, List.take_append_drop]
  rw [WireNode.insertTask]
  dsimp only
  split
  · exact h.of_queue rfl rfl fun p hp ↦ .inl hp
  · split
    · exact h.of_queue rfl rfl fun p hp ↦ .inl hp
    · refine h.of_queue rfl rfl ?_
      intro p hp
      rcases ClassQueue.mem_pushBack.mp hp with hp | hp
      · obtain rfl := WireTask.packet.inj hp
        exact .inr (received_insertTask _ _ _ hheader hdata hvalid).1
      · exact .inl hp

theorem Sound.input (h : Sound w) (s : SkBuff) (sec usec : UInt32) : Sound (w.input s sec usec) := by
  have hdtn : Sound { w with core := w.core.dtnInput (s.packet sec usec none) } :=
    h.of_queue rfl (hooked_dtnInput (e := .thread) _).sent fun p hp ↦ .inl hp
  rw [WireNode.input]
  generalize ({ w with core := w.core.dtnInput (s.packet sec usec none) } : WireNode) = w₁ at hdtn
  split
  · exact hdtn
  · split
    · exact hdtn
    · next type payload hin =>
      rw [SkBuff.inputHandler] at hin
      split at hin
      · exact hdtn.insertTask hin
      · cases hin

/-- The bytes that a queued task holds were received. -/
theorem Sound.origin {t : WireTask} (h : Sound w) (ht : t ∈ w.queue.elems) :
    ∀ p, t.origin = some p → Received p := by
  intro p hp
  cases t with
  | own t => cases hp
  | packet p' =>
    obtain rfl := Option.some.inj hp
    exact h.received p' ht

/-- The task at the head of the queue, and the rest of the queue. -/
theorem Sound.pop {t : WireTask} {q : ClassQueue WireTask} (h : Sound w)
    (hpop : w.queue.pop = (some t, q)) :
    (∀ p, t.origin = some p → Received p) ∧ ∀ p, .packet p ∈ q.elems → Received p :=
  ⟨h.origin (ClassQueue.pop_mem hpop), fun p hp ↦ h.received p (ClassQueue.pop_subset hpop hp)⟩

theorem Sound.step (h : Sound w) (hstep : w.Step e w') : Sound w' := by
  cases hstep with
  | wait ms => exact h.of_queue rfl rfl fun p hp ↦ .inl hp
  | input s sec usec => exact h.input s sec usec
  | output hout => exact h.output hout
  | signal => exact h.signal
  | idle hpop => exact h
  | handle hpop hhandle hsent hwired =>
    obtain ⟨horigin, hrest⟩ := h.pop hpop
    refine ⟨hrest, ?_, ?_⟩
    · dsimp only
      rw [List.map_append, h.sent, hsent]
    · intro x hx
      rcases List.mem_append.mp hx with hx | hx
      · exact h.faithful x hx
      · exact faithful_of_wired (hwired x hx) horigin

/-- The bytes of a received task are handled as its message. -/
theorem handle_eq {t : WireTask} (ht : ∀ p, t.origin = some p → Received p) (n : Node) :
    t.handle n = some (n.handle t.task) := by
  cases t with
  | own t => rfl
  | packet p =>
    obtain ⟨m, hm⟩ := reads_of_valid (o := hostOrder) (ht p rfl).valid
    rw [WireTask.handle, hm.handle, WireTask.task, hm.message]

theorem pop_view {o : Option WireTask} {q : ClassQueue WireTask} (h : w.queue.pop = (o, q)) :
    w.view.tasks.pop = (o.map WireTask.task, q.map WireTask.task) := by
  have hmap := ClassQueue.pop_map WireTask.task w.queue
  rw [h] at hmap
  exact hmap

theorem payload_of_reaches {x : Sent} {ttl : UInt8} {m : Message} (h : x.reaches a ttl m) :
    payload x = some m := by
  cases x with
  | broadcast ttl' m' => rw [← h.2]; rfl
  | unicast ip ttl' m' => rw [← h.2.2]; rfl
  | toDtn => cases h

theorem explains_of_faithful {x : Sent × Bytes} {header : Bytes} {m : Message} (h : Faithful x)
    (hm : payload x.1 = some m) (hheader : header.length = SkBuff.startPoint)
    (hdata : s.data = header ++ x.2) : Explains s sec usec m where
  accepted := fun hvalid ↦ ⟨header, x.2, hheader, hdata, (h m hm).1 hvalid sec usec⟩
  rejected := by
    intro hvalid
    rw [hdata, ← hheader, List.drop_left, List.length_append, Nat.add_sub_cancel_left]
    exact (h m hm).2 hvalid

theorem view_update (net : WireNetwork) (a : Ip) (w : WireNode) :
    WireNetwork.view (Function.update net a w) = Function.update net.view a w.view := by
  funext b
  by_cases hb : b = a
  · subst hb
    simp only [WireNetwork.view, Function.update_self]
  · simp only [WireNetwork.view, Function.update_of_ne hb]

/-- A packet that arrives is one that the network of messages delivers. -/
theorem deliverable_of_arrives (hnet : ∀ b, Sound (net b)) (h : net.Arrives a s) (sec usec : UInt32) :
    ∃ m, net.view.Deliverable a (s.packet sec usec m) ∧
      ((s.packet sec usec none).isAodv = true → ∃ m', m = some m' ∧ Explains s sec usec m') := by
  by_cases haodv : (s.packet sec usec none).isAodv = true
  · obtain ⟨x, hx, m, hreach, header, hheader, hdata⟩ := h.2 haodv
    have hsound := hnet (s.saddr hostOrder)
    have hpayload := payload_of_reaches hreach
    refine ⟨some m, ⟨h.1, ?_⟩, fun _ ↦ ⟨m, rfl, ?_⟩⟩
    · rintro - m' hm'
      obtain rfl := Option.some.inj hm'
      have hmem : x.1 ∈ (net (s.saddr hostOrder)).core.sent := by
        rw [← hsound.sent]
        exact List.mem_map_of_mem hx
      exact ⟨x.1, hmem, hreach⟩
    · exact explains_of_faithful (hsound.faithful x hx) hpayload hheader hdata
  · refine ⟨none, ⟨h.1, ?_⟩, fun haodv' ↦ absurd haodv' haodv⟩
    intro _ m hm
    cases hm

/-- A step on bytes is a step on messages. -/
theorem step_view (hnet : ∀ b, Sound (net b)) (h : net.Step net') : net.view.Step net'.view := by
  obtain ⟨a, e, w, ha, hin, hstep⟩ := h
  rw [view_update]
  cases hstep with
  | wait ms => exact .node a (.wait ms) _ ha (fun _ he ↦ (by cases he)) rfl
  | input s sec usec =>
    obtain ⟨m, hdeliver, hm⟩ := deliverable_of_arrives hnet (hin s sec usec rfl) sec usec
    refine .node a (.input (s.packet sec usec m)) _ ha ?_ ?_
    · rintro p hp
      cases hp
      exact hdeliver
    · exact congrArg some (view_input (w := net a) hm).symm
  | @output skb _ hout => exact .node a (.output skb) _ ha (fun _ he ↦ (by cases he)) (view_output hout)
  | signal =>
    exact .node a .signal _ ha (fun _ he ↦ (by cases he)) (congrArg some (view_signal (net a)).symm)
  | idle hpop =>
    refine .node a .thread _ ha (fun _ he ↦ (by cases he)) ?_
    have hview : (net.view a).tasks.pop = _ := pop_view hpop
    simp only [Node.step, threadStep, hview, Option.map_none]
    rfl
  | @handle t q n new hpop hhandle hsent hwired =>
    refine .node a .thread _ ha (fun _ he ↦ (by cases he)) ?_
    rw [handle_eq ((hnet a).pop hpop).1, Option.some.injEq] at hhandle
    have hview : (net.view a).tasks.pop = _ := pop_view hpop
    simp only [Node.step, threadStep, hview, Option.map_some]
    have htasks := handle_tasks hhandle
    have hn : WireNode.view { core := n, queue := q, wire := (net a).wire ++ new } = n := by
      simp only [view]
      rw [show q.map WireTask.task = n.tasks from htasks.symm]
    rw [hn]
    exact hhandle

theorem Sound.network (hnet : ∀ b, Sound (net b)) (h : net.Step net') (b : Ip) : Sound (net' b) := by
  obtain ⟨a, e, w, ha, hin, hstep⟩ := h
  by_cases hb : b = a
  · subst hb
    rw [Function.update_self]
    exact (hnet b).step hstep
  · rw [Function.update_of_ne hb]
    exact hnet b

theorem sound_init (cfg : Config) (env : Environment) : Sound (WireNode.init cfg env) where
  received := fun p hp ↦ (by cases hp)
  sent := (init_queues cfg env).1.symm
  faithful := fun x hx ↦ (by cases hx)

theorem view_init (cfg : Config) (env : Environment) : (WireNode.init cfg env).view = Node.init cfg env := by
  have helems := (init_queues cfg env).2.1
  have htasks : (Node.init cfg env).tasks = .empty := by
    have hcontrol : (Node.init cfg env).tasks.control = [] := (List.append_eq_nil_iff.mp helems).1
    have hdata : (Node.init cfg env).tasks.data = [] := (List.append_eq_nil_iff.mp helems).2
    cases hq : (Node.init cfg env).tasks with
    | mk c d =>
      rw [hq] at hcontrol hdata
      dsimp only at hcontrol hdata
      rw [hcontrol, hdata]
      rfl
  rw [view, WireNode.init]
  dsimp only
  rw [show (ClassQueue.empty : ClassQueue WireTask).map WireTask.task = (Node.init cfg env).tasks from
    htasks.symm]

theorem sound_run (h₀ : net₀.Initial) (h : ReflTransGen WireNetwork.Step net₀ net) (a : Ip) :
    Sound (net a) := by
  induction h generalizing a with
  | refl =>
    obtain ⟨cfg, env, -, hinit⟩ := h₀
    rw [hinit]
    exact sound_init (cfg a) (env a)
  | tail _ hstep ih => exact Sound.network ih hstep a

theorem view_initial (h : net.Initial) : net.view.Initial := by
  obtain ⟨cfg, env, haddr, hinit⟩ := h
  refine ⟨cfg, env, haddr, ?_⟩
  intro a
  rw [WireNetwork.view, hinit, view_init]

/-- The network of bytes refines the network of messages: what its nodes do to
one another is a run of the latter, and whatever task waits in a queue, the
thread neither reads past its data nor finds there another message than the one
that was sent. -/
theorem wire_refines (h₀ : net₀.Initial) (h : ReflTransGen WireNetwork.Step net₀ net) :
    net₀.view.Initial ∧ ReflTransGen Network.Step net₀.view net.view ∧
      ∀ a t, t ∈ (net a).queue.elems → ∀ n, t.handle n = some (n.handle t.task) := by
  refine ⟨view_initial h₀, ?_, ?_⟩
  · induction h with
    | refl => exact .refl
    | tail hrun hstep ih => exact ih.tail (step_view (sound_run h₀ hrun) hstep)
  · intro a t ht n
    exact handle_eq ((sound_run h₀ h a).origin ht) n

end Runs

/-- Stations whose transmissions are bytes. -/
def wireStations : WireNetwork := fun a ↦
  WireNode.init { PacketDiscovery.station.cfg with gMeshIp := a } plainEnvironment

/-- 192.168.1.2 when its first HELLO is due. -/
def announcing : WireNode :=
  WireNode.signal { wireStations 0x0201a8c0 with
    core := { (wireStations 0x0201a8c0).core with now := (wireStations 0x0201a8c0).core.now + 1001 } }

def announcement : Hello := ⟨0, 0, 1, []⟩

/-- The HELLO of 192.168.1.2 as it comes in at 192.168.1.1. -/
def announcementBuff : SkBuff where
  data :=
    [0x45, 0, 0, 36, 0, 0, 0, 0, 1, 17, 0, 0, 192, 168, 1, 2, 255, 255, 255, 255] ++
      [0x13, 0x8a, 0x13, 0x8a, 0, 16, 0, 0] ++ announcement.sentData hostOrder 0 0
  ethPIp := true
  ifaAddress := 0x0101a8c0

theorem announcing_runs : ∃ t n, announcing.queue.pop.1 = some t ∧
    t.handle { announcing with queue := announcing.queue.pop.2 }.view = some (some n) ∧
    n.sent = [.broadcast 1 (.hello announcement)] := by
  have hrun : (announcing.queue.pop.1.bind fun t ↦
      (t.handle { announcing with queue := announcing.queue.pop.2 }.view).bind fun n ↦
        n.map Node.sent) = some [.broadcast 1 (.hello announcement)] := by
    decide +kernel
  obtain ⟨t, ht, hrun⟩ := Option.bind_eq_some_iff.mp hrun
  obtain ⟨o, ho, hrun⟩ := Option.bind_eq_some_iff.mp hrun
  obtain ⟨n, rfl, hn⟩ := Option.map_eq_some_iff.mp hrun
  exact ⟨t, n, ht, ho, hn⟩

theorem hearing_runs : ∃ t n,
    ((wireStations 0x0101a8c0).input announcementBuff 0 0).queue.pop.1 = some t ∧
      t.handle { (wireStations 0x0101a8c0).input announcementBuff 0 0 with
        queue := ((wireStations 0x0101a8c0).input announcementBuff 0 0).queue.pop.2 }.view =
          some (some n) ∧
      n.sent = [] ∧ (n.findAodvNeigh 0x0201a8c0).isSome := by
  have hrun : (((wireStations 0x0101a8c0).input announcementBuff 0 0).queue.pop.1.bind fun t ↦
      (t.handle { (wireStations 0x0101a8c0).input announcementBuff 0 0 with
        queue := ((wireStations 0x0101a8c0).input announcementBuff 0 0).queue.pop.2 }.view).bind
          fun n ↦ n.map fun n ↦ (n.sent, (n.findAodvNeigh 0x0201a8c0).isSome)) = some ([], true) := by
    decide +kernel
  obtain ⟨t, ht, hrun⟩ := Option.bind_eq_some_iff.mp hrun
  obtain ⟨o, ho, hrun⟩ := Option.bind_eq_some_iff.mp hrun
  obtain ⟨n, rfl, hn⟩ := Option.map_eq_some_iff.mp hrun
  exact ⟨t, n, ht, ho, congrArg Prod.fst hn, congrArg Prod.snd hn⟩

theorem wireStations_initial : wireStations.Initial :=
  ⟨fun a ↦ { PacketDiscovery.station.cfg with gMeshIp := a }, fun _ ↦ plainEnvironment, fun _ ↦ rfl,
    fun _ ↦ rfl⟩

/-- A step that a node takes without a packet. -/
def OwnStep (w w' : WireNode) : Prop := ∃ e, (∀ s sec usec, e ≠ .input s sec usec) ∧ w.Step e w'

theorem own_steps {net : WireNetwork} {a : Ip} {w : WireNode} (ha : a ≠ gNullIp)
    (h : ReflTransGen OwnStep (net a) w) :
    ReflTransGen WireNetwork.Step net (Function.update net a w) := by
  induction h with
  | refl =>
    rw [Function.update_eq_self]
  | @tail w w' _ hstep ih =>
    obtain ⟨e, he, hstep⟩ := hstep
    refine ih.tail ?_
    have hnext : WireNetwork.Step (Function.update net a w) (Function.update (Function.update net a w) a w') :=
      .node a e w' ha (fun s sec usec hin ↦ absurd hin (he s sec usec)) (by rwa [Function.update_self])
    rwa [Function.update_idem] at hnext

/-- 192.168.1.1 gets to know 192.168.1.2 from the bytes of its HELLO. -/
theorem wire_refines_announcement : ∃ net, ReflTransGen WireNetwork.Step wireStations net ∧
    ((net 0x0101a8c0).view.findAodvNeigh 0x0201a8c0).isSome ∧ wireStations.view.Initial ∧
      ReflTransGen Network.Step wireStations.view net.view ∧
        ∀ a t, t ∈ (net a).queue.elems → ∀ n, t.handle n = some (n.handle t.task) := by
  obtain ⟨t, n, hpop, hhandle, hsent⟩ := announcing_runs
  obtain ⟨t', n', hpop', hhandle', hsent', hneigh⟩ := hearing_runs
  have hsends : ReflTransGen OwnStep (wireStations 0x0201a8c0)
      { core := n
        queue := announcing.queue.pop.2
        wire := [(.broadcast 1 (.hello announcement), announcement.sentData hostOrder 0 0)] } := by
    refine ((ReflTransGen.single ⟨.wait 1001, fun _ _ _ he ↦ (by cases he), .wait 1001⟩).tail
      ⟨.signal, fun _ _ _ he ↦ (by cases he), .signal⟩).tail ⟨.thread, fun _ _ _ he ↦ (by cases he), ?_⟩
    refine .handle (Prod.ext hpop rfl) hhandle hsent ?_
    intro x hx
    obtain rfl := List.mem_singleton.mp hx
    exact .hello 0 0 (by decide)
  have hnull : (0x0201a8c0 : Ip) ≠ gNullIp := by decide
  have hfirst := own_steps hnull hsends
  generalize hw : ({
    core := n
    queue := announcing.queue.pop.2
    wire := [(.broadcast 1 (.hello announcement), announcement.sentData hostOrder 0 0)] } : WireNode) = w
    at hfirst
  have hother : Function.update wireStations 0x0201a8c0 w 0x0101a8c0 = wireStations 0x0101a8c0 :=
    Function.update_of_ne (by decide) w wireStations
  have harrives : WireNetwork.Arrives (Function.update wireStations 0x0201a8c0 w) 0x0101a8c0
      announcementBuff := by
    refine ⟨rfl, fun _ ↦ ?_⟩
    have hsender : announcementBuff.saddr hostOrder = 0x0201a8c0 := by decide +kernel
    rw [hsender, Function.update_self, ← hw]
    exact ⟨_, List.mem_singleton_self _, _, ⟨by decide +kernel, rfl⟩,
      announcementBuff.data.take SkBuff.startPoint, by decide +kernel, by decide +kernel⟩
  have hhears : WireNetwork.Step (Function.update wireStations 0x0201a8c0 w) _ :=
    .node 0x0101a8c0 (.input announcementBuff 0 0)
      ((wireStations 0x0101a8c0).input announcementBuff 0 0) (by decide)
      (fun _ _ _ he ↦ (by cases he; exact harrives)) (by rw [hother]; exact .input announcementBuff 0 0)
  have hsilent : ((wireStations 0x0101a8c0).input announcementBuff 0 0).core.sent = [] := by
    decide +kernel
  have hthread : ReflTransGen OwnStep
      (Function.update (Function.update wireStations 0x0201a8c0 w) 0x0101a8c0
        ((wireStations 0x0101a8c0).input announcementBuff 0 0) 0x0101a8c0)
      { core := n'
        queue := ((wireStations 0x0101a8c0).input announcementBuff 0 0).queue.pop.2
        wire := ((wireStations 0x0101a8c0).input announcementBuff 0 0).wire ++ [] } := by
    rw [Function.update_self]
    refine .single ⟨.thread, fun _ _ _ he ↦ (by cases he), ?_⟩
    refine .handle (Prod.ext hpop' rfl) hhandle' ?_ fun _ hx ↦ (by cases hx)
    rw [hsent', hsilent]
    rfl
  have hrun := (hfirst.tail hhears).trans (own_steps (by decide) hthread)
  refine ⟨_, hrun, ?_, wire_refines wireStations_initial hrun⟩
  rw [Function.update_self]
  exact hneigh

end Fbaodv.Proofs.WireRefinement
