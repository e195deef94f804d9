import Fbaodv.Model.Network
import Fbaodv.Proofs.TwinRuns
import Fbaodv.Proofs.NodeOps
import Fbaodv.Proofs.NeighTables
import Fbaodv.Proofs.OrphanRoutes

namespace Fbaodv.Proofs.Isolation

open Fbaodv.Model Fbaodv.Model.Node Fbaodv.Foundation Fbaodv.Foundation.Lockstep
open Fbaodv.Proofs.RoutingInvariant Fbaodv.Proofs.NodeRun Fbaodv.Proofs.NodeOps
open Fbaodv.Proofs.Upkeep Fbaodv.Proofs.NeighActs Fbaodv.Proofs.TwinRuns
open Fbaodv.Proofs.PacketDiscovery Fbaodv.Proofs.NeighLoss Fbaodv.Proofs.OrphanRoutes

variable {n n' : Node} {t : Task}

/-- A task that carries a message from a blacklisted address. -/
def isBlack (l : List Ip) (t : Task) : Bool := t.data.isSome && l.contains t.srcIp

section Timers

/-- No timer carries a message. -/
def TimersBare (n : Node) : Prop := ∀ t ∈ n.timers.queue, t.data = none

theorem TimersBare.of_eq (hn : TimersBare n) (h : n'.timers = n.timers) : TimersBare n' := by
  unfold TimersBare
  rw [h]
  exact hn

theorem TimersBare.insert (hn : TimersBare n) {new : Task} (hnew : new.data = none) :
    TimersBare { n with timers := n.timers.insert new } := by
  intro t ht
  unfold TimerQueue.insert at ht
  split at ht
  · rcases OrderedList.mem_insertBy.mp ht with rfl | ht
    · exact hnew
    · exact hn t ht
  · exact hn t ht

theorem TimersBare.insertTimerDir (hn : TimersBare n) (type : TaskType) (delay : ℕ) (retries : UInt8)
    (srcIp dstIp : Ip) (tos : UInt8) :
    TimersBare (n.insertTimerDir type delay retries srcIp dstIp tos) := by
  refine hn.insert ?_
  split
  · rfl
  split <;> rfl

theorem TimersBare.updateTimers (hn : TimersBare n) : TimersBare n.updateTimers := by
  intro t ht
  refine hn t ?_
  rwa [Node.updateTimers, updateTimerQueue_queue] at ht

theorem TimersBare.sideOp (hn : TimersBare n) (h : SideOp n n') : TimersBare n' := by
  cases h with
  | still h => exact hn.of_eq h.timers
  | insertTimer type delay ip => exact hn.insert rfl
  | answerTimer srcIp dstIp tos => exact hn.insertTimerDir _ _ _ _ _ _
  | removeTimer srcIp dstIp tos type => exact fun t ht ↦ hn t (List.mem_of_mem_eraseP ht)
  | updateTimers => exact hn.updateTimers
  | send s => exact hn.of_eq rfl

theorem TimersBare.flooded {srcIp dstIp : Ip} {tos retries : UInt8} {m : Rreq} (hn : TimersBare n)
    (h : Flooded n srcIp dstIp tos retries m n') : TimersBare n' :=
  ((hn.insertTimerDir .resendRreq 0 retries srcIp dstIp tos).updateTimers).of_eq h.timers

theorem TimersBare.ops {n₀ : Node} (hn : TimersBare n) (h : Ops n₀ t n n') : TimersBare n' := by
  induction h with
  | refl => exact hn
  | tail _ h ih =>
    cases h with
    | side h => exact ih.sideOp h
    | routing | sendPackets | forward => exact ih.of_eq rfl
    | flood _ h =>
      rcases genRreq_cases h with ⟨-, rfl⟩ | ⟨m, h⟩
      · exact ih.of_eq rfl
      · exact ih.flooded h
    | resend _ h =>
      rcases resendRreq_cases h with ⟨-, rfl⟩ | ⟨-, ⟨-, rfl⟩ | ⟨m, h⟩⟩
      · exact ih.of_eq rfl
      · exact ih.of_eq rfl
      · exact ih.flooded h

theorem TimersBare.reportOps (hn : TimersBare n) (h : ReportOps n n') : TimersBare n' := by
  induction h with
  | refl => exact hn
  | tail _ h ih =>
    cases h with
    | side h => exact ih.sideOp h
    | routing | links => exact ih.of_eq rfl
    | rerr | rcvp => exact ih.of_eq (sendMessage_frame _ _ _ _).1

theorem TimersBare.handle (hn : TimersBare n) (h : n.handle t = some n') : TimersBare n' := by
  have hside : ∀ {k k' : Node}, TimersBare k → SideOps k k' → TimersBare k' :=
    fun hk h ↦ hk.reportOps h.reportOps
  cases handle_ops h with
  | plain h => exact hn.ops h
  | genRerr h₁ h h₂ => exact hside ((hside hn h₁).reportOps (reportOps_genRerr h)) h₂
  | recvRerr h => exact hn.reportOps (reportOps_recvRerr h)
  | genRcvp h₁ h₂ => exact ((hn.ops h₁).reportOps (reportOps_genRcvp _ _)).ops h₂
  | recvRcvp h => exact h ▸ hn.reportOps (reportOps_recvRcvp _ _)

theorem TimersBare.signal (hn : TimersBare n) : TimersBare n.signal := by
  obtain ⟨tasks, heq, -⟩ := signal_eq n
  rw [heq]
  exact fun t ht ↦ hn t (mem_of_rest ht)

theorem TimersBare.step {e : Event} (hn : TimersBare n) (h : n.step e = some n') : TimersBare n' := by
  rcases step_ops h with hops | ⟨t, tasks, rfl, hpop, -⟩
  · clear h
    induction hops with
    | refl => exact hn
    | tail _ h ih =>
      cases h with
      | side h => exact ih.sideOp h
      | routing | arrival | miss | enqueue => exact ih.of_eq rfl
      | signal => exact ih.signal
  · simp only [Node.step, threadStep, hpop] at h
    exact TimersBare.handle (n := { n with tasks := tasks }) hn h

end Timers

section Isolated

variable {l : List Ip}

/-- The second node differs from the first at most in what it has sent and in
the tasks from blacklisted addresses, which it lacks. -/
def Isolated (l : List Ip) (n n' : Node) : Prop :=
  Twin (n.tasks.filter fun t ↦ !isBlack l t) n n'

theorem Isolated.read {β : Type} (h : Isolated l n n') {f : Node → β}
    (hf : ∀ q s, f { n with tasks := q, sent := s } = f n) : f n' = f n :=
  Twin.read h fun s ↦ hf _ s

theorem Isolated.map (h : Isolated l n n') {f : Node → Node}
    (hf : ∀ {q k k'}, Twin q k k' → Twin q (f k) (f k')) : Isolated l (f n) (f n') := by
  unfold Isolated
  rw [tasks_of_twin hf]
  exact hf h

theorem Isolated.queueTask (h : Isolated l n n') (ht : isBlack l t = false) :
    Isolated l (n.queueTask t) (n'.queueTask t) := by
  obtain ⟨s, rfl⟩ := h
  refine ⟨s, ?_⟩
  have hfilter : (n.tasks.pushBack (fun t ↦ isControlTask t.type) t).filter (fun t ↦ !isBlack l t) =
      (n.tasks.filter fun t ↦ !isBlack l t).pushBack (fun t ↦ isControlTask t.type) t :=
    ClassQueue.filter_pushBack (by simp [ht]) n.tasks
  simp only [Node.queueTask, hfilter]

theorem Isolated.queueTaskAtFront (h : Isolated l n n') (ht : isBlack l t = false) :
    Isolated l (n.queueTaskAtFront t) (n'.queueTaskAtFront t) := by
  obtain ⟨s, rfl⟩ := h
  refine ⟨s, ?_⟩
  have hfilter : (n.tasks.pushFront (fun t ↦ isControlTask t.type) t).filter (fun t ↦ !isBlack l t) =
      (n.tasks.filter fun t ↦ !isBlack l t).pushFront (fun t ↦ isControlTask t.type) t :=
    ClassQueue.filter_pushFront (by simp [ht]) n.tasks
  simp only [Node.queueTaskAtFront, hfilter]

theorem Isolated.insertTask (h : Isolated l n n') {p : Packet} (hp : l.contains p.saddr = false)
    (m : Message) : Isolated l (n.insertTask p m) (n'.insertTask p m) := by
  have halloc : ∀ {k k' : Node}, Isolated l k k' → k'.alloc.1 = k.alloc.1 ∧ Isolated l k.alloc.2 k'.alloc.2 :=
    fun h ↦ ⟨h.read (f := fun k ↦ k.alloc.1) fun _ _ ↦ rfl, h.map fun h ↦ (twin_alloc h).2⟩
  obtain ⟨h₁, h⟩ := halloc h
  obtain ⟨h₂, h'⟩ := halloc h
  have hnow : n'.alloc.2.alloc.2.now = n.alloc.2.alloc.2.now := h'.read fun _ _ ↦ rfl
  unfold Node.insertTask
  dsimp only
  rw [h₁, h₂, hnow]
  refine rel_ite Iff.rfl h (rel_ite Iff.rfl h' (h'.queueTask ?_))
  exact (Bool.true_and _).trans hp

theorem Isolated.inputHandler (h : Isolated l n n') {p : Packet}
    (hp : p.isAodv = true → l.contains p.saddr = false) :
    Isolated l (n.inputHandler p).2 (n'.inputHandler p).2 := by
  have h := h.map (f := fun k ↦ k.dtnInput p) fun h ↦ twin_dtnInput h p
  have hcfg : (n'.dtnInput p).cfg = (n.dtnInput p).cfg := h.read fun _ _ ↦ rfl
  have hsnd : ∀ {c : Prop} [Decidable c] {x x' y y' : Verdict × Node},
      (Isolated l x.2 x'.2) → (c → Isolated l y.2 y'.2) → Isolated l (if c then y else x).2 (if c then y' else x').2 := by
    intro c _ x x' y y' hx hy
    by_cases hc : c
    · rw [if_pos hc, if_pos hc]
      exact hy hc
    · rw [if_neg hc, if_neg hc]
      exact hx
  unfold Node.inputHandler
  dsimp only
  rw [hcfg]
  refine hsnd (hsnd h fun haodv ↦ ?_) fun _ ↦ h
  unfold packetIn
  rcases p.message with _ | m
  · exact h
  · exact hsnd (h.insertTask (hp haodv) _) fun _ ↦ h

theorem Isolated.outputHandler (h : Isolated l n n') (skb : Skb) :
    Option.Rel (fun x x' : Verdict × Node ↦ x'.1 = x.1 ∧ Isolated l x.2 x'.2)
      (n.outputHandler skb) (n'.outputHandler skb) := by
  have hflow : ∀ ip, n'.flowAddr ip = n.flowAddr ip := fun ip ↦ h.read (f := (·.flowAddr ip)) fun _ _ ↦ rfl
  have hrouting : n'.routing = n.routing := h.read fun _ _ ↦ rfl
  have hcfg : n'.cfg = n.cfg := h.read fun _ _ ↦ rfl
  have hnow : n'.now = n.now := h.read fun _ _ ↦ rfl
  have halloc : n'.alloc.1 = n.alloc.1 ∧ Isolated l n.alloc.2 n'.alloc.2 :=
    ⟨h.read (f := fun k ↦ k.alloc.1) fun _ _ ↦ rfl, h.map fun h ↦ (twin_alloc h).2⟩
  have hnow' : n'.alloc.2.now = n.alloc.2.now := halloc.2.read fun _ _ ↦ rfl
  unfold Node.outputHandler
  dsimp only
  rw [hflow, hflow, hrouting, hcfg, hnow, halloc.1, hnow']
  refine rel_ite Iff.rfl (.some ⟨rfl, h⟩) (rel_ite Iff.rfl (.some ⟨rfl, h⟩) ?_)
  split
  · exact rel_ite Iff.rfl (rel_ite Iff.rfl .none (.some ⟨rfl, halloc.2.queueTaskAtFront rfl⟩))
      (rel_ite Iff.rfl (.some ⟨rfl, h⟩) (.some ⟨rfl, h⟩))
  · next e _ =>
    refine .some ⟨rfl, ?_⟩
    obtain ⟨s, rfl⟩ := h
    dsimp only
    split
    · split
      · exact ⟨s, rfl⟩
      · exact ⟨s, rfl⟩
    · exact ⟨s, rfl⟩

theorem Isolated.sendPacket (h : Isolated l n n') (skb : Skb) :
    Option.Rel (fun x x' : Verdict × Node ↦ x'.1 = x.1 ∧ Isolated l x.2 x'.2)
      (n.sendPacket skb) (n'.sendPacket skb) := by
  unfold Node.sendPacket
  refine rel_bind (h.outputHandler skb) ?_
  rintro ⟨v, k⟩ ⟨v', k'⟩ ⟨hv, h⟩
  dsimp only at hv h
  subst hv
  have hpackets : k'.packets = k.packets := h.read fun _ _ ↦ rfl
  dsimp only
  rw [hpackets]
  refine rel_ite Iff.rfl (.some ⟨rfl, ?_⟩) (.some ⟨rfl, h⟩)
  obtain ⟨s, rfl⟩ := h
  exact ⟨s, rfl⟩

theorem Isolated.signal (h : Isolated l n n') (hbare : TimersBare n) : Isolated l n.signal n'.signal := by
  have hcfg : n'.cfg = n.cfg := h.read fun _ _ ↦ rfl
  have hnow : n'.now = n.now := h.read fun _ _ ↦ rfl
  have htimers : n'.timers = n.timers := h.read fun _ _ ↦ rfl
  have hfold : ∀ (due : List Task), (∀ t ∈ due, t.data = none) → ∀ {k k' : Node}, Isolated l k k' →
      Isolated l (due.foldl (fun k t ↦ k.queueTask t) k) (due.foldl (fun k t ↦ k.queueTask t) k') := by
    intro due
    induction due with
    | nil => exact fun _ _ _ h ↦ h
    | cons t due ih =>
      intro hdue k k' h
      refine ih (fun t ht ↦ hdue t (List.mem_cons_of_mem _ ht)) (h.queueTask ?_)
      simp [isBlack, hdue t List.mem_cons_self]
  unfold Node.signal
  rw [hcfg, hnow, htimers]
  rcases hsignal : timerQueueSignal n.cfg.hz n.now { n.timers with aodvTimer := none } with ⟨due, timers⟩
  have hdue : ∀ t ∈ due, t.data = none := by
    intro t ht
    have ht : t ∈ (timerQueueSignal n.cfg.hz n.now { n.timers with aodvTimer := none }).1 := by
      rwa [hsignal]
    exact hbare t (mem_of_due ht)
  refine hfold due hdue ?_
  obtain ⟨s, rfl⟩ := h
  exact ⟨s, rfl⟩

theorem Isolated.threadStep (h : Isolated l n n')
    (hkept : ∀ t tasks, n.tasks.pop = (some t, tasks) → isBlack l t = false) :
    Option.Rel (Isolated l) n.threadStep n'.threadStep := by
  obtain ⟨s, rfl⟩ := h
  unfold Node.threadStep
  rcases hpop : n.tasks.pop with ⟨_ | t, tasks⟩
  · have hpop' := (ClassQueue.pop_filter_none (p := fun t ↦ !isBlack l t) hpop).2
    dsimp only
    rw [hpop']
    exact .some ⟨s, rfl⟩
  · have hpop' := ClassQueue.pop_filter (p := fun t ↦ !isBlack l t) hpop (by simp [hkept t tasks hpop])
    dsimp only
    rw [hpop']
    have htwin : Twin (tasks.filter fun t ↦ !isBlack l t) { n with tasks := tasks }
        { n with tasks := tasks.filter fun t ↦ !isBlack l t, sent := s } := ⟨s, rfl⟩
    refine rel_mono (twin_handle htwin t) fun k k' hk h ↦ ?_
    have htasks : k.tasks = tasks := handle_tasks hk
    rw [← htasks] at h
    exact h

end Isolated

section Dropped

/-- A message from a blacklisted address that the code does not use: an RCVP for
which no broken link is recorded, and an RERR for which no route goes over its
sender. -/
structure Unused (n : Node) (t : Task) : Prop where
  rcvp : ∀ m, t.data = some (.rcvp m) → n.findBrkLink m.srcIp m.dstIp = none
  rerr : ∀ m e, t.data = some (.rerr m) →
    n.routing.findAodvRouteById m.dstIp m.dstId = some e → e.nextHop ≠ t.srcIp

/-- No neighbour has a blacklisted address. -/
def NeighsTrusted (n : Node) : Prop :=
  ∀ x ∈ n.aodvNeighList, n.cfg.aodvBlacklistIp.contains x.ip = false

theorem NeighsTrusted.find (hn : NeighsTrusted n) {ip : Ip} (h : n.cfg.aodvBlacklistIp.contains ip = true) :
    n.findAodvNeigh ip = none := by
  refine Option.eq_none_iff_forall_ne_some.mpr fun x hx ↦ ?_
  obtain ⟨hmem, hip⟩ := OrderedList.findWhile_mem hx
  have hip : x.ip = ip := by simpa using hip
  have hfalse := hn x hmem
  rw [hip, h] at hfalse
  cases hfalse

/-- Nothing has changed but what was sent. -/
def OnlySends (n n' : Node) : Prop := ∃ s, n' = { n with sent := s }

theorem onlySends_ite {c : Prop} [Decidable c] {k k' : Node} (h : OnlySends n k) (h' : OnlySends n k') :
    OnlySends n (if c then k else k') := by
  split
  · exact h
  · exact h'

theorem OnlySends.send2dtn {k : Node} (h : OnlySends n k) (port : UInt16) (x y z w : UInt32) :
    OnlySends n (k.send2dtn port x y z w) := by
  obtain ⟨s, rfl⟩ := h
  exact ⟨_, rfl⟩

theorem OnlySends.sendMessage {k : Node} (h : OnlySends n k) (ip : Ip) (ttl : UInt8) (m : Message) :
    OnlySends n (k.sendMessage ip ttl m) := by
  obtain ⟨s, rfl⟩ := h
  exact onlySends_ite ⟨s, rfl⟩ (onlySends_ite ⟨s, rfl⟩ ⟨_, rfl⟩)

theorem recvRerr_onlySends {m : Rerr}
    (hunused : ∀ e, n.routing.findAodvRouteById m.dstIp m.dstId = some e → e.nextHop ≠ t.srcIp)
    (h : n.recvRerr t m = some n') : OnlySends n n' := by
  have hself : OnlySends n n := ⟨n.sent, rfl⟩
  unfold recvRerr at h
  dsimp only at h
  generalize hk : (if n.dtnRegister = true then _ else n) = k at h
  have hsent : OnlySends n k := hk ▸ onlySends_ite (hself.send2dtn _ _ _ _ _) hself
  have hrouting : k.routing = n.routing := by
    obtain ⟨s, rfl⟩ := hsent
    rfl
  rw [hrouting] at h
  rcases hfind : n.routing.findAodvRouteById m.dstIp m.dstId with _ | e
  · rw [hfind] at h
    exact Option.some.inj h ▸ hsent
  · rw [hfind] at h
    dsimp only at h
    rw [if_pos (hunused e hfind)] at h
    exact Option.some.inj h ▸ hsent

theorem recvRcvp_onlySends {m : Rcvp} (hunused : n.findBrkLink m.srcIp m.dstIp = none) :
    OnlySends n (n.recvRcvp m) := by
  have hself : OnlySends n n := ⟨n.sent, rfl⟩
  unfold recvRcvp
  dsimp only
  generalize hk : (if n.dtnRegister = true then _ else n) = k
  have hsent : OnlySends n k := hk ▸ onlySends_ite (hself.send2dtn _ _ _ _ _) hself
  have hfind : k.findBrkLink m.srcIp m.dstIp = none := by
    obtain ⟨s, rfl⟩ := hsent
    exact hunused
  rw [hfind]
  exact hsent

theorem recvRrdp_onlySends (t : Task) (m : Rrdp) (n : Node) : OnlySends n (n.recvRrdp t m).2 := by
  have hself : OnlySends n n := ⟨n.sent, rfl⟩
  unfold recvRrdp
  split
  · exact hself
  split
  · exact hself
  split
  · split
    · dsimp only
      exact hself.sendMessage _ _ _
    · exact hself
  · exact onlySends_ite (hself.send2dtn _ _ _ _ _) hself

theorem handle_onlySends {m : Message} (hn : NeighsTrusted n) (hdata : t.data = some m)
    (htype : t.type = m.taskType) (hblack : n.cfg.aodvBlacklistIp.contains t.srcIp = true)
    (hunused : Unused n t) (h : n.handle t = some n') : OnlySends n n' := by
  have hnone := hn.find hblack
  have hself : some n = some n' → OnlySends n n' := fun heq ↦ ⟨n.sent, (Option.some.inj heq).symm⟩
  unfold handle at h
  rw [htype, hdata] at h
  cases m with
  | rreq m =>
    have h : n.recvRreq t m = some n' := h
    unfold recvRreq at h
    rw [hnone] at h
    split at h
    · exact hself h
    · exact hself h
  | rrep m =>
    have h : n.recvRrep t m = some n' := h
    unfold recvRrep at h
    rw [hnone] at h
    exact hself h
  | rerr m => exact recvRerr_onlySends (fun e ↦ hunused.rerr m e hdata) h
  | hello m =>
    have h : n.recvHello t m = some n' := h
    unfold recvHello at h
    rw [if_pos hblack] at h
    exact hself h
  | rcvp m => exact Option.some.inj h ▸ recvRcvp_onlySends (hunused.rcvp m hdata)
  | rrdp m => exact Option.some.inj h ▸ recvRrdp_onlySends t m n
  | strreq m =>
    have h : some (n.recvRreqSt t m) = some n' := h
    unfold recvRreqSt at h
    rw [hnone] at h
    exact hself h
  | sprobe m =>
    have h : some (n.recvSprobe t m) = some n' := h
    unfold recvSprobe at h
    rw [hnone] at h
    exact hself h
  | lprobe m =>
    have h : n.recvLprobe t m = some n' := h
    unfold recvLprobe at h
    rw [hnone] at h
    exact hself h
  | ettInfo m =>
    have h : n.recvEttInfo t m = some n' := h
    unfold recvEttInfo at h
    rw [hnone] at h
    exact hself h

/-- The events that the second run does without: AODV packets from blacklisted
addresses and the handling of their tasks. -/
def isDropped (n : Node) : Event → Bool
  | .input p => p.isAodv && n.cfg.aodvBlacklistIp.contains p.saddr
  | .thread => n.tasks.pop.1.any (isBlack n.cfg.aodvBlacklistIp)
  | _ => false

/-- What the second run relies on: when a packet from a blacklisted address
comes in, no allocation fails any more, and its message is not used. -/
structure Harmless (n : Node) (e : Event) : Prop where
  memory : ∀ p, e = .input p → isDropped n e = true → n.kmalloc = []
  unused : ∀ t tasks, e = .thread → n.tasks.pop = (some t, tasks) →
    isBlack n.cfg.aodvBlacklistIp t = true → Unused n t

theorem inputHandler_black {p : Packet} (hp : p.isAodv = true) (hmemory : n.kmalloc = []) :
    (n.inputHandler p).2 = n ∨ ∃ m, (n.inputHandler p).2 = n.queueTask
      { createTask m.taskType n.now with
        srcIp := p.saddr, dstIp := p.daddr, ttl := p.ttl, data := some m } := by
  simp only [Packet.isAodv, Bool.and_eq_true] at hp
  obtain ⟨⟨hudp, hport⟩, haddr⟩ := hp
  have hport : p.udpDest = aodvPort := by simpa using hport
  have hinput : n.inputHandler p = n.packetIn p := by
    have hdtn : n.dtnInput p = n := by simp [dtnInput, hport, aodvPort, dtnRegisterPort, getDtnHello, aodvLocationPort]
    unfold inputHandler
    rw [hdtn]
    simp [hudp, hport, haddr, aodvPort, dtnHelloPort]
  have halloc : n.alloc = (true, n) := by
    have heq : ({ n with kmalloc := [] } : Node) = n := by rw [← hmemory]
    unfold alloc
    rw [hmemory]
    exact congrArg (Prod.mk true) heq
  rw [hinput]
  unfold packetIn
  rcases p.message with _ | m
  · exact .inl rfl
  · dsimp only
    split
    · exact .inl rfl
    · refine .inr ⟨m.stamp p.sec p.usec, ?_⟩
      unfold insertTask
      simp only [halloc]
      rfl

end Dropped

section Invariants

/-- A task that carries a message has the type of the message. -/
def TasksTyped (q : ClassQueue Task) : Prop := ∀ t ∈ q.elems, ∀ m, t.data = some m → t.type = m.taskType

/-- What is known of the timers, the tasks, the neighbours and the routes of every
node. -/
structure Typed (n : Node) : Prop where
  timers : TimersBare n
  tasks : TasksTyped n.tasks
  neigh : NeighsTrusted n
  routes : WellFormed n.cfg n.routing

theorem NeighsTrusted.of_ips (hn : NeighsTrusted n) (hcfg : n'.cfg = n.cfg)
    (h : ∀ x' ∈ n'.aodvNeighList, ∃ x ∈ n.aodvNeighList, x'.ip = x.ip) : NeighsTrusted n' := by
  intro x' hx'
  obtain ⟨x, hx, hip⟩ := h x' hx'
  rw [hcfg, hip]
  exact hn x hx

theorem NeighsTrusted.of_eq (hn : NeighsTrusted n) (hcfg : n'.cfg = n.cfg)
    (h : n'.aodvNeighList = n.aodvNeighList) : NeighsTrusted n' :=
  hn.of_ips hcfg fun x hx ↦ ⟨x, h ▸ hx, rfl⟩

theorem NeighsTrusted.same (hn : NeighsTrusted n) (h : NeighSame n n') : NeighsTrusted n' :=
  hn.of_ips h.cfg fun _ hx' ↦ by
    obtain ⟨x, hx, htouch⟩ := Pointwise.exists_of_mem_right h.neigh hx'
    exact ⟨x, hx, htouch.ip⟩

theorem NeighsTrusted.modifyNeigh (hn : NeighsTrusted n) (ip : Ip) {f : AodvNeigh → AodvNeigh}
    (hf : ∀ x, (f x).ip = x.ip) : NeighsTrusted (n.modifyNeigh ip f) := by
  refine hn.of_ips rfl fun x' hx' ↦ ?_
  have hmem : x'.ip ∈ n.aodvNeighList.map AodvNeigh.ip := by
    rw [← OrderedList.map_modifyFirst (p := fun x ↦ x.ip == ip) hf n.aodvNeighList]
    exact List.mem_map_of_mem hx'
  obtain ⟨x, hx, hip⟩ := List.mem_map.mp hmem
  exact ⟨x, hx, hip.symm⟩

theorem NeighsTrusted.act {n₀ : Node} (hn₀ : NeighsTrusted n₀) (hn : NeighsTrusted n)
    (h : NeighAct n₀ t n n') : NeighsTrusted n' := by
  cases h with
  | same h => exact hn.same h
  | refresh => exact NeighsTrusted.modifyNeigh (hn.of_eq rfl rfl) _ fun _ ↦ rfl
  | arm | rearm | stop | probe | renew => exact hn.of_eq rfl rfl
  | meet _ hblack _ h =>
    obtain ⟨hcfg, hneigh⟩ := takeNeigh2h_frame t.srcIp n
    have hn₁ : NeighsTrusted (n.takeNeigh2h t.srcIp).2.2 := hn.of_eq hcfg hneigh
    rcases createAodvNeigh_spec h with ⟨-, h⟩ | ⟨-, h⟩
    · exact hn₁.same h
    · intro x hx
      rw [h.neigh] at hx
      rcases OrderedList.mem_insertBy.mp hx with rfl | hx
      · rw [h.cfg, hcfg]
        exact hblack
      · rw [h.cfg]
        exact hn₁ x hx
  | lose =>
    obtain ⟨hcfg, hneigh, -⟩ := unlinkNeigh_frame t.srcIp n
    exact hn.of_ips hcfg fun x hx ↦ ⟨x, List.mem_of_mem_eraseP (hneigh ▸ hx), rfl⟩
  | lose2h =>
    obtain ⟨hcfg, hneigh⟩ := deleteAodvNeigh2h_frame t.srcIp n
    exact hn.of_eq hcfg hneigh
  | takeLoad => exact hn.modifyNeigh _ fun _ ↦ rfl
  | ownLoad | extLoad => exact hn.modifyNeigh _ (updateNeighLoad_ip _ _)
  | @refresh2h _ _ ext =>
    obtain ⟨hcfg, hneigh⟩ := refreshNeigh2h_frame ext.ip n
    exact hn.of_eq hcfg hneigh
  | extLoad2h => exact hn.of_eq rfl rfl
  | neightx => exact hn.modifyNeigh _ (updateNeightx_ip _)

theorem NeighsTrusted.step {e : Event} (hn : NeighsTrusted n) (h : n.step e = some n') :
    NeighsTrusted n' := by
  cases step_neigh h with
  | wait ms => exact hn.of_eq rfl rfl
  | idle h => exact hn.of_eq h.cfg h.neigh
  | signal =>
    obtain ⟨hcfg, -, hneigh, -⟩ := signal_neigh n
    exact hn.of_eq hcfg hneigh
  | @thread t tasks _ hpop hacts =>
    have hn₀ : NeighsTrusted { n with tasks := tasks } := hn.of_eq rfl rfl
    clear h hn
    induction hacts with
    | refl => exact hn₀
    | tail _ hact ih => exact NeighsTrusted.act hn₀ ih hact

theorem TasksTyped.queueTask (hn : TasksTyped n.tasks) (ht : ∀ m, t.data = some m → t.type = m.taskType) :
    TasksTyped (n.queueTask t).tasks := by
  intro t' ht'
  rcases ClassQueue.mem_pushBack.mp ht' with rfl | ht'
  · exact ht
  · exact hn t' ht'

theorem TasksTyped.inputHandler (hn : TasksTyped n.tasks) (p : Packet) :
    TasksTyped (n.inputHandler p).2.tasks := by
  have hdtn : TasksTyped (n.dtnInput p).tasks := by
    rw [tasks_of_twin (f := fun k ↦ k.dtnInput p) (fun h ↦ twin_dtnInput h p)]
    exact hn
  unfold Node.inputHandler
  dsimp only
  split
  · exact hdtn
  split
  · unfold packetIn
    split
    · exact hdtn
    split
    · exact hdtn
    · unfold insertTask
      dsimp only
      split
      · exact hdtn
      split
      · exact hdtn
      · exact TasksTyped.queueTask (n := (n.dtnInput p).alloc.2.alloc.2) hdtn fun m hm ↦
          Option.some.inj hm ▸ rfl
  · exact hdtn

theorem TasksTyped.outputHandler {skb : Skb} {v : Verdict} (hn : TasksTyped n.tasks)
    (h : n.outputHandler skb = some (v, n')) : TasksTyped n'.tasks := by
  have hsame : ∀ {w : Verdict}, some (w, n) = some (v, n') → TasksTyped n'.tasks := fun heq ↦
    (Prod.mk.inj (Option.some.inj heq)).2 ▸ hn
  unfold Node.outputHandler at h
  split at h
  · exact hsame h
  dsimp only at h
  split at h
  · exact hsame h
  split at h
  · split at h
    · split at h
      · cases h
      · obtain rfl := (Prod.mk.inj (Option.some.inj h)).2
        intro t ht
        rcases ClassQueue.mem_pushFront.mp ht with rfl | ht
        · intro m hm
          cases hm
        · exact hn t ht
    · split at h
      · exact hsame h
      · exact hsame h
  · obtain rfl := (Prod.mk.inj (Option.some.inj h)).2
    split
    · split
      · exact hn
      · exact hn
    · exact hn

theorem Typed.step {e : Event} (hn : Typed n) (h : n.step e = some n') : Typed n' where
  timers := hn.timers.step h
  neigh := hn.neigh.step h
  routes := step_wellFormed hn.routes h
  tasks := by
    have htasks : TasksTyped n.tasks := hn.tasks
    cases e with
    | wait ms => exact Option.some.inj h ▸ htasks
    | input p => exact Option.some.inj h ▸ htasks.inputHandler p
    | output skb =>
      obtain ⟨⟨v, n₁⟩, hsend, rfl⟩ := Option.map_eq_some_iff.mp h
      obtain ⟨⟨w, n₂⟩, hout, hsend⟩ := Option.bind_eq_some_iff.mp hsend
      have hout := htasks.outputHandler hout
      dsimp only at hsend
      split at hsend
      · obtain rfl := (Prod.mk.inj (Option.some.inj hsend)).2
        exact hout
      · obtain rfl := (Prod.mk.inj (Option.some.inj hsend)).2
        exact hout
    | signal =>
      obtain ⟨tasks, heq, hperm⟩ := signal_eq n
      obtain rfl := Option.some.inj h
      rw [heq]
      intro t ht m hm
      rcases List.mem_append.mp (hperm.mem_iff.mp ht) with ht | ht
      · cases (hn.timers t (mem_of_due ht)).symm.trans hm
      · exact htasks t ht m hm
    | thread =>
      simp only [Node.step, threadStep] at h
      split at h
      · exact Option.some.inj h ▸ htasks
      · next t tasks hpop =>
        have hkept : n'.tasks = tasks := handle_tasks h
        rw [hkept]
        exact fun t' ht' ↦ htasks t' (ClassQueue.pop_subset hpop ht')

theorem step_cfg {e : Event} (hr : WellFormed n.cfg n.routing) (h : n.step e = some n') :
    n'.cfg = n.cfg := by
  rcases step_cases hr h with ⟨t, tasks, -, -, hhandled⟩ | ⟨hcfg, -⟩
  · exact hhandled.1
  · exact hcfg

theorem init_typed (cfg : Config) (env : Environment) : Typed (Node.init cfg env) := by
  obtain ⟨hcfg, hrouting⟩ := init_frame cfg env
  refine ⟨?_, ?_, ?_, by rw [hcfg, hrouting]; exact initRouting_wellFormed _ _ _ _⟩
  · have hsimple : ∀ {n : Node} (type : TaskType) (delay : ℕ) (ip : Ip), TimersBare n →
        TimersBare (n.insertTimer type delay ip) := fun _ _ _ hn ↦ hn.insert rfl
    unfold Node.init
    refine (hsimple _ _ _ (hsimple _ _ _ (hsimple _ _ _ ?_))).updateTimers
    split
    · exact hsimple _ _ _ fun t ht ↦ absurd ht List.not_mem_nil
    · exact fun t ht ↦ absurd ht List.not_mem_nil
  · unfold Node.init TasksTyped
    dsimp only
    split <;> exact fun t ht ↦ absurd ht List.not_mem_nil
  · unfold Node.init NeighsTrusted
    dsimp only
    split <;> exact fun t ht ↦ absurd ht List.not_mem_nil

end Invariants

section Runs

variable {l : List Ip}

/-- The first node with all its packets, and the second without those from
blacklisted addresses. -/
structure Together (l : List Ip) (n n' : Node) : Prop where
  blacklist : n.cfg.aodvBlacklistIp = l
  typed : Typed n
  isolated : Isolated l n n'

theorem Together.kept {k : Node} {e : Event} (h : Together l n n') (hkept : ¬ isDropped n e = true)
    (hs : n.step e = some k) : ∃ k', n'.step e = some k' ∧ Together l k k' := by
  have htyped := h.typed.step hs
  have hblack : k.cfg.aodvBlacklistIp = l := by rw [step_cfg h.typed.routes hs, h.blacklist]
  have hrel : Option.Rel (Isolated l) (n.step e) (n'.step e) := by
    cases e with
    | wait ms =>
      obtain ⟨s, hs⟩ := h.isolated
      exact .some ⟨s, by rw [hs]⟩
    | input p =>
      refine .some (h.isolated.inputHandler fun hp ↦ ?_)
      have hnot : ¬ (p.isAodv && n.cfg.aodvBlacklistIp.contains p.saddr) = true := hkept
      rw [hp, Bool.true_and, h.blacklist] at hnot
      exact eq_false_of_ne_true hnot
    | output skb =>
      have hsend := h.isolated.sendPacket skb
      unfold Node.step
      dsimp only
      generalize n.sendPacket skb = x at hsend ⊢
      generalize n'.sendPacket skb = x' at hsend ⊢
      cases hsend with
      | none => exact .none
      | some h => exact .some h.2
    | signal => exact .some (h.isolated.signal h.typed.timers)
    | thread =>
      refine h.isolated.threadStep fun t tasks hpop ↦ ?_
      have hnot : ¬ (n.tasks.pop.1.any (isBlack n.cfg.aodvBlacklistIp)) = true := hkept
      rw [hpop, h.blacklist] at hnot
      exact eq_false_of_ne_true hnot
  obtain ⟨k', hk', hisolated⟩ := rel_some hrel hs
  exact ⟨k', hk', hblack, htyped, hisolated⟩

theorem Together.dropped {k : Node} {e : Event} (h : Together l n n') (hgood : Harmless n e)
    (hdropped : isDropped n e = true) (hs : n.step e = some k) : Together l k n' := by
  refine ⟨by rw [step_cfg h.typed.routes hs, h.blacklist], h.typed.step hs, ?_⟩
  obtain ⟨s, hn'⟩ := h.isolated
  cases e with
  | input p =>
    have hmemory := hgood.memory p rfl hdropped
    have hp : (p.isAodv && n.cfg.aodvBlacklistIp.contains p.saddr) = true := hdropped
    rw [Bool.and_eq_true, h.blacklist] at hp
    obtain rfl := Option.some.inj hs
    rcases inputHandler_black hp.1 hmemory with hk | ⟨m, hk⟩
    · rw [hk]
      exact ⟨s, hn'⟩
    · rw [hk]
      refine ⟨s, ?_⟩
      have hfilter : ∀ t : Task, isBlack l t = true →
          (n.tasks.pushBack (fun t ↦ isControlTask t.type) t).filter (fun t ↦ !isBlack l t) =
            n.tasks.filter fun t ↦ !isBlack l t := fun t ht ↦
        ClassQueue.filter_pushBack_of_not (by simp [ht]) n.tasks
      have hblack : isBlack l { createTask m.taskType n.now with
          srcIp := p.saddr, dstIp := p.daddr, ttl := p.ttl, data := some m } = true :=
        (Bool.true_and _).trans hp.2
      simp only [Node.queueTask, hfilter _ hblack]
      exact hn'
  | thread =>
    have hany : (n.tasks.pop.1.any (isBlack n.cfg.aodvBlacklistIp)) = true := hdropped
    simp only [Node.step, threadStep] at hs
    split at hs
    · next hpop =>
      rw [hpop] at hany
      cases hany
    · next t tasks hpop =>
      rw [hpop] at hany
      have hblack : isBlack n.cfg.aodvBlacklistIp t = true := hany
      obtain ⟨hdata, hsrc⟩ := Bool.and_eq_true_iff.mp hblack
      obtain ⟨m, hm⟩ := Option.isSome_iff_exists.mp hdata
      have hmem : t ∈ n.tasks.elems := ClassQueue.pop_mem hpop
      have hunused := hgood.unused t tasks rfl hpop hblack
      obtain ⟨s', hk⟩ := handle_onlySends (n := { n with tasks := tasks }) h.typed.neigh hm
        (h.typed.tasks t hmem m hm) hsrc ⟨hunused.rcvp, hunused.rerr⟩ hs
      have hfilter := ClassQueue.pop_filter_of_not (p := fun t ↦ !isBlack l t) hpop
        (by rw [← h.blacklist, hblack]; rfl)
      rw [hk]
      refine ⟨s, ?_⟩
      simp only [hfilter]
      exact hn'
  | wait | output | signal => cases hdropped

theorem runs_eq (es : List Event) (n : Node) : runs es n = run Node.step es n := by
  induction es generalizing n with
  | nil => rfl
  | cons e es ih =>
    unfold runs run
    exact congrArg (Option.bind (n.step e)) (funext fun n ↦ ih n)

/-- Packets from blacklisted addresses change nothing in the tables of a run in
which they are harmless: the run without them ends with the same tables. -/
theorem tables_isolated {cfg : Config} {env : Environment} {es : List Event}
    (hharmless : Along Node.step Harmless es (Node.init cfg env))
    (hrun : runs es (Node.init cfg env) = some n) :
    ∃ n', runs (thinned Node.step (fun n e ↦ isDropped n e = true) es (Node.init cfg env))
        (Node.init cfg env) = some n' ∧
      n'.aodvNeighList = n.aodvNeighList ∧ n'.aodvNeighList2h = n.aodvNeighList2h ∧
      n'.routing.table = n.routing.table ∧ n'.brkList = n.brkList := by
  have htogether : Together (Node.init cfg env).cfg.aodvBlacklistIp (Node.init cfg env) (Node.init cfg env) := by
    refine ⟨rfl, init_typed cfg env, ?_⟩
    have hempty : (Node.init cfg env).tasks = ClassQueue.empty := by
      unfold Node.init
      dsimp only
      split <;> rfl
    have hself := Twin.self (Node.init cfg env)
    unfold Isolated
    rw [hempty] at hself ⊢
    exact hself
  rw [runs_eq] at hrun
  obtain ⟨n', hn', h⟩ := @run_thinned _ _ _ (fun n e ↦ isDropped n e = true) _ Harmless
    (Together (Node.init cfg env).cfg.aodvBlacklistIp)
    (fun h _ hkept hs ↦ h.kept hkept hs) (fun h hgood hd hs ↦ h.dropped hgood hd hs) _ _ _ _ htogether
    hharmless hrun
  refine ⟨n', (runs_eq _ _).trans hn', ?_⟩
  obtain ⟨s, rfl⟩ := h.isolated
  exact ⟨rfl, rfl, rfl, rfl⟩

end Runs

/-- The station with 192.168.1.5 on its blacklist. -/
def waryStation : Node :=
  Node.init { station.cfg with aodvBlacklistIp := [0x0501a8c0] }
    { now := 0
      routeMemory := []
      netlink := []
      routeJunk := []
      timerMemory := []
      packetMemory := []
      maxlen := 100
      memory := []
      rand := []
      junk := [] }

/-- A HELLO from the blacklisted 192.168.1.5. -/
def blackHello : List Event := [.input (heard 0x0501a8c0 (.hello ⟨0, 0, 1, []⟩)), .thread]

theorem tables_isolated_blackHello :
    thinned Node.step (fun n e ↦ isDropped n e = true) blackHello waryStation = [] ∧
      ∃ n n', runs blackHello waryStation = some n ∧ runs [] waryStation = some n' ∧
        n'.aodvNeighList = n.aodvNeighList ∧ n'.aodvNeighList2h = n.aodvNeighList2h ∧
        n'.routing.table = n.routing.table ∧ n'.brkList = n.brkList := by
  have hthinned : thinned Node.step (fun n e ↦ isDropped n e = true) blackHello waryStation = [] :=
    List.eq_nil_of_length_eq_zero (by decide +kernel)
  have hharmless : Along Node.step Harmless blackHello waryStation := by
    refine ⟨⟨fun _ _ _ ↦ rfl, fun _ _ h ↦ by cases h⟩, fun n hn ↦
      ⟨⟨fun _ h ↦ (by cases h), fun t tasks _ hpop _ ↦ ?_⟩, fun _ _ ↦ trivial⟩⟩
    have hn : (waryStation.inputHandler (heard 0x0501a8c0 (.hello ⟨0, 0, 1, []⟩))).2 = n :=
      Option.some.inj hn
    rw [← hn] at hpop
    have hdata : some (some (Message.hello ⟨0, 0, 1, []⟩)) = some t.data :=
      congrArg (fun p : Option Task × _ ↦ p.1.map Task.data) hpop
    rw [Option.some.injEq] at hdata
    exact ⟨fun m hm ↦ by simp [← hdata] at hm, fun m e hm ↦ by simp [← hdata] at hm⟩
  obtain ⟨n', hn', h⟩ := tables_isolated hharmless rfl
  exact ⟨hthinned, _, n', rfl, hthinned ▸ hn', h⟩

/-- A link of the station breaks, and then an RCVP for it comes from the
blacklisted 192.168.1.5. -/
def blackRcvp : List Event :=
  meetNeigh ++ expireNeigh ++
    [.input (heard 0x0501a8c0 (.rcvp ⟨0, 0x0201a8c0, 0x0101a8c0, 0⟩)), .thread]

/-- `recv_rcvp` takes the broken link away without a look at the sender. -/
theorem black_rcvp_taken :
    ∃ n n', runs blackRcvp waryStation = some n ∧
      runs (thinned Node.step (fun n e ↦ isDropped n e = true) blackRcvp waryStation) waryStation = some n' ∧
      n'.brkList ≠ n.brkList := by
  have hrun : (runs blackRcvp waryStation).map (fun n ↦ n.brkList.length) = some 0 := by decide +kernel
  have hthinned : (runs (thinned Node.step (fun n e ↦ isDropped n e = true) blackRcvp waryStation)
      waryStation).map (fun n ↦ n.brkList.length) = some 1 := by decide +kernel
  obtain ⟨n, hn, hlen⟩ := Option.map_eq_some_iff.mp hrun
  obtain ⟨n', hn', hlen'⟩ := Option.map_eq_some_iff.mp hthinned
  refine ⟨n, n', hn, hn', fun heq ↦ ?_⟩
  rw [heq, hlen] at hlen'
  cases hlen'

end Fbaodv.Proofs.Isolation
