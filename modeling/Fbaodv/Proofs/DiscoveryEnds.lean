import Fbaodv.Proofs.NodeOps
import Fbaodv.Proofs.OrphanRoutes

namespace Fbaodv.Proofs.DiscoveryEnds

open Fbaodv.Model Fbaodv.Model.Node Fbaodv.Foundation
open Fbaodv.Proofs.RouteFrame Fbaodv.Proofs.HandlerSpecs Fbaodv.Proofs.NodeRun
open Fbaodv.Proofs.Background Fbaodv.Proofs.NodeOps Fbaodv.Proofs.NeighLoss Fbaodv.Proofs.PacketDiscovery
open Fbaodv.Proofs.OrphanRoutes Relation

/-- Source, destination and ToS. -/
abbrev Flow := Ip × Ip × UInt8

def taskFlow (t : Task) : Flow := (t.srcIp, t.dstIp, t.tos)

/-- A `TASK_RESEND_RREQ` of the flow. -/
def isResend (f : Flow) (t : Task) : Bool := t.type == .resendRreq && taskFlow t == f

/-- A task of the discovery of the flow. -/
def isDiscovery (f : Flow) (t : Task) : Bool := isDiscoveryType t.type && taskFlow t == f

/-- An RREQ of the flow. -/
def isFlowRreq (f : Flow) : Sent → Bool
  | .broadcast _ (.rreq m) | .unicast _ _ (.rreq m) => (m.srcIp, m.dstIp, m.tos) == f
  | _ => false

def flowRreqs (f : Flow) (n : Node) : List Sent := n.sent.filter (isFlowRreq f)

/-- The packets of the flow that `ipq_drop_ip` has dropped. -/
def flowDrops (f : Flow) (n : Node) : List (Skb × Verdict) :=
  n.packets.reinjected.filter fun p ↦ (p.1.saddr, p.1.daddr, p.1.tos) == f && p.2 == .drop

/-- The task is an RREP for which `recv_rrep`, at the source of the flow, finds
and installs the route. -/
def InstallsRoute (f : Flow) (n : Node) (t : Task) : Prop :=
  t.type = .recvRrep ∧ ∃ m x ok r e, t.data = some (.rrep m) ∧ (m.srcIp, m.dstIp, m.tos) = f ∧
    n.findAodvNeigh t.srcIp = some x ∧ isRrepSource n m = true ∧
    n.routing.rreqAodvRoute n.cfg n.now m.srcIp m.dstIp m.tos x.ip x.sendRate (m.numHops + 1) m.dstId
      m.pathMetric = some (ok, r) ∧
    r.findAodvRouteById m.dstIp m.dstId = some e

def Installs (f : Flow) (n : Node) (e : Event) : Prop :=
  ∃ t tasks, e = .thread ∧ n.tasks.pop = (some t, tasks) ∧ InstallsRoute f n t

/-- The output hook schedules a `TASK_GEN_RREQ` for the flow. -/
def Schedules (f : Flow) (n : Node) (e : Event) : Prop :=
  ∃ skb n', e = .output skb ∧ n.outputHandler skb = some (.queue, n') ∧
    (n.flowAddr skb.saddr, n.flowAddr skb.daddr, skb.tos) = f

/-- The states after the route of the flow was installed and before a new
`TASK_GEN_RREQ`, where the installing step met `I` and every later one `C`. -/
inductive Ended (I C : Node → Event → Prop) (f : Flow) : Node → Prop
  | install {n n' : Node} {e : Event} (h : Reachable n) (hinstall : Installs f n e) (hI : I n e)
      (hs : n.step e = some n') : Ended I C f n'
  | later {n n' : Node} {e : Event} (h : Ended I C f n) (hnew : ¬Schedules f n e) (hC : C n e)
      (hs : n.step e = some n') : Ended I C f n'

/-- One discovery of the flow at most is under way, and it waits for its
timer. -/
def OneChain (f : Flow) (n : Node) (_ : Event) : Prop :=
  (n.timers.queue.filter (isResend f)).length ≤ 1 ∧ ∀ t ∈ n.tasks.elems, isDiscovery f t = false

/-- The step does not call `gen_rreq` for the flow without a task for it, as a
DTN hello and a new neighbour do. -/
def FloodsNot (f : Flow) (n : Node) (e : Event) : Prop :=
  ∀ t tasks, e = .thread → n.tasks.pop = (some t, tasks) → t.type ≠ .genRreq →
    ¬FloodsFor { n with tasks := tasks } t f.1 f.2.1 f.2.2

/-- The step passes on an RREQ of the flow that another node sent. -/
def PassesOn (f : Flow) (n : Node) (e : Event) : Prop :=
  f.1 ≠ n.cfg.gMeshIp ∧ ∃ t tasks, e = .thread ∧ n.tasks.pop = (some t, tasks) ∧ t.type = .recvRreq

/-- No discovery of the flow is under way. -/
structure Ceased (f : Flow) (n : Node) : Prop where
  timers : n.timers.queue.filter (isDiscovery f) = []
  tasks : ∀ t ∈ n.tasks.elems, isDiscovery f t = false

/-- The timer queue holds no `TASK_GEN_RREQ`, and packets wait under their own
addresses. -/
structure Orderly (n : Node) : Prop where
  timers : ∀ t ∈ n.timers.queue, t.type ≠ .genRreq
  packets : ∀ x ∈ n.packets.list, x = PacketQueue.ipqElement x.skb

section Orderly

variable {n n' : Node}

theorem Orderly.keep (hn : Orderly n) (htimers : n'.timers.queue ⊆ n.timers.queue)
    (hpackets : n'.packets.list ⊆ n.packets.list) : Orderly n' :=
  ⟨fun t ht ↦ hn.timers t (htimers ht), fun x hx ↦ hn.packets x (hpackets hx)⟩

theorem Orderly.insert {new : Task} (hn : Orderly n) (hnew : new.type ≠ .genRreq) :
    Orderly { n with timers := n.timers.insert new } := by
  refine ⟨fun t ht ↦ ?_, hn.packets⟩
  simp only [TimerQueue.insert] at ht
  split at ht
  · rcases OrderedList.mem_insertBy.mp ht with rfl | ht
    · exact hnew
    · exact hn.timers t ht
  · exact hn.timers t ht

theorem orderly_sideOp (h : SideOp n n') (hn : Orderly n) : Orderly n' := by
  cases h with
  | still h => exact hn.keep (by rw [h.timers]; exact .refl _) (by rw [h.packets]; exact .refl _)
  | insertTimer type delay ip htype =>
    refine hn.insert fun heq ↦ ?_
    rw [show type = .genRreq from heq] at htype
    cases htype
  | answerTimer => exact hn.insert fun heq ↦ by cases heq
  | removeTimer => exact hn.keep List.eraseP_subset (.refl _)
  | updateTimers => exact hn.keep (by simp [updateTimers]) (.refl _)
  | send => exact hn.keep (.refl _) (.refl _)

theorem orderly_reportOp (h : ReportOp n n') (hn : Orderly n) : Orderly n' := by
  cases h with
  | side h => exact orderly_sideOp h hn
  | routing | links => exact hn.keep (.refl _) (.refl _)
  | rerr | rcvp =>
    unfold sendMessage
    split
    · exact hn
    split
    · exact hn
    · exact hn.keep (.refl _) (.refl _)

theorem orderly_flooded {srcIp dstIp : Ip} {tos retries : UInt8} {m : Rreq}
    (h : Flooded n srcIp dstIp tos retries m n') (hn : Orderly n) : Orderly n' := by
  have hresend : Orderly (n.insertTimerDir .resendRreq 0 retries srcIp dstIp tos) :=
    hn.insert fun heq ↦ by cases heq
  refine hresend.keep ?_ (by rw [h.packets]; exact .refl _)
  rw [h.timers]
  simp [updateTimers]

theorem orderly_op {n₀ : Node} {t : Task} (h : Op n₀ t n n') (hn : Orderly n) : Orderly n' := by
  cases h with
  | side h => exact orderly_sideOp h hn
  | routing | forward => exact hn.keep (.refl _) (.refl _)
  | sendPackets => exact hn.keep (.refl _) (List.filter_subset_self _)
  | flood _ h =>
    rcases genRreq_cases h with ⟨-, rfl⟩ | ⟨m, h⟩
    · exact hn.keep (.refl _) (.refl _)
    · exact orderly_flooded h hn
  | resend _ h =>
    rcases resendRreq_cases h with ⟨-, rfl⟩ | ⟨-, ⟨-, rfl⟩ | ⟨m, h⟩⟩
    · exact hn.keep (.refl _) (List.filter_subset_self _)
    · exact hn.keep (.refl _) (.refl _)
    · exact orderly_flooded h hn

theorem ipqEnqueue_cases (skb : Skb) (q : PacketQueue) :
    (q.ipqEnqueue skb).2.reinjected = q.reinjected ∧
      ((q.ipqEnqueue skb).2.list = q.list ∨
        (q.ipqEnqueue skb).2.list = q.list ++ [PacketQueue.ipqElement skb]) := by
  unfold PacketQueue.ipqEnqueue
  dsimp only
  split
  · exact ⟨rfl, .inl rfl⟩
  split
  · exact ⟨rfl, .inl rfl⟩
  split
  · exact ⟨rfl, .inl rfl⟩
  · exact ⟨rfl, .inr rfl⟩

theorem orderly_hookOp {n₀ : Node} {e : Event} (h : HookOp n₀ e n n') (hn : Orderly n) :
    Orderly n' := by
  cases h with
  | side h => exact orderly_sideOp h hn
  | routing | arrival | miss => exact hn.keep (.refl _) (.refl _)
  | enqueue skb =>
    refine ⟨hn.timers, fun x hx ↦ ?_⟩
    rcases (ipqEnqueue_cases skb n.packets).2 with hlist | hlist
    · exact hn.packets x (hlist ▸ hx)
    · rcases List.mem_append.mp (hlist ▸ hx) with hx | hx
      · exact hn.packets x hx
      · rw [List.mem_singleton.mp hx]
        rfl
  | signal =>
    obtain ⟨tasks, heq, -⟩ := signal_eq n
    rw [heq]
    refine hn.keep ?_ (.refl _)
    simp only [timerQueueSignal, updateTimerQueue_queue, drainTimers_eq]
    exact List.dropWhile_subset _

end Orderly

/-- What an operation that has nothing to do with the flow leaves alone, but
for RREQs that are passed on if `P`. -/
structure Apart (f : Flow) (P : Prop) (n n' : Node) : Prop where
  timers : (n'.timers.queue.filter (isDiscovery f)).Sublist (n.timers.queue.filter (isDiscovery f))
  tasks : n'.tasks = n.tasks
  rreqs : P ∨ flowRreqs f n' = flowRreqs f n
  orderly : Orderly n → Orderly n'
  drops : Orderly n → flowDrops f n' = flowDrops f n

section Apart

variable {f : Flow} {P : Prop} {n n' n'' : Node}

theorem Apart.refl (f : Flow) (P : Prop) (n : Node) : Apart f P n n :=
  ⟨.refl _, rfl, .inr rfl, id, fun _ ↦ rfl⟩

theorem Apart.trans (h : Apart f P n n') (h' : Apart f P n' n'') : Apart f P n n'' where
  timers := h'.timers.trans h.timers
  tasks := h'.tasks.trans h.tasks
  rreqs := by
    rcases h.rreqs with hP | hrreqs
    · exact .inl hP
    · exact h'.rreqs.imp_right fun hrreqs' ↦ hrreqs'.trans hrreqs
  orderly := h'.orderly ∘ h.orderly
  drops := fun hn ↦ (h'.drops (h.orderly hn)).trans (h.drops hn)

theorem apart_of_eq (htimers : n'.timers.queue = n.timers.queue) (htasks : n'.tasks = n.tasks)
    (hsent : n'.sent = n.sent) (hpackets : n'.packets = n.packets) : Apart f P n n' where
  timers := htimers ▸ .refl _
  tasks := htasks
  rreqs := .inr (by rw [flowRreqs, hsent, flowRreqs])
  orderly := fun hn ↦ hn.keep (by rw [htimers]; exact .refl _) (by rw [hpackets]; exact .refl _)
  drops := fun _ ↦ by rw [flowDrops, hpackets, flowDrops]

theorem apart_send {s : Sent} (hs : isFlowRreq f s = false) :
    Apart f P n { n with sent := n.sent ++ [s] } :=
  { Apart.refl f P n with
    rreqs := .inr (by simp [flowRreqs, hs])
    orderly := fun hn ↦ hn.keep (.refl _) (.refl _) }

theorem apart_insert {new : Task} (hnew : isDiscovery f new = false) (hgen : new.type ≠ .genRreq) :
    Apart f P n { n with timers := n.timers.insert new } :=
  { Apart.refl f P n with
    timers := by rw [filter_insert_of_neg hnew]
    orderly := fun hn ↦ hn.insert hgen }

theorem apart_sideOp (h : SideOp n n') : Apart f P n n' := by
  cases h with
  | still h => exact apart_of_eq (by rw [h.timers]) h.tasks h.sent h.packets
  | insertTimer type delay ip htype =>
    refine apart_insert (by simp [isDiscovery, createTask, htype]) fun heq ↦ ?_
    rw [show type = .genRreq from heq] at htype
    cases htype
  | answerTimer srcIp dstIp tos => exact apart_insert rfl fun heq ↦ by cases heq
  | removeTimer srcIp dstIp tos type =>
    exact { Apart.refl f P n with
      timers := List.eraseP_sublist.filter _
      orderly := orderly_sideOp (.removeTimer srcIp dstIp tos type) }
  | updateTimers => exact apart_of_eq (by simp [updateTimers]) rfl rfl rfl
  | send s hs =>
    refine apart_send ?_
    cases s with
    | broadcast ttl m | unicast ip ttl m =>
      cases m
      all_goals first | rfl | exact hs.elim
    | toDtn => rfl

theorem apart_sideOps (h : SideOps n n') : Apart f P n n' := by
  induction h with
  | refl => exact .refl f P n
  | tail _ h ih => exact ih.trans (apart_sideOp h)

theorem apart_reportOps (h : ReportOps n n') : Apart f P n n' := by
  induction h with
  | refl => exact .refl f P n
  | tail _ h ih =>
    refine ih.trans ?_
    cases h with
    | side h => exact apart_sideOp h
    | routing | links => exact apart_of_eq rfl rfl rfl rfl
    | rerr | rcvp =>
      unfold sendMessage
      split
      · exact .refl f P _
      split
      · exact .refl f P _
      · exact apart_send rfl

theorem apart_packets {cmp : IpqElement → Bool} {verdict : Verdict}
    (h : verdict = .accept ∨ ∀ x, cmp x = true → (x.saddr, x.daddr, x.tos) ≠ f) :
    Apart f P n { n with packets := n.packets.reinjectAll cmp verdict } where
  timers := .refl _
  tasks := rfl
  rreqs := .inr rfl
  orderly := fun hn ↦ hn.keep (.refl _) (List.filter_subset_self _)
  drops := by
    intro hn
    have hnone : (((n.packets.list.filter cmp).map fun x ↦ (x.skb, verdict)).filter
        fun p ↦ (p.1.saddr, p.1.daddr, p.1.tos) == f && p.2 == .drop) = [] := by
      refine List.filter_eq_nil_iff.mpr fun p hp ↦ ?_
      obtain ⟨x, hx, rfl⟩ := List.mem_map.mp hp
      obtain ⟨hx, hcmp⟩ := List.mem_filter.mp hx
      rcases h with rfl | h
      · simp
      · have hflow := h x hcmp
        rw [hn.packets x hx] at hflow
        simp only [Bool.and_eq_true, beq_iff_eq, not_and]
        exact fun heq ↦ absurd heq hflow
    simp only [flowDrops, PacketQueue.reinjectAll, List.filter_append, hnone, List.append_nil]

theorem apart_flooded {srcIp dstIp : Ip} {tos retries : UInt8} {m : Rreq}
    (hf : (srcIp, dstIp, tos) ≠ f) (h : Flooded n srcIp dstIp tos retries m n') :
    Apart f P n n' where
  timers := by
    rw [h.timers]
    simp only [updateTimers, updateTimerQueue_queue]
    unfold insertTimerDir insertTimerDirectional
    rw [filter_insert_of_neg]
    simp [isDiscovery, taskFlow, createTask, hf]
  tasks := h.tasks
  rreqs := by
    refine .inr ?_
    have hm : isFlowRreq f (.broadcast netDiameter (.rreq m)) = false := by
      obtain ⟨hsrc, hdst, htos⟩ := h.flow
      simpa [isFlowRreq, hsrc, hdst, htos] using hf
    simp [flowRreqs, h.sent, hm]
  orderly := orderly_flooded h
  drops := fun _ ↦ by rw [flowDrops, h.packets, flowDrops]

theorem apart_op {n₀ : Node} {t : Task}
    (hflood : ∀ srcIp dstIp tos, FloodsFor n₀ t srcIp dstIp tos → (srcIp, dstIp, tos) ≠ f)
    (hresend : t.type = .resendRreq → taskFlow t ≠ f) (h : Op n₀ t n n') :
    Apart f (f.1 ≠ n₀.cfg.gMeshIp ∧ t.type = .recvRreq) n n' := by
  cases h with
  | side h => exact apart_sideOp h
  | routing => exact apart_of_eq rfl rfl rfl rfl
  | sendPackets => exact apart_packets (.inl rfl)
  | @forward m ttl htype hsource =>
    by_cases hm : (m.srcIp, m.dstIp, m.tos) = f
    · exact { Apart.refl f (f.1 ≠ n₀.cfg.gMeshIp ∧ t.type = .recvRreq) n with
      rreqs := .inl ⟨hm ▸ hsource.symm, htype⟩
      orderly := fun hn ↦ hn.keep (.refl _) (.refl _) }
    · exact apart_send (by simpa [isFlowRreq] using hm)
  | flood hfor h =>
    rcases genRreq_cases h with ⟨-, rfl⟩ | ⟨m, h⟩
    · exact apart_of_eq rfl rfl rfl rfl
    · exact apart_flooded (hflood _ _ _ hfor) h
  | resend htype h =>
    rcases resendRreq_cases h with ⟨-, rfl⟩ | ⟨-, ⟨-, rfl⟩ | ⟨m, h⟩⟩
    · refine apart_packets (.inr fun x hx ↦ ?_)
      simp only [PacketQueue.ipCmp, Bool.and_eq_true, beq_iff_eq] at hx
      obtain ⟨⟨hsrc, hdst⟩, htos⟩ := hx
      rw [hsrc, hdst, htos]
      exact hresend htype
    · exact apart_of_eq rfl rfl rfl rfl
    · exact apart_flooded (hresend htype) h

theorem apart_ops {n₀ : Node} {t : Task}
    (hflood : ∀ srcIp dstIp tos, FloodsFor n₀ t srcIp dstIp tos → (srcIp, dstIp, tos) ≠ f)
    (hresend : t.type = .resendRreq → taskFlow t ≠ f) (h : Ops n₀ t n n') :
    Apart f (f.1 ≠ n₀.cfg.gMeshIp ∧ t.type = .recvRreq) n n' := by
  induction h with
  | refl => exact .refl f _ n
  | tail _ h ih => exact ih.trans (apart_op hflood hresend h)

theorem apart_handling {t : Task}
    (hflood : ∀ srcIp dstIp tos, FloodsFor n t srcIp dstIp tos → (srcIp, dstIp, tos) ≠ f)
    (hresend : t.type = .resendRreq → taskFlow t ≠ f) (h : Handling n t n') :
    Apart f (f.1 ≠ n.cfg.gMeshIp ∧ t.type = .recvRreq) n n' := by
  cases h with
  | plain h => exact apart_ops hflood hresend h
  | genRerr h₁ h h₂ =>
    exact ((apart_sideOps h₁).trans (apart_reportOps (reportOps_genRerr h))).trans (apart_sideOps h₂)
  | recvRerr h => exact apart_reportOps (reportOps_recvRerr h)
  | genRcvp h₁ h₂ =>
    exact ((apart_ops hflood hresend h₁).trans (apart_reportOps (reportOps_genRcvp _ _))).trans
      (apart_ops hflood hresend h₂)
  | recvRcvp h => exact h ▸ apart_reportOps (reportOps_recvRcvp _ _)

end Apart

section Steps

variable {f : Flow} {n n' : Node}

/-- What an event between two tasks means for a flow that it does not
schedule. -/
structure Idle (f : Flow) (n n' : Node) : Prop where
  ceased : Ceased f n → Ceased f n'
  rreqs : flowRreqs f n' = flowRreqs f n
  drops : flowDrops f n' = flowDrops f n

theorem Idle.trans {n'' : Node} (h : Idle f n n') (h' : Idle f n' n'') : Idle f n n'' :=
  ⟨h'.ceased ∘ h.ceased, h'.rreqs.trans h.rreqs, h'.drops.trans h.drops⟩

theorem idle_hookOp {n₀ : Node} {e : Event} (hn : Orderly n) (hnew : ¬Schedules f n₀ e)
    (h : HookOp n₀ e n n') : Idle f n n' := by
  have htask : ∀ {n₁ : Node} {t : Task}, isDiscovery f t = false → Ceased f n →
      n₁.timers = n.timers → n₁.tasks.elems.Perm (t :: n.tasks.elems) → Ceased f n₁ := by
    intro n₁ t ht hceased htimers htasks
    refine ⟨htimers ▸ hceased.timers, fun x hx ↦ ?_⟩
    rcases List.mem_cons.mp (htasks.mem_iff.mp hx) with rfl | hx
    · exact ht
    · exact hceased.tasks x hx
  cases h with
  | side h =>
    have hside := apart_sideOp (f := f) (P := False) h
    refine ⟨fun hceased ↦ ?_, hside.rreqs.resolve_left id, hside.drops hn⟩
    refine ⟨List.sublist_nil.mp (hceased.timers ▸ hside.timers), ?_⟩
    rw [hside.tasks]
    exact hceased.tasks
  | routing => exact ⟨fun hceased ↦ ⟨hceased.timers, hceased.tasks⟩, rfl, rfl⟩
  | arrival t ht =>
    have hother : isDiscovery f t = false := by simp [isDiscovery, ht]
    exact ⟨fun hceased ↦ htask hother hceased rfl (ClassQueue.pushBack_perm _ _ _), rfl, rfl⟩
  | @miss n₁ skb he hqueue =>
    have hflow : (n₀.flowAddr skb.saddr, n₀.flowAddr skb.daddr, skb.tos) ≠ f :=
      fun hf ↦ hnew ⟨skb, n₁, he, hqueue, hf⟩
    refine ⟨fun hceased ↦ htask ?_ hceased rfl (ClassQueue.pushFront_perm _ _ _), rfl, rfl⟩
    simpa [isDiscovery, taskFlow, createTask, isDiscoveryType] using hflow
  | enqueue skb =>
    refine ⟨fun hceased ↦ ⟨hceased.timers, hceased.tasks⟩, rfl, ?_⟩
    simp only [flowDrops, (ipqEnqueue_cases skb n.packets).1]
  | signal =>
    obtain ⟨tasks, heq, hperm⟩ := signal_eq n
    simp only [timerQueueSignal, drainTimers_eq] at heq hperm
    rw [heq]
    refine ⟨fun hceased ↦ ⟨?_, fun t ht ↦ ?_⟩, rfl, rfl⟩
    · rw [updateTimerQueue_queue]
      exact List.sublist_nil.mp (hceased.timers ▸ (List.dropWhile_sublist _).filter _)
    · rcases List.mem_append.mp (hperm.mem_iff.mp ht) with ht | ht
      · simpa using List.filter_eq_nil_iff.mp hceased.timers t (List.takeWhile_subset _ ht)
      · exact hceased.tasks t ht

theorem idle_hookOps {e : Event} (hn : Orderly n) (hnew : ¬Schedules f n e)
    (h : HookOps n e n n') : Orderly n' ∧ Idle f n n' := by
  induction h with
  | refl => exact ⟨hn, id, rfl, rfl⟩
  | tail _ h ih => exact ⟨orderly_hookOp h ih.1, ih.2.trans (idle_hookOp ih.1 hnew h)⟩

theorem orderly_handling {t : Task} (hn : Orderly n) (h : Handling n t n') : Orderly n' := by
  have hkeep : ∀ {R : Node → Node → Prop} {n₁ n₂ : Node},
      (∀ m m', R m m' → Orderly m → Orderly m') → ReflTransGen R n₁ n₂ → Orderly n₁ → Orderly n₂ := by
    intro R n₁ n₂ hR h hn₁
    induction h with
    | refl => exact hn₁
    | tail _ h ih => exact hR _ _ h ih
  have hside : ∀ {n₁ n₂ : Node}, SideOps n₁ n₂ → Orderly n₁ → Orderly n₂ :=
    hkeep fun _ _ ↦ orderly_sideOp
  have hops : ∀ {n₁ n₂ : Node}, Ops n t n₁ n₂ → Orderly n₁ → Orderly n₂ :=
    hkeep fun _ _ ↦ orderly_op
  have hreport : ∀ {n₁ n₂ : Node}, ReportOps n₁ n₂ → Orderly n₁ → Orderly n₂ :=
    hkeep fun _ _ ↦ orderly_reportOp
  cases h with
  | plain h => exact hops h hn
  | genRerr h₁ h h₂ => exact hside h₂ (hreport (reportOps_genRerr h) (hside h₁ hn))
  | recvRerr h => exact hreport (reportOps_recvRerr h) hn
  | genRcvp h₁ h₂ => exact hops h₂ (hreport (reportOps_genRcvp _ _) (hops h₁ hn))
  | recvRcvp h => exact h ▸ hreport (reportOps_recvRcvp _ _) hn

theorem step_orderly {e : Event} (hn : Orderly n) (h : n.step e = some n') : Orderly n' := by
  rcases step_ops h with hops | ⟨t, tasks, rfl, hpop, h⟩
  · clear h
    induction hops with
    | refl => exact hn
    | tail _ h ih => exact orderly_hookOp h ih
  · exact orderly_handling (n := { n with tasks := tasks }) (hn.keep (.refl _) (.refl _)) h

theorem reach_orderly {I : Config → Environment → Prop} {C : Node → Event → Prop} (h : Reach I C n) :
    Orderly n := by
  refine h.induct (fun cfg env _ ↦ ?_) fun _ _ _ hn _ hs ↦ step_orderly hn hs
  have hempty : ∀ n₁ : Node, n₁.timers.queue = [] → n₁.packets.list = [] → Orderly n₁ := by
    intro n₁ htimers hpackets
    exact ⟨by simp [htimers], by simp [hpackets]⟩
  have htimer : ∀ {n₁ : Node} (type : TaskType) (delay : ℕ) (ip : Ip),
      isDiscoveryType type = false → Orderly n₁ → Orderly (n₁.insertTimer type delay ip) :=
    fun type delay ip htype ↦ orderly_sideOp (.insertTimer type delay ip htype)
  unfold Node.init
  dsimp only
  refine orderly_sideOp .updateTimers (htimer .cleanup _ _ rfl (htimer .gwCleanup _ _ rfl
    (htimer .hello _ _ rfl ?_)))
  split
  · exact htimer .st _ _ rfl (hempty _ rfl rfl)
  · exact hempty _ rfl rfl

theorem step_ceased {e : Event} (hn : Orderly n) (hceased : Ceased f n) (hnew : ¬Schedules f n e)
    (hflood : FloodsNot f n e) (h : n.step e = some n') :
    Ceased f n' ∧ (PassesOn f n e ∨ flowRreqs f n' = flowRreqs f n) ∧
      flowDrops f n' = flowDrops f n := by
  rcases step_ops h with h | ⟨t, tasks, rfl, hpop, h⟩
  · obtain ⟨-, hidle⟩ := idle_hookOps hn hnew h
    exact ⟨hidle.ceased hceased, .inr hidle.rreqs, hidle.drops⟩
  have hperm := ClassQueue.pop_perm n.tasks
  rw [hpop] at hperm
  have ht : isDiscovery f t = false := hceased.tasks t (hperm.mem_iff.mp List.mem_cons_self)
  have hfor : ∀ srcIp dstIp tos, FloodsFor { n with tasks := tasks } t srcIp dstIp tos →
      (srcIp, dstIp, tos) ≠ f := by
    rintro srcIp dstIp tos hfor rfl
    have hdirect := hflood t tasks rfl hpop
    cases hfor with
    | scheduled htype => simp [isDiscovery, isDiscoveryType, taskFlow, htype] at ht
    | dtnHello htype => exact hdirect (by simp [htype]) (.dtnHello htype)
    | recovery htype hneigh hcreate hdst =>
      exact hdirect (by simp [htype]) (.recovery htype hneigh hcreate hdst)
  have hresend : t.type = .resendRreq → taskFlow t ≠ f := by
    intro htype hf
    simp [isDiscovery, isDiscoveryType, htype, hf] at ht
  have hapart := apart_handling hfor hresend h
  refine ⟨⟨List.sublist_nil.mp (hceased.timers ▸ hapart.timers), fun x hx ↦ ?_⟩, ?_, ?_⟩
  · rw [hapart.tasks] at hx
    exact hceased.tasks x (hperm.mem_iff.mp (List.mem_cons_of_mem _ hx))
  · exact hapart.rreqs.imp_left fun ⟨hsource, htype⟩ ↦ ⟨hsource, t, tasks, rfl, hpop, htype⟩
  · exact hapart.drops (hn.keep (.refl _) (.refl _))

theorem Orderly.filter_eq (hn : Orderly n) :
    n.timers.queue.filter (isDiscovery f) = n.timers.queue.filter (isResend f) := by
  refine List.filter_congr fun t ht ↦ ?_
  simp [isDiscovery, isResend, isDiscoveryType, beq_eq_false_iff_ne.mpr (hn.timers t ht)]

theorem matches_eq_isResend (srcIp dstIp : Ip) (tos : UInt8) :
    Task.matches srcIp dstIp tos .resendRreq = isResend (srcIp, dstIp, tos) := by
  funext t
  rw [Bool.eq_iff_iff]
  simp only [Task.matches, isResend, taskFlow, Bool.and_eq_true, beq_iff_eq, Prod.mk.injEq]
  tauto

theorem filter_removeTimer {srcIp dstIp : Ip} {tos : UInt8} (hn : Orderly n) :
    (n.removeTimer srcIp dstIp tos .resendRreq).timers.queue.filter
      (isDiscovery (srcIp, dstIp, tos)) =
      (n.timers.queue.filter (isDiscovery (srcIp, dstIp, tos))).tail := by
  have hn' : Orderly (n.removeTimer srcIp dstIp tos .resendRreq) := orderly_sideOp (.removeTimer ..) hn
  rw [hn'.filter_eq, hn.filter_eq, ← OrderedList.filter_eraseP, ← matches_eq_isResend]
  rfl

theorem recvRrep_timers {t : Task} {m : Rrep} {x : AodvNeigh} (hn : Orderly n)
    (htype : t.type = .recvRrep) (hx : n.findAodvNeigh t.srcIp = some x)
    (hsource : isRrepSource n m = true)
    (hone : (n.timers.queue.filter (isResend (m.srcIp, m.dstIp, m.tos))).length ≤ 1)
    (h : n.recvRrep t m = some n') :
    n'.timers.queue.filter (isDiscovery (m.srcIp, m.dstIp, m.tos)) = [] ∧ n'.tasks = n.tasks := by
  have hops : ∀ {n₁ n₂ : Node}, Ops n t n₁ n₂ → Apart (m.srcIp, m.dstIp, m.tos)
      (m.srcIp ≠ n.cfg.gMeshIp ∧ t.type = .recvRreq) n₁ n₂ := by
    refine apart_ops (fun _ _ _ hfor ↦ ?_) (by simp [htype])
    cases hfor with
    | scheduled h | dtnHello h | recovery h => simp [htype] at h
  unfold recvRrep at h
  rw [hx] at h
  dsimp only at h
  split at h
  · obtain ⟨n₁, n₂, h₁, h₂, hn'⟩ := ops_recvRrepSource n t h
    have hbefore := (apart_sideOps (sideOps_updateNeighLifetime x.ip)).trans (hops h₁)
    have hafter : Apart (m.srcIp, m.dstIp, m.tos) (m.srcIp ≠ n.cfg.gMeshIp ∧ t.type = .recvRreq)
        (n₁.removeTimer m.srcIp m.dstIp m.tos .resendRreq) n' := by
      rcases hn' with rfl | rfl
      · exact hops h₂
      · exact (hops h₂).trans (apart_reportOps (reportOps_genRcvp _ _))
    refine ⟨?_, hafter.tasks.trans hbefore.tasks⟩
    have hnone : (n₁.timers.queue.filter (isDiscovery (m.srcIp, m.dstIp, m.tos))).tail = [] := by
      refine List.eq_nil_of_length_eq_zero ?_
      rw [← hn.filter_eq] at hone
      have hlength := hbefore.timers.length_le
      rw [List.length_tail]
      omega
    exact List.sublist_nil.mp (hnone ▸ filter_removeTimer (hbefore.orderly hn) ▸ hafter.timers)
  · next hnot => exact absurd hsource hnot

theorem install_ceased {e : Event} (hn : Orderly n) (hinstall : Installs f n e)
    (hone : OneChain f n e) (h : n.step e = some n') : Ceased f n' := by
  obtain ⟨t, tasks, rfl, hpop, htype, m, x, ok, r, e, hdata, rfl, hx, hsource, -, -⟩ := hinstall
  have hperm := ClassQueue.pop_perm n.tasks
  rw [hpop] at hperm
  simp only [step, threadStep, hpop, handle, htype, hdata] at h
  obtain ⟨htimers, htasks⟩ := recvRrep_timers (n := { n with tasks := tasks })
    (hn.keep (.refl _) (.refl _)) htype hx hsource hone.1 h
  refine ⟨htimers, fun t' ht' ↦ ?_⟩
  rw [htasks] at ht'
  exact hone.2 t' (hperm.mem_iff.mp (List.mem_cons_of_mem _ ht'))

/-- Where a flow has one discovery when its route is installed, and nothing else
floods for it, the discovery ends there: no `TASK_RESEND_RREQ` is left, and until
a new `TASK_GEN_RREQ` the node broadcasts no RREQ of its own for the flow and
drops none of its packets. -/
theorem discovery_ends_of_oneChain (h : Ended (OneChain f) (FloodsNot f) f n) :
    (∀ t ∈ n.timers.queue, isResend f t = false) ∧
      ∀ e n', ¬Schedules f n e → FloodsNot f n e → n.step e = some n' →
        (PassesOn f n e ∨ flowRreqs f n' = flowRreqs f n) ∧ flowDrops f n' = flowDrops f n := by
  have hceased : Orderly n ∧ Ceased f n := by
    induction h with
    | install h hinstall hone hs =>
      have hn := reach_orderly h
      exact ⟨step_orderly hn hs, install_ceased hn hinstall hone hs⟩
    | later _ hnew hflood hs ih => exact ⟨step_orderly ih.1 hs, (step_ceased ih.1 ih.2 hnew hflood hs).1⟩
  obtain ⟨hn, hceased⟩ := hceased
  refine ⟨fun t ht ↦ ?_, fun e n' hnew hflood hs ↦ (step_ceased hn hceased hnew hflood hs).2⟩
  have hother := List.filter_eq_nil_iff.mp hceased.timers t ht
  by_contra hresend
  simp only [Bool.not_eq_false, isResend, Bool.and_eq_true, beq_iff_eq] at hresend
  simp [isDiscovery, isDiscoveryType, hresend.1, hresend.2] at hother

end Steps

/-- A packet for 192.168.1.9 finds no route, and the station asks for one. -/
def ask : List Event := [.output (packetTo 0x0901a8c0), .thread]

/-- The station has asked once, and the answer waits for the thread. -/
def askingStation : Node :=
  (runs (ask ++ [.input (heard 0x0201a8c0 (.rrep flowRrep))]) metStation).getD station

/-- The station has asked twice, as a second packet came before the answer. -/
def busyStation : Node :=
  (runs (ask ++ ask ++ [.input (heard 0x0201a8c0 (.rrep flowRrep))]) metStation).getD station

theorem installs_askingStation : Installs (0x0101a8c0, 0x0901a8c0, 0) askingStation .thread :=
  ⟨_, _, rfl, rfl, rfl, flowRrep, _, _, _, _, rfl, rfl, rfl, rfl, rfl, rfl⟩

theorem discovery_ends_of_oneChain_asked :
    (askingStation.threadStep.getD station).timers.queue.any
      (isResend (0x0101a8c0, 0x0901a8c0, 0)) = false := by
  have hreach : Reachable askingStation :=
    metStation_reachable.getD_runs (by decide +kernel) station
  have hone : OneChain (0x0101a8c0, 0x0901a8c0, 0) askingStation .thread :=
    ⟨by decide +kernel, by decide +kernel⟩
  have hended : Ended (OneChain (0x0101a8c0, 0x0901a8c0, 0)) (FloodsNot (0x0101a8c0, 0x0901a8c0, 0))
      (0x0101a8c0, 0x0901a8c0, 0) (askingStation.threadStep.getD station) :=
    .install hreach installs_askingStation hone rfl
  rw [List.any_eq_false]
  intro t ht
  simp [(discovery_ends_of_oneChain hended).1 t ht]

/-- The answer cancels one of two timers. -/
theorem second_discovery_goes_on :
    ¬∀ (f : Flow) (n : Node), Ended (fun _ _ ↦ True) (fun _ _ ↦ True) f n →
      ∀ t ∈ n.timers.queue, isResend f t = false := by
  intro hends
  have hreach : Reachable busyStation := metStation_reachable.getD_runs (by decide +kernel) station
  have hended : Ended (fun _ _ ↦ True) (fun _ _ ↦ True) (0x0101a8c0, 0x0901a8c0, 0)
      (busyStation.threadStep.getD station) :=
    .install hreach (e := .thread)
      ⟨_, _, rfl, rfl, rfl, flowRrep, _, _, _, _, rfl, rfl, rfl, rfl, rfl, rfl⟩ trivial rfl
  have hleft : ∃ t ∈ (busyStation.threadStep.getD station).timers.queue,
      isResend (0x0101a8c0, 0x0901a8c0, 0) t = true := by decide +kernel
  obtain ⟨t, ht, hresend⟩ := hleft
  have hnone := hends _ _ hended t ht
  rw [hresend] at hnone
  cases hnone

end Fbaodv.Proofs.DiscoveryEnds
