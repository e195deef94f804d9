import Fbaodv.Proofs.NodeRun

namespace Fbaodv.Proofs.Upkeep

open Fbaodv.Model Fbaodv.Model.Node Fbaodv.Foundation
open Fbaodv.Proofs.HandlerSpecs (createAodvNeigh_inv)
open Fbaodv.Proofs.RouteFrame Fbaodv.Proofs.RoutingInvariant Fbaodv.Proofs.Background
open Fbaodv.Proofs.NodeRun

/-- The tasks by which a node keeps its tables and its own work going. -/
def isUpkeep (t : Task) : Bool :=
  match t.type with
  | .neighbor | .neighbor2h | .sendEtt | .ettCleanup => true
  | .hello | .cleanup | .routeCleanup | .gwCleanup | .st => true
  | _ => false

/-- The timers of upkeep stay as they are. Others may be set. -/
structure TimersSame (q q' : TimerQueue) : Prop where
  queue : q'.queue.filter isUpkeep = q.queue.filter isUpkeep
  memory : q'.kmalloc <:+ q.kmalloc

/-- The neighbour tables and the timers of upkeep stay as they are. -/
structure NeighSame (n n' : Node) : Prop where
  cfg : n'.cfg = n.cfg
  now : n'.now = n.now
  tasks : n'.tasks = n.tasks
  neigh : List.Forall₂ NeighTouch n.aodvNeighList n'.aodvNeighList
  neigh2h : n'.aodvNeighList2h = n.aodvNeighList2h
  timers : TimersSame n.timers n'.timers

def HasNeigh (ip : Ip) (n : Node) : Prop := ∃ x ∈ n.aodvNeighList, x.ip = ip

/-- A timer for the address has been set anew, and nothing else of upkeep. -/
def Renews (type : TaskType) (ip : Ip) (n n' : Node) : Prop :=
  ∃ n₁ delay, NeighSame n n₁ ∧ NeighSame (n₁.insertTimer type delay ip) n'

section Timers

variable {q q' q'' : TimerQueue}

theorem TimersSame.refl (q : TimerQueue) : TimersSame q q := ⟨rfl, List.suffix_refl _⟩

theorem TimersSame.trans (h : TimersSame q q') (h' : TimersSame q' q'') : TimersSame q q'' :=
  ⟨h'.queue.trans h.queue, h'.memory.trans h.memory⟩

theorem timersSame_update (hz now : ℕ) (q : TimerQueue) : TimersSame q (updateTimerQueue hz now q) := by
  unfold updateTimerQueue
  split
  · exact .refl q
  · exact ⟨rfl, List.suffix_refl _⟩

theorem timersSame_insert {new : Task} (h : isUpkeep new = false) : TimersSame q (q.insert new) := by
  refine ⟨filter_insert_of_neg h, ?_⟩
  unfold TimerQueue.insert
  split
  · exact List.tail_suffix _
  · exact List.tail_suffix _

theorem timersSame_delete {srcIp dstIp : Ip} {tos : UInt8} {type : TaskType}
    (h : isUpkeep (createTask type 0) = false) : TimersSame q (deleteTimer srcIp dstIp tos type q) := by
  refine ⟨OrderedList.filter_eraseP_of_neg (fun t ht ↦ ?_) _, List.suffix_refl _⟩
  simp only [Task.matches, Bool.and_eq_true, beq_iff_eq] at ht
  simpa only [isUpkeep, createTask, ht.2] using h

end Timers

section Same

variable {n n' n'' : Node}

theorem NeighSame.refl (n : Node) : NeighSame n n :=
  ⟨rfl, rfl, rfl, List.forall₂_same.mpr fun x _ ↦ .refl x, rfl, .refl _⟩

theorem NeighSame.trans (h : NeighSame n n') (h' : NeighSame n' n'') : NeighSame n n'' where
  cfg := h'.cfg.trans h.cfg
  now := h'.now.trans h.now
  tasks := h'.tasks.trans h.tasks
  neigh := Pointwise.forall₂_trans NeighTouch.trans h.neigh h'.neigh
  neigh2h := h'.neigh2h.trans h.neigh2h
  timers := h.timers.trans h'.timers

theorem NeighSame.hasNeigh {ip : Ip} (h : NeighSame n n') (hn : HasNeigh ip n) : HasNeigh ip n' := by
  obtain ⟨x, hx, rfl⟩ := hn
  obtain ⟨x', hx', htouch⟩ := Pointwise.exists_of_mem_left h.neigh hx
  exact ⟨x', hx', htouch.ip⟩

theorem neighSame_of_eq (hcfg : n'.cfg = n.cfg) (hnow : n'.now = n.now) (htasks : n'.tasks = n.tasks)
    (hneigh : n'.aodvNeighList = n.aodvNeighList) (hneigh2h : n'.aodvNeighList2h = n.aodvNeighList2h)
    (htimers : n'.timers = n.timers) : NeighSame n n' :=
  ⟨hcfg, hnow, htasks, hneigh ▸ List.forall₂_same.mpr fun x _ ↦ .refl x, hneigh2h, htimers ▸ .refl _⟩

theorem neighSame_alloc (n : Node) : NeighSame n n.alloc.2 := neighSame_of_eq rfl rfl rfl rfl rfl rfl

theorem neighSame_getRandom (n : Node) : NeighSame n n.getRandom.2 :=
  neighSame_of_eq rfl rfl rfl rfl rfl rfl

theorem neighSame_of_steady {P : Sent → Prop} (h : Steady P n n') : NeighSame n n' :=
  neighSame_of_eq h.quiet.cfg h.quiet.now h.quiet.tasks h.neighs h.quiet.neigh2h h.queue

theorem neighSame_routing (r : Routing) : NeighSame n { n with routing := r } :=
  neighSame_of_eq rfl rfl rfl rfl rfl rfl

theorem neighSame_rreqRoute {srcIp dstIp : Ip} {tos : UInt8} {x : AodvNeigh} {hops : UInt8}
    {dstId pathMetric : UInt32} {ok : Bool}
    (h : n.rreqRoute srcIp dstIp tos x hops dstId pathMetric = some (ok, n')) : NeighSame n n' := by
  obtain ⟨⟨ok₁, r⟩, -, h⟩ := Option.bind_eq_some_iff.mp h
  simp only [Option.some.injEq, Prod.mk.injEq] at h
  exact h.2 ▸ neighSame_routing r

theorem neighSame_rrepRoute {ptr : ℕ} (h : n.rrepRoute ptr = some n') : NeighSame n n' := by
  obtain ⟨⟨o, r⟩, -, h⟩ := Option.bind_eq_some_iff.mp h
  cases o with
  | none => exact Option.some.inj h ▸ neighSame_routing r
  | some e => exact Option.some.inj h ▸ neighSame_of_eq rfl rfl rfl rfl rfl rfl

theorem neighSame_setLastHop (ptr : ℕ) (ip : Ip) : NeighSame n (n.setLastHop ptr ip) :=
  neighSame_routing _

theorem neighSame_createRoute {srcIp dstIp : Ip} {tos : UInt8} {dstId : UInt32}
    {o : Option AodvRoute} (h : n.createRoute srcIp dstIp tos dstId = (o, n')) : NeighSame n n' :=
  (Prod.mk.inj h).2 ▸ neighSame_routing _

theorem neighSame_modifyNeigh {ip : Ip} {f : AodvNeigh → AodvNeigh} (h : ∀ x, NeighTouch x (f x)) :
    NeighSame n (n.modifyNeigh ip f) :=
  { NeighSame.refl n with neigh := Pointwise.forall₂_modifyFirst NeighTouch.refl fun x _ _ ↦ h x }

theorem neighSame_updateTimers : NeighSame n n.updateTimers :=
  { NeighSame.refl n with timers := timersSame_update _ _ _ }

theorem neighSame_insertTimer (type : TaskType) {delay : ℕ} {ip : Ip}
    (h : isUpkeep (createTask type 0) = false) : NeighSame n (n.insertTimer type delay ip) :=
  { NeighSame.refl n with timers := timersSame_insert h }

theorem neighSame_insertTimerDir (type : TaskType) {delay : ℕ} {retries : UInt8} {srcIp dstIp : Ip}
    {tos : UInt8} (h : isUpkeep (createTask type 0) = false) :
    NeighSame n (n.insertTimerDir type delay retries srcIp dstIp tos) := by
  refine { NeighSame.refl n with timers := timersSame_insert ?_ }
  split
  · exact h
  split
  · exact h
  · exact h

theorem neighSame_removeTimer (type : TaskType) {srcIp dstIp : Ip} {tos : UInt8}
    (h : isUpkeep (createTask type 0) = false) :
    NeighSame n (n.removeTimer srcIp dstIp tos type) :=
  { NeighSame.refl n with timers := timersSame_delete h }

theorem neighSame_localBroadcast (ttl : UInt8) (m : Message) :
    NeighSame n (n.localBroadcast ttl m) := by
  unfold localBroadcast
  split
  · exact .refl n
  · exact neighSame_of_eq rfl rfl rfl rfl rfl rfl

theorem neighSame_sendMessage (ip : Ip) (ttl : UInt8) (m : Message) :
    NeighSame n (n.sendMessage ip ttl m) :=
  neighSame_of_steady (P := fun _ ↦ True) (steady_sendMessage trivial)

end Same

section Handlers

variable {n n' : Node} {t : Task}

theorem neighSame_genRreq {srcIp dstIp : Ip} {tos : UInt8}
    (h : n.genRreq srcIp dstIp tos = some n') : NeighSame n n' := by
  unfold genRreq at h
  dsimp only at h
  split at h
  · exact Option.some.inj h ▸ neighSame_of_eq rfl rfl rfl rfl rfl rfl
  · obtain ⟨dstId, -, h⟩ := Option.bind_eq_some_iff.mp h
    have hbump : NeighSame n n.alloc.2.bumpLocalDstId := neighSame_of_eq rfl rfl rfl rfl rfl rfl
    exact Option.some.inj h ▸ ((hbump.trans (neighSame_localBroadcast _ _)).trans
      (neighSame_insertTimerDir .resendRreq rfl)).trans neighSame_updateTimers

theorem neighSame_resendRreq (h : n.resendRreq t = some n') : NeighSame n n' := by
  unfold resendRreq at h
  split at h
  · exact Option.some.inj h ▸ neighSame_of_eq rfl rfl rfl rfl rfl rfl
  dsimp only at h
  split at h
  · exact Option.some.inj h ▸ neighSame_of_eq rfl rfl rfl rfl rfl rfl
  · obtain ⟨dstId, -, h⟩ := Option.bind_eq_some_iff.mp h
    have hbump : NeighSame n n.alloc.2.bumpLocalDstId := neighSame_of_eq rfl rfl rfl rfl rfl rfl
    exact Option.some.inj h ▸ ((hbump.trans (neighSame_localBroadcast _ _)).trans
      (neighSame_insertTimerDir .resendRreq rfl)).trans neighSame_updateTimers

theorem neighSame_ite {c : Prop} [Decidable c] {m m' : Node} (h : NeighSame n m) (h' : NeighSame n m') :
    NeighSame n (if c then m else m') := by
  split
  · exact h
  · exact h'

theorem neighSame_send2dtn {port : UInt16} {a b c d : UInt32} :
    NeighSame n (n.send2dtn port a b c d) := neighSame_of_eq rfl rfl rfl rfl rfl rfl

theorem neighSame_genRrep {srcIp dstIp : Ip} {tos : UInt8}
    (h : n.genRrep srcIp dstIp tos = some n') : NeighSame n n' := by
  unfold genRrep at h
  dsimp only at h
  have halloc : NeighSame n n.alloc.2.alloc.2 := neighSame_of_eq rfl rfl rfl rfl rfl rfl
  split at h
  · exact Option.some.inj h ▸ neighSame_of_eq rfl rfl rfl rfl rfl rfl
  split at h
  · exact Option.some.inj h ▸ neighSame_of_eq rfl rfl rfl rfl rfl rfl
  split at h
  · exact Option.some.inj h ▸ halloc
  obtain ⟨⟨o, n₁⟩, hentry, h⟩ := Option.bind_eq_some_iff.mp h
  refine halloc.trans ?_
  have h₁ : NeighSame n.alloc.2.alloc.2 n₁ := by
    unfold rrepRouteEntry at hentry
    split at hentry
    · obtain ⟨dstId, -, hentry⟩ := Option.bind_eq_some_iff.mp hentry
      split at hentry
      · next hcreate =>
        simp only [Option.some.injEq, Prod.mk.injEq] at hentry
        exact hentry.2 ▸ (neighSame_routing _).trans (neighSame_createRoute hcreate)
      · next hcreate =>
        simp only [Option.some.injEq, Prod.mk.injEq] at hentry
        exact hentry.2 ▸ ((neighSame_routing _).trans (neighSame_createRoute hcreate)).trans
          (neighSame_of_eq rfl rfl rfl rfl rfl rfl)
    · simp only [Option.some.injEq, Prod.mk.injEq] at hentry
      exact hentry.2 ▸ .refl _
  refine h₁.trans ?_
  cases o with
  | none => exact Option.some.inj h ▸ .refl _
  | some src =>
    obtain ⟨dstId, -, h⟩ := Option.bind_eq_some_iff.mp h
    obtain ⟨e, -, h⟩ := Option.bind_eq_some_iff.mp h
    obtain ⟨n₂, hrep, h⟩ := Option.bind_eq_some_iff.mp h
    have hbump : NeighSame n₁ { n₁.bumpLocalDstId with junk := n₁.bumpLocalDstId.junk.tail } :=
      neighSame_of_eq rfl rfl rfl rfl rfl rfl
    have h₂ : NeighSame n₁ n₂ := hbump.trans (neighSame_rrepRoute hrep)
    exact Option.some.inj h ▸ (h₂.trans (neighSame_setLastHop _ _)).trans (neighSame_sendMessage _ _ _)

theorem neighSame_recvRrepSource {m : Rrep} {x : AodvNeigh} (h : n.recvRrepSource m x = some n') :
    NeighSame n n' := by
  obtain ⟨⟨ok, n₁⟩, hroute, h⟩ := Option.bind_eq_some_iff.mp h
  have h₁ : NeighSame n (n₁.removeTimer m.srcIp m.dstIp m.tos .resendRreq) :=
    (neighSame_updateTimers.trans (neighSame_rreqRoute hroute)).trans
      (neighSame_removeTimer .resendRreq rfl)
  refine h₁.trans ?_
  dsimp only at h
  split at h
  · exact Option.some.inj h ▸ .refl _
  · next e _ =>
    obtain ⟨n₂, hrep, h⟩ := Option.bind_eq_some_iff.mp h
    refine ((neighSame_rrepRoute hrep).trans (neighSame_setLastHop e.ptr n₂.cfg.gMeshIp)).trans ?_
    generalize n₂.setLastHop e.ptr n₂.cfg.gMeshIp = n₃ at h ⊢
    generalize hn₄ : (if m.dttl > 0 then _ else n₃) = n₄ at h
    have hdtn : NeighSame n₃ n₄ := hn₄ ▸ neighSame_ite neighSame_send2dtn (.refl _)
    obtain rfl := Option.some.inj h
    exact hdtn.trans (neighSame_ite (neighSame_of_steady (steady_genRcvp _ _)) (.refl _))

theorem neighSame_recvRrepForward {m : Rrep} {x : AodvNeigh} (h : n.recvRrepForward m x = some n') :
    NeighSame n n' := by
  obtain ⟨⟨o, m', n₁⟩, hrecv, h⟩ := Option.bind_eq_some_iff.mp h
  have h₁ : NeighSame n n₁ := by
    unfold rrepRecvRoute at hrecv
    dsimp only at hrecv
    split at hrecv
    · split at hrecv
      · simp only [Option.some.injEq, Prod.mk.injEq] at hrecv
        exact hrecv.2.2 ▸ .refl _
      split at hrecv
      · cases hrecv
      · next hcreate =>
        simp only [Option.some.injEq, Prod.mk.injEq] at hrecv
        exact hrecv.2.2 ▸ (neighSame_createRoute hcreate).trans
          (neighSame_of_eq rfl rfl rfl rfl rfl rfl)
    · simp only [Option.some.injEq, Prod.mk.injEq] at hrecv
      exact hrecv.2.2 ▸ .refl _
  refine h₁.trans ?_
  cases o with
  | none => exact Option.some.inj h ▸ .refl _
  | some recv =>
    obtain ⟨⟨ok, n₂⟩, hroute, h⟩ := Option.bind_eq_some_iff.mp h
    refine (neighSame_rreqRoute hroute).trans ?_
    dsimp only at h
    split at h
    · exact Option.some.inj h ▸ .refl _
    · obtain ⟨n₃, hrep₁, h⟩ := Option.bind_eq_some_iff.mp h
      obtain ⟨n₄, hrep₂, h⟩ := Option.bind_eq_some_iff.mp h
      obtain ⟨recv', -, h⟩ := Option.bind_eq_some_iff.mp h
      obtain ⟨send', -, h⟩ := Option.bind_eq_some_iff.mp h
      refine ((neighSame_rrepRoute hrep₁).trans (neighSame_rrepRoute hrep₂)).trans ?_
      exact Option.some.inj h ▸ ((neighSame_setLastHop _ _).trans (neighSame_setLastHop _ _)).trans
        (neighSame_sendMessage _ _ _)

theorem neighSame_acceptRreq (t : Task) (m : Rreq) (n : Node) : NeighSame n (n.acceptRreq t m) := by
  unfold acceptRreq
  split
  · split
    · exact .refl n
    · exact (neighSame_insertTimerDir .sendRrep rfl).trans neighSame_updateTimers
  · dsimp only
    exact (neighSame_ite neighSame_send2dtn (.refl n)).trans (neighSame_localBroadcast _ _)

theorem genStRreq_renews (h : n.genStRreq = some n') :
    NeighSame n n' ∧ ¬ (n.cfg.gAodvGateway = true ∧ n.kmalloc.next = true ∧
        n.routing.findAodvRoute n.cfg.gMeshIp n.cfg.gMeshIp 0 ≠ none) ∨
      Renews .st n.cfg.gMeshIp n n' := by
  unfold genStRreq at h
  split at h
  · next hgateway =>
    refine .inl ⟨Option.some.inj h ▸ .refl _, fun hall ↦ ?_⟩
    simp [hall.1] at hgateway
  dsimp only at h
  split at h
  · next hmemory =>
    refine .inl ⟨Option.some.inj h ▸ neighSame_alloc n, fun hall ↦ ?_⟩
    simp [alloc, hall.2.1] at hmemory
  split at h
  · next hfind => exact .inl ⟨Option.some.inj h ▸ neighSame_alloc n, fun hall ↦ hall.2.2 hfind⟩
  · next e _ =>
    have hbump : NeighSame n { n.alloc.2 with
        routing := n.routing.modifyAt e.ptr fun e ↦ { e with dstId := e.dstId + 1 } } :=
      neighSame_of_eq rfl rfl rfl rfl rfl rfl
    exact .inr ⟨_, _, hbump.trans (neighSame_localBroadcast _ _),
      Option.some.inj h ▸ neighSame_updateTimers⟩

theorem neighSame_recoverLinks {ip : Ip} {l : List BrkLink} (h : recoverLinks ip l n = some n') :
    NeighSame n n' := by
  induction l generalizing n with
  | nil => exact Option.some.inj h ▸ .refl _
  | cons x l ih =>
    unfold recoverLinks at h
    split at h
    · split at h
      · exact Option.some.inj h ▸ neighSame_of_steady (steady_genRcvp _ _)
      · obtain ⟨n₁, hn₁, h⟩ := Option.bind_eq_some_iff.mp h
        exact (neighSame_genRreq hn₁).trans (ih h)
    · exact ih h

/-- `create_aodv_neigh` has linked in a new neighbour. -/
structure MeetsNeigh (neighIp : Ip) (n n' : Node) : Prop where
  cfg : n'.cfg = n.cfg
  now : n'.now = n.now
  tasks : n'.tasks = n.tasks
  absent : ((n.aodvNeighList.dropWhile fun x ↦ x.ip < neighIp).head?.any fun x ↦ x.ip == neighIp) = false
  neigh : n'.aodvNeighList =
    OrderedList.insertBy (fun x ↦ x.ip < neighIp) (newAodvNeigh n.cfg neighIp) n.aodvNeighList
  neigh2h : n'.aodvNeighList2h = n.aodvNeighList2h
  timers : n.cfg.gRoutingMetric = .hops ∧ TimersSame n.timers n'.timers ∨
    n.cfg.gRoutingMetric ≠ .hops ∧ ∃ n₁ delay, NeighSame n n₁ ∧
      TimersSame ((n₁.insertTimer .sendEtt delay neighIp).insertTimer .ettCleanup ettCleanupDelay
        neighIp).timers n'.timers

theorem neighSame_routeAodvNeigh {ip : Ip} {ok : Bool} (h : n.routeAodvNeigh ip = some (ok, n')) :
    ∃ r, n' = { n with routing := r } := by
  obtain ⟨dstId, -, h⟩ := Option.bind_eq_some_iff.mp h
  split at h
  · simp only [Option.some.injEq, Prod.mk.injEq] at h
    exact ⟨_, h.2.symm⟩
  · dsimp only at h
    split at h
    · simp only [Option.some.injEq, Prod.mk.injEq] at h
      exact ⟨_, h.2.symm⟩
    split at h
    · simp only [Option.some.injEq, Prod.mk.injEq] at h
      exact ⟨_, h.2.symm⟩
    · simp only [Option.some.injEq, Prod.mk.injEq] at h
      exact ⟨_, h.2.symm⟩

theorem createAodvNeigh_spec {ip : Ip} {ok : Bool} (h : n.createAodvNeigh ip = some (ok, n')) :
    ok = false ∧ NeighSame n n' ∨ ok = true ∧ MeetsNeigh ip n n' := by
  cases createAodvNeigh_inv h with
  | refused => exact .inl ⟨rfl, neighSame_alloc n⟩
  | noRoute _ _ hroute =>
    obtain ⟨r, rfl⟩ := neighSame_routeAodvNeigh hroute
    exact .inl ⟨rfl, neighSame_of_eq rfl rfl rfl rfl rfl rfl⟩
  | linked _ habsent hroute hmetric =>
    obtain ⟨r, rfl⟩ := neighSame_routeAodvNeigh hroute
    exact .inr ⟨rfl, rfl, rfl, rfl, habsent, rfl, rfl, .inl ⟨hmetric, .refl _⟩⟩
  | probed _ habsent hroute hmetric =>
    obtain ⟨r, rfl⟩ := neighSame_routeAodvNeigh hroute
    have hrandom : NeighSame n { n.alloc.2 with routing := r }.getRandom.2 :=
      neighSame_of_eq rfl rfl rfl rfl rfl rfl
    exact .inr ⟨rfl, rfl, rfl, rfl, habsent, rfl, rfl,
      .inr ⟨hmetric, _, _, hrandom, timersSame_update _ _ _⟩⟩

/-- `reset_ett` gives up one probe timer of the address, and sets both timers. -/
theorem resetEtt_renews {ip : Ip} (h : n.resetEtt ip = some n') :
    ∃ n₁ delay, NeighSame (n.removeTimer ip ip noTos .sendEtt) n₁ ∧
      NeighSame ((n₁.insertTimer .sendEtt delay ip).insertTimer .ettCleanup ettCleanupDelay ip) n' := by
  have hreset : NeighSame (n.removeTimer ip ip noTos .sendEtt)
      ((n.removeTimer ip ip noTos .sendEtt).modifyNeigh ip resetEttNeigh) :=
    neighSame_modifyNeigh fun _ ↦ ⟨rfl, rfl, rfl, id⟩
  exact ⟨_, _, hreset.trans (neighSame_getRandom _),
    neighSame_updateTimers.trans (neighSame_of_steady (steady_genRerr h))⟩

theorem neighSame_sendEttInfo (ip : Ip) (myRate : UInt16) (fixed : UInt8) :
    NeighSame n (n.sendEttInfo ip myRate fixed) := by
  unfold sendEttInfo
  dsimp only
  split
  · exact neighSame_of_eq rfl rfl rfl rfl rfl rfl
  split
  · exact neighSame_of_eq rfl rfl rfl rfl rfl rfl
  · exact (neighSame_alloc n).trans (neighSame_sendMessage _ _ _)

theorem neighSame_updateEtt {ip : Ip} (f : EttParams → EttParams) :
    NeighSame n (n.modifyNeigh ip (updateEtt f)) :=
  neighSame_modifyNeigh fun _ ↦ ⟨rfl, rfl, rfl, id⟩

theorem sendProbe_renews (ip : Ip) : NeighSame n (n.sendProbe ip) ∨ Renews .sendEtt ip n (n.sendProbe ip) := by
  have hrate : ∀ (x : AodvNeigh) (n₁ : Node), NeighSame n₁ (n₁.sendRateProbe x).2 := by
    intro x n₁
    unfold sendRateProbe
    split
    · exact neighSame_sendEttInfo _ _ _
    dsimp only
    split
    · exact neighSame_of_eq rfl rfl rfl rfl rfl rfl
    split
    · exact neighSame_of_eq rfl rfl rfl rfl rfl rfl
    · unfold sendEttProbe
      split
      · exact neighSame_of_eq rfl rfl rfl rfl rfl rfl
      · exact neighSame_of_eq rfl rfl rfl rfl rfl rfl
  unfold sendProbe
  split
  · exact .inl (.refl n)
  next x _ =>
  have hcount : NeighSame n { n with countSend := n.nextCountSend } :=
    neighSame_of_eq rfl rfl rfl rfl rfl rfl
  dsimp only
  split
  · exact .inr ⟨_, _, hcount.trans (hrate x _), neighSame_updateTimers⟩
  · exact .inl (hcount.trans (hrate x _))

/-- There is memory for the next HELLO and its extensions. -/
def hasHelloMemory (n : Node) : Bool :=
  (n.kmalloc.take ((if n.cfg.gRoutingMetric ≠ .hops then n.aodvNeighList.length else 0) + 1)).all id

theorem all_take_succ (o : Outcomes) (k : ℕ) :
    (o.take (k + 1)).all id = (o.next && (o.rest.take k).all id) := by
  cases o with
  | nil => simp [Outcomes.next, Outcomes.rest]
  | cons b o => rfl

theorem helloExtensions_spec (l : List AodvNeigh) (ext : List HelloExtension) (n : Node) :
    NeighSame n (helloExtensions l ext n).2 ∧
      (helloExtensions l ext n).1.isSome = (n.kmalloc.take l.length).all id ∧
      ((helloExtensions l ext n).1.isSome = true →
        (helloExtensions l ext n).2.kmalloc = n.kmalloc.drop l.length) := by
  induction l generalizing ext n with
  | nil => exact ⟨.refl n, rfl, fun _ ↦ rfl⟩
  | cons x l ih =>
    rw [List.length_cons, all_take_succ]
    unfold helloExtensions
    dsimp only
    split
    · next hmemory =>
      have hnext : n.kmalloc.next = false := by simpa [alloc] using hmemory
      exact ⟨neighSame_alloc n, by simp [hnext], fun hsome ↦ absurd hsome Bool.false_ne_true⟩
    · next hmemory =>
      have hnext : n.kmalloc.next = true := by simpa [alloc] using hmemory
      obtain ⟨hsame, hsome, hrest⟩ :=
        ih (⟨x.ip, x.etx.recvEtx, x.loadMetric.load, x.loadMetric.loadSeq⟩ :: ext) n.alloc.2
      refine ⟨(neighSame_alloc n).trans hsame, by rw [hsome, hnext]; rfl, fun h ↦ ?_⟩
      rw [hrest h]
      cases hmem : n.kmalloc with
      | nil => simp [alloc, Outcomes.rest, hmem]
      | cons b o => simp [alloc, Outcomes.rest, hmem]

/-- Both factors of the ETX are cut off at 10. -/
theorem etx_le (count sendEtx : UInt8) :
    (if count > 10 then 10 else count) * (if sendEtx > 10 then 10 else sendEtx) ≤ 100 := by
  have hcut : ∀ c : UInt8, (if c > 10 then 10 else c).toNat ≤ 10 := by
    intro c
    split
    · decide
    · next h => exact UInt8.le_iff_toNat_le.mp (UInt8.not_lt.mp h)
  have hmul := Nat.mul_le_mul (hcut count) (hcut sendEtx)
  rw [UInt8.le_iff_toNat_le, UInt8.toNat_mul]
  exact (Nat.mod_le _ _).trans hmul

theorem neighSame_computeEtx : NeighSame n n.computeEtx :=
  { NeighSame.refl n with
    neigh := Pointwise.forall₂_map fun x _ ↦ by
      unfold computeEtxNeigh
      split
      · exact .refl x
      · exact ⟨rfl, rfl, rfl, fun _ ↦ etx_le _ _⟩ }

theorem sendHello_renews (ext : List HelloExtension) :
    NeighSame n (n.sendHello ext) ∧ n.kmalloc.next = false ∨
      ∃ ip, Renews .hello ip n (n.sendHello ext) := by
  unfold sendHello
  dsimp only
  split
  · next hmemory => exact .inl ⟨neighSame_alloc n, by simpa [alloc] using hmemory⟩
  generalize hn₂ : n.alloc.2.localBroadcast 1 (.hello (n.alloc.2.helloOf ext)) = n₂
  have h₂ : NeighSame n n₂.getRandom.2 :=
    hn₂ ▸ ((neighSame_alloc n).trans (neighSame_localBroadcast _ _)).trans (neighSame_getRandom _)
  refine .inr ⟨n₂.getRandom.2.cfg.gMeshIp, n₂.getRandom.2, helloDelay n₂.getRandom.1, h₂, ?_⟩
  generalize n₂.getRandom.2.insertTimer .hello _ _ = n₃
  have hcount : ∀ c, NeighSame n₃ { n₃.updateTimers with count := c } :=
    fun c ↦ neighSame_updateTimers.trans (neighSame_of_eq rfl rfl rfl rfl rfl rfl)
  split
  · split
    · exact (hcount 0).trans neighSame_computeEtx
    · exact hcount 0
  · exact hcount _

theorem genHello_renews (n : Node) : NeighSame n n.genHello ∧ hasHelloMemory n = false ∨
    ∃ ip, Renews .hello ip n n.genHello := by
  unfold genHello hasHelloMemory
  split
  · obtain ⟨hsame, hsome, hrest⟩ := helloExtensions_spec n.aodvNeighList [] n
    split
    · next n₁ heq =>
      rw [heq] at hsame hsome
      refine .inl ⟨hsame, ?_⟩
      have hlack : (n.kmalloc.take n.aodvNeighList.length).all id = false := hsome.symm
      rw [List.all_eq_false] at hlack ⊢
      obtain ⟨b, hb, hfalse⟩ := hlack
      exact ⟨b, (List.take_sublist_take_left (Nat.le_succ _)).subset hb, hfalse⟩
    · next ext n₁ heq =>
      rw [heq] at hsame hrest
      have hrest : n₁.kmalloc = n.kmalloc.drop n.aodvNeighList.length := hrest rfl
      rcases sendHello_renews (n := n₁) ext with ⟨hsend, hnext⟩ | ⟨ip, n₂, delay, h₂, h₃⟩
      · refine .inl ⟨hsame.trans hsend, ?_⟩
        rw [hrest] at hnext
        rw [List.take_add, List.all_append]
        cases hdrop : n.kmalloc.drop n.aodvNeighList.length with
        | nil => simp [Outcomes.next, hdrop] at hnext
        | cons b o =>
          rw [hdrop] at hnext
          have hb : b = false := hnext
          simp [hb]
      · exact .inr ⟨ip, n₂, delay, hsame.trans h₂, h₃⟩
  · rcases sendHello_renews (n := n) [] with ⟨hsend, hnext⟩ | hrenews
    · exact .inl ⟨hsend, by rw [all_take_succ, hnext, Bool.false_and]⟩
    · exact .inr hrenews

theorem flushRoutes_renews (n : Node) : Renews .cleanup n.cfg.gMeshIp n n.flushRoutes :=
  ⟨_, _, neighSame_routing (n.routing.flushAodvRouteTable n.cfg n.now), neighSame_updateTimers⟩

theorem gwCleanup_renews (n : Node) : Renews .gwCleanup n.cfg.gMeshIp n
    (n.updateGwLifetimes.insertTimer .gwCleanup activeGwrouteTimeout n.cfg.gMeshIp).updateTimers :=
  ⟨n.updateGwLifetimes, _, neighSame_of_eq rfl rfl rfl rfl rfl rfl, neighSame_updateTimers⟩

end Handlers

section Hooks

variable {n n' : Node}

/-- The neighbour tables, and the timers and tasks of upkeep stay as they are. -/
structure NeighIdle (n n' : Node) : Prop where
  cfg : n'.cfg = n.cfg
  now : n'.now = n.now
  neigh : n'.aodvNeighList = n.aodvNeighList
  neigh2h : n'.aodvNeighList2h = n.aodvNeighList2h
  timers : TimersSame n.timers n'.timers
  tasks : n'.tasks.elems.filter isUpkeep = n.tasks.elems.filter isUpkeep

theorem NeighIdle.refl (n : Node) : NeighIdle n n := ⟨rfl, rfl, rfl, rfl, .refl _, rfl⟩

theorem NeighIdle.trans {n'' : Node} (h : NeighIdle n n') (h' : NeighIdle n' n'') : NeighIdle n n'' :=
  ⟨h'.cfg.trans h.cfg, h'.now.trans h.now, h'.neigh.trans h.neigh, h'.neigh2h.trans h.neigh2h,
    h.timers.trans h'.timers, h'.tasks.trans h.tasks⟩

theorem neighIdle_of_eq (hcfg : n'.cfg = n.cfg) (hnow : n'.now = n.now) (htasks : n'.tasks = n.tasks)
    (hneigh : n'.aodvNeighList = n.aodvNeighList) (hneigh2h : n'.aodvNeighList2h = n.aodvNeighList2h)
    (htimers : n'.timers = n.timers) : NeighIdle n n' :=
  ⟨hcfg, hnow, hneigh, hneigh2h, htimers ▸ .refl _, by rw [htasks]⟩

theorem neighIdle_updateTimers : NeighIdle n n.updateTimers :=
  { NeighIdle.refl n with timers := timersSame_update _ _ _ }

theorem neighIdle_insertTimer (type : TaskType) {delay : ℕ} {ip : Ip}
    (h : isUpkeep (createTask type 0) = false) : NeighIdle n (n.insertTimer type delay ip) :=
  { NeighIdle.refl n with timers := (neighSame_insertTimer (n := n) type h).timers }

theorem neighIdle_insertTimerDir (type : TaskType) {delay : ℕ} {retries : UInt8} {srcIp dstIp : Ip}
    {tos : UInt8} (h : isUpkeep (createTask type 0) = false) :
    NeighIdle n (n.insertTimerDir type delay retries srcIp dstIp tos) :=
  { NeighIdle.refl n with timers := (neighSame_insertTimerDir (n := n) type h).timers }

theorem neighIdle_queueTask {t : Task} (h : isUpkeep t = false) : NeighIdle n (n.queueTask t) := by
  refine { NeighIdle.refl n with tasks := ?_ }
  simp only [queueTask, ClassQueue.pushBack, ClassQueue.elems]
  split <;> simp [List.filter_append, h]

theorem neighIdle_queueTaskAtFront {t : Task} (h : isUpkeep t = false) :
    NeighIdle n (n.queueTaskAtFront t) := by
  refine { NeighIdle.refl n with tasks := ?_ }
  simp only [queueTaskAtFront, ClassQueue.pushFront, ClassQueue.elems]
  split <;> simp [List.filter_append, h]

theorem neighIdle_insertTask (p : Packet) (m : Message) : NeighIdle n (n.insertTask p m) := by
  unfold insertTask
  dsimp only
  split
  · exact neighIdle_of_eq rfl rfl rfl rfl rfl rfl
  split
  · exact neighIdle_of_eq rfl rfl rfl rfl rfl rfl
  · have halloc : NeighIdle n n.alloc.2.alloc.2 := neighIdle_of_eq rfl rfl rfl rfl rfl rfl
    exact halloc.trans (neighIdle_queueTask (by cases m <;> rfl))

theorem neighIdle_dtnInput (p : Packet) : NeighIdle n (n.dtnInput p) := by
  have hregister : ∀ n₁ : Node, NeighIdle n₁ { n₁ with dtnRegister := true } :=
    fun _ ↦ neighIdle_of_eq rfl rfl rfl rfl rfl rfl
  unfold dtnInput
  dsimp only
  generalize hn₁ : (if (!n.dtnRegister && p.udpDest == dtnRegisterPort) = true then _ else n) = n₁
  have h₁ : NeighIdle n n₁ := by
    rw [← hn₁]
    split
    · exact hregister n
    · exact .refl n
  generalize hn₂ : (if (n₁.dtnRegister && p.udpDest == getDtnHello) = true then _ else n₁) = n₂
  have h₂ : NeighIdle n₁ n₂ := by
    rw [← hn₂]
    split
    · exact (neighIdle_insertTimer .dtnHello rfl).trans neighIdle_updateTimers
    · exact .refl n₁
  refine (h₁.trans h₂).trans ?_
  split
  · have hplace : ∀ x y, NeighIdle n₂ { n₂ with longitude := x, latitude := y } :=
      fun _ _ ↦ neighIdle_of_eq rfl rfl rfl rfl rfl rfl
    exact (hplace _ _).trans ((neighIdle_insertTimerDir .sendRrep rfl).trans neighIdle_updateTimers)
  · exact .refl n₂

theorem neighIdle_inputHandler (p : Packet) : NeighIdle n (n.inputHandler p).2 := by
  have hdtn : NeighIdle n (n.dtnInput p) := neighIdle_dtnInput p
  unfold inputHandler
  dsimp only
  split
  · exact hdtn
  split
  · unfold packetIn
    split
    · exact hdtn
    split
    · exact hdtn
    · exact hdtn.trans (neighIdle_insertTask _ _)
  · exact hdtn

theorem neighIdle_outputHandler {skb : Skb} {v : Verdict} (h : n.outputHandler skb = some (v, n')) :
    NeighIdle n n' := by
  have hsame : ∀ {w : Verdict}, some (w, n) = some (v, n') → NeighIdle n n' := fun heq ↦ by
    simp only [Option.some.injEq, Prod.mk.injEq] at heq
    exact heq.2 ▸ .refl n
  unfold outputHandler at h
  split at h
  · exact hsame h
  dsimp only at h
  split at h
  · exact hsame h
  split at h
  · split at h
    · split at h
      · cases h
      · simp only [Option.some.injEq, Prod.mk.injEq] at h
        have halloc : NeighIdle n n.alloc.2 := neighIdle_of_eq rfl rfl rfl rfl rfl rfl
        exact h.2 ▸ halloc.trans (neighIdle_queueTaskAtFront rfl)
    · split at h
      · exact hsame h
      · exact hsame h
  · next e _ =>
    have hroute : ∀ (n₁ : Node) (r : Routing), NeighIdle n₁ { n₁ with routing := r } :=
      fun _ _ ↦ neighIdle_of_eq rfl rfl rfl rfl rfl rfl
    simp only [Option.some.injEq, Prod.mk.injEq] at h
    obtain ⟨-, rfl⟩ := h
    refine .trans ?_ (hroute _ _)
    split
    · split
      · exact (hroute n _).trans (neighIdle_insertTimer .updateLoad rfl)
      · exact hroute n _
    · exact .refl n

theorem signal_neigh (n : Node) : n.signal.cfg = n.cfg ∧ n.signal.now = n.now ∧
    n.signal.aodvNeighList = n.aodvNeighList ∧ n.signal.aodvNeighList2h = n.aodvNeighList2h ∧
    n.signal.timers.queue = n.timers.queue.dropWhile (fun t ↦ timeBefore t.time n.now) ∧
    n.signal.tasks.elems.Perm
      (n.timers.queue.takeWhile (fun t ↦ timeBefore t.time n.now) ++ n.tasks.elems) := by
  obtain ⟨tasks, heq, hperm⟩ := signal_eq n
  simp only [timerQueueSignal, drainTimers_eq] at heq hperm
  rw [heq]
  exact ⟨rfl, rfl, rfl, rfl, by simp, hperm⟩

end Hooks

end Fbaodv.Proofs.Upkeep
