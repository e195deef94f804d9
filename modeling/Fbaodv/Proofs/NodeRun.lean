import Fbaodv.Foundation.Lockstep
import Fbaodv.Proofs.HandlerSpecs

namespace Fbaodv.Proofs.NodeRun

open Fbaodv.Model Fbaodv.Model.Node Fbaodv.Foundation
open Fbaodv.Proofs.RouteFrame Fbaodv.Proofs.RoutingInvariant Fbaodv.Proofs.Background
open Fbaodv.Proofs.RouteEffects Fbaodv.Proofs.HandlerSpecs

variable {n n' : Node} {t : Task}

/-- `recv_rrep` takes the node for the source of the flow. -/
def isRrepSource (n : Node) (m : Rrep) : Bool :=
  m.srcIp == n.cfg.gMeshIp || (m.srcIp == gNullIp && m.gateway == n.cfg.gMeshIp)

/-- What handling a task does to the tables. -/
inductive RouteEffect (n : Node) (t : Task) : Routing → Prop
  | touch {r : Routing} (h : Touches n.cfg n.routing r) : RouteEffect n t r
  | hello {r r' : Routing} (htype : t.type = .recvHello) (h : MaybeAddsNeigh n t.srcIp r)
      (hnew : isNewNeigh n t.srcIp = true ∧ n.kmalloc.next = true ∨ r = n.routing) (h' : Touches n.cfg r r') :
      RouteEffect n t r'
  | rreq {m : Rreq} {x : AodvNeigh} {pathMetric : UInt32} {ok : Bool} {r : Routing}
      (htype : t.type = .recvRreq) (hdata : t.data = some (.rreq m))
      (hcall : RreqCall n t m x pathMetric)
      (h : n.routing.rreqAodvRoute n.cfg n.now m.dstIp m.srcIp m.tos x.ip x.sendRate (m.numHops + 1)
        m.dstId pathMetric = some (ok, r)) : RouteEffect n t r
  | answer {e : AodvRoute} {o : Option AodvRoute} {r r₁ r₂ r' : Routing} (htype : t.type = .sendRrep)
      (h : AnswersFrom n t.srcIp t.dstIp t.tos r e) (h₁ : Touches n.cfg r r₁)
      (h₂ : r₁.rrepAodvRoute n.cfg n.now e.ptr = some (o, r₂)) (h' : Touches n.cfg r₂ r') :
      RouteEffect n t r'
  | rrepSource {m : Rrep} {x : AodvNeigh} {ok : Bool} {r₁ r₂ r' : Routing}
      (htype : t.type = .recvRrep) (hdata : t.data = some (.rrep m))
      (hx : n.findAodvNeigh t.srcIp = some x) (hsource : isRrepSource n m = true)
      (h₁ : n.routing.rreqAodvRoute n.cfg n.now m.srcIp m.dstIp m.tos x.ip x.sendRate
        (m.numHops + 1) m.dstId m.pathMetric = some (ok, r₁))
      (h₂ : r₁.findAodvRouteById m.dstIp m.dstId = none ∧ r₂ = r₁ ∨
        ∃ e o, r₁.findAodvRouteById m.dstIp m.dstId = some e ∧
          r₁.rrepAodvRoute n.cfg n.now e.ptr = some (o, r₂))
      (h' : Touches n.cfg r₂ r') : RouteEffect n t r'
  | rrepForward {m m' : Rrep} {x : AodvNeigh} {recv : AodvRoute} {ok : Bool} {n₁ : Node}
      {r₁ r' : Routing} (htype : t.type = .recvRrep) (hdata : t.data = some (.rrep m))
      (hx : n.findAodvNeigh t.srcIp = some x) (hsource : isRrepSource n m = false)
      (hrecv : (n.updateNeighLifetime x.ip).rrepRecvRoute { m with numHops := m.numHops + 1 } =
        some (some recv, m', n₁))
      (h₁ : n₁.routing.rreqAodvRoute n.cfg n.now m'.srcIp m'.dstIp m'.tos x.ip x.sendRate m'.numHops
        m'.dstId (m'.pathMetric - recv.pathMetric) = some (ok, r₁))
      (h' : r₁.findAodvRouteById m'.dstIp m'.dstId = none ∧ r' = r₁ ∨
        ∃ send o₂ r₂ o₃ r₃, r₁.findAodvRouteById m'.dstIp m'.dstId = some send ∧
          r₁.rrepAodvRoute n.cfg n.now recv.ptr = some (o₂, r₂) ∧
          r₂.rrepAodvRoute n.cfg n.now send.ptr = some (o₃, r₃) ∧ Touches n.cfg r₃ r') :
      RouteEffect n t r'
  | flush (htype : t.type = .cleanup ∨ t.type = .routeCleanup) :
      RouteEffect n t (n.routing.flushAodvRouteTable n.cfg n.now)

/-- A node after a handler: the parameters and the clock of before, and tables
that are one of the effects. -/
structure Handled (n : Node) (t : Task) (n' : Node) : Prop where
  cfg : n'.cfg = n.cfg
  now : n'.now = n.now
  effect : RouteEffect n t n'.routing

theorem handled_of_calm {P : Sent → Prop} (h : Calm P n n') : Handled n t n' :=
  ⟨h.cfg, h.now, .touch h.routing⟩

theorem handled_of_quiet {P : Sent → Prop} (h : Quiet P n n') : Handled n t n' :=
  handled_of_calm (calm_of_quiet h)

theorem handled_recvHello {m : Hello} (htype : t.type = .recvHello)
    (hr : WellFormed n.cfg n.routing) (h : n.recvHello t m = some n') : Handled n t n' := by
  obtain ⟨r, n₁, n₂, hadds, hisNew, hcalm₁, hfloods, hcalm₂⟩ := recvHello_cases hr h
  have hall : Calm isNotHello { n with routing := r } n' :=
    ((hcalm₁.mono isNotHello_of_isPlain).trans (calm_of_quiet (quiet_of_floods hfloods))).trans
      (hcalm₂.mono isNotHello_of_isPlain)
  exact ⟨hall.cfg, hall.now, .hello htype hadds hisNew hall.routing⟩

theorem acceptRreq_frame (t : Task) (m : Rreq) (n : Node) :
    (n.acceptRreq t m).cfg = n.cfg ∧ (n.acceptRreq t m).now = n.now ∧
      (n.acceptRreq t m).routing = n.routing := by
  unfold acceptRreq
  split
  · split <;> exact ⟨rfl, rfl, rfl⟩
  · dsimp only [localBroadcast]
    split <;> split <;> exact ⟨rfl, rfl, rfl⟩

theorem handled_recvRreq {m : Rreq} (htype : t.type = .recvRreq) (hdata : t.data = some (.rreq m))
    (h : n.recvRreq t m = some n') : Handled n t n' := by
  rcases recvRreq_cases h with hcalm | ⟨x, pathMetric, ok, r, hcall, hr, rfl⟩
  · exact handled_of_calm hcalm
  · have heffect : RouteEffect n t r := .rreq htype hdata hcall hr
    split
    · obtain ⟨hcfg, hnow, hrouting⟩ := acceptRreq_frame t
        { m with numHops := m.numHops + 1, pathMetric := pathMetric }
        { n.updateNeighLifetime x.ip with routing := r }
      exact ⟨hcfg, hnow, hrouting ▸ heffect⟩
    · exact ⟨rfl, rfl, heffect⟩

theorem handled_genRrep (htype : t.type = .sendRrep) (hr : WellFormed n.cfg n.routing)
    (h : n.genRrep t.srcIp t.dstIp t.tos = some n') : Handled n t n' := by
  rcases genRrep_cases hr h with hcalm | ⟨r, e, n₁, hfrom, hcalm, hn₁, hans⟩
  · exact handled_of_calm hcalm
  obtain ⟨dstId, e', o, r₂, dttl, -, -, hrep, hcalm'⟩ := hans
  have hlocal : LocalEntry n.cfg r := by
    rcases hfrom with ⟨rfl, -⟩ | ⟨-, -, new, hcopy, -⟩
    · exact hr.localEntry
    · exact (hcopy.wellFormed hr).localEntry
  have hcfg : n₁.cfg = n.cfg := hcalm.cfg
  have hnow : n₁.now = n.now := hcalm.now
  have hbump : Touches n.cfg r n₁.bumpLocalDstId.routing := by
    have := (quiet_bumpLocalDstId (P := isPlain) (n := n₁) (by rwa [hcfg, hn₁])).routing
    rwa [hcfg, hn₁] at this
  rw [hcfg, hnow] at hrep
  refine ⟨hcalm'.cfg.trans hcfg, hcalm'.now.trans hnow, .answer htype hfrom hbump hrep ?_⟩
  exact hcfg ▸ hcalm'.routing

theorem handled_recvRrep {m : Rrep} (htype : t.type = .recvRrep) (hdata : t.data = some (.rrep m))
    (hr : WellFormed n.cfg n.routing) (h : n.recvRrep t m = some n') : Handled n t n' := by
  unfold recvRrep at h
  split at h
  · exact handled_of_calm (P := isPlain) (Option.some.inj h ▸ .refl _ _)
  next x hx =>
  dsimp only at h
  split at h
  · next hsource =>
    obtain ⟨ok, r₁, r₂, hr₁, hr₂, hcalm⟩ := recvRrepSource_cases h
    exact ⟨hcalm.cfg, hcalm.now, .rrepSource htype hdata hx hsource hr₁ hr₂ hcalm.routing⟩
  · next hsource =>
    have hsource : isRrepSource n m = false := eq_false_of_ne_true hsource
    obtain ⟨o, m', n₁, hrecv, hcases⟩ := recvRrepForward_cases h
    have hcalm₁ : n₁.cfg = n.cfg ∧ n₁.now = n.now := by
      rcases rrepRecvRoute_cases (n := n.updateNeighLifetime x.ip) hr hrecv with
        ⟨-, rfl⟩ | ⟨-, -, e, new, r, -, rfl, -⟩
      · exact ⟨rfl, rfl⟩
      · exact ⟨rfl, rfl⟩
    obtain ⟨hcfg, hnow⟩ := hcalm₁
    rcases hcases with ⟨rfl, rfl⟩ | ⟨recv, ok, r₁, rfl, hr₁, hfwd⟩
    · rcases rrepRecvRoute_cases (n := n.updateNeighLifetime x.ip) hr hrecv with
        ⟨-, rfl⟩ | ⟨-, -, e, new, r, ho, -⟩
      · exact ⟨hcfg, hnow, .touch (.refl _ _)⟩
      · cases ho
    · rw [hcfg, hnow] at hr₁
      rcases hfwd with ⟨hfind, rfl⟩ | ⟨send, o₂, r₂, o₃, r₃, recv', hfind, hr₂, hr₃, -, hcalm⟩
      · exact ⟨hcfg, hnow, .rrepForward htype hdata hx hsource hrecv hr₁ (.inl ⟨hfind, rfl⟩)⟩
      · rw [hcfg, hnow] at hr₂ hr₃
        refine ⟨hcalm.cfg.trans hcfg, hcalm.now.trans hnow, .rrepForward htype hdata hx hsource hrecv hr₁
          (.inr ⟨send, o₂, r₂, o₃, r₃, hfind, hr₂, hr₃, ?_⟩)⟩
        exact hcfg ▸ hcalm.routing

theorem handled_genStRreq (hr : WellFormed n.cfg n.routing) (h : n.genStRreq = some n') :
    Handled n t n' := by
  unfold genStRreq at h
  split at h
  · exact handled_of_calm (P := isPlain) (Option.some.inj h ▸ .refl _ _)
  dsimp only at h
  split at h
  · exact handled_of_calm (P := isPlain) (Option.some.inj h ▸ calm_alloc)
  split at h
  · exact handled_of_calm (P := isPlain) (Option.some.inj h ▸ calm_alloc)
  next e he =>
  obtain ⟨hmem, hsrc, hdst, -⟩ := findAodvRoute_some he
  have htouch : Touches n.cfg n.routing (n.routing.modifyAt e.ptr fun e ↦
      { e with dstId := e.dstId + 1 }) :=
    touches_setDstId fun e' he' hptr ↦ hr.eq_of_ptr hmem he' hptr ▸ ⟨hsrc, hdst⟩
  obtain rfl := Option.some.inj h
  unfold localBroadcast
  split
  · exact ⟨rfl, rfl, .touch htouch⟩
  · exact ⟨rfl, rfl, .touch htouch⟩

theorem updateGw_frame (gwIp : Ip) (dstId : UInt32) (numHops : UInt8) (pathMetric : UInt32) (n : Node) :
    ∃ gwList kmalloc, (n.updateGw gwIp dstId numHops pathMetric).2 = { n with gwList := gwList, kmalloc := kmalloc } := by
  unfold updateGw
  split
  · split
    · exact ⟨n.gwList, n.kmalloc, rfl⟩
    split
    · exact ⟨n.gwList, n.kmalloc, rfl⟩
    · exact ⟨_, n.kmalloc, rfl⟩
  · dsimp only
    split
    · exact ⟨n.gwList, _, rfl⟩
    · exact ⟨_, _, rfl⟩

/-- An ST_RREQ of a neighbour refreshes it, may list the gateway, and may be passed
on. -/
theorem recvRreqSt_cases (t : Task) (m : RreqSt) (n : Node) :
    n.recvRreqSt t m = n ∨ ∃ x gwList kmalloc, n.findAodvNeigh t.srcIp = some x ∧
      (n.recvRreqSt t m = { n.updateNeighLifetime x.ip with gwList := gwList, kmalloc := kmalloc } ∨
        ∃ m', n.recvRreqSt t m =
          ({ n.updateNeighLifetime x.ip with gwList := gwList, kmalloc := kmalloc } : Node).localBroadcast (t.ttl - 1)
            (.strreq m')) := by
  unfold recvRreqSt
  split
  · exact .inl rfl
  next x hx =>
  refine .inr ⟨x, ?_⟩
  dsimp only
  split
  · exact ⟨n.gwList, n.kmalloc, hx, .inl rfl⟩
  split
  · exact ⟨n.gwList, n.kmalloc, hx, .inl rfl⟩
  next pathMetric _ =>
  obtain ⟨gwList, kmalloc, hgw⟩ :=
    updateGw_frame m.gwIp m.dstId (m.numHops + 1) pathMetric (n.updateNeighLifetime x.ip)
  rw [hgw]
  split
  · exact ⟨gwList, kmalloc, hx, .inr ⟨_, rfl⟩⟩
  · exact ⟨gwList, kmalloc, hx, .inl rfl⟩

theorem handled_recvRreqSt {m : RreqSt} : Handled n t (n.recvRreqSt t m) := by
  have hsame : ∀ n₁ : Node, n₁.cfg = n.cfg → n₁.now = n.now → n₁.routing = n.routing →
      Handled n t n₁ := fun n₁ hcfg hnow hr ↦ ⟨hcfg, hnow, hr ▸ .touch (.refl _ _)⟩
  rcases recvRreqSt_cases t m n with heq | ⟨x, gwList, kmalloc, -, heq | ⟨m', heq⟩⟩
  · rw [heq]
    exact hsame _ rfl rfl rfl
  · rw [heq]
    exact hsame _ rfl rfl rfl
  · rw [heq]
    unfold localBroadcast
    split
    · exact hsame _ rfl rfl rfl
    · exact hsame _ rfl rfl rfl

theorem handle_routing (hr : WellFormed n.cfg n.routing) (h : n.handle t = some n') :
    Handled n t n' := by
  unfold handle at h
  split at h
  · exact handled_of_quiet (genRreq_floods hr.localEntry h).quiet
  · next htype hdata => exact handled_recvRrep htype hdata hr h
  · exact handled_of_quiet (steady_recvRerr h).quiet
  · next htype _ => exact handled_recvHello htype hr h
  · exact handled_of_quiet (Option.some.inj h ▸ (steady_recvRcvp _ _).quiet)
  · exact handled_of_quiet (Option.some.inj h ▸ (steady_recvRrdp _ _ _).quiet)
  · next htype => exact Option.some.inj h ▸ ⟨rfl, rfl, .flush (.inl htype)⟩
  · exact handled_of_calm (Option.some.inj h ▸ calm_genHello n)
  · exact handled_genStRreq hr h
  · exact Option.some.inj h ▸ ⟨rfl, rfl, .touch (.refl _ _)⟩
  · exact handled_of_calm (calm_deleteAodvNeigh h)
  · next htype => exact Option.some.inj h ▸ ⟨rfl, rfl, .flush (.inr htype)⟩
  · exact handled_of_calm (Option.some.inj h ▸ calm_sendProbe _ _)
  · exact handled_of_calm (P := isPlain) (Option.some.inj h ▸ calm_recvSprobe _ _ _)
  · exact handled_of_calm (calm_recvLprobe h)
  · obtain ⟨x, -, h⟩ := Option.bind_eq_some_iff.mp h
    exact handled_of_calm (calm_resetEtt h)
  · exact handled_of_calm (P := isPlain) (Option.some.inj h ▸ calm_deleteAodvNeigh2h _ _)
  · next htype hdata => exact handled_recvRreq htype hdata h
  · exact handled_of_quiet (resendRreq_floods hr.localEntry h).quiet
  · exact handled_of_calm (calm_recvEttInfo h)
  · next htype => exact handled_genRrep htype hr h
  · exact Option.some.inj h ▸ handled_recvRreqSt
  · exact handled_of_quiet (Option.some.inj h ▸ (steady_updateMyLoad n).quiet)
  · exact handled_of_quiet (genRreq_floods hr.localEntry h).quiet
  · exact handled_of_calm (P := isPlain) (Option.some.inj h ▸ .refl _ _)

theorem inputHandler_frame (p : Packet) (n : Node) :
    (n.inputHandler p).2.cfg = n.cfg ∧ (n.inputHandler p).2.routing = n.routing := by
  have hdtn : (n.dtnInput p).cfg = n.cfg ∧ (n.dtnInput p).routing = n.routing := by
    unfold dtnInput
    dsimp only
    split <;> split <;> split <;> exact ⟨rfl, rfl⟩
  have hinsert : ∀ (m : Message) (n₁ : Node),
      (n₁.insertTask p m).cfg = n₁.cfg ∧ (n₁.insertTask p m).routing = n₁.routing := by
    intro m n₁
    unfold insertTask
    dsimp only
    split
    · exact ⟨rfl, rfl⟩
    split <;> exact ⟨rfl, rfl⟩
  unfold inputHandler
  dsimp only
  split
  · exact hdtn
  split
  · unfold packetIn
    split
    · exact hdtn
    split
    · exact hdtn
    · exact ⟨(hinsert _ _).1.trans hdtn.1, (hinsert _ _).2.trans hdtn.2⟩
  · exact hdtn

theorem outputHandler_touches {skb : Skb} {v : Verdict} (hr : WellFormed n.cfg n.routing)
    (h : n.outputHandler skb = some (v, n')) :
    n'.cfg = n.cfg ∧ Touches n.cfg n.routing n'.routing := by
  have hsame : ∀ {w : Verdict} {n₁ : Node}, n₁.cfg = n.cfg → n₁.routing = n.routing →
      some (w, n₁) = some (v, n') → n'.cfg = n.cfg ∧ Touches n.cfg n.routing n'.routing := by
    intro w n₁ hcfg hrouting heq
    simp only [Option.some.injEq, Prod.mk.injEq] at heq
    exact heq.2 ▸ ⟨hcfg, hrouting ▸ .refl _ _⟩
  unfold outputHandler at h
  split at h
  · exact hsame rfl rfl h
  dsimp only at h
  split at h
  · exact hsame rfl rfl h
  split at h
  · split at h
    · split at h
      · cases h
      · simp only [Option.some.injEq, Prod.mk.injEq] at h
        exact h.2 ▸ ⟨rfl, .refl _ _⟩
    · split at h
      · exact hsame rfl rfl h
      · exact hsame rfl rfl h
  · next e he =>
    obtain ⟨hfind, hstate⟩ := Option.filter_eq_some_iff.mp he
    obtain ⟨hmem, -⟩ := findAodvRoute_some hfind
    have hstate : e.state ≠ .invalid := by simpa using hstate
    have hactive : Touches n.cfg n.routing
        (n.routing.modifyAt e.ptr fun e ↦ { e with state := .active }) :=
      touches_modifyAt fun e' he' hptr ↦ ⟨rfl, rfl, rfl, rfl, rfl, rfl, rfl, rfl, rfl, .inl rfl,
        fun _ ↦ hr.eq_of_ptr hmem he' hptr ▸ hstate⟩
    have hlifetime : ∀ r : Routing, Touches n.cfg r
        (r.modifyAt e.ptr fun e ↦ { e with lifetime := n.now + activeRouteTimeout }) := fun r ↦
      touches_modifyAt fun _ _ _ ↦ ⟨rfl, rfl, rfl, rfl, rfl, rfl, rfl, rfl, rfl, .inl rfl, id⟩
    simp only [Option.some.injEq, Prod.mk.injEq] at h
    obtain ⟨-, rfl⟩ := h
    split
    · split
      · exact ⟨rfl, hactive.trans (hlifetime _)⟩
      · exact ⟨rfl, hactive.trans (hlifetime _)⟩
    · exact ⟨rfl, hlifetime _⟩

theorem mem_insert {q : TimerQueue} {new t : Task} (h : t ∈ (q.insert new).queue) :
    t = new ∨ t ∈ q.queue := by
  unfold TimerQueue.insert at h
  split at h
  · exact OrderedList.mem_insertBy.mp h
  · exact .inr h

/-- `timer_queue_signal` moves due timers to the tasks. -/
theorem signal_eq (n : Node) : ∃ tasks : ClassQueue Task,
    n.signal =
      { n with
        timers := (timerQueueSignal n.cfg.hz n.now { n.timers with aodvTimer := none }).2
        tasks := tasks } ∧
    tasks.elems.Perm
      ((timerQueueSignal n.cfg.hz n.now { n.timers with aodvTimer := none }).1 ++ n.tasks.elems) := by
  have hfold : ∀ (due : List Task) (n₁ : Node), ∃ tasks : ClassQueue Task,
      due.foldl (fun n t ↦ n.queueTask t) n₁ = { n₁ with tasks := tasks } ∧
        tasks.elems.Perm (due ++ n₁.tasks.elems) := by
    intro due
    induction due with
    | nil => exact fun n₁ ↦ ⟨n₁.tasks, rfl, .refl _⟩
    | cons t due ih =>
      intro n₁
      obtain ⟨tasks, heq, hperm⟩ := ih (n₁.queueTask t)
      refine ⟨tasks, heq, hperm.trans ?_⟩
      exact ((ClassQueue.pushBack_perm _ _ _).append_left due).trans List.perm_middle
  exact hfold (timerQueueSignal n.cfg.hz n.now { n.timers with aodvTimer := none }).1
    { n with timers := (timerQueueSignal n.cfg.hz n.now { n.timers with aodvTimer := none }).2 }

theorem signal_frame (n : Node) : n.signal.cfg = n.cfg ∧ n.signal.routing = n.routing := by
  obtain ⟨tasks, heq, -⟩ := signal_eq n
  rw [heq]
  exact ⟨rfl, rfl⟩

/-- A step hands a task to the thread, or it leaves the routes as they are. -/
theorem step_cases {e : Event} (hr : WellFormed n.cfg n.routing) (h : n.step e = some n') :
    (∃ t tasks, e = .thread ∧ n.tasks.pop = (some t, tasks) ∧
        Handled { n with tasks := tasks } t n') ∨
      n'.cfg = n.cfg ∧ Touches n.cfg n.routing n'.routing := by
  cases e with
  | wait ms => exact .inr (Option.some.inj h ▸ ⟨rfl, .refl _ _⟩)
  | input p =>
    obtain ⟨hcfg, hrouting⟩ := inputHandler_frame p n
    exact .inr (Option.some.inj h ▸ ⟨hcfg, hrouting ▸ .refl _ _⟩)
  | output skb =>
    obtain ⟨⟨v, n₁⟩, hsend, rfl⟩ := Option.map_eq_some_iff.mp h
    obtain ⟨⟨w, n₂⟩, hout, hsend⟩ := Option.bind_eq_some_iff.mp hsend
    have htouch := outputHandler_touches hr hout
    dsimp only at hsend
    split at hsend
    · simp only [Option.some.injEq, Prod.mk.injEq] at hsend
      exact .inr (hsend.2 ▸ htouch)
    · simp only [Option.some.injEq, Prod.mk.injEq] at hsend
      exact .inr (hsend.2 ▸ htouch)
  | signal =>
    obtain ⟨hcfg, hrouting⟩ := signal_frame n
    exact .inr (Option.some.inj h ▸ ⟨hcfg, hrouting ▸ .refl _ _⟩)
  | thread =>
    simp only [step, threadStep] at h
    split at h
    · exact .inr (Option.some.inj h ▸ ⟨rfl, .refl _ _⟩)
    · next t tasks hpop => exact .inl ⟨t, tasks, rfl, hpop, handle_routing (n := { n with tasks := tasks }) hr h⟩

/-- The states that a node reaches from an initial state that `I` allows by
steps that `C` allows. -/
inductive Reach (I : Config → Environment → Prop) (C : Node → Event → Prop) : Node → Prop
  | init {cfg : Config} {env : Environment} (h : I cfg env) : Reach I C (Node.init cfg env)
  | step {n n' : Node} {e : Event} (h : Reach I C n) (he : C n e) (hs : n.step e = some n') :
      Reach I C n'

/-- What holds at first and is kept by the allowed steps holds of every reached
state. -/
theorem Reach.induct {I : Config → Environment → Prop} {C : Node → Event → Prop} {Q : Node → Prop}
    (hinit : ∀ cfg env, I cfg env → Q (Node.init cfg env))
    (hstep : ∀ n e n', Q n → C n e → n.step e = some n' → Q n') (h : Reach I C n) : Q n := by
  induction h with
  | init h => exact hinit _ _ h
  | step _ he hs ih => exact hstep _ _ _ ih he hs

/-- The states that a node reaches at all. -/
abbrev Reachable : Node → Prop := Reach (fun _ _ ↦ True) fun _ _ ↦ True

/-- A condition on the tasks that the thread takes, with the tasks that still
wait. -/
def AtTask (P : Task → ClassQueue Task → Node → Prop) (n : Node) (e : Event) : Prop :=
  ∀ t tasks, e = .thread → n.tasks.pop = (some t, tasks) → P t tasks n

theorem atTask_iff {P : Task → ClassQueue Task → Node → Prop} {t : Task} {tasks : ClassQueue Task} {n : Node}
    (hpop : n.tasks.pop = (some t, tasks)) : AtTask P n .thread ↔ P t tasks n := by
  refine ⟨fun h ↦ h t tasks rfl hpop, fun h t' tasks' _ hpop' ↦ ?_⟩
  simp only [hpop, Prod.mk.injEq, Option.some.injEq] at hpop'
  obtain ⟨rfl, rfl⟩ := hpop'
  exact h

instance decidableAtTask (P : Task → ClassQueue Task → Node → Prop) [∀ t tasks n, Decidable (P t tasks n)]
    (n : Node) (e : Event) : Decidable (AtTask P n e) :=
  match e with
  | .thread =>
    match hpop : n.tasks.pop with
    | (some t, tasks) => decidable_of_iff (P t tasks n) (atTask_iff hpop).symm
    | (none, _) => .isTrue fun _ _ _ h ↦ by simp [hpop] at h
  | .wait _ | .input _ | .output _ | .signal => .isTrue fun _ _ h ↦ nomatch h

/-- The node after these events. -/
def runs : List Event → Node → Option Node
  | [], n => some n
  | e :: l, n => (n.step e).bind (runs l)

theorem Reach.of_runs {I : Config → Environment → Prop} {l : List Event}
    (h : Reach I (fun _ _ ↦ True) n) (hl : runs l n = some n') :
    Reach I (fun _ _ ↦ True) n' := by
  induction l generalizing n with
  | nil => exact Option.some.inj hl ▸ h
  | cons e l ih =>
    obtain ⟨n₁, hs, hl⟩ := Option.bind_eq_some_iff.mp hl
    exact ih (.step h trivial hs) hl

theorem Reach.of_along {I : Config → Environment → Prop} {C : Node → Event → Prop} {l : List Event}
    (h : Reach I C n) (hC : Lockstep.Along Node.step C l n) (hl : runs l n = some n') : Reach I C n' := by
  induction l generalizing n with
  | nil => exact Option.some.inj hl ▸ h
  | cons e l ih =>
    obtain ⟨n₁, hs, hl⟩ := Option.bind_eq_some_iff.mp hl
    exact ih (.step h hC.1 hs) (hC.2 n₁ hs) hl

theorem Reach.getD_runs {I : Config → Environment → Prop} {l : List Event}
    (h : Reach I (fun _ _ ↦ True) n) (hl : (runs l n).isSome = true) (d : Node) :
    Reach I (fun _ _ ↦ True) ((runs l n).getD d) := by
  obtain ⟨n', hn'⟩ := Option.isSome_iff_exists.mp hl
  exact h.of_runs (by rw [hn']; rfl)

theorem init_frame (cfg : Config) (env : Environment) : (Node.init cfg env).cfg = cfg ∧
    (Node.init cfg env).routing = initRouting cfg env.routeMemory env.netlink env.routeJunk := by
  unfold Node.init
  dsimp only
  split <;> exact ⟨rfl, rfl⟩

theorem initRouting_wellFormed (cfg : Config) (kmalloc netlink : Outcomes) (junk : List ℕ) :
    WellFormed cfg (initRouting cfg kmalloc netlink junk) where
  fresh := by simp [initRouting, localEntry]
  distinct := by simp [initRouting]
  sorted := List.pairwise_singleton _ _
  localFresh := Nat.zero_lt_one
  localEntry := by simp [LocalEntry, initRouting, Node.localEntry]
  neighRoute := by simp [initRouting, Node.localEntry]

section Preservation

theorem WellFormed.answersFrom {srcIp dstIp : Ip} {tos : UInt8} {r : Routing} {e : AodvRoute}
    (hr : WellFormed n.cfg n.routing) (h : AnswersFrom n srcIp dstIp tos r e) :
    WellFormed n.cfg r := by
  rcases h with ⟨rfl, -⟩ | ⟨-, -, new, hcopy, -⟩
  · exact hr
  · exact hcopy.wellFormed hr

theorem WellFormed.rrepRecvRoute {m m' : Rrep} {o : Option AodvRoute} (hr : WellFormed n.cfg n.routing)
    (h : n.rrepRecvRoute m = some (o, m', n')) : WellFormed n.cfg n'.routing := by
  rcases rrepRecvRoute_cases hr h with ⟨-, rfl⟩ | ⟨-, -, e, new, r, -, rfl, hcopy, -⟩
  · exact hr
  · exact hr.inserts hcopy.inserts (by simp [hcopy.neighRoute])

theorem WellFormed.effect {r : Routing} (hr : WellFormed n.cfg n.routing)
    (h : RouteEffect n t r) : WellFormed n.cfg r := by
  cases h with
  | touch h => exact hr.touches h
  | hello _ h _ h' => exact (WellFormed.maybeAddsNeigh hr h).touches h'
  | rreq _ _ _ h => exact hr.rreqAodvRoute h
  | answer _ h h₁ h₂ h' => exact (((WellFormed.answersFrom hr h).touches h₁).rrepAodvRoute h₂).touches h'
  | rrepSource _ _ _ _ h₁ h₂ h' =>
    have hr₁ := hr.rreqAodvRoute h₁
    rcases h₂ with ⟨-, rfl⟩ | ⟨e, o, -, h₂⟩
    · exact hr₁.touches h'
    · exact (hr₁.rrepAodvRoute h₂).touches h'
  | @rrepForward m m' x recv ok n₁ r₁ _ _ _ _ _ hrecv h₁ h' =>
    have hr₁ : WellFormed n.cfg r₁ :=
      (WellFormed.rrepRecvRoute (n := n.updateNeighLifetime x.ip) hr hrecv).rreqAodvRoute h₁
    rcases h' with ⟨-, rfl⟩ | ⟨send, o₂, r₂, o₃, r₃, -, h₂, h₃, h'⟩
    · exact hr₁
    · exact ((hr₁.rrepAodvRoute h₂).rrepAodvRoute h₃).touches h'
  | flush => exact hr.flushAodvRouteTable _

theorem step_wellFormed {e : Event} (hr : WellFormed n.cfg n.routing) (h : n.step e = some n') :
    WellFormed n'.cfg n'.routing := by
  rcases step_cases hr h with ⟨t, tasks, -, -, hcfg, -, heffect⟩ | ⟨hcfg, htouch⟩
  · rw [hcfg]
    exact WellFormed.effect (n := { n with tasks := tasks }) hr heffect
  · rw [hcfg]
    exact hr.touches htouch

theorem reach_wellFormed {I : Config → Environment → Prop} {C : Node → Event → Prop}
    (h : Reach I C n) : WellFormed n.cfg n.routing := by
  refine h.induct (fun cfg env _ ↦ ?_) fun n e n' hr _ hs ↦ step_wellFormed hr hs
  obtain ⟨hcfg, hrouting⟩ := init_frame cfg env
  rw [hcfg, hrouting]
  exact initRouting_wellFormed _ _ _ _

end Preservation

end Fbaodv.Proofs.NodeRun
