import Fbaodv.Proofs.NodeRun

namespace Fbaodv.Proofs.FreedRoutes

open Fbaodv.Model Fbaodv.Model.Node Fbaodv.Foundation
open Fbaodv.Proofs.RouteFrame Fbaodv.Proofs.RoutingInvariant Fbaodv.Proofs.Background
open Fbaodv.Proofs.HandlerSpecs Fbaodv.Proofs.NodeRun

/-- The task makes a neighbour known whose route the kernel refuses:
`route_aodv_neigh` frees the entry that `create_aodv_route` has linked. -/
structure RefusesNeigh (n : Node) (t : Task) : Prop where
  type : t.type = .recvHello
  isNew : isNewNeigh n t.srcIp = true
  memory : n.kmalloc.next = true
  entry : n.routing.kmalloc.next = true
  refused : n.routing.netlink.next = false
  dtn : ¬ IsDtn n.cfg n.cfg.gMeshIp t.srcIp

/-- The thread takes a task that has a linked entry freed. -/
def FreesLinked (n : Node) : Event → Prop
  | .thread => ∃ t tasks, n.tasks.pop = (some t, tasks) ∧ RefusesNeigh { n with tasks := tasks } t
  | _ => False

section Tables

variable {cfg : Config} {r r' : Routing}

theorem freed_rreqEntry {srcIp dstIp : Ip} {tos : UInt8} {dstId pathMetric : UInt32}
    {o : Option (AodvRoute × RouteState)} (h : RreqEntry cfg srcIp dstIp tos dstId pathMetric r o r') :
    r'.freed = r.freed := by
  cases h with
  | full _ h => exact h.freed
  | unlisted _ _ h hsrc => exact hsrc.freed.trans h.freed
  | created _ _ h hsrc => exact hsrc.freed.trans h.freed
  | rejected | invalid => rfl
  | refused _ h => exact delRoute_freed h
  | withdrawn _ _ _ h => exact delRoute_freed h

theorem freed_rreqAodvRoute {now : ℕ} {srcIp dstIp : Ip} {tos : UInt8} {nextHop : Ip} {sendRate : UInt16}
    {hops : UInt8} {dstId pathMetric : UInt32} {ok : Bool}
    (h : r.rreqAodvRoute cfg now srcIp dstIp tos nextHop sendRate hops dstId pathMetric = some (ok, r')) :
    r'.freed = r.freed := by
  rcases rreqAodvRoute_cases h with ⟨-, -, h⟩ | ⟨-, e, st, r₁, -, h, htouch⟩
  · exact freed_rreqEntry h
  · have hentry : r₁.freed = r.freed := freed_rreqEntry h
    exact htouch.freed.trans hentry

theorem freed_rrepAodvRoute {now ptr : ℕ} {o : Option AodvRoute}
    (h : r.rrepAodvRoute cfg now ptr = some (o, r')) : r'.freed = r.freed := by
  obtain ⟨e, -, ⟨-, -, rfl⟩ | ⟨hnew, -⟩ | ⟨r₁, -, hnew, -, rfl⟩⟩ := rrepAodvRoute_cases h
  · rfl
  · exact newRoute_freed hnew
  · have hfreed : r₁.freed = r.freed := newRoute_freed hnew
    exact hfreed

theorem freed_flushEntry {now : ℕ} {e : AodvRoute} (h : FlushEntry cfg now r e r') : r'.freed = r.freed := by
  cases h with
  | kept | expired | forgotten => rfl
  | @removed r₀ r₁ r₂ _ _ _ _ h₀ h₁ h₂ =>
    have hdel : r₁.freed = r₀.freed := by
      rw [h₁]
      split
      · rfl
      · exact delRoute_freed rfl
    exact h₂.freed.trans (hdel.trans h₀.freed)

theorem freed_flushAodvRouteTable (now : ℕ) : (r.flushAodvRouteTable cfg now).freed = r.freed :=
  flushAodvRouteTable_induct (Q := fun r₁ ↦ r₁.freed = r.freed) rfl
    (fun r₁ e h ↦ (freed_flushEntry (flushEntry_spec cfg now r₁ e)).trans h)
    fun r₁ h ↦ (touches_updateMyLoad cfg r₁).freed.trans h

theorem newRoute_refused {byRrep : Bool} {srcIp : Ip} {k : KernelRoute}
    (h : r.newRoute cfg byRrep srcIp k = (false, r')) : ¬ IsDtn cfg srcIp k.dst ∧ r.netlink.next = false := by
  unfold Routing.newRoute at h
  split at h
  · cases h
  next hdtn =>
  refine ⟨hdtn, ?_⟩
  split at h
  · cases h
  · next hnext => exact eq_false_of_ne_true hnext

end Tables

section Runs

variable {n n' : Node} {t : Task}

theorem freed_answersFrom {srcIp dstIp : Ip} {tos : UInt8} {r : Routing} {e : AodvRoute}
    (h : AnswersFrom n srcIp dstIp tos r e) : r.freed = n.routing.freed := by
  rcases h with ⟨rfl, -⟩ | ⟨-, -, new, hcopy, -⟩
  · rfl
  · exact hcopy.inserts.freed

/-- Only a neighbour's route that the kernel refuses has a linked entry freed. -/
theorem freed_effect {r : Routing} (hr : WellFormed n.cfg n.routing) (hkept : ¬ RefusesNeigh n t)
    (h : RouteEffect n t r) : r.freed = n.routing.freed := by
  cases h with
  | touch h => exact h.freed
  | hello htype h hnew h' =>
    refine h'.freed.trans ?_
    rcases h with h | ⟨dstId, -, lifetime, r₁, hins, h⟩
    · exact h.freed
    rcases hnew with ⟨hnew, hmem⟩ | rfl
    · rcases h with h | ⟨ok, r₂, freed, hroute, hfreed, h⟩
      · exact h.freed.trans hins.freed
      cases ok with
      | true => exact h.freed.trans ((hfreed rfl).trans ((newRoute_freed hroute).trans hins.freed))
      | false =>
        obtain ⟨hdtn, hrefused⟩ := newRoute_refused hroute
        exact absurd ⟨htype, hnew, hmem, hins.memory, hins.netlink ▸ hrefused, hdtn⟩ hkept
    · rfl
  | rreq _ _ _ h => exact freed_rreqAodvRoute h
  | answer _ h h₁ h₂ h' =>
    exact h'.freed.trans ((freed_rrepAodvRoute h₂).trans (h₁.freed.trans (freed_answersFrom h)))
  | rrepSource _ _ _ _ h₁ h₂ h' =>
    have hr₁ := freed_rreqAodvRoute h₁
    rcases h₂ with ⟨-, rfl⟩ | ⟨e, o, -, h₂⟩
    · exact h'.freed.trans hr₁
    · exact h'.freed.trans ((freed_rrepAodvRoute h₂).trans hr₁)
  | @rrepForward m m' x recv ok n₁ r₁ _ _ _ _ _ hrecv h₁ h' =>
    have hn₁ : n₁.routing.freed = n.routing.freed := by
      rcases rrepRecvRoute_cases (n := n.updateNeighLifetime x.ip) hr hrecv with
        ⟨-, rfl⟩ | ⟨-, -, e, new, r₀, -, rfl, hcopy, -⟩
      · rfl
      · exact hcopy.inserts.freed
    have hr₁ := (freed_rreqAodvRoute h₁).trans hn₁
    rcases h' with ⟨-, rfl⟩ | ⟨send, o₂, r₂, o₃, r₃, -, h₂, h₃, h'⟩
    · exact hr₁
    · exact h'.freed.trans ((freed_rrepAodvRoute h₃).trans ((freed_rrepAodvRoute h₂).trans hr₁))
  | flush => exact freed_flushAodvRouteTable _

theorem FreesLinked.refuses {e : Event} (h : FreesLinked n e) :
    e = .thread ∧ ∃ t tasks, n.tasks.pop = (some t, tasks) ∧ RefusesNeigh { n with tasks := tasks } t := by
  cases e with
  | thread => exact ⟨rfl, h⟩
  | _ => exact h.elim

theorem step_freed {e : Event} (hr : WellFormed n.cfg n.routing) (hkept : ¬ FreesLinked n e)
    (h : n.step e = some n') : n'.routing.freed = n.routing.freed := by
  rcases step_cases hr h with ⟨t, tasks, rfl, hpop, -, -, heffect⟩ | ⟨-, htouch⟩
  · exact freed_effect (n := { n with tasks := tasks }) hr (fun href ↦ hkept ⟨t, tasks, hpop, href⟩) heffect
  · exact htouch.freed

/-- A run of which no step frees a linked entry has its table in memory that is
its own. -/
theorem freed_of_run {I : Config → Environment → Prop} {C : Node → Event → Prop}
    (hkept : ∀ n e, C n e → ¬ FreesLinked n e) (h : Reach I C n) : n.routing.freed = [] := by
  induction h with
  | @init cfg env _ =>
    rw [(init_frame cfg env).2]
    rfl
  | step h he hs ih => exact (step_freed (reach_wellFormed h) (hkept _ _ he) hs).trans ih

end Runs

end Fbaodv.Proofs.FreedRoutes
