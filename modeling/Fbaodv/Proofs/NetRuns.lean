import Fbaodv.Foundation.Interleaving
import Fbaodv.Proofs.Isolation
import Fbaodv.Proofs.NetPaths

namespace Fbaodv.Proofs.NetRuns

open Fbaodv.Model Fbaodv.Model.Node Fbaodv.Foundation Fbaodv.Foundation.Interleaving
open Fbaodv.Proofs.RouteFrame Fbaodv.Proofs.RoutingInvariant Fbaodv.Proofs.HandlerSpecs
open Fbaodv.Proofs.NodeRun Fbaodv.Proofs.NodeOps Fbaodv.Proofs.Isolation
open Fbaodv.Proofs.NetOps Fbaodv.Proofs.NetPaths Fbaodv.Proofs.PacketDiscovery

section Ops

variable {n₀ n n' : Node} {t : Task} {e e' : AodvRoute}

/-- The entry was written for the route `c`, or got no further than its key. -/
structure HeardEntry (c : HeardRoute) (e : AodvRoute) : Prop where
  key : e.srcIp = c.srcIp ∧ e.dstIp = c.dstIp ∧ e.tos = c.tos
  dstId : e.dstId = c.dstId
  path : e.nextHop = c.nextHop.ip ∧ e.pathMetric = c.pathMetric ∨ e.nextHop = 0

/-- Where an entry comes from that an operation leaves in the table. -/
inductive EntryFrom (n₀ : Node) (t : Task) (n n' : Node) (e' : AodvRoute) : Prop
  | kept {e : AodvRoute} (he : e ∈ n.routing.table) (h : SoftEntry e e')
  | counted {e : AodvRoute} (he : e ∈ n.routing.table) (hptr : e.ptr = n.routing.localRoute)
      (h : SoftEntry { e with dstId := e.dstId + 1 } e')
  | created (hmemory : n₀.routing.kmalloc.next = true) (hnew : Creates n₀ t e')
  | heard {c : HeardRoute} (hcall : RouteCall n₀ t n.routing c) (h : HeardEntry c e')
  | announced {e : AodvRoute} (he : e ∈ n.routing.table)
      (hkey : e.srcIp = n.cfg.gMeshIp ∧ e.dstIp = n.cfg.gMeshIp ∧ e.tos = 0)
      (h : e' = { e with dstId := e.dstId + 1 })
      (hsent : .broadcast netDiameter (.strreq ⟨0, n.cfg.gMeshIp, e.dstId + 1, 0⟩) ∈ n'.sent)

theorem same_of_soft (h : SoftEntry e e') :
    (e'.ptr = e.ptr ∧ e'.srcIp = e.srcIp ∧ e'.dstIp = e.dstIp ∧ e'.tos = e.tos) ∧
      e'.dstId = e.dstId ∧ e'.selfRoute = e.selfRoute := by
  obtain ⟨_, _, _, _, rfl⟩ := h
  exact ⟨⟨rfl, rfl, rfl, rfl⟩, rfl, rfl⟩

theorem flush_entries (cfg : Config) (now : ℕ) (r : Routing) :
    (r.flushAodvRouteTable cfg now).localRoute = r.localRoute ∧
      ∀ e' ∈ (r.flushAodvRouteTable cfg now).table, ∃ e ∈ r.table, SoftEntry e e' := by
  refine flushAodvRouteTable_induct (Q := fun r' ↦ r'.localRoute = r.localRoute ∧
    ∀ e' ∈ r'.table, ∃ e ∈ r.table, SoftEntry e e') ⟨rfl, fun e he ↦ ⟨e, he, .refl e⟩⟩ ?_ ?_
  · intro r₁ x ⟨hlocal, hall⟩
    have hspec := flushEntry_spec cfg now r₁ x
    generalize r₁.flushEntry cfg now x = r₂ at hspec ⊢
    cases hspec with
    | kept => exact ⟨hlocal, hall⟩
    | expired =>
      refine ⟨hlocal, fun e' he' ↦ ?_⟩
      obtain ⟨e₁, he₁, hsoft⟩ := Pointwise.exists_of_mem_right (soft_expireAodvRoute now x.ptr r₁).entries he'
      obtain ⟨e, he, hsoft₁⟩ := hall e₁ he₁
      exact ⟨e, he, hsoft₁.trans hsoft⟩
    | forgotten => exact ⟨hlocal, fun e' he' ↦ hall e' (List.mem_filter.mp he').1⟩
    | @removed r₃ r₄ _ _ _ _ _ h₀ h₁ h₂ =>
      have hsame : r₄.table = r₁.table ∧ r₄.localRoute = r₁.localRoute := by
        rw [h₁]
        split
        · exact ⟨h₀.table, h₀.localRoute⟩
        · exact ⟨(delRoute_table rfl).1.trans h₀.table, (delRoute_table rfl).2.2.trans h₀.localRoute⟩
      obtain ⟨htable, hlocal₁⟩ := hsame
      refine ⟨h₂.localRoute.trans (hlocal₁.trans hlocal), fun e' he' ↦ hall e' ?_⟩
      have hmem := (List.mem_filter.mp he').1
      rwa [h₂.table, htable] at hmem
  · intro r₁ ⟨hlocal, hall⟩
    refine ⟨(soft_updateMyLoad r₁).localRoute.trans hlocal, fun e' he' ↦ ?_⟩
    obtain ⟨e₁, he₁, hsoft⟩ := Pointwise.exists_of_mem_right (soft_updateMyLoad r₁).entries he'
    obtain ⟨e, he, hsoft₁⟩ := hall e₁ he₁
    exact ⟨e, he, hsoft₁.trans hsoft⟩

theorem entry_of_write {now : ℕ} {r r' : Routing} {c : HeardRoute} {ok : Bool} {cfg : Config}
    (hr : WellFormed cfg r) (h : RouteWrite cfg now r c ok r') (he : e' ∈ r'.table) :
    (∃ e ∈ r.table, SoftEntry e e') ∨ HeardEntry c e' := by
  have hback : ∀ {r₀ : Routing}, Soft r₀ r' → ∃ e ∈ r₀.table, SoftEntry e e' := fun hs ↦
    Pointwise.exists_of_mem_right hs.entries he
  cases h with
  | kept hs => exact .inl (hback hs)
  | unlisted _ hins hs =>
    obtain ⟨e, he, hsoft⟩ := hback hs
    rcases hins.mem.mp he with rfl | he
    · obtain ⟨_, _, _, _, rfl⟩ := hsoft
      exact .inr ⟨⟨rfl, rfl, rfl⟩, rfl, .inr rfl⟩
    · exact .inl ⟨e, he, hsoft⟩
  | created _ hins hs =>
    obtain ⟨e, he, hsoft⟩ := hback hs
    rcases hins.mem.mp he with rfl | he
    · obtain ⟨_, _, _, _, rfl⟩ := hsoft
      exact .inr ⟨⟨rfl, rfl, rfl⟩, rfl, .inl ⟨rfl, rfl⟩⟩
    · exact .inl ⟨e, he, hsoft⟩
  | @replaced _ e₀ hfind _ hs =>
    obtain ⟨e, he, hsoft⟩ := hback hs
    obtain ⟨e₁, he₁, rfl⟩ := List.mem_map.mp he
    obtain ⟨hmem, hkey⟩ := findAodvRoute_some hfind
    split at hsoft
    · next hptr =>
      obtain rfl := hr.eq_of_ptr hmem he₁ hptr
      obtain ⟨_, _, _, _, rfl⟩ := hsoft
      exact .inr ⟨hkey, rfl, .inl ⟨rfl, rfl⟩⟩
    · exact .inl ⟨e₁, he₁, hsoft⟩

theorem entry_of_op (h : NetOp n₀ t n n') (he : e' ∈ n'.routing.table) :
    EntryFrom n₀ t n n' e' := by
  have hcounted : e' ∈ n.bumpLocalDstId.routing.table → EntryFrom n₀ t n n' e' := by
    intro he
    obtain ⟨e, he₀, rfl⟩ := List.mem_map.mp he
    split
    · next hptr => exact .counted he₀ hptr (.refl _)
    · exact .kept he₀ (.refl e)
  cases h with
  | silent h =>
    obtain ⟨e, he, hsoft⟩ := Pointwise.exists_of_mem_right h.routing.entries he
    exact .kept he hsoft
  | flood _ h =>
    rw [h.routing] at he
    exact hcounted he
  | create h hmemory hnew =>
    rcases h.mem.mp he with rfl | he
    · exact .created hmemory hnew
    · exact .kept he (.refl _)
  | route hcall hr h =>
    rcases entry_of_write hr h he with ⟨e, he, hsoft⟩ | hheard
    · exact .kept he hsoft
    · exact .heard hcall hheard
  | forward | await | relay => exact .kept he (.refl _)
  | bump => exact hcounted he
  | answer _ _ h =>
    obtain ⟨e₁, he₁, hsoft⟩ := Pointwise.exists_of_mem_right h.routing.entries he
    obtain ⟨e, he, rfl⟩ := List.mem_map.mp he₁
    split at hsoft
    · next hptr => exact .counted he hptr hsoft
    · exact .kept he hsoft
  | flush =>
    obtain ⟨e, he, hsoft⟩ := (flush_entries _ _ _).2 e' he
    exact .kept he hsoft
  | strreq _ hr hfind =>
    obtain ⟨hmem, hkey⟩ := findAodvRoute_some hfind
    obtain ⟨e, he₀, rfl⟩ := List.mem_map.mp he
    split
    · next hptr =>
      obtain rfl := hr.eq_of_ptr hmem he₀ hptr
      exact .announced he₀ hkey rfl (by simp)
    · exact .kept he₀ (.refl e)

theorem localRoute_of_write {cfg : Config} {now : ℕ} {r r' : Routing} {c : HeardRoute} {ok : Bool}
    (h : RouteWrite cfg now r c ok r') : r'.localRoute = r.localRoute := by
  cases h with
  | kept hs => exact hs.localRoute
  | unlisted _ hins hs | created _ hins hs => exact hs.localRoute.trans hins.localRoute
  | replaced _ _ hs => exact hs.localRoute

/-- The route of the node to itself, which no flush removes. -/
def HasLocal (r : Routing) : Prop :=
  ∃ e ∈ r.table, e.ptr = r.localRoute ∧ e.selfRoute = true ∧ e.tos = noTos

theorem HasLocal.soft {r r' : Routing} (hr : HasLocal r) (h : Soft r r') : HasLocal r' := by
  obtain ⟨e, he, hptr, hself, htos⟩ := hr
  obtain ⟨e', he', hsoft⟩ := Pointwise.exists_of_mem_left h.entries he
  obtain ⟨⟨hptr', -, -, htos'⟩, -, hself'⟩ := same_of_soft hsoft
  exact ⟨e', he', by rw [hptr', hptr, h.localRoute], hself'.trans hself, htos'.trans htos⟩

theorem HasLocal.modifyAt {r : Routing} (hr : HasLocal r) (ptr : ℕ) {f : AodvRoute → AodvRoute}
    (hf : ∀ e, (f e).ptr = e.ptr ∧ (f e).selfRoute = e.selfRoute ∧ (f e).tos = e.tos) :
    HasLocal (r.modifyAt ptr f) := by
  obtain ⟨e, he, hptr, hself, htos⟩ := hr
  refine ⟨_, List.mem_map.mpr ⟨e, he, rfl⟩, ?_⟩
  obtain ⟨hptr', hself', htos'⟩ := hf e
  split
  · exact ⟨hptr'.trans hptr, hself'.trans hself, htos'.trans htos⟩
  · exact ⟨hptr, hself, htos⟩

theorem HasLocal.inserts {r r' : Routing} {new : AodvRoute} (hr : HasLocal r) (h : Inserts new r r') :
    HasLocal r' := by
  obtain ⟨e, he, hptr, hself⟩ := hr
  exact ⟨e, h.mem.mpr (.inr he), by rw [hptr, h.localRoute], hself⟩

theorem HasLocal.flush {cfg : Config} {now : ℕ} {r : Routing} (hr : WellFormed cfg r)
    (hlocal : HasLocal r) : HasLocal (r.flushAodvRouteTable cfg now) := by
  refine flushAodvRouteTable_turns hr hlocal ?_ fun _ h ↦ h.soft (soft_updateMyLoad _)
  intro _ x _ _ r₁ _ hwf hx h₁
  have hspec := flushEntry_spec cfg now r₁ x
  obtain ⟨e, he, hptr, hself⟩ := h₁
  have hother : x.selfRoute = false → e.ptr ≠ x.ptr := by
    intro hx₀ hsame
    obtain rfl := hwf.eq_of_ptr hx he hsame
    rw [hself.1] at hx₀
    cases hx₀
  have hstays : ∀ {r₂ : Routing}, FlushEntry cfg now r₁ x r₂ → x.selfRoute = false →
      r₂.localRoute = r₁.localRoute → HasLocal r₂ := fun h hx₀ hlocal₂ ↦
    ⟨e, h.mem he (hother hx₀), by rw [hptr, hlocal₂], hself⟩
  generalize hr₂ : r₁.flushEntry cfg now x = r₂ at hspec
  cases hspec with
  | kept => exact ⟨e, he, hptr, hself⟩
  | expired hdue hself' hstate => exact hstays (.expired hdue hself' hstate) hself' rfl
  | forgotten hdue hself' hstate hsrc => exact hstays (.forgotten hdue hself' hstate hsrc) hself' rfl
  | @removed r₃ r₄ r₅ hdue hself' hstate hsrc h₀ h₁ h₂ =>
    refine hstays (.removed hdue hself' hstate hsrc h₀ h₁ h₂) hself' (h₂.localRoute.trans ?_)
    rw [h₁]
    split
    · exact h₀.localRoute
    · exact (delRoute_table rfl).2.2.trans h₀.localRoute

theorem HasLocal.write {cfg : Config} {now : ℕ} {r r' : Routing} {c : HeardRoute} {ok : Bool}
    (hr : HasLocal r) (h : RouteWrite cfg now r c ok r') : HasLocal r' := by
  cases h with
  | kept hs => exact hr.soft hs
  | unlisted _ hins hs | created _ hins hs => exact (hr.inserts hins).soft hs
  | @replaced _ e _ _ hs =>
    have hupdate := hr.modifyAt e.ptr (f := rreqUpdate now c.nextHop.ip c.hops c.dstId c.pathMetric)
      fun _ ↦ ⟨rfl, rfl, rfl⟩
    exact hupdate.soft hs

/-- What every operation leaves alone. -/
structure Onward (n n' : Node) : Prop where
  cfg : n'.cfg = n.cfg
  dtnRegister : n'.dtnRegister = n.dtnRegister
  tasks : n'.tasks = n.tasks
  localRoute : n'.routing.localRoute = n.routing.localRoute
  hasLocal : HasLocal n.routing → HasLocal n'.routing
  sent : ∃ l, n'.sent = n.sent ++ l

theorem Onward.refl (n : Node) : Onward n n := ⟨rfl, rfl, rfl, rfl, id, [], (List.append_nil _).symm⟩

theorem Onward.trans {n'' : Node} (h : Onward n n') (h' : Onward n' n'') : Onward n n'' where
  cfg := h'.cfg.trans h.cfg
  dtnRegister := h'.dtnRegister.trans h.dtnRegister
  tasks := h'.tasks.trans h.tasks
  localRoute := h'.localRoute.trans h.localRoute
  hasLocal := h'.hasLocal ∘ h.hasLocal
  sent := by
    obtain ⟨l, hl⟩ := h.sent
    obtain ⟨l', hl'⟩ := h'.sent
    exact ⟨l ++ l', by rw [hl', hl, List.append_assoc]⟩

theorem onward_of_op (h : NetOp n₀ t n n') : Onward n n' := by
  have hbump : HasLocal n.routing → HasLocal n.bumpLocalDstId.routing := fun hr ↦
    hr.modifyAt _ fun _ ↦ ⟨rfl, rfl, rfl⟩
  cases h with
  | silent h =>
    obtain ⟨l, hl, -⟩ := h.sent
    exact ⟨h.cfg, h.dtnRegister, h.tasks, h.routing.localRoute, fun hr ↦ hr.soft h.routing, l, hl⟩
  | flood _ h hdtn =>
    refine ⟨h.cfg, hdtn, h.tasks, by rw [h.routing]; rfl, fun hr ↦ ?_, _, h.sent⟩
    rw [h.routing]
    exact hbump hr
  | create h => exact { Onward.refl n with localRoute := h.localRoute, hasLocal := fun hr ↦ hr.inserts h }
  | route _ _ h =>
    exact { Onward.refl n with localRoute := localRoute_of_write h, hasLocal := fun hr ↦ hr.write h }
  | forward | relay => exact { Onward.refl n with sent := ⟨_, rfl⟩ }
  | await => exact { Onward.refl n with }
  | bump => exact { Onward.refl n with hasLocal := hbump }
  | answer _ _ h =>
    refine ⟨h.cfg, h.dtnRegister, h.tasks, h.routing.localRoute, fun hr ↦ (hbump hr).soft h.routing, ?_⟩
    rcases h.sent with hs | hs
    · exact ⟨[], by rw [hs, List.append_nil]⟩
    · exact ⟨_, hs⟩
  | flush hr =>
    exact { Onward.refl n with localRoute := (flush_entries _ _ _).1, hasLocal := fun h ↦ h.flush hr }
  | strreq =>
    exact { Onward.refl n with
      hasLocal := fun h ↦ h.modifyAt _ fun _ ↦ ⟨rfl, rfl, rfl⟩
      sent := ⟨_, rfl⟩ }

/-- The tables in which a route is looked up are those that the task has found,
but for the entry that is made for a DTN hello. -/
theorem entry_of_call {r : Routing} {c : HeardRoute} (hr : WellFormed n₀.cfg n₀.routing)
    (h : RouteCall n₀ t r c) : r.localRoute = n₀.routing.localRoute ∧
      ∀ e ∈ r.table, e ∈ n₀.routing.table ∨ n₀.routing.kmalloc.next = true ∧ Creates n₀ t e := by
  cases h with
  | rreq | rrepSource => exact ⟨rfl, fun _ he ↦ .inl he⟩
  | @rrepForward m _ x _ _ htype hdata hx hsource hrecv =>
    rcases rrepRecvRoute_cases (n := n₀.updateNeighLifetime x.ip) hr hrecv with
      ⟨-, rfl⟩ | ⟨hdttl, hfind, e₁, new, r, -, rfl, hcopy, -⟩
    · exact ⟨rfl, fun _ he ↦ .inl he⟩
    · refine ⟨hcopy.inserts.localRoute, fun e he ↦ ?_⟩
      rcases hcopy.inserts.mem.mp he with rfl | he
      · exact .inr ⟨hcopy.inserts.memory, .forward htype hdata (by simp [hx]) hsource hdttl hfind
          ⟨hcopy.srcIp, hcopy.dstIp, hcopy.tos⟩ ⟨hcopy.dstId, hcopy.selfRoute, hcopy.neighRoute⟩⟩
      · exact .inl he

/-- Why an operation sends. -/
inductive SentFrom (n₀ : Node) (t : Task) (n : Node) : Sent → Prop
  | routeless {s : Sent} (h : isRouteless s) : SentFrom n₀ t n s
  | flood {m : Rreq} {dstId : UInt32} (hname : SeeksAs n t m.srcIp) (hdstId : n.localDstId = some dstId)
      (hm : m.dstId = dstId + 1 ∧ m.numHops = 0) (hgateway : m.gateway = gNullIp ∨ m.dstIp = gNullIp) :
      SentFrom n₀ t n (.broadcast netDiameter (.rreq m))
  | forward {m : Rreq} {x : AodvNeigh} {pathMetric : UInt32} {ttl dttl : UInt8}
      (htype : t.type = .recvRreq) (hdata : t.data = some (.rreq m)) (hcall : RreqCall n₀ t m x pathMetric)
      (hreverse : HasReverse n m x pathMetric) :
      SentFrom n₀ t n (.broadcast ttl (.rreq (passedRreq m pathMetric dttl)))
  | answer {e : AodvRoute} {m : Rrep} {k : Node} (htype : t.type = .sendRrep)
      (he : isDtnAnswer n₀ t.dstIp = false ∧ e.srcIp = t.dstIp ∧ e.dstIp = t.srcIp ∧ e.tos = t.tos ∨
        isDtnAnswer n₀ t.dstIp = true ∧ n₀.routing.findAodvRoute t.dstIp t.srcIp t.tos ≠ none ∧
          e.srcIp = n₀.cfg.gMeshIp) (h : Answered n t e m k) :
      SentFrom n₀ t n (.unicast e.nextHop netDiameter (.rrep m))
  | relay {m : Rrep} {recv send : AodvRoute} {dttl : UInt8} (htype : t.type = .recvRrep)
      (hdata : t.data = some (.rrep m)) (hx : n₀.findAodvNeigh t.srcIp ≠ none)
      (hsource : isRrepSource n₀ m = false)
      (hdtn : m.dttl > 0 → n₀.routing.findAodvRoute n₀.cfg.dtnHelloIp m.srcIp m.tos ≠ none)
      (hdttl : ¬ m.dttl > 0 → dttl = m.dttl) (hrecv : recv ∈ n.routing.table)
      (hsend : send ∈ n.routing.table) (hto : send.dstIp = m.dstIp ∧ send.dstId = m.dstId) :
      SentFrom n₀ t n (.unicast recv.nextHop netDiameter
        (.rrep { m with numHops := m.numHops + 1, dttl := dttl }))

theorem appended_of_op (h : NetOp n₀ t n n') :
    ∃ l, n'.sent = n.sent ++ l ∧ ∀ s ∈ l, SentFrom n₀ t n s := by
  have hnone : n'.sent = n.sent → ∃ l, n'.sent = n.sent ++ l ∧ ∀ s ∈ l, SentFrom n₀ t n s :=
    fun heq ↦ ⟨[], by rw [heq, List.append_nil], nofun⟩
  have hone : ∀ {s : Sent}, n'.sent = n.sent ++ [s] → SentFrom n₀ t n s →
      ∃ l, n'.sent = n.sent ++ l ∧ ∀ s ∈ l, SentFrom n₀ t n s :=
    fun heq hs ↦ ⟨_, heq, by simpa using hs⟩
  cases h with
  | silent h =>
    obtain ⟨l, hl, hall⟩ := h.sent
    exact ⟨l, hl, fun s hs ↦ .routeless (hall s hs)⟩
  | flood hname h _ hdstId hm hgateway =>
    rw [← h.flow.1] at hname
    exact hone h.sent (.flood hname hdstId hm hgateway)
  | create | route | await | bump | flush => exact hnone rfl
  | forward dttl htype hdata hcall hreverse => exact hone rfl (.forward htype hdata hcall hreverse)
  | answer htype he h =>
    rcases h.sent with heq | heq
    · exact hnone heq
    · exact hone heq (.answer htype he h)
  | relay dttl htype hdata hx hsource hdtn hdttl hrecv hsend hto =>
    exact hone rfl (.relay htype hdata hx hsource hdtn hdttl hrecv hsend hto)
  | strreq => exact hone rfl (.routeless trivial)

theorem sent_of_op {s : Sent} (h : NetOp n₀ t n n') (hs : s ∈ n'.sent) :
    s ∈ n.sent ∨ SentFrom n₀ t n s := by
  obtain ⟨l, hl, hall⟩ := appended_of_op h
  rw [hl] at hs
  exact (List.mem_append.mp hs).imp_right (hall s)

/-- Why an operation arms a timer for a flow. -/
inductive TimerFrom (n₀ : Node) (t : Task) (n : Node) (t' : Task) : Prop
  | discovery (htype : t'.type = .resendRreq) (hname : SeeksAs n t t'.srcIp)
  | answer {m : Rreq} {x : AodvNeigh} {pathMetric : UInt32} (htype' : t'.type = .sendRrep)
      (hflow : t'.srcIp = m.srcIp ∧ t'.dstIp = m.dstIp ∧ t'.tos = m.tos)
      (htype : t.type = .recvRreq) (hdata : t.data = some (.rreq m)) (hcall : RreqCall n₀ t m x pathMetric)
      (hreverse : HasReverse n m x pathMetric) (hdest : n₀.iamDestination m = true)

theorem timer_of_op {t' : Task} (h : NetOp n₀ t n n') (ht' : t' ∈ n'.timers.queue)
    (hflow : isFlowType t'.type = true) : t' ∈ n.timers.queue ∨ TimerFrom n₀ t n t' := by
  cases h with
  | silent h => exact .inl (h.timers t' ht' hflow)
  | flood hname h =>
    rw [h.timers, updateTimers, updateTimerQueue_queue] at ht'
    rcases mem_insertTimerDir ht' with ⟨htype, hsrc, -⟩ | ht'
    · exact .inr (.discovery htype (hsrc ▸ hname))
    · exact .inl ht'
  | await htype hdata hcall hreverse hdest =>
    rcases mem_insertTimerDir ht' with ⟨htype', hsrc, hdst, htos⟩ | ht'
    · exact .inr (.answer htype' ⟨hsrc, hdst, htos⟩ htype hdata hcall hreverse hdest)
    · exact .inl ht'
  | answer _ _ h => exact .inl (h.timers ▸ ht')
  | create | route | forward | bump | relay | flush | strreq => exact .inl ht'

end Ops

section Turns

/-- The node `a`, whose address is that of an interface, goes on by `e`. -/
def Turn (net : Network) (a : Ip) (e : Event) (n : Node) : Prop :=
  a ≠ gNullIp ∧ (∀ p, e = .input p → net.Deliverable a p) ∧ (net a).step e = some n

theorem step_iff {net net' : Network} :
    Network.Step net net' ↔ Interleaving.Step Turn net net' := by
  constructor
  · rintro ⟨a, e, n, ha, hin, h⟩
    exact .turn a e n ⟨ha, hin, h⟩
  · rintro ⟨a, e, n, ha, hin, h⟩
    exact .node a e n ha hin h

/-- The run of a network in which every step meets the condition. -/
def Run (C : Network → Ip → Event → Node → Prop) (net₀ net : Network) : Prop :=
  net₀.Initial ∧ Reaches (fun net a e n ↦ Turn net a e n ∧ C net a e n) net₀ net

/-- The message of a transmission over the mesh. -/
def payload : Sent → Option Message
  | .broadcast _ m | .unicast _ _ m => some m
  | .toDtn .. => none

/-- The task carries what the node that it names as its source has sent. -/
structure Delivered (net : Network) (a : Ip) (t : Task) (m : Message) : Prop where
  sent : ∃ s ∈ (net t.srcIp).sent, payload s = some m ∧ s.reaches a t.ttl m
  source : t.srcIp ≠ a
  type : t.type = m.taskType
  data : ∃ sec usec, t.data = some (m.stamp sec usec)

theorem delivered_of_arrival {net : Network} {a : Ip} {e : Event} {t : Task}
    (hin : ∀ p, e = .input p → net.Deliverable a p) (h : IsArrival e t) :
    ∃ m, Delivered net a t m := by
  obtain ⟨p, m, rfl, haodv, hm, htype, hsrc, httl, hdata⟩ := h
  obtain ⟨hifa, hsent⟩ := hin p rfl
  obtain ⟨s, hs, hreach⟩ := hsent haodv m hm
  refine ⟨m, ⟨s, hsrc ▸ hs, ?_, httl ▸ hreach⟩, ?_, htype, _, _, hdata⟩
  · cases s with
    | broadcast ttl m' =>
      obtain ⟨-, rfl⟩ := hreach
      rfl
    | unicast ip ttl m' =>
      obtain ⟨-, -, rfl⟩ := hreach
      rfl
    | toDtn => exact hreach.elim
  · simp only [Packet.isAodv, Bool.and_eq_true, bne_iff_ne] at haodv
    rw [hsrc, ← hifa]
    exact haodv.2.symm

/-- What is known of the node under an address in every run. -/
structure Placed (a : Ip) (n : Node) : Prop where
  address : n.cfg.gMeshIp = a
  routes : WellFormed n.cfg n.routing
  bare : TimersBare n
  hasLocal : HasLocal n.routing

theorem placed_init (cfg : Config) (env : Environment) : Placed cfg.gMeshIp (Node.init cfg env) := by
  obtain ⟨hcfg, hrouting⟩ := init_frame cfg env
  have htyped := init_typed cfg env
  refine ⟨by rw [hcfg], htyped.routes, htyped.timers, ?_⟩
  rw [hrouting]
  exact ⟨localEntry cfg, List.mem_singleton.mpr rfl, rfl, rfl, rfl⟩

theorem init_placed {net : Network} (h : net.Initial) (a : Ip) : Placed a (net a) := by
  obtain ⟨cfg, env, hcfg, hnet⟩ := h
  have hplaced := placed_init (cfg a) (env a)
  rwa [← hnet, hcfg] at hplaced

theorem init_queues (cfg : Config) (env : Environment) : (Node.init cfg env).sent = [] ∧
    (Node.init cfg env).tasks.elems = [] ∧
      ∀ t ∈ (Node.init cfg env).timers.queue, isFlowType t.type = false := by
  have hinsert : ∀ {n : Node} (type : TaskType) (delay : ℕ) (ip : Ip), isFlowType type = false →
      (∀ t ∈ n.timers.queue, isFlowType t.type = false) →
      ∀ t ∈ (n.insertTimer type delay ip).timers.queue, isFlowType t.type = false := by
    intro n type delay ip htype hall t ht
    rcases mem_insert ht with rfl | ht
    · exact htype
    · exact hall t ht
  unfold Node.init
  dsimp only
  refine ⟨?_, ?_, ?_⟩
  · split <;> rfl
  · split <;> rfl
  · rw [updateTimers, updateTimerQueue_queue]
    refine hinsert _ _ _ rfl (hinsert _ _ _ rfl (hinsert _ _ _ rfl ?_))
    split
    · exact hinsert _ _ _ rfl fun t ht ↦ absurd ht List.not_mem_nil
    · exact fun t ht ↦ absurd ht List.not_mem_nil

theorem onward_of_path {n₀ n n' : Node} {t : Task} (h : NetPath n₀ t n n') : Onward n n' := by
  induction h with
  | refl => exact .refl _
  | tail _ hop ih => exact ih.trans (onward_of_op hop)

theorem Placed.step {a : Ip} {n n' : Node} {e : Event} (hn : Placed a n) (h : n.step e = some n') :
    Placed a n' := by
  refine ⟨(congrArg Config.gMeshIp (step_cfg hn.routes h)).trans hn.address, step_wellFormed hn.routes h,
    hn.bare.step h, ?_⟩
  rcases step_path hn.routes h with ⟨t, tasks, -, -, hpath⟩ | hhook
  · exact (onward_of_path hpath).hasLocal hn.hasLocal
  · exact hn.hasLocal.soft hhook.routing

theorem Placed.counter {a : Ip} {n : Node} (hn : Placed a n) : ∃ c, n.localDstId = some c := by
  obtain ⟨e, he, hptr, -⟩ := hn.hasLocal
  rw [localDstId]
  cases hfind : n.routing.entryAt n.routing.localRoute with
  | none => exact absurd hptr (by simpa using List.find?_eq_none.mp hfind e he)
  | some e' => exact ⟨e'.dstId, rfl⟩

theorem sent_of_step {n n' : Node} {e : Event} (hr : WellFormed n.cfg n.routing) (h : n.step e = some n') :
    ∃ l, n'.sent = n.sent ++ l := by
  rcases step_path hr h with ⟨t, tasks, -, -, hpath⟩ | hhook
  · exact (onward_of_path hpath).sent
  · exact ⟨[], by rw [hhook.sent, List.append_nil]⟩

/-- The turns of a node that goes on by itself, with the packets that are on their
way to it. -/
theorem along_turn {net : Network} {a : Ip} {es : List Event} (ha : a ≠ gNullIp)
    (hin : ∀ p, .input p ∈ es → p.ifaAddress = a ∧ p.saddr ≠ a ∧
      ∀ m, p.message = some m → ∃ s ∈ (net p.saddr).sent, s.reaches a p.ttl m) :
    Lockstep.Along Node.step (fun n e ↦ ∀ n', n.step e = some n' → Turn (Function.update net a n) a e n') es
      (net a) := by
  have hdeliver : Lockstep.Along Node.step
      (fun n e ↦ ∀ p, e = .input p → Network.Deliverable (Function.update net a n) a p) es (net a) := by
    refine Lockstep.along_of_forall (fun e he n p hp ↦ ?_) _
    obtain ⟨hifa, hsrc, hsent⟩ := hin p (hp ▸ he)
    refine ⟨hifa, fun _ m hm ↦ ?_⟩
    rw [Function.update_of_ne hsrc]
    exact hsent m hm
  refine hdeliver.mono fun n e hgood n' hn' ↦ ⟨ha, hgood, ?_⟩
  rwa [Function.update_self]

theorem Run.alone {C : Network → Ip → Event → Node → Prop} {net₀ net : Network} {a : Ip}
    {es : List Event} {n : Node} (h : Run C net₀ net) (ha : a ≠ gNullIp)
    (hin : ∀ p, .input p ∈ es → p.ifaAddress = a ∧ p.saddr ≠ a ∧
      ∀ m, p.message = some m → ∃ s ∈ (net p.saddr).sent, s.reaches a p.ttl m)
    (hC : Lockstep.Along Node.step
      (fun n e ↦ ∀ n', n.step e = some n' → C (Function.update net a n) a e n') es (net a))
    (hrun : runs es (net a) = some n) : Run C net₀ (Function.update net a n) := by
  rw [runs_eq] at hrun
  have hturn : Lockstep.Along Node.step (fun n e ↦ ∀ n', n.step e = some n' →
      Turn (Function.update net a n) a e n' ∧ C (Function.update net a n) a e n') es (net a) :=
    ((along_turn ha hin).and hC).mono fun n e hgood n' hn' ↦ ⟨hgood.1 n' hn', hgood.2 n' hn'⟩
  exact ⟨h.1, h.2.trans (reaches_run hturn hrun)⟩

theorem reaches_alone {net : Network} {a : Ip} {es : List Event} {n : Node} (ha : a ≠ gNullIp)
    (hin : ∀ p, .input p ∈ es → p.ifaAddress = a ∧ p.saddr ≠ a ∧
      ∀ m, p.message = some m → ∃ s ∈ (net p.saddr).sent, s.reaches a p.ttl m)
    (hrun : runs es (net a) = some n) : Relation.ReflTransGen Network.Step net (Function.update net a n) := by
  rw [runs_eq] at hrun
  have hreaches : Reaches Turn net (Function.update net a n) := reaches_run (along_turn ha hin) hrun
  exact Relation.ReflTransGen.mono (fun _ _ ↦ step_iff.mpr) _ _ hreaches

end Turns

/-- A kernel that refuses nothing. -/
def plainEnvironment : Environment where
  now := 0
  routeMemory := []
  netlink := []
  routeJunk := []
  timerMemory := []
  packetMemory := []
  maxlen := 100
  memory := []
  rand := []
  junk := []

/-- A network with a station under every address. -/
def stations : Network := fun a ↦ Node.init { station.cfg with gMeshIp := a } plainEnvironment

theorem stations_initial : stations.Initial :=
  ⟨fun a ↦ { station.cfg with gMeshIp := a }, fun _ ↦ plainEnvironment, fun _ ↦ rfl, fun _ ↦ rfl⟩

/-- The packet in which `m` comes from one station to another. -/
def packetAt (saddr ifaAddress : Ip) (ttl : UInt8) (m : Message) : Packet where
  saddr := saddr
  daddr := gBroadcastIp
  ttl := ttl
  udp := true
  udpDest := aodvPort
  ifaAddress := ifaAddress
  sec := 0
  usec := 0
  message := some m
  words := (0, 0, 0, 0)

end Fbaodv.Proofs.NetRuns
