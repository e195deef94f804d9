import Fbaodv.Proofs.NetOps

namespace Fbaodv.Proofs.NetPaths

open Fbaodv.Model Fbaodv.Model.Node Fbaodv.Foundation
open Fbaodv.Proofs.RouteFrame Fbaodv.Proofs.RoutingInvariant Fbaodv.Proofs.Background
open Fbaodv.Proofs.RouteEffects Fbaodv.Proofs.HandlerSpecs Fbaodv.Proofs.NodeRun
open Fbaodv.Proofs.NodeOps Fbaodv.Proofs.NetOps Relation

section Handlers

variable {n₀ n n' : Node} {t : Task}

theorem silent_updateNeighLifetime (ip : Ip) (n : Node) : Silent n (n.updateNeighLifetime ip) :=
  silent_of_plain (calm_updateNeighLifetime ip n) (sideOps_updateNeighLifetime ip).reportOps

theorem silent_alloc (n : Node) : Silent n n.alloc.2 := silent_of_eq rfl rfl rfl rfl rfl rfl

theorem silent_helloFromNeigh (ip : Ip) (m : Hello) (n : Node) : Silent n (n.helloFromNeigh ip m) :=
  silent_of_plain (calm_helloFromNeigh ip m n) (sideOps_helloFromNeigh ip m).reportOps

theorem silent_rrepRoute {ptr : ℕ} (h : n.rrepRoute ptr = some n') : Silent n n' := by
  obtain ⟨o, r, packets, hr, rfl⟩ := rrepRoute_routing h
  exact { Silent.refl n with routing := soft_rrepAodvRoute hr }

theorem silent_setLastHop (ptr : ℕ) (ip : Ip) (n : Node) : Silent n (n.setLastHop ptr ip) :=
  silent_routing (soft_modifyAt fun _ ↦ ⟨_, _, _, _, rfl⟩)

/-- The part that `gen_rreq` and `resend_rreq` have in common. -/
theorem flood_of_send {srcIp dstIp : Ip} {tos dttl retries : UInt8} (hname : SeeksAs n t srcIp)
    (h : (n.alloc.2.bumpLocalDstId.localDstId.bind fun dstId ↦
      some ((n.alloc.2.bumpLocalDstId.localBroadcast netDiameter
        (.rreq (n.alloc.2.bumpLocalDstId.newRreq srcIp dstIp tos dttl dstId))).insertTimerDir
          .resendRreq 0 retries srcIp dstIp tos).updateTimers) = some n') : NetOp n₀ t n n' := by
  obtain ⟨dstId', hd, h⟩ := Option.bind_eq_some_iff.mp h
  obtain rfl := Option.some.inj h
  rw [localDstId_bumpLocalDstId] at hd
  obtain ⟨dstId, hdstId, rfl⟩ := Option.map_eq_some_iff.mp hd
  refine .flood hname ⟨rfl, rfl, rfl, rfl, rfl, rfl, ⟨rfl, rfl, rfl⟩, rfl, rfl, rfl⟩ rfl hdstId ⟨rfl, rfl⟩ ?_
  unfold newRreq rreqGateway
  dsimp only
  split
  · next hdst => exact .inr hdst
  · exact .inl rfl

theorem netOp_genRreq {srcIp dstIp : Ip} {tos : UInt8} (hname : SeeksAs n t srcIp)
    (h : n.genRreq srcIp dstIp tos = some n') : NetOp n₀ t n n' := by
  unfold genRreq at h
  dsimp only at h
  split at h
  · exact Option.some.inj h ▸ .silent (silent_alloc n)
  · exact flood_of_send hname h

theorem netOp_resendRreq (htype : t.type = .resendRreq) (h : n.resendRreq t = some n') :
    NetOp n₀ t n n' := by
  unfold resendRreq at h
  split at h
  · exact Option.some.inj h ▸ .silent (silent_of_eq rfl rfl rfl rfl rfl rfl)
  dsimp only at h
  split at h
  · exact Option.some.inj h ▸ .silent (silent_alloc n)
  · exact flood_of_send ⟨by rw [htype]; rfl, .inr ⟨.inr htype, rfl⟩⟩ h

theorem path_routeAodvNeigh {ok : Bool} (hr : WellFormed n.cfg n.routing)
    (htype : t.type = .recvHello) (hisNew : isNewNeigh n₀ t.srcIp = true) (hcfg : n.cfg = n₀.cfg)
    (hrouting : n.routing = n₀.routing) (h : n.routeAodvNeigh t.srcIp = some (ok, n')) :
    NetPath n₀ t n n' := by
  obtain ⟨dstId, hdstId, h⟩ := Option.bind_eq_some_iff.mp h
  rcases hcreate : n.routing.createAodvRoute n.cfg.gMeshIp t.srcIp 0 dstId with ⟨_ | new, r₀⟩
  · rw [hcreate] at h
    obtain ⟨-, rfl⟩ := Prod.mk.inj (Option.some.inj h)
    exact (silent_routing (soft_createAodvRoute hcreate)).path
  rw [hcreate] at h
  obtain ⟨lifetime, hnew, hins⟩ : ∃ lifetime,
      some new = some (freshEntry n.routing.heap n.cfg.gMeshIp t.srcIp 0 dstId lifetime) ∧
        Inserts (freshEntry n.routing.heap n.cfg.gMeshIp t.srcIp 0 dstId lifetime) n.routing r₀ :=
    (createAodvRoute_cases n.cfg hcreate).resolve_left fun hnone ↦ by cases hnone.1
  obtain rfl := Option.some.inj hnew
  have hneigh := hins.modifyAt hr (f := fun e ↦ { e with
    numHops := 1, pathMetric := 1, state := .active, neighRoute := true, selfRoute := true }) rfl rfl
  have hcreates : Creates n₀ t (neighEntry n.cfg n.routing.heap t.srcIp dstId lifetime) :=
    .neigh htype hisNew (by rw [localDstId, ← hrouting]; exact hdstId) (by rw [hcfg])
  have hop : NetOp n₀ t n { n with routing := _ } :=
    .create hneigh (hrouting ▸ hins.memory) hcreates hr
  refine .head hop ?_
  dsimp only at h
  split at h
  · exact (Prod.mk.inj (Option.some.inj h)).2 ▸ .refl
  split at h
  · obtain ⟨-, rfl⟩ := Prod.mk.inj (Option.some.inj h)
    exact (silent_routing (n := { n with routing := _ }) (soft_newRoute rfl)).path
  · obtain ⟨-, rfl⟩ := Prod.mk.inj (Option.some.inj h)
    refine (silent_routing (n := { n with routing := _ }) ?_).path
    exact (soft_newRoute rfl).trans (.of_eq rfl rfl)

theorem path_createAodvNeigh {ok : Bool} (hr : WellFormed n.cfg n.routing)
    (htype : t.type = .recvHello) (hisNew : isNewNeigh n₀ t.srcIp = true) (hcfg : n.cfg = n₀.cfg)
    (hrouting : n.routing = n₀.routing) (h : n.createAodvNeigh t.srcIp = some (ok, n')) :
    NetPath n₀ t n n' := by
  have hroute : ∀ {ok : Bool} {n₁ : Node}, n.alloc.2.routeAodvNeigh t.srcIp = some (ok, n₁) →
      NetPath n₀ t n n₁ := fun hroute ↦
    (silent_alloc n).path.trans (path_routeAodvNeigh (n := n.alloc.2) hr htype hisNew hcfg hrouting hroute)
  have hcalm : ∀ n₁ : Node, Calm isPlain n₁ (linkNeigh t.srcIp n₁) := fun n₁ ↦ { Calm.refl isPlain n₁ with }
  have hops : ∀ n₁ : Node, SideOps n₁ (linkNeigh t.srcIp n₁) := fun _ ↦ still_of_eq rfl rfl rfl rfl rfl rfl rfl
  cases createAodvNeigh_inv h with
  | refused => exact (silent_alloc n).path
  | noRoute _ _ h₁ => exact hroute h₁
  | linked _ _ h₁ => exact (hroute h₁).trans (silent_of_plain (hcalm _) (hops _).reportOps).path
  | probed _ _ h₁ =>
    refine (hroute h₁).trans (silent_of_plain ((hcalm _).trans ?_) (SideOps.reportOps ((hops _).trans ?_))).path
    · exact calm_getRandom.trans <| (calm_insertTimer .sendEtt _ _ _ rfl).trans <|
        (calm_insertTimer .ettCleanup _ _ _ rfl).trans (calm_updateTimers _)
    · exact (sideOps_getRandom.tail (.insertTimer .sendEtt _ t.srcIp rfl)).trans
        (sideOps_insertTimer .ettCleanup rfl)

theorem path_recoverLinks {ip : Ip} {l : List BrkLink} (htype : t.type = .recvHello)
    (h : recoverLinks ip l n = some n') : NetPath n₀ t n n' := by
  induction l generalizing n with
  | nil => exact Option.some.inj h ▸ .refl
  | cons x l ih =>
    unfold recoverLinks at h
    split at h
    · split at h
      · refine Option.some.inj h ▸ (silent_of_plain ?_ (reportOps_genRcvp _ _)).path
        exact calm_of_quiet (steady_genRcvp _ _).quiet
      · obtain ⟨n₁, hgen, h⟩ := Option.bind_eq_some_iff.mp h
        exact .head (netOp_genRreq ⟨by rw [htype]; rfl, .inl rfl⟩ hgen) (ih h)
    · exact ih h

theorem silent_takeNeigh2h (ip : Ip) (n : Node) : Silent n (n.takeNeigh2h ip).2.2 := by
  refine silent_of_plain (takeNeigh2h_calm ip n).1 (SideOps.reportOps ?_)
  unfold takeNeigh2h
  split
  · exact sideOps_deleteAodvNeigh2h _
  · exact .refl

theorem path_recvHello {m : Hello} (hr : WellFormed n₀.cfg n₀.routing) (htype : t.type = .recvHello)
    (h : n₀.recvHello t m = some n') : NetPath n₀ t n₀ n' := by
  unfold recvHello at h
  split at h
  · exact Option.some.inj h ▸ .refl
  next hblack =>
  split at h
  · exact Option.some.inj h ▸ (silent_helloFromNeigh _ _ _).path
  next hnone =>
  have hisNew : isNewNeigh n₀ t.srcIp = true := by simpa [isNewNeigh, hnone] using hblack
  obtain ⟨⟨ok, n₁⟩, hhello, h⟩ := Option.bind_eq_some_iff.mp h
  refine ReflTransGen.trans (b := n₁) ?_ ?_
  · obtain ⟨⟨ok₂, n₂⟩, hcreate, hhello⟩ := Option.bind_eq_some_iff.mp hhello
    obtain ⟨hcalm, hrouting⟩ := takeNeigh2h_calm t.srcIp n₀
    refine (silent_takeNeigh2h t.srcIp n₀).path.trans (ReflTransGen.trans (b := n₂) ?_ ?_)
    · exact path_createAodvNeigh (by rwa [hcalm.cfg, hrouting]) htype hisNew hcalm.cfg hrouting hcreate
    · dsimp only at hhello
      split at hhello
      · exact (Prod.mk.inj (Option.some.inj hhello)).2 ▸ .refl
      · obtain ⟨n₃, hrecover, hhello⟩ := Option.bind_eq_some_iff.mp hhello
        obtain ⟨-, rfl⟩ := Prod.mk.inj (Option.some.inj hhello)
        refine (path_recoverLinks htype hrecover).trans (Silent.path ?_)
        exact silent_of_plain
          ((calm_of_quiet (steady_redirectRoutes _ _).quiet).trans (calm_modifyNeigh _ _ _))
          ((sideOps_redirectRoutes _).trans (sideOps_modifyNeigh _ _)).reportOps
  · obtain rfl := Option.some.inj h
    split
    · exact (silent_helloFromNeigh _ _ _).path
    · exact .refl

theorem path_acceptRreq {m : Rreq} {x : AodvNeigh} {pathMetric : UInt32} (htype : t.type = .recvRreq)
    (hdata : t.data = some (.rreq m)) (hcall : RreqCall n₀ t m x pathMetric)
    (hreverse : HasReverse n m x pathMetric) (hcfg : n.cfg = n₀.cfg) :
    NetPath n₀ t n
      (n.acceptRreq t { m with numHops := m.numHops + 1, pathMetric := pathMetric }) := by
  unfold acceptRreq
  split
  · next hdest =>
    split
    · exact .refl
    · refine .head (.await htype hdata hcall hreverse ?_) (silent_updateTimers _).path
      simpa only [iamDestination, hcfg] using hdest
  · dsimp only
    generalize hn₁ : (if (n.dtnRegister && decide (m.dttl ≥ 1)) = true then
      n.send2dtn dtnLocationPort m.srcIp m.tos.toUInt32 0 0 else n) = n₁
    have h₁ : Silent n n₁ := by
      rw [← hn₁]
      split
      · exact silent_send trivial
      · exact .refl n
    have hreverse₁ : HasReverse n₁ m x pathMetric := by
      obtain ⟨e, he, hkey, hid, hmetric, hnext⟩ := hreverse
      obtain ⟨e', he', _, _, _, _, rfl⟩ := Pointwise.exists_of_mem_left h₁.routing.entries he
      exact ⟨_, he', hkey, hid, hmetric, hnext⟩
    refine h₁.path.trans ?_
    unfold localBroadcast
    split
    · exact .refl
    · exact .single (.forward _ htype hdata hcall hreverse₁)

theorem path_recvRreq {m : Rreq} (hr : WellFormed n₀.cfg n₀.routing) (htype : t.type = .recvRreq)
    (hdata : t.data = some (.rreq m)) (h : n₀.recvRreq t m = some n') : NetPath n₀ t n₀ n' := by
  rcases recvRreq_paths h with rfl | ⟨ip, rfl⟩ | ⟨x, pathMetric, ok, r, hcall, hroute, rfl⟩
  · exact .refl
  · exact (silent_updateNeighLifetime ip n₀).path
  · refine (silent_updateNeighLifetime x.ip n₀).path.trans ?_
    have hwrite := rreqAodvRoute_write
      (c := ⟨m.dstIp, m.srcIp, m.tos, x, m.numHops + 1, m.dstId, pathMetric⟩) hr hroute
    have hop : NetOp n₀ t (n₀.updateNeighLifetime x.ip)
        { n₀.updateNeighLifetime x.ip with routing := r } :=
      .route (.rreq htype hdata hcall) hr hwrite
    refine .head hop ?_
    split
    · next hok =>
      rw [hok] at hwrite
      exact path_acceptRreq htype hdata hcall hwrite.entry rfl
    · exact .refl

/-- The entry from which `gen_rrep` answers. -/
def AnswersWith (n₀ : Node) (t : Task) (e : AodvRoute) : Prop :=
  isDtnAnswer n₀ t.dstIp = false ∧ e.srcIp = t.dstIp ∧ e.dstIp = t.srcIp ∧ e.tos = t.tos ∨
    isDtnAnswer n₀ t.dstIp = true ∧ n₀.routing.findAodvRoute t.dstIp t.srcIp t.tos ≠ none ∧
      e.srcIp = n₀.cfg.gMeshIp

theorem answered_answerRrep {e : AodvRoute} {dttl : UInt8}
    (he : ∀ e', n.bumpLocalDstId.routing.entryAt e.ptr = some e' → AnswersWith n₀ t e')
    (h : n.answerRrep e.ptr t.tos dttl = some n') :
    ∃ e' m, AnswersWith n₀ t e' ∧ Answered n t e' m n' := by
  obtain ⟨dstId', hd, h⟩ := Option.bind_eq_some_iff.mp h
  obtain ⟨e', he', h⟩ := Option.bind_eq_some_iff.mp h
  obtain ⟨n₁, hrep, h⟩ := Option.bind_eq_some_iff.mp h
  obtain rfl := Option.some.inj h
  rw [localDstId_bumpLocalDstId] at hd
  obtain ⟨dstId, hdstId, rfl⟩ := Option.map_eq_some_iff.mp hd
  obtain ⟨o, r, packets, hr, rfl⟩ := rrepRoute_routing hrep
  refine ⟨e', n.bumpLocalDstId.newRrep e' t.tos dttl (dstId + 1), he e' he', ?_⟩
  have hsoft : Soft n.bumpLocalDstId.routing r := soft_rrepAodvRoute hr
  have hlast : Soft n.bumpLocalDstId.routing (r.modifyAt e.ptr fun e ↦ { e with lastHop := e'.srcIp }) :=
    hsoft.trans (soft_modifyAt fun _ ↦ ⟨_, _, _, _, rfl⟩)
  rcases sendMessage_cases e'.nextHop netDiameter
    (.rrep (n.bumpLocalDstId.newRrep e' t.tos dttl (dstId + 1)))
    ({ n.bumpLocalDstId with
      junk := n.bumpLocalDstId.junk.tail, routing := r, packets := packets }.setLastHop e.ptr e'.srcIp)
    with hsend | hsend
  · rw [hsend]
    exact ⟨⟨dstId, hdstId, rfl⟩, ⟨e.ptr, he'⟩, ⟨rfl, rfl, rfl, rfl⟩, rfl, rfl, rfl, rfl, rfl, hlast, .inl rfl⟩
  · rw [hsend]
    exact ⟨⟨dstId, hdstId, rfl⟩, ⟨e.ptr, he'⟩, ⟨rfl, rfl, rfl, rfl⟩, rfl, rfl, rfl, rfl, rfl, hlast, .inr rfl⟩

/-- What `gen_rrep` does: nothing, or it takes a number and answers. For a DTN
hello it takes one for a copy of the entry before. -/
inductive RrepOps (n₀ : Node) (t : Task) (n' : Node) : Prop
  | silent (h : Silent n₀ n')
  | refused {n : Node} (h : Silent n₀ n) (h' : Silent n.bumpLocalDstId n')
  | answered {n : Node} {e : AodvRoute} {m : Rrep} (h : Silent n₀ n) (he : AnswersWith n₀ t e)
      (h' : Answered n t e m n')
  | copied {n : Node} {new e : AodvRoute} {r : Routing} {m : Rrep} (h : Silent n₀ n)
      (hcopy : Inserts new n.bumpLocalDstId.routing r) (hmemory : n₀.routing.kmalloc.next = true)
      (hnew : Creates n₀ t new) (hr : WellFormed n.cfg n.bumpLocalDstId.routing)
      (he : AnswersWith n₀ t e) (h' : Answered { n.bumpLocalDstId with routing := r } t e m n')

theorem genRrep_ops (hr : WellFormed n₀.cfg n₀.routing) (htype : t.type = .sendRrep)
    (h : n₀.genRrep t.srcIp t.dstIp t.tos = some n') : RrepOps n₀ t n' := by
  unfold genRrep at h
  dsimp only at h
  split at h
  · exact Option.some.inj h ▸ .silent (silent_alloc n₀)
  split at h
  · exact Option.some.inj h ▸ .silent (silent_alloc n₀)
  next src hsrc =>
  have hsrc' : n₀.routing.findAodvRoute t.dstIp t.srcIp t.tos = some src := hsrc
  have halloc : Silent n₀ n₀.alloc.2.alloc.2 := (silent_alloc n₀).trans (silent_alloc _)
  split at h
  · exact Option.some.inj h ▸ .silent halloc
  obtain ⟨⟨o, n₁⟩, hentry, h⟩ := Option.bind_eq_some_iff.mp h
  unfold rrepRouteEntry at hentry
  split at hentry
  · next hdtn =>
    obtain ⟨dstId', hd, hentry⟩ := Option.bind_eq_some_iff.mp hentry
    rw [localDstId_bumpLocalDstId] at hd
    obtain ⟨dstId, hdstId, rfl⟩ := Option.map_eq_some_iff.mp hd
    unfold createRoute at hentry
    rcases hcreate : n₀.bumpLocalDstId.routing.createAodvRoute n₀.cfg.gMeshIp t.srcIp t.tos (dstId + 1)
      with ⟨_ | new, r₀⟩
    · have hcreate' : n₀.alloc.2.alloc.2.bumpLocalDstId.routing.createAodvRoute
          n₀.alloc.2.alloc.2.bumpLocalDstId.cfg.gMeshIp t.srcIp t.tos (dstId + 1) = (none, r₀) := hcreate
      rw [hcreate'] at hentry
      obtain ⟨rfl, rfl⟩ := Prod.mk.inj (Option.some.inj hentry)
      refine Option.some.inj h ▸ .refused halloc ?_
      exact silent_routing (n := n₀.alloc.2.alloc.2.bumpLocalDstId) (soft_createAodvRoute hcreate)
    have hcreate' : n₀.alloc.2.alloc.2.bumpLocalDstId.routing.createAodvRoute
        n₀.alloc.2.alloc.2.bumpLocalDstId.cfg.gMeshIp t.srcIp t.tos (dstId + 1) = (some new, r₀) := hcreate
    rw [hcreate'] at hentry
    obtain ⟨rfl, rfl⟩ := Prod.mk.inj (Option.some.inj hentry)
    obtain ⟨lifetime, hnew, hins⟩ :
        ∃ lifetime, some new = some (freshEntry n₀.bumpLocalDstId.routing.heap n₀.cfg.gMeshIp t.srcIp
            t.tos (dstId + 1) lifetime) ∧
          Inserts (freshEntry n₀.bumpLocalDstId.routing.heap n₀.cfg.gMeshIp t.srcIp t.tos (dstId + 1)
            lifetime) n₀.bumpLocalDstId.routing r₀ :=
      (createAodvRoute_cases n₀.cfg hcreate).resolve_left fun hnone ↦ by cases hnone.1
    obtain rfl := Option.some.inj hnew
    have hr₀ : WellFormed n₀.cfg n₀.bumpLocalDstId.routing := hr.touches (touches_setDstId hr.localEntry)
    have hnext := hins.modifyAt hr₀ (f := fun e ↦ { e with nextHop := src.nextHop }) rfl rfl
    have hfull := hnext.modifyAt hr₀ (f := fun e ↦ { e with lastHop := 0 }) rfl rfl
    have hdtn : isDtnAnswer n₀ t.dstIp = true := hdtn
    have hfind : n₀.routing.findAodvRoute t.dstIp t.srcIp t.tos ≠ none := by simp [hsrc']
    suffices hwith : ∀ e' : AodvRoute, _ → AnswersWith n₀ t e' by
      obtain ⟨e', m, he', hans⟩ := answered_answerRrep hwith h
      exact .copied (n := n₀.alloc.2.alloc.2) halloc hfull hins.memory
        (.answer htype hdtn hfind hdstId ⟨rfl, rfl, rfl⟩ ⟨rfl, rfl, rfl⟩) hr₀ he' hans
    refine fun e' he' ↦ .inr ⟨hdtn, hfind, ?_⟩
    obtain ⟨e₀, he₀, heq⟩ := List.mem_map.mp (entryAt_mem he').1
    have hsrc₀ : e₀.ptr = n₀.bumpLocalDstId.routing.heap → e₀.srcIp = n₀.cfg.gMeshIp := by
      intro hptr
      rcases hfull.mem.mp he₀ with rfl | hold
      · rfl
      · exact absurd hptr (hr₀.fresh e₀ hold).ne
    have hptr' : e'.ptr = n₀.bumpLocalDstId.routing.heap := (entryAt_mem he').2
    rw [← heq] at hptr' ⊢
    split at hptr'
    · next hif => rw [if_pos hif]; exact hsrc₀ hptr'
    · next hif => rw [if_neg hif]; exact hsrc₀ hptr'
  · next hdtn =>
    obtain ⟨rfl, rfl⟩ := Prod.mk.inj (Option.some.inj hentry)
    suffices hwith : ∀ e' : AodvRoute, _ → AnswersWith n₀ t e' by
      obtain ⟨e', m, he', hans⟩ := answered_answerRrep hwith h
      exact .answered halloc he' hans
    refine fun e' he' ↦ .inl ⟨eq_false_of_ne_true hdtn, ?_⟩
    obtain ⟨hmem, hkey⟩ := findAodvRoute_some hsrc'
    obtain ⟨hmem', hptr⟩ := entryAt_mem he'
    obtain ⟨e₀, he₀, heq⟩ := List.mem_map.mp hmem'
    have hsame : e'.ptr = e₀.ptr ∧ e'.srcIp = e₀.srcIp ∧ e'.dstIp = e₀.dstIp ∧ e'.tos = e₀.tos := by
      rw [← heq]
      split
      · exact ⟨rfl, rfl, rfl, rfl⟩
      · exact ⟨rfl, rfl, rfl, rfl⟩
    have he₀ : e₀ ∈ n₀.routing.table := he₀
    obtain rfl := hr.eq_of_ptr hmem he₀ (hsame.1.symm.trans hptr)
    rw [hsame.2.1, hsame.2.2.1, hsame.2.2.2]
    exact hkey

theorem path_genRrep (hr : WellFormed n₀.cfg n₀.routing) (htype : t.type = .sendRrep)
    (h : n₀.genRrep t.srcIp t.dstIp t.tos = some n') : NetPath n₀ t n₀ n' := by
  cases genRrep_ops hr htype h with
  | silent h => exact h.path
  | refused h h' => exact h.path.trans (.head (.bump htype) h'.path)
  | answered h he h' => exact h.path.trans (.single (.answer htype he h'))
  | copied h hcopy hmemory hnew hr he h' =>
    refine h.path.trans (.head (.bump htype) (.head ?_ (.single (.answer htype he h'))))
    exact .create hcopy hmemory hnew hr

theorem silent_removeTimer (srcIp dstIp : Ip) (tos : UInt8) (type : TaskType) (n : Node) :
    Silent n (n.removeTimer srcIp dstIp tos type) :=
  { Silent.refl n with timers := fun _ ht _ ↦ List.mem_of_mem_eraseP ht }

theorem path_recvRrepSource {m : Rrep} {x : AodvNeigh} (hwf : WellFormed n₀.cfg n₀.routing) (htype : t.type = .recvRrep)
    (hdata : t.data = some (.rrep m)) (hx : n₀.findAodvNeigh t.srcIp = some x)
    (hsource : isRrepSource n₀ m = true)
    (h : (n₀.updateNeighLifetime x.ip).recvRrepSource { m with numHops := m.numHops + 1 } x = some n') :
    NetPath n₀ t n₀ n' := by
  obtain ⟨⟨ok, n₁⟩, hroute, h⟩ := Option.bind_eq_some_iff.mp h
  obtain ⟨⟨ok₁, r⟩, hr, hn₁⟩ := Option.bind_eq_some_iff.mp hroute
  obtain ⟨-, rfl⟩ := Prod.mk.inj (Option.some.inj hn₁)
  have hstart : Silent n₀ (n₀.updateNeighLifetime x.ip).updateTimers :=
    (silent_updateNeighLifetime x.ip n₀).trans (silent_updateTimers _)
  have hop : NetOp n₀ t (n₀.updateNeighLifetime x.ip).updateTimers
      { (n₀.updateNeighLifetime x.ip).updateTimers with routing := r } :=
    .route (.rrepSource htype hdata hx hsource) hwf
      (rreqAodvRoute_write (c := ⟨m.srcIp, m.dstIp, m.tos, x, m.numHops + 1, m.dstId, m.pathMetric⟩) hwf hr)
  refine hstart.path.trans (.head hop (Silent.path ?_))
  refine (silent_removeTimer m.srcIp m.dstIp m.tos .resendRreq _).trans ?_
  dsimp only at h
  split at h
  · exact Option.some.inj h ▸ .refl _
  next e _ =>
  obtain ⟨n₂, hrep, h⟩ := Option.bind_eq_some_iff.mp h
  refine (silent_rrepRoute hrep).trans ((silent_setLastHop e.ptr n₂.cfg.gMeshIp n₂).trans ?_)
  generalize n₂.setLastHop e.ptr n₂.cfg.gMeshIp = n₃ at h ⊢
  generalize hn₄ : (if m.dttl > 0 then _ else n₃) = n₄ at h
  have h₄ : Silent n₃ n₄ := by
    rw [← hn₄]
    split
    · exact silent_send trivial
    · exact .refl _
  refine h₄.trans ?_
  obtain rfl := Option.some.inj h
  split
  · exact silent_of_plain (calm_of_quiet (steady_genRcvp _ _).quiet) (reportOps_genRcvp _ _)
  · exact .refl _

theorem entryAt_of_soft {r r' : Routing} {e e' : AodvRoute} {cfg : Config} (hr : WellFormed cfg r)
    (hs : Soft r r') (he : e ∈ r.table) (he' : r'.entryAt e.ptr = some e') :
    e' ∈ r'.table ∧ SoftEntry e e' := by
  obtain ⟨hmem, hptr⟩ := entryAt_mem he'
  obtain ⟨e₀, he₀, hsoft⟩ := Pointwise.exists_of_mem_right hs.entries hmem
  have hptr₀ : e₀.ptr = e.ptr := by
    obtain ⟨_, _, _, _, rfl⟩ := hsoft
    exact hptr
  obtain rfl := hr.eq_of_ptr he he₀ hptr₀
  exact ⟨hmem, hsoft⟩

theorem path_rrepRecvRoute {m m' : Rrep} {x : AodvNeigh} {o : Option AodvRoute} {n₁ : Node}
    (hr : WellFormed n₀.cfg n₀.routing) (htype : t.type = .recvRrep)
    (hdata : t.data = some (.rrep m)) (hx : n₀.findAodvNeigh t.srcIp = some x)
    (hsource : isRrepSource n₀ m = false)
    (h : (n₀.updateNeighLifetime x.ip).rrepRecvRoute { m with numHops := m.numHops + 1 } =
      some (o, m', n₁)) :
    NetPath n₀ t n₀ n₁ ∧ n₁.cfg = n₀.cfg ∧ (o ≠ none → m.dttl > 0 →
        n₀.routing.findAodvRoute n₀.cfg.dtnHelloIp m.srcIp m.tos ≠ none) ∧
      ∃ dttl, (¬ m.dttl > 0 → dttl = m.dttl) ∧
        m' = { m with numHops := m.numHops + 1, dttl := dttl } := by
  have hstart := silent_updateNeighLifetime x.ip n₀
  have hpassed : ∃ dttl, (¬ m.dttl > 0 → dttl = m.dttl) ∧
      m' = { m with numHops := m.numHops + 1, dttl := dttl } := by
    unfold rrepRecvRoute at h
    dsimp only at h
    split at h
    · next hdttl =>
      have hm' : m' = if (n₀.updateNeighLifetime x.ip).dtnRegister = true then
          { m with numHops := m.numHops + 1, dttl := m.dttl - 1 }
          else { m with numHops := m.numHops + 1 } := by
        split at h
        · exact (Prod.mk.inj (Prod.mk.inj (Option.some.inj h)).2).1.symm
        split at h
        · cases h
        · exact (Prod.mk.inj (Prod.mk.inj (Option.some.inj h)).2).1.symm
      rw [hm']
      split
      · exact ⟨_, fun hnot ↦ absurd hdttl hnot, rfl⟩
      · exact ⟨_, fun _ ↦ rfl, rfl⟩
    · exact ⟨_, fun _ ↦ rfl, (Prod.mk.inj (Prod.mk.inj (Option.some.inj h)).2).1.symm⟩
  rcases rrepRecvRoute_cases (n := n₀.updateNeighLifetime x.ip) hr h with
    ⟨hnone | hdttl, rfl⟩ | ⟨hdttl, hfind, e, new, r, rfl, rfl, hcopy, -⟩
  · exact ⟨hstart.path, rfl, fun ho ↦ absurd hnone ho, hpassed⟩
  · exact ⟨hstart.path, rfl, fun _ hpos ↦ absurd hpos hdttl.1, hpassed⟩
  · refine ⟨hstart.path.trans (.single ?_), rfl, fun _ _ ↦ hfind, hpassed⟩
    exact .create (n := n₀.updateNeighLifetime x.ip) hcopy.inserts hcopy.inserts.memory
      (.forward htype hdata (by simp [hx]) hsource hdttl hfind ⟨hcopy.srcIp, hcopy.dstIp, hcopy.tos⟩
        ⟨hcopy.dstId, hcopy.selfRoute, hcopy.neighRoute⟩) hr

theorem path_recvRrepForward {m : Rrep} {x : AodvNeigh} (hr : WellFormed n₀.cfg n₀.routing)
    (htype : t.type = .recvRrep) (hdata : t.data = some (.rrep m))
    (hx : n₀.findAodvNeigh t.srcIp = some x) (hsource : isRrepSource n₀ m = false)
    (h : (n₀.updateNeighLifetime x.ip).recvRrepForward { m with numHops := m.numHops + 1 } x =
      some n') : NetPath n₀ t n₀ n' := by
  obtain ⟨⟨o, m', n₁⟩, hrecv, h⟩ := Option.bind_eq_some_iff.mp h
  obtain ⟨hpath, hcfg, hdtn, dttl, hdttl, hm'⟩ := path_rrepRecvRoute hr htype hdata hx hsource hrecv
  refine hpath.trans ?_
  have hr₁ : WellFormed n₁.cfg n₁.routing :=
    hcfg ▸ WellFormed.rrepRecvRoute (n := n₀.updateNeighLifetime x.ip) hr hrecv
  cases o with
  | none => exact Option.some.inj h ▸ .refl
  | some recv =>
    obtain ⟨⟨ok, n₂⟩, hroute, h⟩ := Option.bind_eq_some_iff.mp h
    obtain ⟨⟨ok₁, r⟩, hwrite, hn₂⟩ := Option.bind_eq_some_iff.mp hroute
    obtain ⟨-, rfl⟩ := Prod.mk.inj (Option.some.inj hn₂)
    have hcall : RouteCall n₀ t n₁.routing
        ⟨m.srcIp, m.dstIp, m.tos, x, m.numHops + 1, m.dstId, m.pathMetric - recv.pathMetric⟩ :=
      .rrepForward htype hdata hx hsource hrecv
    subst hm'
    refine .head (.route hcall hr₁ (rreqAodvRoute_write (c := ⟨m.srcIp, m.dstIp, m.tos, x,
      m.numHops + 1, m.dstId, m.pathMetric - recv.pathMetric⟩) hr₁ hwrite)) ?_
    have hr₂ : WellFormed n₁.cfg r := hr₁.rreqAodvRoute hwrite
    dsimp only at h
    split at h
    · exact Option.some.inj h ▸ .refl
    next send hsend =>
    obtain ⟨n₃, hrep₃, h⟩ := Option.bind_eq_some_iff.mp h
    obtain ⟨n₄, hrep₄, h⟩ := Option.bind_eq_some_iff.mp h
    obtain ⟨recv', hrecv', h⟩ := Option.bind_eq_some_iff.mp h
    obtain ⟨send', hsend', h⟩ := Option.bind_eq_some_iff.mp h
    have hsilent : Silent { n₁ with routing := r } n₄ := (silent_rrepRoute hrep₃).trans (silent_rrepRoute hrep₄)
    refine hsilent.path.trans ?_
    obtain ⟨hmem, hto⟩ := findAodvRouteById_some hsend
    obtain ⟨hmem', hsame⟩ := entryAt_of_soft hr₂ hsilent.routing hmem hsend'
    have hto' : send'.dstIp = m.dstIp ∧ send'.dstId = m.dstId := by
      obtain ⟨_, _, _, _, rfl⟩ := hsame
      exact hto
    obtain rfl := Option.some.inj h
    have hlast : ∀ k : Node, Silent k ((k.setLastHop send'.ptr recv'.nextHop).setLastHop recv'.ptr send'.nextHop) :=
      fun k ↦ (silent_setLastHop _ _ k).trans (silent_setLastHop _ _ _)
    rcases sendMessage_cases recv'.nextHop netDiameter
      (.rrep { m with numHops := m.numHops + 1, dttl := dttl })
      ((n₄.setLastHop send'.ptr recv'.nextHop).setLastHop recv'.ptr send'.nextHop) with heq | heq
    · rw [heq]
      exact (hlast n₄).path
    · rw [heq]
      have hop : NetOp n₀ t n₄ { n₄ with sent := n₄.sent ++ [.unicast recv'.nextHop netDiameter
          (.rrep { m with numHops := m.numHops + 1, dttl := dttl })] } :=
        .relay dttl htype hdata (by simp [hx]) hsource (hdtn (by simp)) hdttl (entryAt_mem hrecv').1
          hmem' hto'
      exact .head hop (hlast _).path

theorem path_recvRrep {m : Rrep} (hr : WellFormed n₀.cfg n₀.routing) (htype : t.type = .recvRrep)
    (hdata : t.data = some (.rrep m)) (h : n₀.recvRrep t m = some n') : NetPath n₀ t n₀ n' := by
  unfold recvRrep at h
  split at h
  · exact Option.some.inj h ▸ .refl
  next x hx =>
  dsimp only at h
  split at h
  · next hsource => exact path_recvRrepSource hr htype hdata hx hsource h
  · next hsource => exact path_recvRrepForward hr htype hdata hx (eq_false_of_ne_true hsource) h

theorem path_genStRreq (hr : WellFormed n₀.cfg n₀.routing) (htype : t.type = .st)
    (h : n₀.genStRreq = some n') : NetPath n₀ t n₀ n' := by
  unfold genStRreq at h
  split at h
  · exact Option.some.inj h ▸ .refl
  dsimp only at h
  split at h
  · exact Option.some.inj h ▸ (silent_alloc n₀).path
  split at h
  · exact Option.some.inj h ▸ (silent_alloc n₀).path
  next e he =>
  refine (silent_alloc n₀).path.trans ?_
  obtain rfl := Option.some.inj h
  refine .head (.strreq (n := n₀.alloc.2) htype hr he) ?_
  refine (silent_of_plain ?_ (sideOps_insertTimer .st rfl).reportOps).path
  exact (calm_insertTimer .st _ _ _ rfl).trans (calm_updateTimers _)

theorem silent_recvRreqSt (t : Task) (m : RreqSt) (n : Node) : Silent n (n.recvRreqSt t m) := by
  rcases recvRreqSt_cases t m n with heq | ⟨x, gwList, kmalloc, -, hlast⟩
  · rw [heq]
    exact .refl n
  have hgw : Silent n { n.updateNeighLifetime x.ip with gwList := gwList, kmalloc := kmalloc } :=
    (silent_updateNeighLifetime x.ip n).trans (silent_of_eq rfl rfl rfl rfl rfl rfl)
  rcases hlast with heq | ⟨m', heq⟩
  · rw [heq]
    exact hgw
  · rw [heq]
    refine hgw.trans ?_
    unfold localBroadcast
    split
    · exact .refl _
    · exact silent_send trivial

theorem isRouteless_of_isHelloOf {s : Sent} (h : isHelloOf n s) : isRouteless s := by
  obtain ⟨ext, rfl⟩ := h
  trivial

theorem path_flushRoutes (hr : WellFormed n.cfg n.routing) : NetPath n₀ t n n.flushRoutes := by
  refine .head (.flush hr) (silent_of_plain ?_ (sideOps_insertTimer .cleanup rfl).reportOps).path
  exact (calm_insertTimer .cleanup _ _ _ rfl).trans (calm_updateTimers _)

theorem silent_deleteAodvNeigh {ip : Ip} (h : n.deleteAodvNeigh ip = some n') : Silent n n' := by
  refine silent_of_plain (calm_deleteAodvNeigh h) ?_
  unfold deleteAodvNeigh at h
  split at h
  · exact (sideOps_unlinkNeigh ip).reportOps.trans (reportOps_genRerr h)
  · exact Option.some.inj h ▸ .refl

theorem handle_path (hr : WellFormed n.cfg n.routing) (h : n.handle t = some n') :
    NetPath n t n n' := by
  unfold handle at h
  split at h
  · next htype => exact .single (netOp_genRreq ⟨by rw [htype]; rfl, .inl rfl⟩ h)
  · next htype hdata => exact path_recvRrep hr htype hdata h
  · exact (silent_of_plain (calm_of_quiet (steady_recvRerr h).quiet) (reportOps_recvRerr h)).path
  · next htype _ => exact path_recvHello hr htype h
  · refine Option.some.inj h ▸ Silent.path ?_
    exact silent_of_plain (calm_of_quiet (steady_recvRcvp _ _).quiet) (reportOps_recvRcvp _ _)
  · refine Option.some.inj h ▸ Silent.path ?_
    exact silent_of_plain (calm_of_quiet (steady_recvRrdp _ _ _).quiet) (sideOps_recvRrdp _ _).reportOps
  · exact Option.some.inj h ▸ path_flushRoutes hr
  · refine Option.some.inj h ▸ Silent.path ?_
    exact silent_of_calm (calm_genHello n) (fun _ ↦ isRouteless_of_isHelloOf) sideOps_genHello.reportOps
  · next htype => exact path_genStRreq hr htype h
  · refine Option.some.inj h ▸ Silent.path ?_
    have hgw : Silent n n.updateGwLifetimes := silent_of_eq rfl rfl rfl rfl rfl rfl
    refine hgw.trans (silent_of_plain ?_ (sideOps_insertTimer .gwCleanup rfl).reportOps)
    exact (calm_insertTimer .gwCleanup _ _ _ rfl).trans (calm_updateTimers _)
  · exact (silent_deleteAodvNeigh h).path
  · exact Option.some.inj h ▸ path_flushRoutes hr
  · refine Option.some.inj h ▸ Silent.path ?_
    exact silent_of_plain (calm_sendProbe _ _) (sideOps_sendProbe _).reportOps
  · refine Option.some.inj h ▸ Silent.path ?_
    exact silent_of_plain (calm_recvSprobe _ _ _) (sideOps_recvSprobe _ _).reportOps
  · exact (silent_of_plain (calm_recvLprobe h) (recvLprobe_probing h).reportOps).path
  · obtain ⟨x, -, h⟩ := Option.bind_eq_some_iff.mp h
    obtain ⟨n₁, h₁, hgen⟩ := resetEtt_genRerr h
    exact (silent_of_plain (calm_resetEtt h) (h₁.reportOps.trans (reportOps_genRerr hgen))).path
  · refine Option.some.inj h ▸ Silent.path ?_
    exact silent_of_plain (calm_deleteAodvNeigh2h _ _) (sideOps_deleteAodvNeigh2h _).reportOps
  · next htype hdata => exact path_recvRreq hr htype hdata h
  · next htype => exact .single (netOp_resendRreq htype h)
  · exact (silent_of_plain (calm_recvEttInfo h) (recvEttInfo_probing h).reportOps).path
  · next htype => exact path_genRrep hr htype h
  · exact Option.some.inj h ▸ (silent_recvRreqSt _ _ _).path
  · exact Option.some.inj h ▸ (silent_routing (soft_updateMyLoad _)).path
  · next htype => exact .single (netOp_genRreq ⟨by rw [htype]; rfl, .inr ⟨.inl htype, rfl⟩⟩ h)
  · exact Option.some.inj h ▸ .refl

end Handlers

section Hooks

variable {n n' : Node} {e : Event} {t : Task}

/-- The task of a message that comes in. -/
def IsArrival (e : Event) (t : Task) : Prop :=
  ∃ p m, e = .input p ∧ p.isAodv = true ∧ p.message = some m ∧ t.type = m.taskType ∧
    t.srcIp = p.saddr ∧ t.ttl = p.ttl ∧ t.data = some (m.stamp p.sec p.usec)

/-- The task of a packet that finds no route. -/
def IsMiss (n : Node) (t : Task) : Prop :=
  t.type = .genRreq ∧ t.data = none ∧ t.dstIp ≠ t.srcIp ∧
    (t.srcIp = n.cfg.gMeshIp ∨ t.srcIp = gNullIp ∧ n.cfg.gAodvGateway = true)

/-- The timer by which a DTN location is answered. -/
def IsLocation (n : Node) (t : Task) : Prop :=
  n.dtnRegister = true ∧ t.type = .sendRrep ∧ t.dstIp = n.cfg.dtnHelloIp

/-- What happens between two tasks. -/
structure Hooked (n : Node) (e : Event) (n' : Node) : Prop where
  cfg : n'.cfg = n.cfg
  dtnRegister : n.dtnRegister = true → n'.dtnRegister = true
  routing : Soft n.routing n'.routing
  sent : n'.sent = n.sent
  timers : ∀ t ∈ n'.timers.queue, isFlowType t.type = true → t ∈ n.timers.queue ∨ IsLocation n' t
  tasks : ∀ t ∈ n'.tasks.elems,
    t ∈ n.tasks.elems ∨ t ∈ n.timers.queue ∨ IsArrival e t ∨ IsMiss n t

theorem Hooked.refl (n : Node) (e : Event) : Hooked n e n :=
  ⟨rfl, id, .refl _, rfl, fun _ ht _ ↦ .inl ht, fun _ ht ↦ .inl ht⟩

theorem Hooked.queues {k k' : Node} (h : Hooked n e k) (hcfg : k'.cfg = k.cfg)
    (hdtn : k'.dtnRegister = k.dtnRegister) (hrouting : k'.routing = k.routing) (hsent : k'.sent = k.sent)
    (htimers : k'.timers = k.timers)
    (htasks : ∀ t ∈ k'.tasks.elems, t ∈ k.tasks.elems ∨ IsArrival e t) : Hooked n e k' where
  cfg := hcfg.trans h.cfg
  dtnRegister := fun hn ↦ hdtn.trans (h.dtnRegister hn)
  routing := hrouting ▸ h.routing
  sent := hsent.trans h.sent
  timers := by
    intro t ht htype
    rw [IsLocation, hcfg, hdtn]
    exact h.timers t (htimers ▸ ht) htype
  tasks := by
    intro t ht
    rcases htasks t ht with ht | ht
    · exact h.tasks t ht
    · exact .inr (.inr (.inl ht))

theorem mem_insertTimerDir {type : TaskType} {delay : ℕ} {retries tos : UInt8} {srcIp dstIp : Ip}
    (h : t ∈ (n.insertTimerDir type delay retries srcIp dstIp tos).timers.queue) :
    (t.type = type ∧ t.srcIp = srcIp ∧ t.dstIp = dstIp ∧ t.tos = tos) ∨ t ∈ n.timers.queue := by
  unfold Node.insertTimerDir insertTimerDirectional at h
  split at h
  · rcases mem_insert h with rfl | h
    · exact .inl ⟨rfl, rfl, rfl, rfl⟩
    · exact .inr h
  · rcases mem_insert h with rfl | h
    · split
      · exact .inl ⟨rfl, rfl, rfl, rfl⟩
      · exact .inl ⟨rfl, rfl, rfl, rfl⟩
    · exact .inr h

theorem hooked_dtnInput (p : Packet) : Hooked n e (n.dtnInput p) := by
  unfold dtnInput
  dsimp only
  generalize hn₁ : (if (!n.dtnRegister && p.udpDest == dtnRegisterPort) = true then _ else n) = n₁
  have h₁ : Hooked n e n₁ := by
    rw [← hn₁]
    split
    · exact { Hooked.refl n e with dtnRegister := fun _ ↦ rfl, timers := fun _ ht _ ↦ .inl ht }
    · exact .refl n e
  generalize hn₂ : (if (n₁.dtnRegister && p.udpDest == getDtnHello) = true then _ else n₁) = n₂
  have h₂ : Hooked n e n₂ := by
    rw [← hn₂]
    split
    · refine { h₁ with timers := fun t ht htype ↦ ?_ }
      rw [updateTimers, updateTimerQueue_queue] at ht
      rcases mem_insert ht with rfl | ht
      · cases htype
      · exact h₁.timers t ht htype
    · exact h₁
  split
  · next hlocation =>
    refine { h₂ with timers := fun t ht htype ↦ ?_ }
    rw [updateTimers, updateTimerQueue_queue] at ht
    rcases mem_insert ht with rfl | ht
    · exact .inr ⟨(Bool.and_eq_true_iff.mp hlocation).1, rfl, rfl⟩
    · exact h₂.timers t ht htype
  · exact h₂

theorem hooked_inputHandler (p : Packet) : Hooked n (.input p) (n.inputHandler p).2 := by
  have hdtn : Hooked n (.input p) (n.dtnInput p) := hooked_dtnInput p
  unfold inputHandler
  dsimp only
  generalize n.dtnInput p = k at hdtn ⊢
  split
  · exact hdtn
  split
  · next haodv =>
    unfold packetIn
    split
    · exact hdtn
    next m hm =>
    split
    · exact hdtn
    unfold insertTask
    dsimp only
    split
    · exact hdtn.queues rfl rfl rfl rfl rfl fun _ ht ↦ .inl ht
    split
    · exact hdtn.queues rfl rfl rfl rfl rfl fun _ ht ↦ .inl ht
    refine hdtn.queues rfl rfl rfl rfl rfl fun t ht ↦ ?_
    rcases ClassQueue.mem_pushBack.mp ht with rfl | ht
    · refine .inr ⟨p, m, rfl, haodv, hm, ?_, rfl, rfl, rfl⟩
      cases m <;> rfl
    · exact .inl ht
  · exact hdtn

theorem hooked_outputHandler {skb : Skb} {v : Verdict} (h : n.outputHandler skb = some (v, n')) :
    Hooked n e n' := by
  have hsame : ∀ {w : Verdict}, some (w, n) = some (v, n') → Hooked n e n' := fun heq ↦
    (Prod.mk.inj (Option.some.inj heq)).2 ▸ .refl n e
  unfold outputHandler at h
  split at h
  · exact hsame h
  dsimp only at h
  split at h
  · exact hsame h
  next hdiffers =>
  split at h
  · split at h
    · next hsource =>
      split at h
      · cases h
      · obtain ⟨-, rfl⟩ := Prod.mk.inj (Option.some.inj h)
        refine { Hooked.refl n e with tasks := fun t ht ↦ ?_ }
        rcases ClassQueue.mem_pushFront.mp ht with rfl | ht
        · exact .inr (.inr (.inr ⟨rfl, rfl, hdiffers, by simpa using hsource⟩))
        · exact .inl ht
    · split at h
      · exact hsame h
      · exact hsame h
  · next e' _ =>
    obtain ⟨-, rfl⟩ := Prod.mk.inj (Option.some.inj h)
    have hactive : Soft n.routing (n.routing.modifyAt e'.ptr fun e ↦ { e with state := .active }) :=
      soft_modifyAt fun _ ↦ ⟨_, _, _, _, rfl⟩
    have hlifetime : ∀ r : Routing, Soft r
        (r.modifyAt e'.ptr fun e ↦ { e with lifetime := n.now + activeRouteTimeout }) :=
      fun _ ↦ soft_modifyAt fun _ ↦ ⟨_, _, _, _, rfl⟩
    split
    · split
      · refine { Hooked.refl n e with
          routing := hactive.trans (hlifetime _), timers := fun t ht htype ↦ ?_ }
        rcases mem_insert ht with rfl | ht
        · cases htype
        · exact .inl ht
      · exact { Hooked.refl n e with routing := hactive.trans (hlifetime _) }
    · exact { Hooked.refl n e with routing := hlifetime _ }

theorem hooked_signal : Hooked n e n.signal := by
  obtain ⟨tasks, heq, hperm⟩ := signal_eq n
  rw [heq]
  refine ⟨rfl, id, .refl _, rfl, fun t ht _ ↦ .inl (mem_of_rest ht), fun t ht ↦ ?_⟩
  rcases List.mem_append.mp (hperm.mem_iff.mp ht) with ht | ht
  · exact .inr (.inl (mem_of_due ht))
  · exact .inl ht

theorem step_path (hr : WellFormed n.cfg n.routing) (h : n.step e = some n') :
    (∃ t tasks, e = .thread ∧ n.tasks.pop = (some t, tasks) ∧
        NetPath { n with tasks := tasks } t { n with tasks := tasks } n') ∨ Hooked n e n' := by
  cases e with
  | wait ms => exact .inr (Option.some.inj h ▸ { Hooked.refl n _ with })
  | input p => exact .inr (Option.some.inj h ▸ hooked_inputHandler p)
  | output skb =>
    obtain ⟨⟨v, n₁⟩, hsend, rfl⟩ := Option.map_eq_some_iff.mp h
    obtain ⟨⟨w, n₂⟩, hout, hsend⟩ := Option.bind_eq_some_iff.mp hsend
    have hhooked := hooked_outputHandler (e := .output skb) hout
    dsimp only at hsend
    split at hsend
    · exact .inr ((Prod.mk.inj (Option.some.inj hsend)).2 ▸ { hhooked with })
    · exact .inr ((Prod.mk.inj (Option.some.inj hsend)).2 ▸ hhooked)
  | signal => exact .inr (Option.some.inj h ▸ hooked_signal)
  | thread =>
    simp only [step, threadStep] at h
    split at h
    · exact .inr (Option.some.inj h ▸ .refl n _)
    · next t tasks hpop =>
      exact .inl ⟨t, tasks, rfl, hpop, handle_path (n := { n with tasks := tasks }) hr h⟩

end Hooks

end Fbaodv.Proofs.NetPaths
