import Fbaodv.Proofs.NeighLoss

namespace Fbaodv.Proofs.OrphanRoutes

open Fbaodv.Model Fbaodv.Model.Node Fbaodv.Foundation
open Fbaodv.Proofs.RouteFrame Fbaodv.Proofs.RoutingInvariant Fbaodv.Proofs.HandlerSpecs
open Fbaodv.Proofs.NodeRun Fbaodv.Proofs.PacketDiscovery Fbaodv.Proofs.NeighLoss

/-- Every kernel route that `rrep_aodv_route` installed belongs to an entry. -/
def NoOrphan (r : Routing) : Prop :=
  ∀ k ∈ r.installed, ∃ e ∈ r.table, e.dstIp = k.dst ∧ e.nextHop = k.gateway ∧ e.numHops = k.metric

/-- An entry under another address than `ptr` that `rpdb_route` would withdraw
together with its kernel route `k`. -/
def OtherOwner (cfg : Config) (r : Routing) (ptr : ℕ) (k : KernelRoute) : Prop :=
  ∃ e ∈ r.table, e.ptr ≠ ptr ∧ e.kernelRoute = k ∧ ¬ IsDtn cfg e.srcIp e.dstIp

/-- `rreq_aodv_route` with these arguments does not write over the last entry of
an installed kernel route. -/
def KeepsOwner (cfg : Config) (r : Routing) (srcIp dstIp : Ip) (tos : UInt8) (nextHop : Ip)
    (hops : UInt8) (dstId pathMetric : UInt32) : Prop :=
  ∀ e ∈ r.findAodvRoute srcIp dstIp tos, e.rejects dstId pathMetric = false → e.state = .invalid →
    e.kernelRoute ∈ r.installed →
      e.kernelRoute = ⟨dstIp, nextHop, hops⟩ ∨ OtherOwner cfg r e.ptr e.kernelRoute

/-- An entry that the flush removes without telling the kernel, because its
source is not listed, is not the last entry of an installed kernel route. -/
def FlushKeepsOwner (cfg : Config) (now : ℕ) (r : Routing) : Prop :=
  ∀ l₁ e l₂, r.table = l₁ ++ e :: l₂ → ∀ r₁, r₁ = l₁.foldl (Routing.flushEntry cfg now) r →
    e.state = .invalid → e.selfRoute = false → timeBefore e.lifetime now = true →
      r₁.findSrcListEntry e.srcIp = none → e.kernelRoute ∈ r₁.installed →
        OtherOwner cfg r₁ e.ptr e.kernelRoute

structure Owned (cfg : Config) (r : Routing) : Prop where
  wf : WellFormed cfg r
  netlink : r.netlink = []
  owner : ∀ k ∈ r.installed, ∃ e ∈ r.table, e.kernelRoute = k ∧ ¬ IsDtn cfg e.srcIp e.dstIp

section Tables

variable {cfg : Config} {r r' : Routing}

theorem Owned.noOrphan (h : Owned cfg r) : NoOrphan r := by
  intro k hk
  obtain ⟨e, he, rfl, -⟩ := h.owner k hk
  exact ⟨e, he, rfl, rfl, rfl⟩

theorem Owned.touches (hr : Owned cfg r) (h : Touches cfg r r') : Owned cfg r' where
  wf := hr.wf.touches h
  netlink := h.netlink.trans hr.netlink
  owner := by
    intro k hk
    obtain ⟨e, he, hroute, hdtn⟩ := hr.owner k (h.installed ▸ hk)
    obtain ⟨e', he', htouch⟩ := Pointwise.exists_of_mem_left h.entries he
    exact ⟨e', he', htouch.kernelRoute.trans hroute, by rwa [htouch.srcIp, htouch.dstIp]⟩

theorem Owned.inserts (hr : Owned cfg r) {new : AodvRoute} (h : Inserts new r r')
    (hnew : new.neighRoute = true → new.selfRoute = true) : Owned cfg r' where
  wf := hr.wf.inserts h hnew
  netlink := h.netlink.trans hr.netlink
  owner := by
    intro k hk
    obtain ⟨e, he, howner⟩ := hr.owner k (h.installed ▸ hk)
    exact ⟨e, h.mem.mpr (.inr he), howner⟩

theorem Owned.srcOnly (hr : Owned cfg r) (h : SrcOnly r r') : Owned cfg r' where
  wf := hr.wf.srcOnly h
  netlink := h.netlink hr.netlink
  owner := by
    rw [h.installed, h.table]
    exact hr.owner

/-- An entry that is not the owner meant for `k` leaves the owner alone. -/
theorem Owned.other (hr : Owned cfg r) {k : KernelRoute} (hk : k ∈ r.installed) {e : AodvRoute}
    (he : e ∈ r.table) (h : e.kernelRoute = k → IsDtn cfg e.srcIp e.dstIp) :
    OtherOwner cfg r e.ptr k := by
  obtain ⟨x, hx, hroute, hdtn⟩ := hr.owner k hk
  refine ⟨x, hx, fun hptr ↦ ?_, hroute, hdtn⟩
  obtain rfl := hr.wf.eq_of_ptr he hx hptr
  exact hdtn (h hroute)

theorem OtherOwner.modifyAt {ptr : ℕ} {k : KernelRoute} (h : OtherOwner cfg r ptr k)
    (f : AodvRoute → AodvRoute) :
    ∃ e ∈ (r.modifyAt ptr f).table, e.kernelRoute = k ∧ ¬ IsDtn cfg e.srcIp e.dstIp := by
  obtain ⟨x, hx, hptr, howner⟩ := h
  exact ⟨x, List.mem_map.mpr ⟨x, hx, if_neg hptr⟩, howner⟩

theorem OtherOwner.removeAodvRoute {ptr : ℕ} {k : KernelRoute} (h : OtherOwner cfg r ptr k) :
    ∃ e ∈ (r.removeAodvRoute ptr).table, e.kernelRoute = k ∧ ¬ IsDtn cfg e.srcIp e.dstIp := by
  obtain ⟨x, hx, hptr, howner⟩ := h
  exact ⟨x, List.mem_filter.mpr ⟨hx, by simpa using hptr⟩, howner⟩

/-- Withdrawing the kernel route of `e` leaves the others with owners that are
not `e`. -/
theorem Owned.delRoute (hr : Owned cfg r) {e : AodvRoute} (he : e ∈ r.table) {ok : Bool}
    (h : r.delRoute cfg e.srcIp e.kernelRoute = (ok, r')) :
    ok = true ∧ Owned cfg r' ∧ ∀ k ∈ r'.installed, OtherOwner cfg r' e.ptr k := by
  rw [delRoute_eq hr.netlink] at h
  obtain ⟨rfl, rfl⟩ := Prod.mk.inj h
  have hother : ∀ k ∈ r.installed, (e.kernelRoute = k → IsDtn cfg e.srcIp e.dstIp) →
      OtherOwner cfg r e.ptr k := fun k hk hdtn ↦ hr.other hk he hdtn
  refine ⟨rfl, ?_⟩
  by_cases hd : IsDtn cfg e.srcIp e.kernelRoute.dst
  · rw [if_pos hd]
    exact ⟨hr, fun k hk ↦ hother k hk fun _ ↦ hd⟩
  · rw [if_neg hd]
    have hleft : ∀ k ∈ r.installed.erase e.kernelRoute, OtherOwner cfg r e.ptr k := fun k hk ↦ by
      obtain ⟨hne, hk⟩ := Finset.mem_erase.mp hk
      exact hother k hk fun heq ↦ absurd heq.symm hne
    refine ⟨⟨hr.wf.sublist rfl rfl (List.Sublist.refl _), hr.netlink, fun k hk ↦ ?_⟩, hleft⟩
    obtain ⟨x, hx, -, howner⟩ := hleft k hk
    exact ⟨x, hx, howner⟩

theorem Owned.rreqAodvRoute (hr : Owned cfg r) {now : ℕ} {srcIp dstIp : Ip} {tos : UInt8}
    {nextHop : Ip} {sendRate : UInt16} {hops : UInt8} {dstId pathMetric : UInt32} {ok : Bool}
    (hkeep : KeepsOwner cfg r srcIp dstIp tos nextHop hops dstId pathMetric)
    (h : r.rreqAodvRoute cfg now srcIp dstIp tos nextHop sendRate hops dstId pathMetric =
      some (ok, r')) : Owned cfg r' := by
  have hmodify : ∀ {r₁ : Routing} (ptr : ℕ), Owned cfg r₁ →
      (∀ k ∈ r₁.installed, ∃ e ∈ (r₁.modifyAt ptr (rreqUpdate now nextHop hops dstId pathMetric)).table,
        e.kernelRoute = k ∧ ¬ IsDtn cfg e.srcIp e.dstIp) →
      Owned cfg (r₁.modifyAt ptr (rreqUpdate now nextHop hops dstId pathMetric)) :=
    fun ptr hr₁ howner ↦
      ⟨hr₁.wf.modifyAt ptr (sameKey_rreqUpdate now nextHop hops dstId pathMetric), hr₁.netlink, howner⟩
  rcases rreqAodvRoute_cases h with ⟨-, -, h⟩ | ⟨-, e, st, r₁, -, h, htouch⟩
  · cases h with
    | full _ h => exact hr.touches h
    | unlisted _ hnew h hsrc => exact (hr.inserts h (by rw [hnew]; exact nofun)).srcOnly hsrc
    | rejected => exact hr
    | refused hfind h =>
      obtain ⟨he, -⟩ := findAodvRoute_some hfind
      exact absurd (hr.delRoute he h).1 (by simp)
  · refine Owned.touches (hmodify e.ptr ?_ ?_) htouch
    · cases h with
      | created _ hnew h hsrc => exact (hr.inserts h (by rw [hnew]; exact nofun)).srcOnly hsrc
      | invalid => exact hr
      | withdrawn hfind _ _ h => exact (hr.delRoute (findAodvRoute_some hfind).1 h).2.1
    · intro k hk
      cases h with
      | created _ hnew h hsrc =>
        obtain ⟨x, hx, howner⟩ := hr.owner k (h.installed ▸ hsrc.installed ▸ hk)
        refine OtherOwner.modifyAt ⟨x, hsrc.table ▸ h.mem.mpr (.inr hx), fun hptr ↦ ?_, howner⟩ _
        exact absurd (hr.wf.fresh x hx) (by rw [hptr, h.ptr]; exact Nat.lt_irrefl _)
      | invalid hfind hrej hstate =>
        obtain ⟨he, -, hdst, -⟩ := findAodvRoute_some hfind
        by_cases hroute : e.kernelRoute = k
        · subst hroute
          rcases hkeep e hfind hrej hstate hk with hsame | hother
          · by_cases hdtn : IsDtn cfg e.srcIp e.dstIp
            · exact (hr.other hk he fun _ ↦ hdtn).modifyAt _
            · refine ⟨_, List.mem_map.mpr ⟨e, he, if_pos rfl⟩, ?_, hdtn⟩
              rw [hsame, ← hdst]
              rfl
          · exact hother.modifyAt _
        · exact (hr.other hk he fun h ↦ absurd h hroute).modifyAt _
      | withdrawn hfind _ _ h =>
        exact ((hr.delRoute (findAodvRoute_some hfind).1 h).2.2 k hk).modifyAt _

theorem Owned.rrepAodvRoute (hr : Owned cfg r) {now ptr : ℕ} {o : Option AodvRoute}
    (h : r.rrepAodvRoute cfg now ptr = some (o, r')) : Owned cfg r' := by
  have hwf := hr.wf.rrepAodvRoute h
  obtain ⟨e, hentry, ⟨-, -, rfl⟩ | ⟨hnew, -⟩ | ⟨r₁, -, hnew, -, rfl⟩⟩ := rrepAodvRoute_cases h
  · exact hr
  · rw [newRoute_eq hr.netlink] at hnew
    exact absurd (Prod.mk.inj hnew).1 (by simp)
  obtain ⟨he, hptr⟩ := entryAt_mem hentry
  rw [newRoute_eq hr.netlink] at hnew
  obtain ⟨-, rfl⟩ := Prod.mk.inj hnew
  have hkeep : ∀ (r₁ : Routing), r₁.table = r.table → ∀ x ∈ r.table, ¬ IsDtn cfg x.srcIp x.dstIp →
      ∃ y ∈ (r₁.modifyAt ptr fun e ↦
        { e with state := .replied, lifetime := now + deletePeriod }).table,
        y.kernelRoute = x.kernelRoute ∧ ¬ IsDtn cfg y.srcIp y.dstIp := by
    intro r₁ htable x hx hdtn
    refine ⟨_, List.mem_map.mpr ⟨x, htable ▸ hx, rfl⟩, ?_⟩
    split <;> exact ⟨rfl, hdtn⟩
  by_cases hd : IsDtn cfg e.srcIp e.kernelRoute.dst
  · rw [if_pos hd] at hwf ⊢
    refine ⟨hwf, hr.netlink, fun k hk ↦ ?_⟩
    obtain ⟨x, hx, rfl, hdtn⟩ := hr.owner k hk
    exact hkeep r rfl x hx hdtn
  · rw [if_neg hd] at hwf ⊢
    refine ⟨hwf, hr.netlink, fun k hk ↦ ?_⟩
    rcases Finset.mem_insert.mp hk with rfl | hk
    · exact hkeep { r with kernel := _, installed := _ } rfl e he hd
    · obtain ⟨x, hx, rfl, hdtn⟩ := hr.owner k hk
      exact hkeep { r with kernel := _, installed := _ } rfl x hx hdtn

theorem Owned.addsNeigh {ip : Ip} {dstId : UInt32} (hr : Owned cfg r)
    (h : AddsNeigh cfg ip dstId r r') : Owned cfg r' := by
  obtain ⟨lifetime, r₁, hins, h⟩ := h
  have hr₁ : Owned cfg r₁ := hr.inserts hins fun _ ↦ rfl
  rcases h with h | ⟨ok, r₂, freed, hnew, -, h⟩
  · exact hr₁.touches h
  · suffices hr₂ : Owned cfg { r₂ with freed := freed } from hr₂.touches h
    refine ⟨{ hr₁.wf.newRoute hnew with }, ?_, ?_⟩
    · rw [newRoute_eq hr₁.netlink] at hnew
      obtain ⟨-, rfl⟩ := Prod.mk.inj hnew
      split <;> exact hr₁.netlink
    · rw [newRoute_eq hr₁.netlink] at hnew
      obtain ⟨-, rfl⟩ := Prod.mk.inj hnew
      split <;> exact hr₁.owner

theorem Owned.flushAodvRouteTable (hr : Owned cfg r) {now : ℕ} (hkeep : FlushKeepsOwner cfg now r) :
    Owned cfg (r.flushAodvRouteTable cfg now) := by
  refine flushAodvRouteTable_turns hr.wf hr (fun l₁ e l₂ htable r₁ hr₁ hwf he hown ↦ ?_)
    fun r₁ h ↦ h.touches (touches_updateMyLoad cfg r₁)
  have hwf' := hwf.flushEntry (flushEntry_spec cfg now r₁ e)
  have hspec := flushEntry_spec cfg now r₁ e
  generalize hr' : r₁.flushEntry cfg now e = r' at hspec hwf' ⊢
  cases hspec with
  | kept => exact hown
  | expired => exact hown.touches (touches_expireAodvRoute _ _ _ _)
  | forgotten hdue hself hstate hsrc =>
    refine ⟨hwf', hown.netlink, fun k hk ↦ OtherOwner.removeAodvRoute ?_⟩
    by_cases hroute : e.kernelRoute = k
    · subst hroute
      exact hkeep l₁ e l₂ htable r₁ hr₁ hstate hself hdue hsrc hk
    · exact hown.other hk he fun h ↦ absurd h hroute
  | @removed r₂ r₃ r₄ _ hself _ _ h₂ h₃ h₄ =>
    have hneigh : e.neighRoute = false := by
      by_contra hneigh
      simp [hwf.neighRoute e he (by simpa using hneigh)] at hself
    rw [hneigh, if_neg (by simp)] at h₃
    subst h₃
    obtain ⟨-, hown₃, hother⟩ := (hown.srcOnly h₂).delRoute (h₂.table ▸ he) rfl
    refine ⟨hwf', (hown₃.srcOnly h₄).netlink, fun k hk ↦ OtherOwner.removeAodvRoute ?_⟩
    obtain ⟨x, hx, howner⟩ := hother k (h₄.installed ▸ hk)
    exact ⟨x, h₄.table ▸ hx, howner⟩

end Tables

section Runs

variable {n n' : Node} {t : Task}

/-- No table update of the task writes over or removes the last entry of an
installed kernel route. -/
structure TaskKeepsOwners (n : Node) (t : Task) : Prop where
  rreq : ∀ m x pathMetric, t.type = .recvRreq → t.data = some (.rreq m) →
    RreqCall n t m x pathMetric →
      KeepsOwner n.cfg n.routing m.dstIp m.srcIp m.tos x.ip (m.numHops + 1) m.dstId pathMetric
  source : ∀ m x, t.type = .recvRrep → t.data = some (.rrep m) → n.findAodvNeigh t.srcIp = some x →
    isRrepSource n m = true →
      KeepsOwner n.cfg n.routing m.srcIp m.dstIp m.tos x.ip (m.numHops + 1) m.dstId m.pathMetric
  forward : ∀ m x recv m' n₁, t.type = .recvRrep → t.data = some (.rrep m) →
    n.findAodvNeigh t.srcIp = some x → isRrepSource n m = false →
      (n.updateNeighLifetime x.ip).rrepRecvRoute { m with numHops := m.numHops + 1 } =
        some (some recv, m', n₁) →
      KeepsOwner n.cfg n₁.routing m'.srcIp m'.dstIp m'.tos x.ip m'.numHops m'.dstId
        (m'.pathMetric - recv.pathMetric)
  flush : t.type = .cleanup ∨ t.type = .routeCleanup → FlushKeepsOwner n.cfg n.now n.routing

/-- The thread takes no task that orphans a kernel route. -/
def KeepsOwners (n : Node) : Event → Prop
  | .thread => ∀ t tasks, n.tasks.pop = (some t, tasks) → TaskKeepsOwners { n with tasks := tasks } t
  | _ => True

theorem Owned.answersFrom {srcIp dstIp : Ip} {tos : UInt8} {r : Routing} {e : AodvRoute}
    (hr : Owned n.cfg n.routing) (h : AnswersFrom n srcIp dstIp tos r e) : Owned n.cfg r := by
  rcases h with ⟨rfl, -⟩ | ⟨-, -, new, hcopy, -⟩
  · exact hr
  · exact (hr.touches (touches_setDstId hr.wf.localEntry)).inserts hcopy.inserts
      (by simp [hcopy.neighRoute])

theorem Owned.effect {r : Routing} (hr : Owned n.cfg n.routing) (hkeep : TaskKeepsOwners n t)
    (h : RouteEffect n t r) : Owned n.cfg r := by
  cases h with
  | touch h => exact hr.touches h
  | hello _ h _ h' =>
    rcases h with h | ⟨dstId, -, h⟩
    · exact (hr.touches h).touches h'
    · exact (hr.addsNeigh h).touches h'
  | rreq htype hdata hcall h => exact hr.rreqAodvRoute (hkeep.rreq _ _ _ htype hdata hcall) h
  | answer _ h h₁ h₂ h' => exact (((hr.answersFrom h).touches h₁).rrepAodvRoute h₂).touches h'
  | rrepSource htype hdata hx hsource h₁ h₂ h' =>
    have hr₁ := hr.rreqAodvRoute (hkeep.source _ _ htype hdata hx hsource) h₁
    rcases h₂ with ⟨-, rfl⟩ | ⟨e, o, -, h₂⟩
    · exact hr₁.touches h'
    · exact (hr₁.rrepAodvRoute h₂).touches h'
  | @rrepForward m m' x recv ok n₁ r₁ _ htype hdata hx hsource hrecv h₁ h' =>
    have hn₁ : Owned n.cfg n₁.routing := by
      rcases rrepRecvRoute_cases (n := n.updateNeighLifetime x.ip) hr.wf hrecv with
        ⟨-, rfl⟩ | ⟨-, -, e, new, r, -, rfl, hcopy, -⟩
      · exact hr
      · exact hr.inserts hcopy.inserts (by simp [hcopy.neighRoute])
    have hr₁ := hn₁.rreqAodvRoute (hkeep.forward _ _ _ _ _ htype hdata hx hsource hrecv) h₁
    rcases h' with ⟨-, rfl⟩ | ⟨send, o₂, r₂, o₃, r₃, -, h₂, h₃, h'⟩
    · exact hr₁
    · exact ((hr₁.rrepAodvRoute h₂).rrepAodvRoute h₃).touches h'
  | flush htype => exact hr.flushAodvRouteTable (hkeep.flush htype)

theorem step_owned {e : Event} (hr : Owned n.cfg n.routing) (he : KeepsOwners n e)
    (h : n.step e = some n') : Owned n'.cfg n'.routing := by
  rcases step_cases hr.wf h with ⟨t, tasks, rfl, hpop, hcfg, -, heffect⟩ | ⟨hcfg, htouch⟩
  · rw [hcfg]
    exact Owned.effect (n := { n with tasks := tasks }) hr (he t tasks hpop) heffect
  · rw [hcfg]
    exact hr.touches htouch

/-- No run whose tasks all keep the owners leaves an orphan in the kernel. -/
theorem no_orphan_of_keepsOwners (h : Reach (fun _ env ↦ env.netlink = []) KeepsOwners n) :
    NoOrphan n.routing := by
  refine (h.induct (Q := fun n ↦ Owned n.cfg n.routing) (fun cfg env hnetlink ↦ ?_)
    fun n e n' hr he hs ↦ step_owned hr he hs).noOrphan
  obtain ⟨hcfg, hrouting⟩ := init_frame cfg env
  rw [hcfg, hrouting]
  exact ⟨initRouting_wellFormed _ _ _ _, hnetlink, by simp [initRouting]⟩

theorem taskKeepsOwners_of_type (h : t.type ≠ .recvRreq) (h' : t.type ≠ .recvRrep)
    (hflush : ¬ (t.type = .cleanup ∨ t.type = .routeCleanup)) : TaskKeepsOwners n t :=
  ⟨fun _ _ _ ht ↦ absurd ht h, fun _ _ ht ↦ absurd ht h', fun _ _ _ _ _ ht ↦ absurd ht h',
    fun ht ↦ absurd ht hflush⟩

end Runs

/-- The RREP for the flow of the station to 192.168.1.9 that 192.168.1.2 sends. -/
def flowRrep : Rrep := ⟨0, 0, 0x0901a8c0, 0x0101a8c0, 5, 0, 2, 1, 0, 0, 0⟩

def answer : List Event := [.input (heard 0x0201a8c0 (.rrep flowRrep)), .thread]

def answeredStation : Node := (runs answer metStation).getD station

theorem no_orphan_of_keepsOwners_answer :
    NoOrphan answeredStation.routing ∧
      answeredStation.routing.installed = {⟨0x0901a8c0, 0x0201a8c0, 1⟩} := by
  refine ⟨no_orphan_of_keepsOwners ?_, by decide +kernel⟩
  have hmet : Reach (fun _ env ↦ env.netlink = []) KeepsOwners metStation := by
    refine .step (e := .thread) (.step (n := station)
      (e := .input (heard 0x0201a8c0 (.hello ⟨0, 0, 1, []⟩))) (.init rfl) trivial rfl) ?_ rfl
    intro t tasks hpop
    have htype : some TaskType.recvHello = some t.type :=
      congrArg (fun p : Option Task × _ ↦ p.1.map Task.type) hpop
    rw [Option.some.injEq] at htype
    exact taskKeepsOwners_of_type (by simp [← htype]) (by simp [← htype]) (by simp [← htype])
  refine .step (e := .thread) (.step (e := .input (heard 0x0201a8c0 (.rrep flowRrep))) hmet trivial rfl)
    ?_ rfl
  intro t tasks hpop
  have htype : some TaskType.recvRrep = some t.type :=
    congrArg (fun p : Option Task × _ ↦ p.1.map Task.type) hpop
  have hdata : some (some (Message.rrep flowRrep)) = some t.data :=
    congrArg (fun p : Option Task × _ ↦ p.1.map Task.data) hpop
  rw [Option.some.injEq] at htype hdata
  obtain ⟨hcfg, hrouting⟩ := inputHandler_frame (heard 0x0201a8c0 (.rrep flowRrep)) metStation
  refine ⟨by simp [← htype], ?_, ?_, by simp [← htype]⟩
  · intro m x _ hm _ _ e he
    obtain rfl : flowRrep = m := by simpa [← hdata] using hm
    have hnone : metStation.routing.findAodvRoute 0x0101a8c0 0x0901a8c0 0 = none := by decide +kernel
    rw [← hrouting] at hnone
    exact absurd (hnone.symm.trans he) (by simp)
  · intro m x recv m' n₁ _ hm _ hsource
    obtain rfl : flowRrep = m := by simpa [← hdata] using hm
    have htrue : isRrepSource metStation flowRrep = true := by decide +kernel
    simp only [isRrepSource, hcfg] at hsource htrue
    simp [hsource] at htrue

/-- The route of that flow breaks and is found again through 192.168.1.3 before
it is flushed. -/
def rediscover : List Event :=
  [.input (heard 0x0201a8c0 (.rerr ⟨0, 0x0901a8c0, 5, 0, 0x0101a8c0⟩)), .thread,
    .input (heard 0x0301a8c0 (.hello ⟨0, 0, 1, []⟩)), .thread,
    .input (heard 0x0301a8c0 (.rreq ⟨0, 1, 0, 0x0101a8c0, 0x0901a8c0, 6, 0, 0⟩)), .thread]

def rediscoveredStation : Node := (runs (answer ++ rediscover) metStation).getD station

theorem rediscovery_orphans :
    Reach (fun _ env ↦ env.netlink = []) (fun _ _ ↦ True) rediscoveredStation ∧
      ¬ NoOrphan rediscoveredStation.routing := by
  have hmet : Reach (fun _ env ↦ env.netlink = []) (fun _ _ ↦ True) metStation :=
    Reach.of_runs (n := station) (l := meetNeigh) (.init rfl) rfl
  refine ⟨hmet.getD_runs (by decide +kernel) station, fun h ↦ ?_⟩
  exact absurd (h ⟨0x0901a8c0, 0x0201a8c0, 1⟩ (by decide +kernel)) (by decide +kernel)

end Fbaodv.Proofs.OrphanRoutes
