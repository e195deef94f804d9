import Fbaodv.Proofs.NeighLoss

namespace Fbaodv.Proofs.RouteKeys

open Fbaodv.Model Fbaodv.Model.Node Fbaodv.Foundation
open Fbaodv.Proofs.RouteFrame Fbaodv.Proofs.RoutingInvariant Fbaodv.Proofs.HandlerSpecs
open Fbaodv.Proofs.NodeRun Fbaodv.Proofs.PacketDiscovery Fbaodv.Proofs.NeighLoss

/-- What `find_aodv_route` looks an entry up by. -/
def routeKey (e : AodvRoute) : Ip × Ip × UInt8 := (e.srcIp, e.dstIp, e.tos)

/-- No two entries have one key. -/
def UniqueKeys (r : Routing) : Prop := (r.table.map routeKey).Nodup

/-- The task creates an entry with this key without a look into the table. -/
inductive CreatesUnchecked (n : Node) (t : Task) : Ip × Ip × UInt8 → Prop
  | neigh (htype : t.type = .recvHello) (hnew : isNewNeigh n t.srcIp = true) :
      CreatesUnchecked n t (n.cfg.gMeshIp, t.srcIp, 0)
  | answer (htype : t.type = .sendRrep) (hdtn : isDtnAnswer n t.dstIp = true)
      (hfind : n.routing.findAodvRoute t.dstIp t.srcIp t.tos ≠ none) :
      CreatesUnchecked n t (n.cfg.gMeshIp, t.srcIp, t.tos)
  | forward {m : Rrep} (htype : t.type = .recvRrep) (hdata : t.data = some (.rrep m))
      (hx : n.findAodvNeigh t.srcIp ≠ none) (hsource : isRrepSource n m = false) (hdttl : m.dttl > 0)
      (hfind : n.routing.findAodvRoute n.cfg.dtnHelloIp m.srcIp m.tos ≠ none) :
      CreatesUnchecked n t (m.dstIp, m.srcIp, m.tos)

/-- Where there is memory for an entry, what the task creates without a look into
the table is not there yet. -/
def TaskKeepsKeys (n : Node) (t : Task) : Prop :=
  n.routing.kmalloc.next = true → ∀ key, CreatesUnchecked n t key → key ∉ n.routing.table.map routeKey

/-- The thread takes no task that doubles a key. -/
def KeepsKeys (n : Node) : Event → Prop
  | .thread => ∀ t tasks, n.tasks.pop = (some t, tasks) → TaskKeepsKeys { n with tasks := tasks } t
  | _ => True

section Tables

variable {cfg : Config} {r r' : Routing}

theorem routeKey_of_sameKey {e e' : AodvRoute} (h : SameKey e e') : routeKey e' = routeKey e := by
  simp only [routeKey, h.srcIp, h.dstIp, h.tos]

theorem keys_touches (h : Touches cfg r r') : r'.table.map routeKey = r.table.map routeKey :=
  Pointwise.map_eq h.entries fun htouch ↦ routeKey_of_sameKey (EntryTouch.sameKey htouch)

theorem UniqueKeys.touches (hr : UniqueKeys r) (h : Touches cfg r r') : UniqueKeys r' := by
  unfold UniqueKeys
  rw [keys_touches h]
  exact hr

theorem UniqueKeys.modifyAt (hr : UniqueKeys r) (ptr : ℕ) {f : AodvRoute → AodvRoute}
    (hf : ∀ e, SameKey e (f e)) : UniqueKeys (r.modifyAt ptr f) := by
  have hkeys : (r.modifyAt ptr f).table.map routeKey = r.table.map routeKey := by
    simp only [Routing.modifyAt, List.map_map]
    refine List.map_congr_left fun e _ ↦ ?_
    simp only [Function.comp_apply]
    split
    · exact routeKey_of_sameKey (hf e)
    · rfl
  unfold UniqueKeys
  rw [hkeys]
  exact hr

theorem UniqueKeys.inserts (hr : UniqueKeys r) {new : AodvRoute} (h : Inserts new r r')
    (hnew : routeKey new ∉ r.table.map routeKey) : UniqueKeys r' := by
  unfold UniqueKeys
  rw [h.table, ((OrderedList.insertBy_perm _ _ _).map routeKey).nodup_iff, List.map_cons,
    List.nodup_cons]
  exact ⟨hnew, hr⟩

theorem UniqueKeys.table (hr : UniqueKeys r) (h : r'.table = r.table) : UniqueKeys r' := by
  unfold UniqueKeys
  rw [h]
  exact hr

/-- The look into the table that `rreq_aodv_route` takes before it creates. -/
theorem key_not_mem_of_find (hr : WellFormed cfg r) {srcIp dstIp : Ip} {tos : UInt8}
    (h : r.findAodvRoute srcIp dstIp tos = none) :
    (srcIp, dstIp, tos) ∉ r.table.map routeKey := by
  rw [hr.findAodvRoute_eq] at h
  intro hmem
  obtain ⟨e, he, hkey⟩ := List.mem_map.mp hmem
  simp only [routeKey, Prod.mk.injEq] at hkey
  have := List.find?_eq_none.mp h e he
  simp [hkey] at this

theorem UniqueKeys.rreqAodvRoute (hr : UniqueKeys r) (hwf : WellFormed cfg r) {now : ℕ}
    {srcIp dstIp : Ip} {tos : UInt8} {nextHop : Ip} {sendRate : UInt16} {hops : UInt8}
    {dstId pathMetric : UInt32} {ok : Bool}
    (h : r.rreqAodvRoute cfg now srcIp dstIp tos nextHop sendRate hops dstId pathMetric =
      some (ok, r')) : UniqueKeys r' := by
  have hcreate : ∀ {lifetime : ℕ} {r₀ : Routing}, r.findAodvRoute srcIp dstIp tos = none →
      Inserts (freshEntry r.heap srcIp dstIp tos dstId lifetime) r r₀ → UniqueKeys r₀ :=
    fun hfind hins ↦ hr.inserts hins (key_not_mem_of_find hwf hfind)
  rcases rreqAodvRoute_cases h with ⟨-, -, h⟩ | ⟨-, e, st, r₁, -, h, htouch⟩
  · cases h with
    | full _ h => exact hr.touches h
    | unlisted hfind hnew h hsrc => exact (hcreate hfind (hnew ▸ h)).table hsrc.table
    | rejected => exact hr
    | refused _ h => exact hr.table (delRoute_table h).1
  · have hr₁ : UniqueKeys r₁ := by
      cases h with
      | created hfind hnew h hsrc => exact (hcreate hfind (hnew ▸ h)).table hsrc.table
      | invalid => exact hr
      | withdrawn _ _ _ h => exact hr.table (delRoute_table h).1
    exact (hr₁.modifyAt e.ptr (sameKey_rreqUpdate _ _ _ _ _)).touches htouch

theorem UniqueKeys.rrepAodvRoute (hr : UniqueKeys r) {now ptr : ℕ} {o : Option AodvRoute}
    (h : r.rrepAodvRoute cfg now ptr = some (o, r')) : UniqueKeys r' := by
  obtain ⟨e, -, ⟨-, -, rfl⟩ | ⟨hnew, -⟩ | ⟨r₁, -, hnew, -, rfl⟩⟩ := rrepAodvRoute_cases h
  · exact hr
  · exact hr.table (newRoute_table hnew).1
  · exact (hr.table (newRoute_table hnew).1).modifyAt ptr fun _ ↦ ⟨rfl, rfl, rfl, rfl, rfl, rfl⟩

theorem UniqueKeys.addsNeigh (hr : UniqueKeys r) {ip : Ip} {dstId : UInt32}
    (hnew : r.kmalloc.next = true → (cfg.gMeshIp, ip, (0 : UInt8)) ∉ r.table.map routeKey)
    (h : AddsNeigh cfg ip dstId r r') : UniqueKeys r' := by
  obtain ⟨lifetime, r₁, hins, h⟩ := h
  have hr₁ : UniqueKeys r₁ := hr.inserts hins (hnew hins.memory)
  rcases h with h | ⟨ok, r₂, freed, hroute, -, h⟩
  · exact hr₁.touches h
  · have htable : ({ r₂ with freed := freed } : Routing).table = r₁.table := (newRoute_table hroute).1
    exact (hr₁.table htable).touches h

theorem flushEntry_sublist {now : ℕ} {e : AodvRoute} (h : FlushEntry cfg now r e r') :
    (r'.table.map routeKey).Sublist (r.table.map routeKey) := by
  have hremove : ∀ r₁ : Routing, r₁.table = r.table →
      ((r₁.removeAodvRoute e.ptr).table.map routeKey).Sublist (r.table.map routeKey) :=
    fun r₁ h ↦ h ▸ List.filter_sublist.map routeKey
  cases h with
  | kept => exact List.Sublist.refl _
  | expired => exact (keys_touches (touches_expireAodvRoute cfg now e.ptr r)) ▸ List.Sublist.refl _
  | forgotten => exact hremove r rfl
  | @removed r₀ r₁ r₂ _ _ _ _ h₀ h₁ h₂ =>
    refine hremove r₂ (h₂.table.trans ?_)
    rw [h₁]
    split
    · exact h₀.table
    · exact (delRoute_table rfl).1.trans h₀.table

theorem UniqueKeys.flushAodvRouteTable (hr : UniqueKeys r) (now : ℕ) :
    UniqueKeys (r.flushAodvRouteTable cfg now) :=
  flushAodvRouteTable_induct hr
    (fun _ _ h ↦ List.Nodup.sublist (flushEntry_sublist (flushEntry_spec _ _ _ _)) h)
    fun r₁ h ↦ h.touches (touches_updateMyLoad cfg r₁)

end Tables

section Runs

variable {n n' : Node} {t : Task}

theorem UniqueKeys.answersFrom {r : Routing} {e : AodvRoute} (hr : UniqueKeys n.routing)
    (hwf : WellFormed n.cfg n.routing) (hkeep : TaskKeepsKeys n t) (htype : t.type = .sendRrep)
    (h : AnswersFrom n t.srcIp t.dstIp t.tos r e) : UniqueKeys r := by
  rcases h with ⟨rfl, -⟩ | ⟨hdtn, hfind, new, hcopy, -⟩
  · exact hr
  have htouch : Touches n.cfg n.routing n.bumpLocalDstId.routing := touches_setDstId hwf.localEntry
  refine (hr.touches htouch).inserts hcopy.inserts ?_
  rw [keys_touches htouch]
  have := hkeep hcopy.inserts.memory _ (.answer htype hdtn hfind)
  simpa only [routeKey, hcopy.srcIp, hcopy.dstIp, hcopy.tos] using this

theorem UniqueKeys.effect {r : Routing} (hr : UniqueKeys n.routing) (hwf : WellFormed n.cfg n.routing)
    (hkeep : TaskKeepsKeys n t) (h : RouteEffect n t r) : UniqueKeys r := by
  cases h with
  | touch h => exact hr.touches h
  | hello htype h hnew h' =>
    refine UniqueKeys.touches ?_ h'
    rcases h with h | ⟨dstId, -, h⟩
    · exact hr.touches h
    rcases hnew with ⟨hnew, -⟩ | rfl
    · exact hr.addsNeigh (fun hmem ↦ hkeep hmem _ (.neigh htype hnew)) h
    · exact hr
  | rreq _ _ _ h => exact hr.rreqAodvRoute hwf h
  | answer htype h h₁ h₂ h' =>
    exact (((hr.answersFrom hwf hkeep htype h).touches h₁).rrepAodvRoute h₂).touches h'
  | rrepSource _ _ _ _ h₁ h₂ h' =>
    have hr₁ := hr.rreqAodvRoute hwf h₁
    rcases h₂ with ⟨-, rfl⟩ | ⟨e, o, -, h₂⟩
    · exact hr₁.touches h'
    · exact (hr₁.rrepAodvRoute h₂).touches h'
  | @rrepForward m m' x recv ok n₁ r₁ _ htype hdata hx hsource hrecv h₁ h' =>
    have hwf₁ := WellFormed.rrepRecvRoute (n := n.updateNeighLifetime x.ip) hwf hrecv
    have hn₁ : UniqueKeys n₁.routing := by
      rcases rrepRecvRoute_cases (n := n.updateNeighLifetime x.ip) hwf hrecv with
        ⟨-, rfl⟩ | ⟨hdttl, hfind, e, new, r₀, -, rfl, hcopy, -⟩
      · exact hr
      · refine hr.inserts hcopy.inserts ?_
        have hcreates : CreatesUnchecked n t (m.dstIp, m.srcIp, m.tos) :=
          .forward htype hdata (by simp [hx]) hsource hdttl hfind
        have := hkeep hcopy.inserts.memory _ hcreates
        simpa only [routeKey, hcopy.srcIp, hcopy.dstIp, hcopy.tos] using this
    have hr₁ : UniqueKeys r₁ := hn₁.rreqAodvRoute hwf₁ h₁
    rcases h' with ⟨-, rfl⟩ | ⟨send, o₂, r₂, o₃, r₃, -, h₂, h₃, h'⟩
    · exact hr₁
    · exact ((hr₁.rrepAodvRoute h₂).rrepAodvRoute h₃).touches h'
  | flush => exact hr.flushAodvRouteTable _

theorem step_uniqueKeys {e : Event} (hr : UniqueKeys n.routing) (hwf : WellFormed n.cfg n.routing)
    (he : KeepsKeys n e) (h : n.step e = some n') : UniqueKeys n'.routing := by
  rcases step_cases hwf h with ⟨t, tasks, rfl, hpop, -, -, heffect⟩ | ⟨-, htouch⟩
  · exact UniqueKeys.effect (n := { n with tasks := tasks }) hr hwf (he t tasks hpop) heffect
  · exact hr.touches htouch

/-- In every run whose tasks all keep the keys apart, no state has two entries
of one key. -/
theorem unique_keys_of_keepsKeys {I : Config → Environment → Prop} (h : Reach I KeepsKeys n) :
    UniqueKeys n.routing := by
  refine (h.induct (Q := fun n ↦ WellFormed n.cfg n.routing ∧ UniqueKeys n.routing)
    (fun cfg env _ ↦ ?_) fun n e n' hr he hs ↦
      ⟨step_wellFormed hr.1 hs, step_uniqueKeys hr.2 hr.1 he hs⟩).2
  obtain ⟨hcfg, hrouting⟩ := init_frame cfg env
  rw [hcfg, hrouting]
  exact ⟨initRouting_wellFormed _ _ _ _, List.nodup_singleton _⟩

end Runs

theorem unique_keys_of_keepsKeys_met :
    UniqueKeys metStation.routing ∧
      metStation.routing.table.map routeKey =
        [(0x0101a8c0, 0x0101a8c0, 0), (0x0101a8c0, 0x0201a8c0, 0)] := by
  refine ⟨unique_keys_of_keepsKeys (I := fun _ _ ↦ True) ?_, by decide +kernel⟩
  refine .step (e := .thread) (.step (n := station)
    (e := .input (heard 0x0201a8c0 (.hello ⟨0, 0, 1, []⟩))) (.init trivial) trivial rfl) ?_ rfl
  intro t tasks hpop
  have htype : some TaskType.recvHello = some t.type :=
    congrArg (fun p : Option Task × _ ↦ p.1.map Task.type) hpop
  have hsrc : some (0x0201a8c0 : Ip) = some t.srcIp :=
    congrArg (fun p : Option Task × _ ↦ p.1.map Task.srcIp) hpop
  rw [Option.some.injEq] at htype hsrc
  have hfresh : ((0x0101a8c0 : Ip), (0x0201a8c0 : Ip), (0 : UInt8)) ∉
      (station.inputHandler (heard 0x0201a8c0 (.hello ⟨0, 0, 1, []⟩))).2.routing.table.map routeKey := by
    decide +kernel
  intro _ key hcreates
  cases hcreates with
  | neigh => exact hsrc ▸ hfresh
  | answer ht => simp [← htype] at ht
  | forward ht => simp [← htype] at ht

/-- 192.168.1.2 is lost, and comes back. -/
def returnNeigh : List Event :=
  [.wait 4200, .signal, .thread, .thread, .thread,
    .input (heard 0x0201a8c0 (.hello ⟨0, 0, 2, []⟩)), .thread]

theorem returned_neigh_doubles_key :
    ∃ n, Reachable n ∧ ¬ UniqueKeys n.routing :=
  ⟨(runs returnNeigh metStation).getD station,
    metStation_reachable.getD_runs (by decide +kernel) station,
    fun h ↦ absurd h (by unfold UniqueKeys; decide +kernel)⟩

end Fbaodv.Proofs.RouteKeys
