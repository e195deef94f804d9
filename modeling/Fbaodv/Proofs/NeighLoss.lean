import Fbaodv.Proofs.NodeRun
import Fbaodv.Proofs.PacketDiscovery

namespace Fbaodv.Proofs.NeighLoss

open Fbaodv.Model Fbaodv.Model.Node Fbaodv.Foundation
open Fbaodv.Proofs.RouteFrame Fbaodv.Proofs.RoutingInvariant Fbaodv.Proofs.Background
open Fbaodv.Proofs.RouteEffects Fbaodv.Proofs.HandlerSpecs Fbaodv.Proofs.NodeRun Fbaodv.Proofs.PacketDiscovery

variable {n n' : Node} {ip : Ip}

/-- A route that `gen_rerr` reports and expires when `ip` is lost. -/
def isBroken (ip : Ip) (e : AodvRoute) : Bool :=
  e.nextHop == ip && !e.selfRoute && !e.neighRoute && e.state != .invalid

def breakEntry (ip : Ip) (now : ℕ) (e : AodvRoute) : AodvRoute :=
  if isBroken ip e then { e with lifetime := now + deletePeriod, state := .invalid } else e

theorem breakEntry_state (ip : Ip) (now : ℕ) (e : AodvRoute) :
    (breakEntry ip now e).state = .invalid ↔ e.state = .invalid ∨ isBroken ip e = true := by
  unfold breakEntry
  split
  · next h => simp [h]
  · next h => simp [h]

theorem breakEntry_key (ip : Ip) (now : ℕ) (e : AodvRoute) :
    SameKey e (breakEntry ip now e) ∧ (breakEntry ip now e).nextHop = e.nextHop := by
  unfold breakEntry
  split <;> exact ⟨⟨rfl, rfl, rfl, rfl, rfl, rfl⟩, rfl⟩

/-- There is memory for the RERR about every usable route that `gen_rerr` finds
on its way and that starts at another node. -/
def RerrGranted (ip : Ip) : List AodvRoute → Node → Prop
  | [], _ => True
  | e :: l, n =>
    if e.nextHop = ip ∧ !e.selfRoute ∧ !e.neighRoute then
      (n.replyToRrer e.srcIp = false → e.state ≠ .invalid → n.kmalloc.next = true) ∧
        ∀ n₁, n.genRerrRoute e = some (true, n₁) →
          RerrGranted ip l (if e.state ≠ .invalid then n₁.expireRoute e.ptr else n₁)
    else RerrGranted ip l n

theorem rerrGranted_of_nextHop {l : List AodvRoute} (h : ∀ e ∈ l, e.nextHop ≠ ip) :
    RerrGranted ip l n := by
  induction l with
  | nil => trivial
  | cons e l ih =>
    obtain ⟨he, hl⟩ := List.forall_mem_cons.mp h
    rw [RerrGranted, if_neg fun hvia ↦ he hvia.1]
    exact ih hl

theorem recordBrkLink_routing {srcIp dstIp lastHop lastAvail : Ip}
    (h : n.recordBrkLink srcIp dstIp lastHop lastAvail = some n') : n'.routing = n.routing := by
  have hflush : ∀ {m : Node}, m.flushBrkList = some n' → n'.routing = m.routing := fun hm ↦ by
    obtain ⟨l, -, hl⟩ := Option.bind_eq_some_iff.mp hm
    exact Option.some.inj hl ▸ rfl
  have hcreate : (n.createBrkLink srcIp dstIp lastHop lastAvail).routing = n.routing := by
    unfold createBrkLink
    dsimp only
    split <;> rfl
  unfold recordBrkLink at h
  split at h
  · exact (hflush h).trans rfl
  · exact (hflush h).trans hcreate

theorem sendMessage_routing (dstIp : Ip) (ttl : UInt8) (m : Message) (n : Node) :
    (n.sendMessage dstIp ttl m).routing = n.routing := by
  unfold sendMessage
  split
  · rfl
  split <;> rfl

theorem genRerrRoute_routing {e : AodvRoute} {go : Bool} (h : n.genRerrRoute e = some (go, n')) :
    n'.routing = n.routing ∧
      (go = false ↔ n.replyToRrer e.srcIp = false ∧ e.state ≠ .invalid ∧ n.kmalloc.next = false) := by
  have hdtn : ∀ m : Node, (if m.dtnRegister = true then
      m.send2dtn dtnPort e.srcIp e.dstIp m.lastAvail rerrMessage else m).routing = m.routing := by
    intro m
    split <;> rfl
  unfold genRerrRoute at h
  split at h
  · next hreply =>
    have hreply : n.replyToRrer e.srcIp = false := by simpa using hreply
    split at h
    · next hstate =>
      dsimp only at h
      split at h
      · next hok =>
        simp only [Option.some.injEq, Prod.mk.injEq] at h
        obtain ⟨rfl, rfl⟩ := h
        exact ⟨rfl, by simpa [hreply, hstate, alloc] using hok⟩
      · next hok =>
        simp only [Option.bind_eq_bind, Option.bind_eq_some_iff] at h
        obtain ⟨m, hm, h⟩ := h
        simp only [Option.some.injEq, Prod.mk.injEq] at h
        obtain ⟨rfl, rfl⟩ := h
        refine ⟨(recordBrkLink_routing hm).trans ((sendMessage_routing _ _ _ _).trans (hdtn _)), ?_⟩
        simpa [hreply, hstate, alloc] using hok
    · next hstate =>
      simp only [Option.some.injEq, Prod.mk.injEq] at h
      obtain ⟨rfl, rfl⟩ := h
      exact ⟨rfl, by simp [show e.state = .invalid by simpa using hstate]⟩
  · next hreply =>
    simp only [Option.bind_eq_bind, Option.bind_eq_some_iff] at h
    obtain ⟨m, hm, h⟩ := h
    simp only [Option.some.injEq, Prod.mk.injEq] at h
    obtain ⟨rfl, rfl⟩ := h
    exact ⟨(recordBrkLink_routing hm).trans (hdtn n), by simp [show n.replyToRrer e.srcIp = true by simpa using hreply]⟩

theorem expireRoute_table {l₁ l₂ : List AodvRoute} {e : AodvRoute} (hr : WellFormed n.cfg n.routing)
    (htable : n.routing.table = l₁ ++ e :: l₂) :
    (n.expireRoute e.ptr).routing.table =
      l₁ ++ { e with lifetime := n.now + deletePeriod, state := .invalid } :: l₂ := by
  have hnodup : ((l₁ ++ e :: l₂).map AodvRoute.ptr).Nodup := htable ▸ hr.distinct
  simp only [List.map_append, List.map_cons, List.nodup_append, List.nodup_cons, List.mem_cons,
    List.mem_map] at hnodup
  obtain ⟨-, ⟨hl₂, -⟩, hl₁⟩ := hnodup
  have hskip : ∀ l : List AodvRoute, (∀ x ∈ l, x.ptr ≠ e.ptr) →
      (l.map fun x ↦ if x.ptr = e.ptr then
        { x with lifetime := n.now + deletePeriod, state := .invalid } else x) = l := fun l hl ↦
    (List.map_congr_left fun x hx ↦ if_neg (hl x hx)).trans (List.map_id' l)
  simp only [expireRoute, Routing.expireAodvRoute, Routing.modifyAt, htable, List.map_append,
    List.map_cons, if_true]
  rw [hskip l₁ fun x hx ↦ hl₁ x.ptr ⟨x, hx, rfl⟩ e.ptr (.inl rfl),
    hskip l₂ fun x hx hptr ↦ hl₂ ⟨x, hx, hptr⟩]

/-- The loop from the rest `l` of the table on: it expires what is broken in the
rest, or it stops before a broken route. -/
theorem genRerrLoop_table (l₁ : List AodvRoute) {l : List AodvRoute} {k : ℕ} {o : Option ℕ}
    (hr : WellFormed n.cfg n.routing) (htable : n.routing.table = l₁ ++ l)
    (h : genRerrLoop ip l k n = some (o, n')) :
    (o.isSome = true ∧ RerrGranted ip l n ∧
        n'.routing.table = l₁ ++ l.map (breakEntry ip n.now)) ∨
      (o = none ∧ ¬ RerrGranted ip l n ∧ ∃ e ∈ n'.routing.table, isBroken ip e = true) := by
  induction l generalizing l₁ k n with
  | nil =>
    simp only [genRerrLoop, Option.some.injEq, Prod.mk.injEq] at h
    obtain ⟨rfl, rfl⟩ := h
    exact .inl ⟨rfl, trivial, htable⟩
  | cons e l ih =>
    simp only [genRerrLoop] at h
    have hnext : ∀ (m : Node) (e' : AodvRoute) (k : ℕ), WellFormed m.cfg m.routing → m.now = n.now →
        m.routing.table = l₁ ++ e' :: l → e' = breakEntry ip n.now e →
        genRerrLoop ip l k m = some (o, n') →
        (o.isSome = true ∧ RerrGranted ip l m ∧
            n'.routing.table = l₁ ++ (e :: l).map (breakEntry ip n.now)) ∨
          (o = none ∧ ¬ RerrGranted ip l m ∧ ∃ e ∈ n'.routing.table, isBroken ip e = true) := by
      intro m e' k hm hnow hmtable he' hloop
      have := ih (l₁ ++ [e']) hm (by rw [hmtable, List.append_assoc]; rfl) hloop
      rwa [hnow, List.append_assoc, List.singleton_append, he', ← List.map_cons] at this
    split at h
    · next hvia =>
      obtain ⟨⟨go, m⟩, hm, h⟩ := Option.bind_eq_some_iff.mp h
      obtain ⟨hrouting, hgo⟩ := genRerrRoute_routing hm
      have hquiet := (steady_genRerrRoute hm).quiet
      have hmr : WellFormed m.cfg m.routing := by rw [hquiet.cfg, hrouting]; exact hr
      have hmtable : m.routing.table = l₁ ++ e :: l := hrouting ▸ htable
      simp only [RerrGranted, if_pos hvia]
      cases go with
      | false =>
        simp only [Bool.not_false, if_true, Option.some.injEq, Prod.mk.injEq] at h
        obtain ⟨rfl, rfl⟩ := h
        obtain ⟨hreply, hstate, hmem⟩ := hgo.mp rfl
        refine .inr ⟨rfl, fun hgrant ↦ ?_, e, by simp [hmtable], ?_⟩
        · simp [hgrant.1 hreply hstate] at hmem
        · simpa [isBroken, and_assoc] using ⟨hvia.1, by simpa using hvia.2.1, by simpa using hvia.2.2, hstate⟩
      | true =>
        have hmemory : n.replyToRrer e.srcIp = false → e.state ≠ .invalid → n.kmalloc.next = true :=
          fun hreply hstate ↦ by
            by_contra hmem
            exact absurd (hgo.mpr ⟨hreply, hstate, by simpa using hmem⟩) (by simp)
        have hgranted : ∀ m', (if e.state ≠ .invalid then m.expireRoute e.ptr else m) = m' →
            (((n.replyToRrer e.srcIp = false → e.state ≠ .invalid → n.kmalloc.next = true) ∧
              ∀ n₁, n.genRerrRoute e = some (true, n₁) →
                RerrGranted ip l (if e.state ≠ .invalid then n₁.expireRoute e.ptr else n₁)) ↔
              RerrGranted ip l m') := by
          rintro m' rfl
          refine ⟨fun hg ↦ hg.2 m hm, fun hg ↦ ⟨hmemory, fun n₁ hn₁ ↦ ?_⟩⟩
          obtain rfl : m = n₁ := by simpa using hm.symm.trans hn₁
          exact hg
        simp only [Bool.not_true, Bool.false_eq_true, if_false] at h
        split at h
        · next hstate =>
          rw [hgranted _ (if_pos hstate)]
          have hbroken : isBroken ip e = true := by
            simpa [isBroken, and_assoc] using
              ⟨hvia.1, by simpa using hvia.2.1, by simpa using hvia.2.2, hstate⟩
          refine hnext _ _ _ (hmr.touches (touches_expireAodvRoute _ _ _ _)) hquiet.now
            (expireRoute_table hmr hmtable) ?_ h
          rw [breakEntry, if_pos hbroken, hquiet.now]
        · next hstate =>
          rw [hgranted _ (if_neg hstate)]
          refine hnext _ _ _ hmr hquiet.now hmtable ?_ h
          rw [breakEntry, if_neg]
          simp only [not_not] at hstate
          simp [isBroken, hstate]
    · next hvia =>
      simp only [RerrGranted, if_neg hvia]
      refine hnext _ _ _ hr rfl htable ?_ h
      rw [breakEntry, if_neg]
      intro hbroken
      simp only [isBroken, Bool.and_eq_true, beq_iff_eq] at hbroken
      exact hvia ⟨hbroken.1.1.1, by simpa using hbroken.1.1.2, by simpa using hbroken.1.2⟩

theorem unlinkNeigh_routing (ip : Ip) (n : Node) : (n.unlinkNeigh ip).routing = n.routing := by
  unfold unlinkNeigh
  dsimp only
  split <;> rfl

theorem deleteAodvNeigh_table (hr : WellFormed n.cfg n.routing)
    (hip : (n.aodvNeighList.any fun x ↦ x.ip == ip) = true) (h : n.deleteAodvNeigh ip = some n') :
    (RerrGranted ip n.routing.table (n.unlinkNeigh ip) ∧
        n'.routing.table = n.routing.table.map (breakEntry ip n.now)) ∨
      (¬ RerrGranted ip n.routing.table (n.unlinkNeigh ip) ∧
        ∃ e ∈ n'.routing.table, isBroken ip e = true) := by
  have hrouting := unlinkNeigh_routing ip n
  have hcalm : Calm isPlain n (n.unlinkNeigh ip) := calm_unlinkNeigh ip n
  have hr₁ : WellFormed (n.unlinkNeigh ip).cfg (n.unlinkNeigh ip).routing := by
    rwa [hcalm.cfg, hrouting]
  rw [deleteAodvNeigh, if_pos hip, genRerr] at h
  obtain ⟨⟨o, m⟩, hloop, h⟩ := Option.bind_eq_some_iff.mp h
  have htable : n'.routing.table = m.routing.table := by
    dsimp only at h
    split at h
    · exact Option.some.inj h ▸ rfl
    split at h
    · exact Option.some.inj h ▸ updateMyLoad_table _
    · exact Option.some.inj h ▸ rfl
  have hall := genRerrLoop_table [] hr₁ rfl hloop
  rw [List.nil_append, hcalm.now, hrouting] at hall
  rw [htable]
  rcases hall with ⟨-, hgrant, hmap⟩ | ⟨-, hgrant, hbroken⟩
  · exact .inl ⟨hgrant, hmap⟩
  · exact .inr ⟨hgrant, hbroken⟩

/-- The one-hop route that `route_aodv_neigh` makes for `ip`. -/
def IsNeighRoute (cfg : Config) (ip : Ip) (e : AodvRoute) : Prop :=
  e.srcIp = cfg.gMeshIp ∧ e.dstIp = ip ∧ e.tos = 0 ∧ e.neighRoute = true

/-- The task that starts the discovery of a packet's flow. -/
def discoveryTask (n : Node) (skb : Skb) : Task :=
  { createTask .genRreq n.now with
    srcIp := n.flowAddr skb.saddr, dstIp := n.flowAddr skb.daddr, tos := skb.tos }

instance (cfg : Config) (ip : Ip) (e : AodvRoute) : Decidable (IsNeighRoute cfg ip e) :=
  inferInstanceAs (Decidable (_ ∧ _ ∧ _ ∧ _))

/-- `output_handler` answers `NF_QUEUE` to the packet and starts a discovery,
unless there is no memory for the task. -/
def Discovers (n : Node) (skb : Skb) : Prop :=
  match n.outputHandler skb with
  | some (v, n') => v = .queue ∧
      n'.tasks = n.tasks.pushFront (fun t ↦ isControlTask t.type) (discoveryTask n skb)
  | none => n.kmalloc.next = false

/-- The node has stopped to use the neighbour `ip`. -/
structure NeighGone (ip : Ip) (n : Node) : Prop where
  nextHop : ∀ e ∈ n.routing.table, e.state ≠ .invalid → e.nextHop ≠ ip
  neighRoute : ∀ e ∈ n.routing.table, e.state ≠ .invalid → ¬ IsNeighRoute n.cfg ip e
  discovers : ∀ skb : Skb, isSignalling skb = false → skb.saddr = n.cfg.gMeshIp → skb.daddr = ip →
    skb.tos = 0 → Discovers n skb

/-- What a loss of the neighbour `ip` must find: memory for the RERRs, no usable
route through `ip` that is flagged as the node's own, no usable neighbour route,
and as route of the packets to `ip`, if there can be any, none or one that is
not usable or that breaks. -/
structure LossHandled (ip : Ip) (n : Node) : Prop where
  granted : RerrGranted ip n.routing.table (n.unlinkNeigh ip)
  nextHop : ∀ e ∈ n.routing.table, e.state ≠ .invalid → e.nextHop = ip → e.selfRoute = false
  neighRoute : ∀ e ∈ n.routing.table, IsNeighRoute n.cfg ip e → e.state = .invalid
  route : ip >>> 24 = 0xff ∨ n.flowAddr ip ≠ n.cfg.gMeshIp ∧
    ∀ e ∈ n.routing.findAodvRoute n.cfg.gMeshIp (n.flowAddr ip) 0,
      e.state = .invalid ∨ isBroken ip e = true

theorem flowAddr_gMeshIp (n : Node) : n.flowAddr n.cfg.gMeshIp = n.cfg.gMeshIp := by
  simp [flowAddr, isInternal]

/-- A data packet of the node itself starts a discovery exactly when it leaves
the node and finds no usable route. -/
theorem discovers_iff {skb : Skb} (hdata : isSignalling skb = false)
    (hsrc : skb.saddr = n.cfg.gMeshIp) :
    Discovers n skb ↔ n.flowAddr skb.daddr ≠ n.cfg.gMeshIp ∧
      ∀ e, n.routing.findAodvRoute n.cfg.gMeshIp (n.flowAddr skb.daddr) skb.tos = some e →
        e.state = .invalid := by
  have hself := flowAddr_gMeshIp n
  unfold Discovers outputHandler
  simp only [hdata, hsrc, hself, Bool.false_eq_true, if_false]
  by_cases hdst : n.flowAddr skb.daddr = n.cfg.gMeshIp
  · simp [hdst]
  simp only [hdst, if_false, ne_eq, not_false_eq_true, true_and]
  cases hfind : n.routing.findAodvRoute n.cfg.gMeshIp (n.flowAddr skb.daddr) skb.tos with
  | none =>
    cases hok : n.kmalloc.next
    · simp [alloc, hok]
    · simp only [alloc, hok, Option.filter_none, beq_self_eq_true, Bool.true_or, if_true,
        Bool.not_true, Bool.false_eq_true, if_false, true_and, reduceCtorEq, false_imp_iff,
        implies_true, iff_true]
      simp only [discoveryTask, hsrc, hself]
      rfl
  | some e =>
    by_cases hstate : e.state = .invalid
    · cases hok : n.kmalloc.next
      · simp [alloc, hok, hstate, Option.filter]
      · simp only [alloc, hok, hstate, Option.filter, not_true_eq_false, decide_false,
          Bool.false_eq_true, if_false, beq_self_eq_true, Bool.true_or, if_true, Bool.not_true,
          true_and, Option.some.injEq, forall_eq', iff_true]
        simp only [discoveryTask, hsrc, hself]
        rfl
    · simp [hstate, Option.filter]

/-- The route that `output_handler` finds after the loss is the one before,
expired if it was broken. -/
theorem findAodvRoute_break (hr : WellFormed n.cfg n.routing) (hr' : WellFormed n'.cfg n'.routing)
    (h : n'.routing.table = n.routing.table.map (breakEntry ip n.now)) (srcIp dstIp : Ip)
    (tos : UInt8) : n'.routing.findAodvRoute srcIp dstIp tos =
      (n.routing.findAodvRoute srcIp dstIp tos).map (breakEntry ip n.now) := by
  rw [hr.findAodvRoute_eq, hr'.findAodvRoute_eq, h, List.find?_map]
  congr 2
  funext e
  obtain ⟨hkey, -⟩ := breakEntry_key ip n.now e
  simp only [Function.comp_apply, hkey.srcIp, hkey.dstIp, hkey.tos]

theorem exists_data_packet (saddr : Ip) {ip : Ip} (hip : ip >>> 24 ≠ 0xff) :
    ∃ skb : Skb, isSignalling skb = false ∧ skb.saddr = saddr ∧ skb.daddr = ip ∧ skb.tos = 0 := by
  refine ⟨⟨0, saddr, ip, 0, 80⟩, ?_, rfl, rfl, rfl⟩
  have hbroadcast : ip ≠ gBroadcastIp := by
    rintro rfl
    exact hip (by decide)
  simpa [isSignalling, hbroadcast, hip] using by decide

/-- In every reachable state a neighbour that is deleted is no longer usable
exactly when its loss finds what `LossHandled` says. -/
theorem neigh_gone_iff (hn : Reachable n) (hip : ∃ x ∈ n.aodvNeighList, x.ip = ip)
    (h : n.deleteAodvNeigh ip = some n') : NeighGone ip n' ↔ LossHandled ip n := by
  have hr := reach_wellFormed hn
  have hcalm := calm_deleteAodvNeigh h
  have hr' : WellFormed n'.cfg n'.routing := hcalm.cfg ▸ hr.touches hcalm.routing
  have hany : (n.aodvNeighList.any fun x ↦ x.ip == ip) = true := by simpa using hip
  rcases deleteAodvNeigh_table hr hany h with ⟨hgrant, htable⟩ | ⟨hgrant, e, he, hbroken⟩
  · have hflow : n'.flowAddr ip = n.flowAddr ip := by simp only [flowAddr, hcalm.cfg]
    have hfind := findAodvRoute_break hr hr' htable n.cfg.gMeshIp (n.flowAddr ip) 0
    have hmem : ∀ e' : AodvRoute, e' ∈ n'.routing.table ↔
        ∃ e ∈ n.routing.table, breakEntry ip n.now e = e' := fun e' ↦ by
      rw [htable, List.mem_map]
    constructor
    · intro hgone
      refine ⟨hgrant, fun e he hstate hvia ↦ ?_, fun e he hneigh ↦ ?_, ?_⟩
      · by_contra hself
        obtain ⟨-, hnext⟩ := breakEntry_key ip n.now e
        refine hgone.nextHop _ ((hmem _).mpr ⟨e, he, rfl⟩) ?_ (hnext.trans hvia)
        rw [ne_eq, breakEntry_state]
        simp [hstate, isBroken, show e.selfRoute = true by simpa using hself]
      · by_contra hstate
        obtain ⟨hkey, -⟩ := breakEntry_key ip n.now e
        refine hgone.neighRoute _ ((hmem _).mpr ⟨e, he, rfl⟩) ?_ ?_
        · rw [ne_eq, breakEntry_state]
          simp [hstate, isBroken, hneigh.2.2.2]
        · simpa only [IsNeighRoute, hkey.srcIp, hkey.dstIp, hkey.tos, hkey.neighRoute, hcalm.cfg]
            using hneigh
      · by_cases hcast : ip >>> 24 = 0xff
        · exact .inl hcast
        obtain ⟨skb, hdata, hsrc, rfl, htos⟩ := exists_data_packet n'.cfg.gMeshIp hcast
        have hdisc := (discovers_iff hdata hsrc).mp (hgone.discovers skb hdata hsrc rfl htos)
        rw [hflow, hcalm.cfg, htos, hfind] at hdisc
        refine .inr ⟨hdisc.1, fun e he ↦ ?_⟩
        exact (breakEntry_state _ _ _).mp (hdisc.2 _ (by rw [Option.mem_def.mp he]; rfl))
    · intro hloss
      refine ⟨fun e' he' hstate hvia ↦ ?_, fun e' he' hstate hneigh ↦ ?_, ?_⟩
      · obtain ⟨e, he, rfl⟩ := (hmem _).mp he'
        rw [ne_eq, breakEntry_state, not_or] at hstate
        rw [(breakEntry_key ip n.now e).2] at hvia
        have hself := hloss.nextHop e he hstate.1 hvia
        have hneigh : e.neighRoute = false := by
          by_contra hneigh
          simp [hr.neighRoute e he (by simpa using hneigh)] at hself
        exact hstate.2 (by simp [isBroken, hvia, hself, hneigh, hstate.1])
      · obtain ⟨e, he, rfl⟩ := (hmem _).mp he'
        obtain ⟨hkey, -⟩ := breakEntry_key ip n.now e
        rw [ne_eq, breakEntry_state, not_or] at hstate
        refine hstate.1 (hloss.neighRoute e he ?_)
        simpa only [IsNeighRoute, hkey.srcIp, hkey.dstIp, hkey.tos, hkey.neighRoute, hcalm.cfg]
          using hneigh
      · rintro skb hdata hsrc rfl htos
        have hcast : ¬ skb.daddr >>> 24 = 0xff := by
          intro hcast
          simp [isSignalling, hcast] at hdata
        obtain ⟨hleaves, hroute⟩ := hloss.route.resolve_left hcast
        rw [discovers_iff hdata hsrc, hflow, hcalm.cfg, htos, hfind]
        refine ⟨hleaves, fun e' he' ↦ ?_⟩
        obtain ⟨e, he, rfl⟩ := Option.map_eq_some_iff.mp he'
        exact (breakEntry_state _ _ _).mpr (hroute e he)
  · refine iff_of_false (fun hgone ↦ ?_) fun hloss ↦ hgrant hloss.granted
    simp only [isBroken, Bool.and_eq_true, beq_iff_eq, bne_iff_ne] at hbroken
    exact hgone.nextHop e he hbroken.2 hbroken.1.1.1

/-- A message that the station 192.168.1.1 hears from `saddr`. -/
def heard (saddr : Ip) (m : Message) : Packet where
  saddr := saddr
  daddr := gBroadcastIp
  ttl := 10
  udp := true
  udpDest := aodvPort
  ifaAddress := 0x0101a8c0
  sec := 0
  usec := 0
  message := some m
  words := (0, 0, 0, 0)

/-- The station gets to know 192.168.1.2 by a HELLO. -/
def meetNeigh : List Event := [.input (heard 0x0201a8c0 (.hello ⟨0, 0, 1, []⟩)), .thread]

def metStation : Node := (runs meetNeigh station).getD station

/-- An RERR from 0.0.0.0 expires the route to 192.168.1.2. -/
def expireNeigh : List Event :=
  [.input (heard 0 (.rerr ⟨0, 0x0201a8c0, 1, 0, 0x0101a8c0⟩)), .thread]

def expiredStation : Node := (runs expireNeigh metStation).getD station

theorem metStation_reachable : Reachable metStation :=
  Reach.of_runs (n := station) (l := meetNeigh) (.init trivial) rfl

theorem expiredStation_reachable : Reachable expiredStation :=
  metStation_reachable.of_runs (l := expireNeigh) rfl

theorem neigh_gone_iff_expired :
    ∃ n', expiredStation.deleteAodvNeigh 0x0201a8c0 = some n' ∧ NeighGone 0x0201a8c0 n' := by
  have h : expiredStation.deleteAodvNeigh 0x0201a8c0 =
      some ((expiredStation.deleteAodvNeigh 0x0201a8c0).getD expiredStation) := rfl
  exact ⟨_, h, (neigh_gone_iff expiredStation_reachable (by decide) h).mpr
    ⟨rerrGranted_of_nextHop (by decide), by decide, by decide, .inr (by decide)⟩⟩

/-- The neighbour's route stays active when the neighbour is lost. -/
theorem lost_neigh_still_usable :
    ∃ n n', Reachable n ∧ (∃ x ∈ n.aodvNeighList, x.ip = 0x0201a8c0) ∧
      n.deleteAodvNeigh 0x0201a8c0 = some n' ∧ ¬ NeighGone 0x0201a8c0 n' := by
  refine ⟨metStation, (metStation.deleteAodvNeigh 0x0201a8c0).getD metStation, metStation_reachable,
    by decide, rfl, fun hgone ↦ ?_⟩
  exact hgone.neighRoute (neighEntry station.cfg 1 0x0201a8c0 1 0) (by decide) (by decide)
    ⟨rfl, rfl, rfl, rfl⟩

end Fbaodv.Proofs.NeighLoss
