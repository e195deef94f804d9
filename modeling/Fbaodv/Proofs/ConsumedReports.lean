import Fbaodv.Foundation.Stock
import Fbaodv.Model.Network
import Fbaodv.Proofs.BrkLists
import Fbaodv.Proofs.NeighLoss

namespace Fbaodv.Proofs.ConsumedReports

open Fbaodv.Model Fbaodv.Model.Node Fbaodv.Foundation Fbaodv.Foundation.Stock
open Fbaodv.Proofs.RouteFrame Fbaodv.Proofs.RoutingInvariant Fbaodv.Proofs.Background
open Fbaodv.Proofs.NodeRun Fbaodv.Proofs.NodeOps Fbaodv.Proofs.NeighLoss
open Fbaodv.Proofs.PacketDiscovery Fbaodv.Proofs.BrkLists Relation
open Fbaodv.Proofs.BrkListFlush (ComesThrough comesThrough_iff)

def isRerr : Sent → Bool
  | .unicast _ _ (.rerr _) | .broadcast _ (.rerr _) => true
  | _ => false

def isRcvp : Sent → Bool
  | .unicast _ _ (.rcvp _) | .broadcast _ (.rcvp _) => true
  | _ => false

def rerrs (n : Node) : List Sent := n.sent.filter isRerr

def rcvps (n : Node) : List Sent := n.sent.filter isRcvp

/-- The addresses of the entries that are not `INVALID`. -/
def usable (n : Node) : Multiset ℕ :=
  ((n.routing.table.filter fun e ↦ e.state ≠ .invalid).map AodvRoute.ptr : List ℕ)

/-- The links of `brk_list` by source and destination. -/
def links (n : Node) : Multiset (Ip × Ip) :=
  (n.brkList.map fun x ↦ (x.srcIp, x.dstIp) : List (Ip × Ip))

/-- The RERR about the entry `e`, on its way to the last hop. -/
def ReportsRoute (e : AodvRoute) (s : Sent) : Prop :=
  ∃ numHops lastAvailIp,
    s = .unicast e.lastHop netDiameter (.rerr ⟨numHops, e.dstIp, e.dstId, lastAvailIp, e.srcIp⟩)

/-- The RCVP about the link `x`, on its way to the last hop. -/
def ReportsLink (x : BrkLink) (s : Sent) : Prop :=
  ∃ numHops, s = .unicast x.lastHop netDiameter (.rcvp ⟨numHops, x.dstIp, x.srcIp, x.lastAvailIp⟩)

/-- The entry was usable and is `INVALID`. -/
structure Expires (n' : Node) (e : AodvRoute) : Prop where
  usable : e.state ≠ .invalid
  expired : ∃ e' ∈ n'.routing.table, e'.ptr = e.ptr ∧ e'.state = .invalid

/-- The RERRs of a call belong one by one to entries that it expires. -/
def ConsumesRoutes (n n' : Node) : Prop :=
  ∃ (gone : List AodvRoute) (said : List Sent), gone.Sublist n.routing.table ∧
    (∀ e ∈ gone, Expires n' e) ∧ List.Forall₂ ReportsRoute gone said ∧ rerrs n' = rerrs n ++ said

/-- The RCVPs of a call belong one by one to links that it removes. -/
def ConsumesLinks (n n' : Node) : Prop :=
  ∃ (gone silent : List BrkLink) (said : List Sent), (gone ++ silent ++ n'.brkList).Perm n.brkList ∧
    List.Forall₂ ReportsLink gone said ∧ rcvps n' = rcvps n ++ said

/-- `gen_rerr(ip)` has dealt with the entries `before` of the table and is in the
state `n₁`, from which it reports the entry `e` of another node. -/
structure ComesTo (ip : Ip) (n : Node) (before : List AodvRoute) (e : AodvRoute) (n₁ : Node) : Prop where
  listed : before ++ [e] <+: n.routing.table
  loop : ∃ k, genRerrLoop ip before 0 n = some (some k, n₁)
  through : e.nextHop = ip ∧ !e.selfRoute ∧ !e.neighRoute
  transit : n₁.replyToRrer e.srcIp = false
  usable : e.state ≠ .invalid
  memory : n₁.kmalloc.next = true

/-- The node once the RERR about `e` is out, before `brk_list` is touched. -/
def rerrSent (e : AodvRoute) (n : Node) : Node :=
  { n.alloc.2 with
    sent := n.sent ++ notified dtnPort e.srcIp e.dstIp n.lastAvail rerrMessage n ++
      posted e.lastHop (.rerr ⟨0, e.dstIp, e.dstId, n.lastAvail, e.srcIp⟩) n }

/-- `recv_rerr` reports the entry `e` of another node on. -/
structure Forwards (t : Task) (m : Rerr) (n : Node) (e : AodvRoute) : Prop where
  found : n.routing.findAodvRouteById m.dstIp m.dstId = some e
  hop : e.nextHop = t.srcIp
  transit : n.replyToRrer e.srcIp = false
  usable : e.state ≠ .invalid

/-- The last node on the way that is said to be there. -/
def saidAvail (m : Rerr) (n : Node) : Ip :=
  if n.dtnRegister && m.lastAvailIp == 0 then n.cfg.gMeshIp else m.lastAvailIp

section Calls

variable {n n' : Node}

/-- The messages, routes and links that a report concerns stay as they are. -/
structure Silent (n n' : Node) : Prop where
  rerrs : rerrs n' = rerrs n
  rcvps : rcvps n' = rcvps n
  routing : n'.routing = n.routing

theorem Silent.trans {n'' : Node} (h : Silent n n') (h' : Silent n' n'') : Silent n n'' :=
  ⟨h'.rerrs.trans h.rerrs, h'.rcvps.trans h.rcvps, h'.routing.trans h.routing⟩

theorem silent_of_eq (hsent : n'.sent = n.sent) (hrouting : n'.routing = n.routing) : Silent n n' :=
  ⟨by rw [rerrs, hsent, rerrs], by rw [rcvps, hsent, rcvps], hrouting⟩

theorem silent_send {s : Sent} (hrerr : isRerr s = false) (hrcvp : isRcvp s = false) :
    Silent n { n with sent := n.sent ++ [s] } :=
  ⟨by simp [rerrs, hrerr], by simp [rcvps, hrcvp], rfl⟩

theorem silent_send2dtn {c : Prop} [Decidable c] {port : UInt16} {x y z w : UInt32} :
    Silent n (if c then n.send2dtn port x y z w else n) := by
  split
  · exact silent_send rfl rfl
  · exact silent_of_eq rfl rfl

theorem silent_recordBrkLink {srcIp dstIp lastHop lastAvail : Ip}
    (h : n.recordBrkLink srcIp dstIp lastHop lastAvail = some n') : Silent n n' := by
  have hflush : ∀ {m m' : Node}, m.flushBrkList = some m' → Silent m m' := by
    intro m m' hm
    obtain ⟨l, -, hl⟩ := Option.bind_eq_some_iff.mp hm
    exact Option.some.inj hl ▸ silent_of_eq rfl rfl
  unfold recordBrkLink at h
  split at h
  · have hsilent := hflush h
    exact ⟨hsilent.rerrs, hsilent.rcvps, hsilent.routing⟩
  · refine Silent.trans ?_ (hflush h)
    unfold createBrkLink
    dsimp only
    split
    · exact silent_of_eq rfl rfl
    · exact silent_of_eq rfl rfl

theorem sendMessage_rerr (ip : Ip) (m : Rerr) (n : Node) :
    (n.sendMessage ip netDiameter (.rerr m)).routing = n.routing ∧
      rcvps (n.sendMessage ip netDiameter (.rerr m)) = rcvps n ∧
      (rerrs (n.sendMessage ip netDiameter (.rerr m)) = rerrs n ∨
        rerrs (n.sendMessage ip netDiameter (.rerr m)) =
          rerrs n ++ [.unicast ip netDiameter (.rerr m)]) := by
  unfold sendMessage
  split
  · exact ⟨rfl, rfl, .inl rfl⟩
  split
  · exact ⟨rfl, rfl, .inl rfl⟩
  · exact ⟨rfl, by simp [rcvps, isRcvp], .inr (by simp [rerrs, isRerr])⟩

theorem sendMessage_rcvp (ip : Ip) (m : Rcvp) (n : Node) :
    (n.sendMessage ip netDiameter (.rcvp m)).routing = n.routing ∧
      rerrs (n.sendMessage ip netDiameter (.rcvp m)) = rerrs n ∧
      (rcvps (n.sendMessage ip netDiameter (.rcvp m)) = rcvps n ∨
        rcvps (n.sendMessage ip netDiameter (.rcvp m)) =
          rcvps n ++ [.unicast ip netDiameter (.rcvp m)]) ∧
      (n.sendMessage ip netDiameter (.rcvp m)).brkList = n.brkList := by
  unfold sendMessage
  split
  · exact ⟨rfl, rfl, .inl rfl, rfl⟩
  split
  · exact ⟨rfl, rfl, .inl rfl, rfl⟩
  · exact ⟨rfl, by simp [rerrs, isRerr], .inr (by simp [rcvps, isRcvp]), rfl⟩

/-- At most one RERR is sent for the entry, and only for one that is expired
next. -/
structure RouteReport (e : AodvRoute) (n n' : Node) : Prop where
  routing : n'.routing = n.routing
  rcvps : rcvps n' = rcvps n
  rerrs : rerrs n' = rerrs n ∨ e.state ≠ .invalid ∧ ∃ s, ReportsRoute e s ∧ rerrs n' = rerrs n ++ [s]

theorem Silent.routeReport {e : AodvRoute} (h : Silent n n') : RouteReport e n n' :=
  ⟨h.routing, h.rcvps, .inl h.rerrs⟩

theorem routeReport_send {e : AodvRoute} {n₁ n₂ : Node} {numHops : UInt8} {lastAvailIp : Ip}
    (hstate : e.state ≠ .invalid) (h₁ : Silent n n₁)
    (h₂ : Silent (n₁.sendMessage e.lastHop netDiameter
      (.rerr ⟨numHops, e.dstIp, e.dstId, lastAvailIp, e.srcIp⟩)) n₂) : RouteReport e n n₂ := by
  obtain ⟨hrouting, hrcvps, hrerrs⟩ := sendMessage_rerr e.lastHop
    ⟨numHops, e.dstIp, e.dstId, lastAvailIp, e.srcIp⟩ n₁
  refine ⟨h₂.routing.trans (hrouting.trans h₁.routing), h₂.rcvps.trans (hrcvps.trans h₁.rcvps), ?_⟩
  rcases hrerrs with hrerrs | hrerrs
  · exact .inl (h₂.rerrs.trans (hrerrs.trans h₁.rerrs))
  · refine .inr ⟨hstate, _, ⟨numHops, lastAvailIp, rfl⟩, ?_⟩
    rw [h₂.rerrs, hrerrs, h₁.rerrs]

theorem genRerrRoute_report {e : AodvRoute} {go : Bool} (h : n.genRerrRoute e = some (go, n')) :
    go = false ∧ Silent n n' ∨ go = true ∧ RouteReport e n n' := by
  unfold genRerrRoute at h
  split at h
  · split at h
    · next hstate =>
      dsimp only at h
      split at h
      · simp only [Option.some.injEq, Prod.mk.injEq] at h
        exact .inl ⟨h.1.symm, h.2 ▸ silent_of_eq rfl rfl⟩
      · obtain ⟨n₁, hrecord, h⟩ := Option.bind_eq_some_iff.mp h
        simp only [Option.some.injEq, Prod.mk.injEq] at h
        obtain ⟨rfl, rfl⟩ := h
        have halloc : Silent n n.alloc.2 := silent_of_eq rfl rfl
        exact .inr ⟨rfl, routeReport_send hstate (halloc.trans silent_send2dtn)
          (silent_recordBrkLink hrecord)⟩
    · simp only [Option.some.injEq, Prod.mk.injEq] at h
      exact .inr ⟨h.1.symm, h.2 ▸ (silent_of_eq rfl rfl).routeReport⟩
  · obtain ⟨n₁, hrecord, h⟩ := Option.bind_eq_some_iff.mp h
    simp only [Option.some.injEq, Prod.mk.injEq] at h
    obtain ⟨rfl, rfl⟩ := h
    exact .inr ⟨rfl, (silent_send2dtn.trans (silent_recordBrkLink hrecord)).routeReport⟩

theorem Expires.touches {e : AodvRoute} {cfg : Config} (h : Expires n e)
    (htouch : Touches cfg n.routing n'.routing) : Expires n' e := by
  obtain ⟨e', he', hptr, hstate⟩ := h.expired
  obtain ⟨e'', he'', ht⟩ := Pointwise.exists_of_mem_left htouch.entries he'
  exact ⟨h.usable, e'', he'', ht.ptr.trans hptr, not_not.mp fun hne ↦ ht.state hne hstate⟩

theorem expires_expireRoute {e : AodvRoute} (hstate : e.state ≠ .invalid)
    (he : e.ptr ∈ n.routing.table.map AodvRoute.ptr) : Expires (n.expireRoute e.ptr) e := by
  obtain ⟨e₁, he₁, hptr⟩ := List.mem_map.mp he
  refine ⟨hstate, _, List.mem_map_of_mem he₁, ?_, ?_⟩
  · simp [hptr]
  · simp [hptr]

/-- The loop over the entries `l` of the table. -/
theorem genRerrLoop_consumes {ip : Ip} {l : List AodvRoute} {k : ℕ} {k' : Option ℕ}
    (hl : ∀ e ∈ l, e.ptr ∈ n.routing.table.map AodvRoute.ptr)
    (h : genRerrLoop ip l k n = some (k', n')) :
    rcvps n' = rcvps n ∧ ∃ (gone : List AodvRoute) (said : List Sent), gone.Sublist l ∧
      (∀ e ∈ gone, Expires n' e) ∧ List.Forall₂ ReportsRoute gone said ∧
        rerrs n' = rerrs n ++ said := by
  induction l generalizing k n with
  | nil =>
    simp only [genRerrLoop, Option.some.injEq, Prod.mk.injEq] at h
    obtain ⟨-, rfl⟩ := h
    exact ⟨rfl, [], [], List.nil_sublist _, List.forall_mem_nil _, .nil, by simp⟩
  | cons e l ih =>
    have hnext : ∀ {n₁ : Node} {k₁ : ℕ}, n₁.routing.table.map AodvRoute.ptr =
        n.routing.table.map AodvRoute.ptr → rcvps n₁ = rcvps n → rerrs n₁ = rerrs n →
        genRerrLoop ip l k₁ n₁ = some (k', n') → rcvps n' = rcvps n ∧
          ∃ (gone : List AodvRoute) (said : List Sent), gone.Sublist (e :: l) ∧
            (∀ e ∈ gone, Expires n' e) ∧ List.Forall₂ ReportsRoute gone said ∧
              rerrs n' = rerrs n ++ said := by
      intro n₁ k₁ hptr hrcvps hrerrs h₁
      obtain ⟨hrcvps', gone, said, hsub, hgone, hsaid, hrerrs'⟩ :=
        ih (fun x hx ↦ hptr ▸ hl x (List.mem_cons_of_mem _ hx)) h₁
      exact ⟨hrcvps'.trans hrcvps, gone, said, hsub.cons _, hgone, hsaid, hrerrs ▸ hrerrs'⟩
    simp only [genRerrLoop] at h
    split at h
    · obtain ⟨⟨go, n₁⟩, hroute, h⟩ := Option.bind_eq_some_iff.mp h
      dsimp only at h
      rcases genRerrRoute_report hroute with ⟨rfl, hsilent⟩ | ⟨rfl, hreport⟩
      · simp only [Bool.not_false, if_true, Option.some.injEq, Prod.mk.injEq] at h
        obtain ⟨-, rfl⟩ := h
        exact ⟨hsilent.rcvps, [], [], List.nil_sublist _, List.forall_mem_nil _, .nil, by simp [hsilent.rerrs]⟩
      · simp only [Bool.not_true, Bool.false_eq_true, if_false] at h
        have hptr : n₁.routing.table.map AodvRoute.ptr = n.routing.table.map AodvRoute.ptr := by
          rw [hreport.routing]
        split at h
        · next hstate =>
          have hexpire : Touches n₁.cfg n₁.routing (n₁.expireRoute e.ptr).routing :=
            touches_expireAodvRoute _ _ _ _
          have hptr' := (Pointwise.map_eq hexpire.entries fun ht ↦ ht.ptr).trans hptr
          rcases hreport.rerrs with hrerrs | ⟨-, s, hs, hrerrs⟩
          · exact hnext hptr' hreport.rcvps hrerrs h
          · obtain ⟨hrcvps', gone, said, hsub, hgone, hsaid, hrerrs'⟩ :=
              ih (fun x hx ↦ hptr' ▸ hl x (List.mem_cons_of_mem _ hx)) h
            have hgo : Expires (n₁.expireRoute e.ptr) e :=
              expires_expireRoute hstate (hptr ▸ hl e List.mem_cons_self)
            refine ⟨hrcvps'.trans hreport.rcvps, e :: gone, s :: said, hsub.cons_cons e, ?_,
              .cons hs hsaid, ?_⟩
            · intro x hx
              rcases List.mem_cons.mp hx with rfl | hx
              · exact hgo.touches ((steady_genRerrLoop h).quiet).routing
              · exact hgone x hx
            · have hrerrs'' : rerrs (n₁.expireRoute e.ptr) = rerrs n ++ [s] := hrerrs
              rw [hrerrs', hrerrs'', List.append_assoc, List.singleton_append]
        · next hstate =>
          rcases hreport.rerrs with hrerrs | ⟨hne, -⟩
          · exact hnext hptr hreport.rcvps hrerrs h
          · exact absurd hne hstate
    · exact hnext rfl rfl rfl h

theorem genRerr_consumes {ip : Ip} (h : n.genRerr ip = some n') :
    ConsumesRoutes n n' ∧ rcvps n' = rcvps n := by
  obtain ⟨⟨k, n₁⟩, hloop, h⟩ := Option.bind_eq_some_iff.mp h
  obtain ⟨hrcvps, gone, said, hsub, hgone, hsaid, hrerrs⟩ :=
    genRerrLoop_consumes (fun _ he ↦ List.mem_map_of_mem he) hloop
  have hload : Touches n₁.cfg n₁.routing n'.routing ∧ n'.sent = n₁.sent := by
    dsimp only at h
    split at h
    · exact Option.some.inj h ▸ ⟨.refl _ _, rfl⟩
    split at h
    · exact Option.some.inj h ▸ ⟨touches_updateMyLoad _ _, rfl⟩
    · exact Option.some.inj h ▸ ⟨.refl _ _, rfl⟩
  refine ⟨⟨gone, said, hsub, fun e he ↦ (hgone e he).touches hload.1, hsaid, ?_⟩, ?_⟩
  · rw [rerrs, hload.2]
    exact hrerrs
  · rw [rcvps, hload.2]
    exact hrcvps

theorem recvRerrRoute_report {m : Rerr} {firstDtn : Bool} {e : AodvRoute}
    (h : n.recvRerrRoute m firstDtn e = some n') : RouteReport e n n' := by
  unfold recvRerrRoute at h
  split at h
  · split at h
    · next hstate => exact routeReport_send hstate (silent_of_eq rfl rfl) (silent_recordBrkLink h)
    · exact Option.some.inj h ▸ Silent.routeReport (silent_of_eq rfl rfl)
  · exact (silent_recordBrkLink h).routeReport

theorem recvRerr_consumes {t : Task} {m : Rerr} (h : n.recvRerr t m = some n') :
    ConsumesRoutes n n' ∧ rcvps n' = rcvps n := by
  unfold recvRerr at h
  dsimp only at h
  generalize hn₁ : (if n.dtnRegister = true then _ else n) = n₁ at h
  have h₁ : Silent n n₁ := hn₁ ▸ silent_send2dtn
  have hnone : ∀ {n₂ : Node}, Silent n n₂ → ConsumesRoutes n n₂ ∧ rcvps n₂ = rcvps n :=
    fun h₂ ↦ ⟨⟨[], [], List.nil_sublist _, List.forall_mem_nil _, .nil, by simp [h₂.rerrs]⟩, h₂.rcvps⟩
  split at h
  · exact Option.some.inj h ▸ hnone h₁
  next e he =>
  split at h
  · exact Option.some.inj h ▸ hnone h₁
  have hmem : e ∈ n.routing.table := h₁.routing ▸ (findAodvRouteById_some he).1
  obtain ⟨n₂, hroute, h⟩ := Option.bind_eq_some_iff.mp h
  have hreport := recvRerrRoute_report hroute
  split at h
  · next hstate =>
    have hload : Touches n₂.cfg (n₂.expireRoute e.ptr).routing n'.routing ∧ n'.sent = n₂.sent := by
      rw [← Option.some.inj h]
      split
      · exact ⟨touches_updateMyLoad _ _, rfl⟩
      · exact ⟨.refl _ _, rfl⟩
    have hrerrs : rerrs n' = rerrs n₂ := by rw [rerrs, hload.2, rerrs]
    have hrcvps : rcvps n' = rcvps n := by
      rw [← h₁.rcvps, ← hreport.rcvps, rcvps, hload.2, rcvps]
    rcases hreport.rerrs with hsaid | ⟨-, s, hs, hsaid⟩
    · exact ⟨⟨[], [], List.nil_sublist _, List.forall_mem_nil _, .nil, by rw [hrerrs, hsaid, h₁.rerrs]; simp⟩, hrcvps⟩
    · refine ⟨⟨[e], [s], List.singleton_sublist.mpr hmem, ?_, .cons hs .nil, ?_⟩, hrcvps⟩
      · intro x hx
        obtain rfl := List.mem_singleton.mp hx
        refine Expires.touches (expires_expireRoute hstate ?_) hload.1
        rw [hreport.routing, h₁.routing]
        exact List.mem_map_of_mem hmem
      · rw [hrerrs, hsaid, h₁.rerrs]
  · next hstate =>
    obtain rfl := Option.some.inj h
    rcases hreport.rerrs with hsaid | ⟨hne, -⟩
    · exact hnone ⟨hsaid.trans h₁.rerrs, hreport.rcvps.trans h₁.rcvps,
        hreport.routing.trans h₁.routing⟩
    · exact absurd hne hstate

section Faults

variable {ip : Ip} {e : AodvRoute} {before l : List AodvRoute} {n₁ : Node}

theorem recordBrkLink_isSome {srcIp dstIp lastHop lastAvail : Ip} :
    (∃ n', n.recordBrkLink srcIp dstIp lastHop lastAvail = some n') ↔
      ComesThrough n.now (recordedLinks srcIp dstIp lastHop lastAvail n) := by
  rw [recordBrkLink_eq, ← comesThrough_iff]
  cases flushBrkLinks n.now (recordedLinks srcIp dstIp lastHop lastAvail n) with
  | none => simp
  | some links => simp

/-- With memory for it the RERR about a usable transit route goes out first. -/
theorem genRerrRoute_transit (hreply : n.replyToRrer e.srcIp = false) (hstate : e.state ≠ .invalid)
    (hmem : n.kmalloc.next = true) : n.genRerrRoute e =
      ((rerrSent e n).recordBrkLink e.srcIp e.dstIp e.lastHop n.lastAvail).map (true, ·) := by
  obtain ⟨n₀, halloc, hn₀⟩ :
      ∃ n₀, n.alloc = (true, n₀) ∧ n₀ = { n with kmalloc := n.kmalloc.rest } :=
    ⟨_, Prod.ext hmem rfl, rfl⟩
  rw [genRerrRoute, if_pos (by simp [hreply]), if_pos hstate, halloc, rerrSent, halloc]
  simp only [Bool.not_true, Bool.false_eq_true, if_false, notify_eq, sendMessage_eq, Option.map_eq_bind]
  subst hn₀
  rfl

theorem genRerrLoop_append {k k₁ : ℕ} (h : genRerrLoop ip before k n = some (some k₁, n₁)) :
    genRerrLoop ip (before ++ l) k n = genRerrLoop ip l k₁ n₁ := by
  induction before generalizing k n with
  | nil =>
    simp only [genRerrLoop, Option.some.injEq, Prod.mk.injEq] at h
    obtain ⟨rfl, rfl⟩ := h
    rfl
  | cons e before ih =>
    rw [genRerrLoop] at h
    rw [List.cons_append, genRerrLoop]
    split
    · next hthrough =>
      rw [if_pos hthrough] at h
      obtain ⟨⟨go, n₂⟩, hroute, h⟩ := Option.bind_eq_some_iff.mp h
      rw [hroute, Option.bind_eq_bind, Option.bind_some]
      cases go with
      | false => simp at h
      | true =>
        simp only [Bool.not_true, Bool.false_eq_true, if_false] at h ⊢
        split
        · next hstate =>
          rw [if_pos hstate] at h
          exact ih h
        · next hstate =>
          rw [if_neg hstate] at h
          exact ih h
    · next hthrough =>
      rw [if_neg hthrough] at h
      exact ih h

/-- The entry that an RERR is about expires in the same call exactly if the flush
between the two comes through. -/
theorem ComesTo.expires_iff (h : ComesTo ip n before e n₁) :
    (∃ k n', genRerrLoop ip (before ++ [e]) 0 n = some (k, n') ∧ Expires n' e) ↔
      ComesThrough n₁.now (recordedLinks e.srcIp e.dstIp e.lastHop n₁.lastAvail n₁.alloc.2) := by
  obtain ⟨k, hloop⟩ := h.loop
  have hrecord : (∃ n', (rerrSent e n₁).recordBrkLink e.srcIp e.dstIp e.lastHop n₁.lastAvail = some n') ↔
      ComesThrough n₁.now (recordedLinks e.srcIp e.dstIp e.lastHop n₁.lastAvail n₁.alloc.2) := recordBrkLink_isSome
  rw [← hrecord, genRerrLoop_append hloop, genRerrLoop, if_pos h.through,
    genRerrRoute_transit h.transit h.usable h.memory]
  constructor
  · rintro ⟨k', n', hturn, -⟩
    obtain ⟨⟨go, n₂⟩, hroute, -⟩ := Option.bind_eq_some_iff.mp hturn
    obtain ⟨n₂, hrecorded, -⟩ := Option.map_eq_some_iff.mp hroute
    exact ⟨n₂, hrecorded⟩
  · rintro ⟨n₂, hrecorded⟩
    have htable : e.ptr ∈ n₂.routing.table.map AodvRoute.ptr := by
      have hentries := ((steady_genRerrLoop hloop).quiet).routing.entries
      rw [(silent_recordBrkLink hrecorded).routing]
      change e.ptr ∈ n₁.routing.table.map AodvRoute.ptr
      rw [Pointwise.map_eq hentries fun ht ↦ ht.ptr]
      exact List.mem_map_of_mem (h.listed.subset (by simp))
    refine ⟨some (k + 1), n₂.expireRoute e.ptr, ?_, expires_expireRoute h.usable htable⟩
    rw [hrecorded]
    simp [h.usable, genRerrLoop]

theorem recvRerrRoute_transit (m : Rerr) (firstDtn : Bool) (hreply : n.replyToRrer e.srcIp = false)
    (hstate : e.state ≠ .invalid) : ∃ sent, n.recvRerrRoute m firstDtn e =
      recordBrkLink e.srcIp e.dstIp e.lastHop (if firstDtn then n.cfg.gMeshIp else m.lastAvailIp)
        { n with sent := sent } := by
  rw [recvRerrRoute, if_pos (by simp [hreply]), if_pos hstate]
  simp only [sendMessage_eq]
  exact ⟨_, rfl⟩

/-- The RERR goes on before the break is recorded. -/
theorem Forwards.recvRerr_eq {t : Task} {m : Rerr} (h : Forwards t m n e) : ∃ sent, n.recvRerr t m =
    (recordBrkLink e.srcIp e.dstIp e.lastHop (saidAvail m n) { n with sent := sent }).map fun n₁ ↦
      if n₁.cfg.gRoutingMetric = .wcim then
        { n₁.expireRoute e.ptr with routing := (n₁.expireRoute e.ptr).routing.updateMyLoad }
      else n₁.expireRoute e.ptr := by
  unfold recvRerr
  dsimp only
  rw [notify_eq]
  generalize n.sent ++ notified dtnPort m.srcIp m.dstIp _ rerrMessage n = said
  have htransit : replyToRrer e.srcIp { n with sent := said } = false := h.transit
  obtain ⟨sent, hroute⟩ := recvRerrRoute_transit m (n.dtnRegister && m.lastAvailIp == 0) htransit h.usable
  refine ⟨sent, ?_⟩
  simp only [h.found, hroute]
  rw [if_neg (not_not.mpr h.hop), Option.map_eq_bind]
  simp only [h.usable, ne_eq, not_false_eq_true, if_true]
  rfl

theorem Forwards.expires_iff {t : Task} {m : Rerr} (h : Forwards t m n e) :
    (∃ n', n.recvRerr t m = some n' ∧ Expires n' e) ↔
      ComesThrough n.now (recordedLinks e.srcIp e.dstIp e.lastHop (saidAvail m n) n) := by
  have hmem : e.ptr ∈ n.routing.table.map AodvRoute.ptr := List.mem_map_of_mem (findAodvRouteById_some h.found).1
  obtain ⟨sent, hroute⟩ := h.recvRerr_eq
  have hrecord : (∃ n', recordBrkLink e.srcIp e.dstIp e.lastHop (saidAvail m n) { n with sent := sent } = some n') ↔
      ComesThrough n.now (recordedLinks e.srcIp e.dstIp e.lastHop (saidAvail m n) n) := recordBrkLink_isSome
  rw [← hrecord, hroute]
  constructor
  · rintro ⟨n', hturn, -⟩
    obtain ⟨n₁, hrecorded, -⟩ := Option.map_eq_some_iff.mp hturn
    exact ⟨n₁, hrecorded⟩
  · rintro ⟨n₁, hrecorded⟩
    have hrouting : n₁.routing = n.routing := (silent_recordBrkLink hrecorded).routing
    have hexpires : Expires (n₁.expireRoute e.ptr) e := expires_expireRoute h.usable (hrouting ▸ hmem)
    refine ⟨_, Option.map_eq_some_iff.mpr ⟨n₁, hrecorded, rfl⟩, ?_⟩
    split
    · have hload : Touches n.cfg (n₁.expireRoute e.ptr).routing _ := touches_updateMyLoad n.cfg _
      exact hexpires.touches hload
    · exact hexpires

end Faults

theorem ConsumesLinks.refl (hrcvps : rcvps n' = rcvps n) (hbrk : n'.brkList = n.brkList) :
    ConsumesLinks n n' := ⟨[], [], [], by simp [hbrk], .nil, by simp [hrcvps]⟩

theorem ConsumesLinks.head {n₁ : Node} {x : BrkLink} (h : ConsumesLinks n₁ n')
    (hbrk : (x :: n₁.brkList).Perm n.brkList)
    (hrcvps : rcvps n₁ = rcvps n ∨ ∃ s, ReportsLink x s ∧ rcvps n₁ = rcvps n ++ [s]) :
    ConsumesLinks n n' := by
  obtain ⟨gone, silent, said, hperm, hsaid, hrcvps'⟩ := h
  have hgone : (x :: (gone ++ silent ++ n'.brkList)).Perm n.brkList := (hperm.cons x).trans hbrk
  rcases hrcvps with hrcvps | ⟨s, hs, hrcvps⟩
  · refine ⟨gone, x :: silent, said, ?_, hsaid, hrcvps ▸ hrcvps'⟩
    refine List.Perm.trans ?_ hgone
    simp only [List.append_assoc, List.cons_append]
    exact List.perm_middle
  · refine ⟨x :: gone, silent, s :: said, hgone, .cons hs hsaid, ?_⟩
    rw [hrcvps', hrcvps, List.append_assoc, List.singleton_append]

/-- What `gen_rcvp` says about a link is no RERR, and at most one RCVP. -/
theorem rcvpPosts_reports (n : Node) (x : BrkLink) : (rcvpPosts n x).filter isRerr = [] ∧
    ((rcvpPosts n x).filter isRcvp = [] ∨ ∃ s, ReportsLink x s ∧ (rcvpPosts n x).filter isRcvp = [s]) := by
  have hnote : ∀ p : Sent → Bool, (∀ port a b c d, p (.toDtn port a b c d) = false) →
      (notified dtnPort x.srcIp x.dstIp x.lastAvailIp rcvpMessage n).filter p = [] := by
    intro p hp
    unfold notified
    split
    · exact List.filter_cons_of_neg (by simp [hp])
    · rfl
  unfold rcvpPosts posted
  rw [List.filter_append, List.filter_append, hnote isRerr fun _ _ _ _ _ ↦ rfl,
    hnote isRcvp fun _ _ _ _ _ ↦ rfl]
  split
  · exact ⟨rfl, .inl rfl⟩
  split
  · exact ⟨rfl, .inl rfl⟩
  · exact ⟨rfl, .inr ⟨_, ⟨0, rfl⟩, rfl⟩⟩

/-- The loop over the links `l` to one destination, which none of the links
before them has. -/
theorem genRcvpLoop_consumes {dstIp : Ip} {before l : List BrkLink} (n : Node)
    (hbrk : n.brkList = before ++ l) (hbefore : ∀ x ∈ before, x.dstIp ≠ dstIp) :
    ConsumesLinks n (genRcvpLoop dstIp l n) ∧ rerrs (genRcvpLoop dstIp l n) = rerrs n ∧
      (genRcvpLoop dstIp l n).routing = n.routing := by
  induction l generalizing n with
  | nil => exact ⟨.refl rfl rfl, rfl, rfl⟩
  | cons x l ih =>
    by_cases hdst : x.dstIp = dstIp
    swap
    · rw [genRcvpLoop, if_pos hdst]
      exact ⟨.refl rfl rfl, rfl, rfl⟩
    by_cases hmem : x.srcIp = n.cfg.gMeshIp ∨ n.kmalloc.next = true
    swap
    · obtain ⟨hsrc, hnone⟩ := not_or.mp hmem
      have hstop : genRcvpLoop dstIp (x :: l) n = n.alloc.2 := by
        rw [genRcvpLoop, if_neg (not_not.mpr hdst), if_pos hsrc]
        simp only [Node.alloc, eq_false_of_ne_true hnone, Bool.not_false, if_true]
      rw [hstop]
      exact ⟨.refl rfl rfl, rfl, rfl⟩
    have herase : n.brkList.eraseP (fun y ↦ y.dstIp == dstIp) = before ++ l := by
      subst hdst
      rw [hbrk]
      exact erase_head hbefore
    obtain ⟨hrerr, hrcvp⟩ := rcvpPosts_reports n x
    rw [genRcvpLoop_cons hdst hmem, herase]
    obtain ⟨hgone, hrerrs, hrouting⟩ := ih { n with
      brkList := before ++ l
      sent := n.sent ++ rcvpPosts n x
      kmalloc := if x.srcIp = n.cfg.gMeshIp then n.kmalloc else n.kmalloc.rest } rfl
    refine ⟨hgone.head (x := x) (hbrk ▸ List.perm_middle.symm) ?_, hrerrs.trans ?_, hrouting⟩
    · unfold rcvps
      rw [List.filter_append]
      rcases hrcvp with hnone | ⟨s, hs, hone⟩
      · exact .inl (by rw [hnone, List.append_nil])
      · exact .inr ⟨s, hs, by rw [hone]⟩
    · unfold rerrs
      rw [List.filter_append, hrerr, List.append_nil]

theorem genRcvp_consumes (dstIp : Ip) (n : Node) :
    ConsumesLinks n (n.genRcvp dstIp) ∧ rerrs (n.genRcvp dstIp) = rerrs n ∧
      (n.genRcvp dstIp).routing = n.routing := by
  refine genRcvpLoop_consumes n List.takeWhile_append_dropWhile.symm fun x hx heq ↦ ?_
  have hlt := List.mem_takeWhile_imp hx
  simp [heq] at hlt

theorem recvRcvp_consumes (m : Rcvp) (n : Node) :
    ConsumesLinks n (n.recvRcvp m) ∧ rerrs (n.recvRcvp m) = rerrs n ∧
      (n.recvRcvp m).routing = n.routing := by
  unfold recvRcvp
  dsimp only
  generalize hn₁ : (if n.dtnRegister = true then _ else n) = n₁
  have h₁ : Silent n n₁ ∧ n₁.brkList = n.brkList := by
    rw [← hn₁]
    split
    · exact ⟨silent_send rfl rfl, rfl⟩
    · exact ⟨silent_of_eq rfl rfl, rfl⟩
  obtain ⟨h₁, hbrk₁⟩ := h₁
  split
  · exact ⟨.refl h₁.rcvps hbrk₁, h₁.rerrs, h₁.routing⟩
  next x hx =>
  obtain ⟨-, hdst, hsrc⟩ := OrderedList.findRun_mem hx
  have hfind : n₁.brkList.find? (isBrkLink m.srcIp m.dstIp) = some x :=
    OrderedList.find?_of_findRun (fun _ hlt ↦ beq_eq_false_iff_ne.mpr (UInt32.ne_of_lt (of_decide_eq_true hlt))) hx
  have hperm : (x :: n₁.brkList.eraseP (isBrkLink m.srcIp m.dstIp)).Perm n.brkList :=
    hbrk₁ ▸ OrderedList.perm_cons_eraseP hfind
  split
  · exact ⟨ConsumesLinks.head (.refl rfl rfl) hperm (.inl h₁.rcvps), h₁.rerrs, h₁.routing⟩
  split
  · exact ⟨.refl h₁.rcvps hbrk₁, h₁.rerrs, h₁.routing⟩
  · obtain ⟨hrouting, hrerrs, hrcvps, hbrk₂⟩ := sendMessage_rcvp x.lastHop
      ⟨m.numHops + 1, m.dstIp, m.srcIp, x.lastAvailIp⟩ n₁.alloc.2
    refine ⟨ConsumesLinks.head (.refl rfl rfl) (x := x) ?_ ?_, hrerrs.trans h₁.rerrs,
      hrouting.trans h₁.routing⟩
    · refine List.Perm.trans (.of_eq ?_) hperm
      exact congrArg (fun l : List BrkLink ↦ x :: l.eraseP (isBrkLink m.srcIp m.dstIp)) hbrk₂
    · rcases hrcvps with hrcvps | hrcvps
      · exact .inl (hrcvps.trans h₁.rcvps)
      · refine .inr ⟨_, ⟨m.numHops + 1, ?_⟩, hrcvps.trans (congrArg (· ++ _) h₁.rcvps)⟩
        rw [beq_iff_eq.mp hdst, beq_iff_eq.mp hsrc]

end Calls

section Steps

variable {n n' : Node}

theorem usable_sublist {cfg : Config} {l l' : List AodvRoute} (h : List.Forall₂ (EntryTouch cfg) l l') :
    ((l'.filter fun e ↦ e.state ≠ .invalid).map AodvRoute.ptr).Sublist
      ((l.filter fun e ↦ e.state ≠ .invalid).map AodvRoute.ptr) := by
  induction h with
  | nil => exact .slnil
  | @cons e e' l l' htouch _ ih =>
    by_cases hstate' : e'.state = .invalid
    · by_cases hstate : e.state = .invalid
      · simpa [hstate, hstate'] using ih
      · simpa [hstate, hstate'] using ih.cons e.ptr
    · have hstate := htouch.state hstate'
      simpa [hstate, hstate', htouch.ptr] using ih

theorem ConsumesRoutes.spends {cfg : Config} (hr : Addressed n.routing)
    (htouch : Touches cfg n.routing n'.routing) (h : ConsumesRoutes n n') :
    Spends usable (fun n ↦ (rerrs n).length) n n' := by
  obtain ⟨gone, said, hsub, hgone, hsaid, hrerrs⟩ := h
  have hdistinct' := (hr.touches htouch).distinct
  have hkept := usable_sublist htouch.entries
  have hdisjoint : (gone.map AodvRoute.ptr).Disjoint
      ((n'.routing.table.filter fun e ↦ e.state ≠ .invalid).map AodvRoute.ptr) := by
    intro ptr h₁ h₂
    obtain ⟨e, he, rfl⟩ := List.mem_map.mp h₁
    obtain ⟨e₂, he₂, hptr₂⟩ := List.mem_map.mp h₂
    obtain ⟨e₁, he₁, hptr₁, hstate₁⟩ := (hgone e he).expired
    obtain ⟨he₂, hstate₂⟩ := List.mem_filter.mp he₂
    have heq := List.inj_on_of_nodup_map hdistinct' he₁ he₂ (hptr₁.trans hptr₂.symm)
    simp [← heq, hstate₁] at hstate₂
  have hsubset : gone.map AodvRoute.ptr ++
      (n'.routing.table.filter fun e ↦ e.state ≠ .invalid).map AodvRoute.ptr ⊆
        (n.routing.table.filter fun e ↦ e.state ≠ .invalid).map AodvRoute.ptr := by
    refine List.append_subset.mpr ⟨fun ptr hptr ↦ ?_, hkept.subset⟩
    obtain ⟨e, he, rfl⟩ := List.mem_map.mp hptr
    refine List.mem_map_of_mem (List.mem_filter.mpr ⟨hsub.subset he, ?_⟩)
    simpa using (hgone e he).usable
  have hnodup := List.Nodup.append (hr.distinct.sublist (hsub.map _))
    (hdistinct'.sublist (List.filter_sublist.map _)) hdisjoint
  have hlength := (List.subperm_of_subset hnodup hsubset).length_le
  have hreports := hsaid.length_eq
  simp only [List.length_append, List.length_map] at hlength
  simp only [Spends, usable, Multiset.coe_card, List.length_map, hrerrs, List.length_append]
  omega

theorem ConsumesLinks.spends (h : ConsumesLinks n n') :
    Spends links (fun n ↦ (rcvps n).length) n n' := by
  obtain ⟨gone, silent, said, hperm, hsaid, hrcvps⟩ := h
  have hlength := hperm.length_eq
  have hreports := hsaid.length_eq
  simp only [List.length_append] at hlength
  simp only [Spends, links, Multiset.coe_card, List.length_map, hrcvps, List.length_append]
  omega

/-- Nothing is reported and no link is recorded. -/
structure Unreported (n n' : Node) : Prop where
  rerrs : rerrs n' = rerrs n
  rcvps : rcvps n' = rcvps n
  brkList : n'.brkList = n.brkList
  addressed : Addressed n.routing → Addressed n'.routing

theorem Unreported.refl (n : Node) : Unreported n n := ⟨rfl, rfl, rfl, id⟩

theorem Unreported.trans {n'' : Node} (h : Unreported n n') (h' : Unreported n' n'') :
    Unreported n n'' :=
  ⟨h'.rerrs.trans h.rerrs, h'.rcvps.trans h.rcvps, h'.brkList.trans h.brkList,
    h'.addressed ∘ h.addressed⟩

theorem unreported_of_eq (hsent : n'.sent = n.sent) (hbrk : n'.brkList = n.brkList)
    (h : Addressed n.routing → Addressed n'.routing) : Unreported n n' :=
  ⟨by rw [rerrs, hsent, rerrs], by rw [rcvps, hsent, rcvps], hbrk, h⟩

theorem unreported_send {s : Sent} (hrerr : isRerr s = false) (hrcvp : isRcvp s = false) :
    Unreported n { n with sent := n.sent ++ [s] } :=
  ⟨by simp [rerrs, hrerr], by simp [rcvps, hrcvp], rfl, id⟩

theorem unreported_sideOp (h : SideOp n n') : Unreported n n' := by
  cases h with
  | still h => exact unreported_of_eq h.sent h.brkList fun hr ↦ h.routing ▸ hr
  | insertTimer | answerTimer | removeTimer | updateTimers => exact unreported_of_eq rfl rfl id
  | send s hs =>
    have hs : isRerr s = false ∧ isRcvp s = false := by
      cases s with
      | broadcast ttl m | unicast ip ttl m =>
        cases m
        all_goals first | exact ⟨rfl, rfl⟩ | exact hs.elim
      | toDtn => exact ⟨rfl, rfl⟩
    exact unreported_send hs.1 hs.2

theorem unreported_sideOps (h : SideOps n n') : Unreported n n' ∧ n'.routing = n.routing := by
  induction h with
  | refl => exact ⟨.refl _, rfl⟩
  | tail _ h ih =>
    refine ⟨ih.1.trans (unreported_sideOp h), Eq.trans ?_ ih.2⟩
    cases h with
    | still h => exact h.routing
    | _ => rfl

theorem unreported_flooded {srcIp dstIp : Ip} {tos retries : UInt8} {m : Rreq}
    (h : Flooded n srcIp dstIp tos retries m n') : Unreported n n' where
  rerrs := by simp [rerrs, h.sent, isRerr]
  rcvps := by simp [rcvps, h.sent, isRcvp]
  brkList := h.brkList
  addressed := fun hr ↦ by
    rw [h.routing]
    exact hr.modifyAt n.routing.localRoute fun _ ↦ rfl

theorem unreported_op {n₀ : Node} {t : Task} (h : Op n₀ t n n') : Unreported n n' := by
  cases h with
  | side h => exact unreported_sideOp h
  | routing r h => exact unreported_of_eq rfl rfl h
  | sendPackets => exact unreported_of_eq rfl rfl id
  | forward => exact unreported_send rfl rfl
  | flood _ h =>
    rcases genRreq_cases h with ⟨-, rfl⟩ | ⟨m, h⟩
    · exact unreported_of_eq rfl rfl id
    · exact unreported_flooded h
  | resend _ h =>
    rcases resendRreq_cases h with ⟨-, rfl⟩ | ⟨-, ⟨-, rfl⟩ | ⟨m, h⟩⟩
    · exact unreported_of_eq rfl rfl id
    · exact unreported_of_eq rfl rfl id
    · exact unreported_flooded h

theorem unreported_ops {n₀ : Node} {t : Task} (h : Ops n₀ t n n') : Unreported n n' := by
  induction h with
  | refl => exact .refl _
  | tail _ h ih => exact ih.trans (unreported_op h)

theorem unreported_hookOps {n₀ : Node} {e : Event} (h : HookOps n₀ e n n') : Unreported n n' := by
  have hsignal : ∀ n₁ : Node, Unreported n₁ n₁.signal := by
    intro n₁
    obtain ⟨tasks, heq, -⟩ := signal_eq n₁
    rw [heq]
    exact unreported_of_eq rfl rfl id
  induction h with
  | refl => exact .refl _
  | tail _ h ih =>
    refine ih.trans ?_
    cases h with
    | side h => exact unreported_sideOp h
    | routing r h => exact unreported_of_eq rfl rfl h
    | arrival | miss | enqueue => exact unreported_of_eq rfl rfl id
    | signal => exact hsignal _

/-- What a step of a node means for its reports. -/
structure Accounted (n n' : Node) : Prop where
  addressed : Addressed n'.routing
  rerrs : Funded usable (fun n ↦ (rerrs n).length) n n'
  rcvps : Funded links (fun n ↦ (rcvps n).length) n n'

theorem Unreported.accounted (hr : Addressed n.routing) (h : Unreported n n') : Accounted n n' :=
  ⟨h.addressed hr, .of_unused (congrArg List.length h.rerrs),
    .of_unused (congrArg List.length h.rcvps)⟩

theorem handling_accounted {t : Task} (hr : Addressed n.routing) (h : Handling n t n') :
    Accounted n n' := by
  have hrerr : ∀ {n₁ n₂ : Node}, Unreported n n₁ → n₁.routing = n.routing →
      ConsumesRoutes n₁ n₂ ∧ rcvps n₂ = rcvps n₁ → Quiet isPlain n₁ n₂ → SideOps n₂ n' →
      Accounted n n' := by
    intro n₁ n₂ h₁ hrouting₁ ⟨hconsume, hrcvps⟩ hquiet h₂
    obtain ⟨hend, hrouting₂⟩ := unreported_sideOps h₂
    have hr₁ := h₁.addressed hr
    have hspend := hconsume.spends hr₁ hquiet.routing
    refine ⟨hend.addressed (hr₁.touches hquiet.routing), Spends.funded ?_, .of_unused ?_⟩
    · refine Spends.trans ?_ (hspend.trans ?_)
      · exact .of_eq (congrArg List.length h₁.rerrs) (by rw [usable, hrouting₁, usable])
      · exact .of_eq (congrArg List.length hend.rerrs) (by rw [usable, hrouting₂, usable])
    · exact congrArg List.length (hend.rcvps.trans (hrcvps.trans h₁.rcvps))
  have hrcvp : ∀ {n₁ n₂ : Node}, Unreported n n₁ → ConsumesLinks n₁ n₂ ∧ rerrs n₂ = rerrs n₁ ∧
      n₂.routing = n₁.routing → Unreported n₂ n' → Accounted n n' := by
    intro n₁ n₂ h₁ ⟨hconsume, hrerrs, hrouting⟩ h₂
    refine ⟨h₂.addressed (hrouting ▸ h₁.addressed hr), .of_unused ?_, Spends.funded ?_⟩
    · exact congrArg List.length (h₂.rerrs.trans (hrerrs.trans h₁.rerrs))
    · refine Spends.trans ?_ (hconsume.spends.trans ?_)
      · exact .of_eq (congrArg List.length h₁.rcvps) (by rw [links, h₁.brkList, links])
      · exact .of_eq (congrArg List.length h₂.rcvps) (by rw [links, h₂.brkList, links])
  cases h with
  | plain h => exact (unreported_ops h).accounted hr
  | genRerr h₁ h h₂ =>
    obtain ⟨hstart, hrouting⟩ := unreported_sideOps h₁
    exact hrerr hstart hrouting (genRerr_consumes h) (steady_genRerr h).quiet h₂
  | recvRerr h => exact hrerr (.refl n) rfl (recvRerr_consumes h) (steady_recvRerr h).quiet .refl
  | genRcvp h₁ h₂ => exact hrcvp (unreported_ops h₁) (genRcvp_consumes _ _) (unreported_ops h₂)
  | @recvRcvp m h => exact hrcvp (.refl n) (recvRcvp_consumes m n) (h ▸ .refl _)

theorem step_accounted {e : Event} (hr : Addressed n.routing) (h : n.step e = some n') :
    Accounted n n' := by
  rcases step_ops h with hhook | ⟨t, tasks, -, -, hhandle⟩
  · exact (unreported_hookOps hhook).accounted hr
  · obtain ⟨haddressed, hrerrs, hrcvps⟩ :=
      handling_accounted (n := { n with tasks := tasks }) hr hhandle
    exact ⟨haddressed, hrerrs, hrcvps⟩

end Steps

section Network

open scoped BigOperators

variable {run : ℕ → Network} {k : ℕ}

theorem run_accounted (hr : ∀ a, Addressed (run 0 a).routing)
    (h : ∀ i < k, (run i).Step (run (i + 1))) (a : Ip) :
    Addressed (run k a).routing ∧ ∀ i < k, Accounted (run i a) (run (i + 1) a) := by
  have hstep : ∀ {net net' : Network}, Addressed (net a).routing → net.Step net' →
      Accounted (net a) (net' a) := by
    intro net net' hr hs
    cases hs with
    | node b e n _ _ hs =>
      by_cases hab : a = b
      · subst hab
        rw [Function.update_self]
        exact step_accounted hr hs
      · rw [Function.update_of_ne hab]
        exact (Unreported.refl (net a)).accounted hr
  induction k with
  | zero => exact ⟨hr a, nofun⟩
  | succ k ih =>
    obtain ⟨hk, hbefore⟩ := ih fun i hi ↦ h i (Nat.lt_succ_of_lt hi)
    have hlast := hstep hk (h k (Nat.lt_succ_self k))
    refine ⟨hlast.addressed, fun i hi ↦ ?_⟩
    rcases Nat.lt_succ_iff_lt_or_eq.mp hi with hi | rfl
    · exact hbefore i hi
    · exact hlast

/-- In each call that returns each RERR goes with an entry that the call expires,
each RCVP with a link that it removes, and so a run of the network sends no more of
them than entries and links were there or came. Whether the call returns or not, the
entry that an RERR is about expires in it exactly if `flush_brk_list` comes through
the list in which the break was recorded. -/
theorem reports_consumed {run : ℕ → Network} {k : ℕ} (hr : ∀ a, Addressed (run 0 a).routing)
    (h : ∀ i < k, (run i).Step (run (i + 1))) :
    (∀ (n n' : Node) (ip : Ip), n.genRerr ip = some n' → ConsumesRoutes n n') ∧
    (∀ (n n' : Node) (t : Task) (m : Rerr), n.recvRerr t m = some n' → ConsumesRoutes n n') ∧
    (∀ (ip : Ip) (n : Node) (before : List AodvRoute) (e : AodvRoute) (n₁ : Node), ComesTo ip n before e n₁ →
      ((∃ k n', genRerrLoop ip (before ++ [e]) 0 n = some (k, n') ∧ Expires n' e) ↔
        ComesThrough n₁.now (recordedLinks e.srcIp e.dstIp e.lastHop n₁.lastAvail n₁.alloc.2))) ∧
    (∀ (t : Task) (m : Rerr) (n : Node) (e : AodvRoute), Forwards t m n e →
      ((∃ n', n.recvRerr t m = some n' ∧ Expires n' e) ↔
        ComesThrough n.now (recordedLinks e.srcIp e.dstIp e.lastHop (saidAvail m n) n))) ∧
    (∀ (n : Node) (ip : Ip), ConsumesLinks n (n.genRcvp ip)) ∧
    (∀ (n : Node) (m : Rcvp), ConsumesLinks n (n.recvRcvp m)) ∧
    ∀ A : Finset Ip,
      ∑ a ∈ A, (rerrs (run k a)).length ≤
          ∑ a ∈ A, ((rerrs (run 0 a)).length + (usable (run 0 a)).card +
            ∑ i ∈ Finset.range k, gained usable (run i a) (run (i + 1) a)) ∧
        ∑ a ∈ A, (rcvps (run k a)).length ≤
          ∑ a ∈ A, ((rcvps (run 0 a)).length + (links (run 0 a)).card +
            ∑ i ∈ Finset.range k, gained links (run i a) (run (i + 1) a)) := by
  refine ⟨fun _ _ _ h ↦ (genRerr_consumes h).1, fun _ _ _ _ h ↦ (recvRerr_consumes h).1,
    fun _ _ _ _ _ h ↦ h.expires_iff, fun _ _ _ _ h ↦ h.expires_iff, fun n ip ↦ (genRcvp_consumes ip n).1,
    fun n m ↦ (recvRcvp_consumes m n).1, ?_⟩
  intro A
  constructor
  · refine Finset.sum_le_sum fun a _ ↦ ?_
    have hused := used_le fun i hi ↦ ((run_accounted hr h a).2 i hi).rerrs
    exact le_trans (Nat.le_add_right _ _) hused
  · refine Finset.sum_le_sum fun a _ ↦ ?_
    have hused := used_le fun i hi ↦ ((run_accounted hr h a).2 i hi).rcvps
    exact le_trans (Nat.le_add_right _ _) hused

/-- The route that the station relays. -/
def relayEntry : AodvRoute :=
  { localEntry metStation.cfg with
    ptr := 8
    srcIp := 0x0801a8c0
    dstIp := 0x0901a8c0
    nextHop := 0x0201a8c0
    lastHop := 0x0301a8c0
    selfRoute := false }

/-- A station between 192.168.1.2 and 192.168.1.3 that has lost the former. -/
def relayStation : Node :=
  queueTask { createTask .neighbor 0 with srcIp := 0x0201a8c0, dstIp := 0x0201a8c0 }
    { metStation with
      aodvNeighList := [newAodvNeigh metStation.cfg 0x0201a8c0, newAodvNeigh metStation.cfg 0x0301a8c0]
      routing := { metStation.routing with heap := 9, table := [relayEntry] } }

/-- The network of such a station, before and after the task. -/
def relayRun (i : ℕ) : Network :=
  Function.update (fun _ ↦ station) 0x0101a8c0
    (if i = 0 then relayStation else (relayStation.threadStep).getD station)

theorem reports_consumed_relayed :
    (rerrs (relayRun 1 0x0101a8c0)).length = 1 ∧
      (∃ k n', genRerrLoop 0x0201a8c0 [relayEntry] 0 relayStation = some (k, n') ∧ Expires n' relayEntry) ∧
      ∑ a ∈ {0x0101a8c0}, (rerrs (relayRun 1 a)).length ≤
        ∑ a ∈ {0x0101a8c0}, ((rerrs (relayRun 0 a)).length + (usable (relayRun 0 a)).card +
          ∑ i ∈ Finset.range 1, gained usable (relayRun i a) (relayRun (i + 1) a)) := by
  have haddressed : ∀ a, Addressed (relayRun 0 a).routing := by
    intro a
    by_cases ha : a = 0x0101a8c0
    · subst ha
      exact ⟨by decide +kernel, by decide +kernel⟩
    · rw [relayRun, Function.update_of_ne ha]
      exact ⟨by decide +kernel, by decide +kernel⟩
  have hdone : relayStation.threadStep ≠ none := by
    rw [← Option.isSome_iff_ne_none]
    decide +kernel
  have hstep : (relayRun 0 0x0101a8c0).step .thread = some ((relayStation.threadStep).getD station) := by
    rw [relayRun, Function.update_self, if_pos rfl, Option.getD_of_ne_none hdone]
    rfl
  have hnet : ∀ i < 1, (relayRun i).Step (relayRun (i + 1)) := by
    intro i hi
    obtain rfl := Nat.lt_one_iff.mp hi
    have hnode : Network.Step (relayRun 0) _ := .node 0x0101a8c0 .thread _ (by decide) nofun hstep
    rwa [relayRun, Function.update_idem] at hnode
  obtain ⟨-, -, hexpires, -, -, -, hbound⟩ := reports_consumed haddressed hnet
  have hcomes : ComesTo 0x0201a8c0 relayStation [] relayEntry relayStation :=
    ⟨by decide +kernel, ⟨0, rfl⟩, by decide, by decide +kernel, by decide, by decide +kernel⟩
  have hlinks : recordedLinks 0x0801a8c0 0x0901a8c0 0x0301a8c0 0 relayStation.alloc.2 =
      [newBrkLink 0x0801a8c0 0x0901a8c0 0x0301a8c0 0 0] := by
    decide +kernel
  have hflush : flushBrkLinks 0 [newBrkLink 0x0801a8c0 0x0901a8c0 0x0301a8c0 0 0] =
      some [newBrkLink 0x0801a8c0 0x0901a8c0 0x0301a8c0 0 0] := by
    decide +kernel
  refine ⟨by decide +kernel, (hexpires _ _ _ _ _ hcomes).mpr ?_, (hbound {0x0101a8c0}).1⟩
  exact comesThrough_iff.mp ⟨_, (congrArg (flushBrkLinks 0) hlinks).trans hflush⟩

/-- The station with the break of another flow on record, which is overdue. -/
def lateRelay : Node :=
  { relayStation with
    now := brkLinkTimeout + 1
    brkList := [newBrkLink 0x0801a8c0 0x0a01a8c0 0x0301a8c0 0 0] }

/-- The RERR about the route is out when `flush_brk_list` follows `NULL`, and the
route is not expired. -/
theorem rerr_before_fault :
    ComesTo 0x0201a8c0 lateRelay [] relayEntry lateRelay ∧
      rerrs (rerrSent relayEntry lateRelay) = rerrs lateRelay ++
        [.unicast 0x0301a8c0 netDiameter (.rerr ⟨0, 0x0901a8c0, relayEntry.dstId, 0, 0x0801a8c0⟩)] ∧
      (¬ ∃ k n', genRerrLoop 0x0201a8c0 [relayEntry] 0 lateRelay = some (k, n') ∧ Expires n' relayEntry) ∧
      lateRelay.threadStep = none := by
  have hcomes : ComesTo 0x0201a8c0 lateRelay [] relayEntry lateRelay :=
    ⟨by decide +kernel, ⟨0, rfl⟩, by decide, by decide +kernel, by decide, by decide +kernel⟩
  have hfault : genRerrLoop 0x0201a8c0 [relayEntry] 0 lateRelay = none := by decide +kernel
  refine ⟨hcomes, by decide +kernel, ?_, ?_⟩
  · rintro ⟨k, n', hloop, -⟩
    rw [hfault] at hloop
    cases hloop
  · rw [← Option.isNone_iff_eq_none]
    decide +kernel

end Network

end Fbaodv.Proofs.ConsumedReports
