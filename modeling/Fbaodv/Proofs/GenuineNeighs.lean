import Fbaodv.Proofs.GenuineGateways
import Fbaodv.Proofs.LoadSources

namespace Fbaodv.Proofs.GenuineNeighs

open Fbaodv.Model Fbaodv.Model.Node Fbaodv.Foundation Fbaodv.Foundation.Interleaving
open Fbaodv.Proofs.RouteFrame Fbaodv.Proofs.RoutingInvariant Fbaodv.Proofs.HandlerSpecs
open Fbaodv.Proofs.NodeRun Fbaodv.Proofs.NodeOps Fbaodv.Proofs.NetOps Fbaodv.Proofs.NetPaths
open Fbaodv.Proofs.NetRuns Fbaodv.Proofs.Upkeep Fbaodv.Proofs.NeighActs Fbaodv.Proofs.NeighTables
open Fbaodv.Proofs.HelloRoundTrip (helloExtensions_frame helloExtensions_eq sendHello_sent)
open Fbaodv.Proofs.Isolation (step_cfg)
open Fbaodv.Proofs.LoadSources (noHello_handle hello_of_stamp wcimStations announce hear hear_inputs)
open Fbaodv.Proofs.GenuineGateways (Extends extends_update)
open Relation

/-- The address is a next hop of the table, or one that `P` allows. -/
def KnownHop (P : Ip → Prop) (r : Routing) (ip : Ip) : Prop := P ip ∨ ∃ e ∈ r.table, e.nextHop = ip

/-- The next hops of `r'`, and the gateways of its routes in the kernel, were
known to `r`. -/
structure HopsFrom (P : Ip → Prop) (r r' : Routing) : Prop where
  table : ∀ e' ∈ r'.table, KnownHop P r e'.nextHop
  kernel : ∀ k ∈ r'.kernel, k ∈ r.kernel ∨ KnownHop P r k.gateway

section Hops

variable {P : Ip → Prop} {r r' r'' : Routing} {cfg : Config}

theorem HopsFrom.refl (r : Routing) : HopsFrom P r r := ⟨fun e he ↦ .inr ⟨e, he, rfl⟩, fun _ ↦ .inl⟩

theorem HopsFrom.known {ip : Ip} (h : HopsFrom P r r') (hip : KnownHop P r' ip) : KnownHop P r ip := by
  rcases hip with hip | ⟨e, he, rfl⟩
  · exact .inl hip
  · exact h.table e he

theorem HopsFrom.trans (h : HopsFrom P r r') (h' : HopsFrom P r' r'') : HopsFrom P r r'' where
  table e he := h.known (h'.table e he)
  kernel k hk := (h'.kernel k hk).elim (h.kernel k) fun hk ↦ .inr (h.known hk)

theorem HopsFrom.mono {Q : Ip → Prop} (h : HopsFrom P r r') (hPQ : ∀ ip, P ip → Q ip) : HopsFrom Q r r' where
  table e he := (h.table e he).imp_left (hPQ _)
  kernel k hk := (h.kernel k hk).imp_right fun hk ↦ hk.imp_left (hPQ _)

theorem HopsFrom.of_table (h : HopsFrom P r r') (htable : r''.table = r'.table) (hkernel : r''.kernel ⊆ r'.kernel) :
    HopsFrom P r r'' where
  table := by
    rw [htable]
    exact h.table
  kernel k hk := h.kernel k (hkernel hk)

theorem hops_of_touches (h : Touches cfg r r') : HopsFrom P r r' where
  table e' he' := by
    obtain ⟨e, he, htouch⟩ := Pointwise.exists_of_mem_right h.entries he'
    exact .inr ⟨e, he, htouch.nextHop.symm⟩
  kernel k hk := .inl (h.kernel ▸ hk)

theorem HopsFrom.inserts {new : AodvRoute} (h : HopsFrom P r r') (hins : Inserts new r' r'')
    (hnew : KnownHop P r new.nextHop) : HopsFrom P r r'' where
  table e he := by
    rcases hins.mem.mp he with rfl | he
    · exact hnew
    · exact h.table e he
  kernel := by
    rw [hins.kernel]
    exact h.kernel

theorem HopsFrom.modifyAt {ptr : ℕ} {f : AodvRoute → AodvRoute} (h : HopsFrom P r r')
    (hf : ∀ e ∈ r'.table, KnownHop P r (f e).nextHop) : HopsFrom P r (r'.modifyAt ptr f) where
  table e he := by
    obtain ⟨e', he', rfl⟩ := List.mem_map.mp he
    split
    · exact hf e' he'
    · exact h.table e' he'
  kernel := h.kernel

/-- A write that leaves the next hop alone. -/
theorem HopsFrom.writes {ptr : ℕ} {f : AodvRoute → AodvRoute} (h : HopsFrom P r r')
    (hf : ∀ e, (f e).nextHop = e.nextHop) : HopsFrom P r (r'.modifyAt ptr f) :=
  h.modifyAt fun e he ↦ (hf e).symm ▸ h.table e he

theorem hops_newRoute {byRrep ok : Bool} {srcIp : Ip} {k : KernelRoute} (hk : KnownHop P r k.gateway)
    (h : r.newRoute cfg byRrep srcIp k = (ok, r')) : HopsFrom P r r' := by
  have hsame : HopsFrom P r { r with netlink := r.netlink.rest } := (HopsFrom.refl r).of_table rfl (Finset.Subset.refl _)
  unfold Routing.newRoute at h
  split at h
  · exact (Prod.mk.inj h).2 ▸ .refl r
  split at h
  · obtain ⟨-, rfl⟩ := Prod.mk.inj h
    refine ⟨hsame.table, fun k' hk' ↦ ?_⟩
    rcases Finset.mem_insert.mp hk' with rfl | hk'
    · exact .inr hk
    · exact .inl hk'
  · exact (Prod.mk.inj h).2 ▸ hsame

theorem hops_delRoute {ok : Bool} {srcIp : Ip} {k : KernelRoute} (h : r.delRoute cfg srcIp k = (ok, r')) :
    HopsFrom P r r' := by
  unfold Routing.delRoute at h
  split at h
  · exact (Prod.mk.inj h).2 ▸ .refl r
  split at h
  · exact (Prod.mk.inj h).2 ▸ (HopsFrom.refl r).of_table rfl (Finset.erase_subset _ _)
  · exact (Prod.mk.inj h).2 ▸ (HopsFrom.refl r).of_table rfl (Finset.Subset.refl _)

theorem hops_of_srcOnly (h : SrcOnly r r') : HopsFrom P r r' :=
  (HopsFrom.refl r).of_table h.table (h.kernel ▸ Finset.Subset.refl _)

theorem hops_createAodvRoute {srcIp dstIp : Ip} {tos : UInt8} {dstId : UInt32} {o : Option AodvRoute}
    (h0 : P 0) (cfg : Config) (h : r.createAodvRoute srcIp dstIp tos dstId = (o, r')) : HopsFrom P r r' := by
  rcases createAodvRoute_cases cfg h with ⟨-, htouch⟩ | ⟨lifetime, -, hins⟩
  · exact hops_of_touches htouch
  · exact (HopsFrom.refl r).inserts hins (.inl h0)

theorem hops_rreqEntry {srcIp dstIp : Ip} {tos : UInt8} {dstId pathMetric : UInt32}
    {o : Option (AodvRoute × RouteState)} (h0 : P 0) (h : RreqEntry cfg srcIp dstIp tos dstId pathMetric r o r') :
    HopsFrom P r r' := by
  cases h with
  | full _ h => exact hops_of_touches h
  | unlisted _ hnew hins hsrc =>
    exact ((HopsFrom.refl r).inserts hins (.inl (hnew ▸ h0))).trans (hops_of_srcOnly hsrc)
  | created _ hnew hins hsrc =>
    exact ((HopsFrom.refl r).inserts hins (.inl (hnew ▸ h0))).trans (hops_of_srcOnly hsrc)
  | rejected | invalid => exact .refl r
  | refused _ h => exact hops_delRoute h
  | withdrawn _ _ _ h => exact hops_delRoute h

theorem hops_rreqAodvRoute {now : ℕ} {srcIp dstIp : Ip} {tos : UInt8} {nextHop : Ip} {sendRate : UInt16}
    {hops : UInt8} {dstId pathMetric : UInt32} {ok : Bool} (h0 : P 0) (hnext : P nextHop)
    (h : r.rreqAodvRoute cfg now srcIp dstIp tos nextHop sendRate hops dstId pathMetric = some (ok, r')) :
    HopsFrom P r r' := by
  rcases rreqAodvRoute_cases h with ⟨-, -, hentry⟩ | ⟨-, e, st, r₁, -, hentry, htouch⟩
  · exact hops_rreqEntry h0 hentry
  · exact ((hops_rreqEntry h0 hentry).modifyAt fun _ _ ↦ .inl hnext).trans (hops_of_touches htouch)

theorem hops_rrepAodvRoute {now ptr : ℕ} {o : Option AodvRoute} (h : r.rrepAodvRoute cfg now ptr = some (o, r')) :
    HopsFrom P r r' := by
  obtain ⟨e, he, ⟨-, -, rfl⟩ | ⟨hnew, -⟩ | ⟨r₁, -, hnew, -, rfl⟩⟩ := rrepAodvRoute_cases h
  · exact .refl _
  · exact hops_newRoute (.inr ⟨e, List.mem_of_find?_eq_some he, rfl⟩) hnew
  · have hinstall : HopsFrom P r r₁ := hops_newRoute (.inr ⟨e, List.mem_of_find?_eq_some he, rfl⟩) hnew
    exact hinstall.writes fun _ ↦ rfl

theorem hops_flushEntry {now : ℕ} {e : AodvRoute} (h : FlushEntry cfg now r e r') : HopsFrom P r r' := by
  have hremove : ∀ r₁ : Routing, HopsFrom P r₁ (r₁.removeAodvRoute e.ptr) := fun r₁ ↦
    ⟨fun x hx ↦ .inr ⟨x, (List.mem_filter.mp hx).1, rfl⟩, fun _ ↦ .inl⟩
  cases h with
  | kept => exact .refl r
  | expired => exact (HopsFrom.refl r).writes fun _ ↦ rfl
  | forgotten => exact hremove r
  | @removed r₀ r₁ r₂ _ _ _ _ h₀ h₁ h₂ =>
    have hdeleted : HopsFrom P r₀ r₁ := by
      rw [h₁]
      split
      · exact .refl r₀
      · have hdel : r₀.delRoute cfg e.srcIp e.kernelRoute = ((r₀.delRoute cfg e.srcIp e.kernelRoute).1,
            (r₀.delRoute cfg e.srcIp e.kernelRoute).2) := rfl
        exact hops_delRoute hdel
    exact (((hops_of_srcOnly h₀).trans hdeleted).trans (hops_of_srcOnly h₂)).trans (hremove r₂)

theorem hops_flushAodvRouteTable (cfg : Config) (now : ℕ) (r : Routing) :
    HopsFrom P r (r.flushAodvRouteTable cfg now) :=
  flushAodvRouteTable_induct (.refl r) (fun _ _ h ↦ h.trans (hops_flushEntry (flushEntry_spec _ _ _ _)))
    fun _ h ↦ h.trans (hops_of_touches (touches_updateMyLoad cfg _))

theorem hops_addsNeigh {ip : Ip} {dstId : UInt32} (h0 : P 0) (hip : P ip) (h : AddsNeigh cfg ip dstId r r') :
    HopsFrom P r r' := by
  obtain ⟨lifetime, r₁, hins, h⟩ := h
  have hnew : HopsFrom P r r₁ := (HopsFrom.refl r).inserts hins (.inl h0)
  rcases h with htouch | ⟨ok, r₂, freed, hroute, -, htouch⟩
  · exact hnew.trans (hops_of_touches htouch)
  · have hfreed : HopsFrom P r { r₂ with freed := freed } :=
      { hnew.trans (hops_newRoute (.inl hip) hroute) with }
    exact hfreed.trans (hops_of_touches htouch)

end Hops

section Handlers

variable {P : Ip → Prop} {n n' : Node} {t : Task}

theorem hops_answerRrep {e : AodvRoute} {tos dttl : UInt8} (h : n.answerRrep e.ptr tos dttl = some n') :
    HopsFrom P n.routing n'.routing := by
  obtain ⟨dstId, e', o, r, dttl', -, -, hrep, hcalm⟩ := answerRrep_answers h
  have hcount : HopsFrom P n.routing n.bumpLocalDstId.routing := (HopsFrom.refl n.routing).writes fun _ ↦ rfl
  have hinstall : HopsFrom P n.routing r := hcount.trans (hops_rrepAodvRoute hrep)
  exact hinstall.trans (hops_of_touches hcalm.routing)

/-- A copy of an entry takes over its next hop. -/
theorem hops_rrepRouteEntry {src : AodvRoute} {srcIp dstIp : Ip} {tos : UInt8} {o : Option AodvRoute}
    (h0 : P 0) (hsrc : src ∈ n.routing.table) (h : n.rrepRouteEntry src srcIp dstIp tos = some (o, n')) :
    HopsFrom P n.routing n'.routing := by
  unfold rrepRouteEntry at h
  split at h
  · obtain ⟨dstId, -, h⟩ := Option.bind_eq_some_iff.mp h
    have hcount : HopsFrom P n.routing n.bumpLocalDstId.routing := (HopsFrom.refl n.routing).writes fun _ ↦ rfl
    unfold createRoute at h
    rcases hcreate : n.bumpLocalDstId.routing.createAodvRoute n.cfg.gMeshIp srcIp tos dstId with ⟨o₁, r⟩
    have hcreate' : n.bumpLocalDstId.routing.createAodvRoute n.bumpLocalDstId.cfg.gMeshIp srcIp tos dstId = (o₁, r) :=
      hcreate
    have hnew : HopsFrom P n.routing r := hcount.trans (hops_createAodvRoute h0 n.cfg hcreate)
    rw [hcreate'] at h
    cases o₁ with
    | none =>
      obtain ⟨-, rfl⟩ := Prod.mk.inj (Option.some.inj h)
      exact hnew
    | some e =>
      obtain ⟨-, rfl⟩ := Prod.mk.inj (Option.some.inj h)
      have hnext : HopsFrom P n.routing (r.modifyAt e.ptr fun e ↦ { e with nextHop := src.nextHop }) :=
        hnew.modifyAt fun _ _ ↦ .inr ⟨src, hsrc, rfl⟩
      exact hnext.writes (f := fun e ↦ { e with lastHop := 0 }) fun _ ↦ rfl
  · obtain ⟨-, rfl⟩ := Prod.mk.inj (Option.some.inj h)
    exact .refl _

theorem hops_genRrep {srcIp dstIp : Ip} {tos : UInt8} (h0 : P 0) (h : n.genRrep srcIp dstIp tos = some n') :
    HopsFrom P n.routing n'.routing := by
  unfold genRrep at h
  dsimp only at h
  split at h
  · exact Option.some.inj h ▸ .refl _
  split at h
  · exact Option.some.inj h ▸ .refl _
  next src hsrc =>
  split at h
  · exact Option.some.inj h ▸ .refl _
  obtain ⟨⟨o, n₁⟩, hentry, h⟩ := Option.bind_eq_some_iff.mp h
  have hcopy : HopsFrom P n.routing n₁.routing :=
    hops_rrepRouteEntry (n := n.alloc.2.alloc.2) h0 (findAodvRoute_some hsrc).1 hentry
  cases o with
  | none => exact Option.some.inj h ▸ hcopy
  | some e => exact hcopy.trans (hops_answerRrep h)

theorem hops_rrepRecvRoute {m m' : Rrep} {o : Option AodvRoute} (h0 : P 0)
    (h : n.rrepRecvRoute m = some (o, m', n')) : HopsFrom P n.routing n'.routing := by
  unfold rrepRecvRoute at h
  dsimp only at h
  split at h
  · split at h
    · obtain ⟨-, -, rfl⟩ := Option.some.inj h
      exact .refl _
    next old hold =>
    unfold createRoute at h
    rcases hcreate : n.routing.createAodvRoute m.dstIp m.srcIp m.tos m.dstId with ⟨o₁, r⟩
    have hnew : HopsFrom P n.routing r := hops_createAodvRoute h0 n.cfg hcreate
    rw [hcreate] at h
    cases o₁ with
    | none => cases h
    | some e =>
      simp only [Option.some.injEq, Prod.mk.injEq] at h
      obtain ⟨-, -, rfl⟩ := h
      have hlast : HopsFrom P n.routing (r.modifyAt e.ptr fun e ↦ { e with lastHop := old.lastHop }) :=
        hnew.writes fun _ ↦ rfl
      exact hlast.modifyAt fun _ _ ↦ .inr ⟨old, (findAodvRoute_some hold).1, rfl⟩
  · simp only [Option.some.injEq, Prod.mk.injEq] at h
    obtain ⟨-, -, rfl⟩ := h
    exact .refl _

/-- What a task may take for a next hop: none, a neighbour, or who sends it a
HELLO. -/
def MayRouteBy (n : Node) (t : Task) (ip : Ip) : Prop :=
  ip = 0 ∨ HasNeigh ip n ∨ ip = t.srcIp ∧ ∃ m, t.data = some (.hello m)

theorem mayRouteBy_of_find {x : AodvNeigh} (h : n.findAodvNeigh t.srcIp = some x) : MayRouteBy n t x.ip := by
  obtain ⟨hhas, hip⟩ := hasNeigh_of_find h
  exact .inr (.inl (hip ▸ hhas))

theorem hops_of_effect {r : Routing} (hanswer : t.type ≠ .sendRrep)
    (hhello : t.type = .recvHello → ∃ m, t.data = some (.hello m)) (h : RouteEffect n t r) :
    HopsFrom (MayRouteBy n t) n.routing r := by
  have h0 : MayRouteBy n t 0 := .inl rfl
  cases h with
  | touch h => exact hops_of_touches h
  | hello htype h _ h' =>
    have hip : MayRouteBy n t t.srcIp := .inr (.inr ⟨rfl, hhello htype⟩)
    rcases h with h | ⟨dstId, -, h⟩
    · exact (hops_of_touches h).trans (hops_of_touches h')
    · exact (hops_addsNeigh h0 hip h).trans (hops_of_touches h')
  | rreq _ _ hcall h => exact hops_rreqAodvRoute h0 (mayRouteBy_of_find hcall.neigh) h
  | answer htype => exact absurd htype hanswer
  | @rrepSource _ _ _ r₁ r₂ _ _ _ hx _ h₁ h₂ h' =>
    have hinstall : HopsFrom (MayRouteBy n t) r₁ r₂ := by
      rcases h₂ with ⟨-, rfl⟩ | ⟨e, o, -, h₂⟩
      · exact .refl _
      · exact hops_rrepAodvRoute h₂
    exact ((hops_rreqAodvRoute h0 (mayRouteBy_of_find hx) h₁).trans hinstall).trans (hops_of_touches h')
  | @rrepForward _ _ x _ _ n₁ r₁ _ _ _ hx _ hrecv h₁ h' =>
    have hcopy : HopsFrom (MayRouteBy n t) n.routing n₁.routing :=
      hops_rrepRecvRoute (n := n.updateNeighLifetime x.ip) h0 hrecv
    have hheard : HopsFrom (MayRouteBy n t) n.routing r₁ :=
      hcopy.trans (hops_rreqAodvRoute h0 (mayRouteBy_of_find hx) h₁)
    refine hheard.trans ?_
    rcases h' with ⟨-, rfl⟩ | ⟨send, o₂, r₂, o₃, r₃, -, h₂, h₃, h'⟩
    · exact .refl _
    · exact ((hops_rrepAodvRoute h₂).trans (hops_rrepAodvRoute h₃)).trans (hops_of_touches h')
  | flush => exact hops_flushAodvRouteTable _ _ _

/-- A handler takes its next hops from the neighbours that it finds, from the
sender of a HELLO and from the table. -/
theorem handle_hops (hr : WellFormed n.cfg n.routing) (h : n.handle t = some n') :
    HopsFrom (MayRouteBy n t) n.routing n'.routing := by
  by_cases hanswer : t.type = .sendRrep
  · simp only [handle, hanswer] at h
    exact hops_genRrep (.inl rfl) h
  by_cases hhello : t.type = .recvHello → ∃ m, t.data = some (.hello m)
  · exact hops_of_effect hanswer hhello (handle_routing hr h).effect
  · obtain ⟨htype, hdata⟩ := Classical.not_imp.mp hhello
    simp only [handle, htype] at h
    split at h
    case h_4 => exact absurd ⟨_, ‹_›⟩ hdata
    all_goals first | contradiction | exact Option.some.inj h ▸ .refl _

/-- The HELLO of a node names its neighbours. -/
theorem hello_of_genHello {s : Sent} (hs : s ∈ n.genHello.sent) :
    s ∈ n.sent ∨ ∃ m, payload s = some (.hello m) ∧ ∀ ext ∈ m.ext, HasNeigh ext.ip n := by
  have hsend : ∀ (l : List HelloExtension) (k : Node), k.sent = n.sent → (∀ ext ∈ l, HasNeigh ext.ip n) →
      s ∈ (k.sendHello l).sent → s ∈ n.sent ∨ ∃ m, payload s = some (.hello m) ∧ ∀ ext ∈ m.ext, HasNeigh ext.ip n := by
    intro l k hk hl hs
    rcases sendHello_sent l k with heq | heq
    · exact .inl (hk ▸ heq ▸ hs)
    · rw [heq, hk] at hs
      refine (List.mem_append.mp hs).imp_right fun hs ↦ ?_
      obtain rfl := List.mem_singleton.mp hs
      exact ⟨k.helloOf l, rfl, hl⟩
  unfold genHello at hs
  split at hs
  · obtain ⟨hsent, -⟩ := helloExtensions_frame n.aodvNeighList [] n
    rcases he : helloExtensions n.aodvNeighList [] n with ⟨_ | ext, k⟩
    · rw [he] at hs hsent
      exact .inl (hsent ▸ hs)
    · rw [he] at hs hsent
      refine hsend ext k hsent ?_ hs
      rw [helloExtensions_eq (congrArg Prod.fst he), List.append_nil]
      intro x hx
      obtain ⟨y, hy, rfl⟩ := List.mem_map.mp hx
      exact ⟨y, List.mem_reverse.mp hy, rfl⟩
  · exact hsend [] n rfl (by simp) hs

theorem hello_of_handle {s : Sent} {m : Hello} (hr : WellFormed n.cfg n.routing) (h : n.handle t = some n')
    (hs : s ∈ n'.sent) (hm : payload s = some (.hello m)) : s ∈ n.sent ∨ ∀ ext ∈ m.ext, HasNeigh ext.ip n := by
  by_cases htype : t.type = .hello
  · simp only [handle, htype] at h
    obtain rfl := Option.some.inj h
    refine (hello_of_genHello hs).imp_right ?_
    rintro ⟨m', hm', hext⟩
    obtain rfl : m' = m := Message.hello.inj (Option.some.inj (hm'.symm.trans hm))
    exact hext
  · refine (noHello_handle htype hr h s hs).imp_right fun hno ↦ ?_
    cases s with
    | broadcast ttl m' =>
      obtain rfl := Option.some.inj hm
      exact hno.elim
    | unicast ip ttl m' =>
      obtain rfl := Option.some.inj hm
      exact hno.elim
    | toDtn => cases hm

end Handlers

/-- The node has broadcast the HELLO. -/
def Says (net : Network) (b : Ip) (m : Hello) : Prop := ∃ s ∈ (net b).sent, payload s = some (.hello m)

/-- The node has broadcast a HELLO. -/
def Greets (net : Network) (b : Ip) : Prop := ∃ m, Says net b m

/-- The node has broadcast a HELLO that names the address. -/
def Names (net : Network) (b ip : Ip) : Prop := ∃ m, Says net b m ∧ ∃ ext ∈ m.ext, ext.ip = ip

/-- What is stored of neighbours goes back to their HELLOs. -/
structure Met (net : Network) (a : Ip) (n : Node) : Prop where
  neighs : ∀ x ∈ n.aodvNeighList, x.ip ≠ a ∧ Greets net x.ip
  neighTx : ∀ x ∈ n.aodvNeighList, ∀ ip ∈ x.loadMetric.neighTx, ip ≠ 0 → Names net x.ip ip
  neighs2h : ∀ y ∈ n.aodvNeighList2h, ∃ b, b ≠ a ∧ Names net b y.ip

section Acts

variable {net : Network} {a ip : Ip} {n₀ n n' : Node} {t : Task}

theorem Met.sublist (hn : Met net a n)
    (hneigh : n'.aodvNeighList.Sublist n.aodvNeighList)
    (hneigh2h : n'.aodvNeighList2h.Sublist n.aodvNeighList2h) : Met net a n' where
  neighs x hx := hn.neighs x (hneigh.subset hx)
  neighTx x hx := hn.neighTx x (hneigh.subset hx)
  neighs2h y hy := hn.neighs2h y (hneigh2h.subset hy)

theorem Met.lists (hn : Met net a n) (hneigh : n'.aodvNeighList = n.aodvNeighList)
    (hneigh2h : n'.aodvNeighList2h = n.aodvNeighList2h) : Met net a n' :=
  hn.sublist (hneigh ▸ List.Sublist.refl _) (hneigh2h ▸ List.Sublist.refl _)

theorem Met.same (hn : Met net a n) (h : NeighSame n n') : Met net a n' where
  neighs x' hx' := by
    obtain ⟨x, hx, htouch⟩ := Pointwise.exists_of_mem_right h.neigh hx'
    rw [htouch.ip]
    exact hn.neighs x hx
  neighTx x' hx' := by
    obtain ⟨x, hx, htouch⟩ := Pointwise.exists_of_mem_right h.neigh hx'
    rw [htouch.ip, htouch.loadMetric]
    exact hn.neighTx x hx
  neighs2h := by
    rw [h.neigh2h]
    exact hn.neighs2h

theorem Met.modifyNeigh {f : AodvNeigh → AodvNeigh} (hn : Met net a n) (hip : ∀ x, (f x).ip = x.ip)
    (htx : ∀ x ∈ n.aodvNeighList, x.ip = ip → ∀ p ∈ (f x).loadMetric.neighTx, p ≠ 0 →
      p ∈ x.loadMetric.neighTx ∨ Names net x.ip p) : Met net a (n.modifyNeigh ip f) where
  neighs x hx := by
    rcases OrderedList.mem_modifyFirst hx with hx | ⟨y, hy, -, rfl⟩
    · exact hn.neighs x hx
    · rw [hip]
      exact hn.neighs y hy
  neighTx x hx p hp hne := by
    rcases OrderedList.mem_modifyFirst hx with hx | ⟨y, hy, hyip, rfl⟩
    · exact hn.neighTx x hx p hp hne
    · rw [hip]
      exact (htx y hy (beq_iff_eq.mp hyip) p hp hne).elim (fun hp ↦ hn.neighTx y hy p hp hne) id
  neighs2h := hn.neighs2h

theorem Met.modifyNeigh2h {f : AodvNeigh2h → AodvNeigh2h} (hn : Met net a n) (hip : ∀ y, (f y).ip = y.ip) :
    Met net a (n.modifyNeigh2h ip f) where
  neighs := hn.neighs
  neighTx := hn.neighTx
  neighs2h y hy := by
    rcases OrderedList.mem_modifyFirst hy with hy | ⟨z, hz, -, rfl⟩
    · exact hn.neighs2h y hy
    · rw [hip]
      exact hn.neighs2h z hz

theorem Met.meets (hn : Met net a n) (hgreets : ip ≠ a ∧ Greets net ip) (h : MeetsNeigh ip n n') : Met net a n' where
  neighs x hx := by
    rcases OrderedList.mem_insertBy.mp (h.neigh ▸ hx) with rfl | hx
    · exact hgreets
    · exact hn.neighs x hx
  neighTx x hx p hp hne := by
    rcases OrderedList.mem_insertBy.mp (h.neigh ▸ hx) with rfl | hx
    · exact absurd (List.eq_of_mem_replicate hp) hne
    · exact hn.neighTx x hx p hp hne
  neighs2h := by
    rw [h.neigh2h]
    exact hn.neighs2h

theorem Met.refreshNeigh2h {b : Ip} (hn : Met net a n) (hb : b ≠ a) (hnames : Names net b ip) :
    Met net a (n.refreshNeigh2h ip) := by
  unfold Node.refreshNeigh2h
  split
  · unfold Node.createAodvNeigh2h
    dsimp only
    split
    · exact hn.lists rfl rfl
    split
    · exact hn.lists rfl rfl
    · refine ⟨hn.neighs, hn.neighTx, fun y hy ↦ ?_⟩
      rcases OrderedList.mem_insertBy.mp hy with rfl | hy
      · exact ⟨b, hb, hnames⟩
      · exact hn.neighs2h y hy
  · refine Met.modifyNeigh2h ?_ fun _ ↦ rfl
    exact hn.lists rfl rfl

theorem Met.takeNeigh2h (hn : Met net a n) (ip : Ip) : Met net a (n.takeNeigh2h ip).2.2 := by
  unfold Node.takeNeigh2h
  split
  · next y _ =>
    obtain ⟨-, hneigh⟩ := deleteAodvNeigh2h_frame y.ip n
    refine hn.sublist (hneigh ▸ List.Sublist.refl _) ?_
    rw [(deleteAodvNeigh2h_list y.ip n).2]
    exact List.eraseP_sublist
  · exact hn

/-- The table of a neighbour's neighbours takes in the address alone. -/
theorem mem_updateNeightx {x : AodvNeigh} {p : Ip} (hp : p ∈ (updateNeightx ip x).loadMetric.neighTx) :
    p ∈ x.loadMetric.neighTx ∨ p = ip := by
  unfold updateNeightx at hp
  dsimp only at hp
  split at hp
  · exact .inl hp
  split at hp
  · exact List.mem_or_eq_of_mem_set hp
  · exact .inl hp

theorem updateNeighLoad_neighTx (load : UInt8) (loadSeq : UInt16) (x : AodvNeigh) :
    (updateNeighLoad load loadSeq x).loadMetric.neighTx = x.loadMetric.neighTx := by
  unfold updateNeighLoad
  split
  · rfl
  · rfl

/-- A task whose HELLO is one of its sender's adds nothing that no HELLO has said. -/
theorem Met.act (hn : Met net a n) (htask : ∀ m, t.data = some (.hello m) → t.srcIp ≠ a ∧ Says net t.srcIp m)
    (h : NeighAct n₀ t n n') : Met net a n' := by
  have hnames : ∀ {m : Hello} {ext : HelloExtension}, t.data = some (.hello m) → ext ∈ m.ext →
      Names net t.srcIp ext.ip := fun hdata hext ↦ ⟨_, (htask _ hdata).2, _, hext, rfl⟩
  cases h with
  | same h => exact hn.same h
  | refresh =>
    refine Met.modifyNeigh ?_ (fun _ ↦ rfl) fun _ _ _ _ hp _ ↦ .inl hp
    exact hn.lists rfl rfl
  | arm | rearm | stop | probe | renew => exact hn.lists rfl rfl
  | meet htype _ _ h hrefresh =>
    have hgreets : t.srcIp ≠ a ∧ Greets net t.srcIp := by
      unfold refreshes at hrefresh
      split at hrefresh
      case h_6 m _ hdata => exact (htask m hdata).imp_right fun hsays ↦ ⟨m, hsays⟩
      all_goals simp_all
    rcases createAodvNeigh_spec h with ⟨-, h⟩ | ⟨-, h⟩
    · exact (hn.takeNeigh2h t.srcIp).same h
    · exact (hn.takeNeigh2h t.srcIp).meets hgreets h
  | lose =>
    obtain ⟨-, hneigh, hneigh2h⟩ := unlinkNeigh_frame t.srcIp n₀
    exact hn.sublist (hneigh ▸ List.eraseP_sublist) (hneigh2h ▸ List.Sublist.refl _)
  | lose2h =>
    obtain ⟨-, hneigh⟩ := deleteAodvNeigh2h_frame t.srcIp n₀
    obtain ⟨-, hneigh2h⟩ := deleteAodvNeigh2h_list t.srcIp n₀
    exact hn.sublist (hneigh ▸ List.Sublist.refl _) (hneigh2h ▸ List.eraseP_sublist)
  | takeLoad => exact hn.modifyNeigh (fun _ ↦ rfl) fun _ _ _ _ hp _ ↦ .inl hp
  | ownLoad =>
    refine hn.modifyNeigh (updateNeighLoad_ip _ _) fun x _ _ p hp _ ↦ .inl ?_
    rwa [updateNeighLoad_neighTx] at hp
  | extLoad =>
    refine hn.modifyNeigh (updateNeighLoad_ip _ _) fun x _ _ p hp _ ↦ .inl ?_
    rwa [updateNeighLoad_neighTx] at hp
  | refresh2h hdata hext => exact hn.refreshNeigh2h (htask _ hdata).1 (hnames hdata hext)
  | extLoad2h => exact hn.modifyNeigh2h (updateNeighLoad2h_ip _ _)
  | neightx hdata hext =>
    refine hn.modifyNeigh (updateNeightx_ip _) fun x _ hx p hp _ ↦ (mem_updateNeightx hp).imp_right ?_
    rintro rfl
    exact hx ▸ hnames hdata hext

theorem Met.acts (hn : Met net a n) (htask : ∀ m, t.data = some (.hello m) → t.srcIp ≠ a ∧ Says net t.srcIp m)
    (h : Acts n₀ t n n') : Met net a n' := by
  induction h with
  | refl => exact hn
  | tail _ hact ih => exact ih.act htask hact

end Acts

/-- The address is no node's, the node's own, or that of one that has greeted. -/
def Reached (net : Network) (a ip : Ip) : Prop := ip = 0 ∨ ip = a ∨ Greets net ip

/-- What holds of a node's knowledge of its neighbours in every run. -/
structure Acquainted (net : Network) (a : Ip) (n : Node) : Prop where
  met : Met net a n
  tables : TablesOrdered n
  hops : ∀ e ∈ n.routing.table, Reached net a e.nextHop
  kernel : ∀ k ∈ n.routing.kernel, Reached net a k.gateway
  sent : ∀ s ∈ n.sent, ∀ m, payload s = some (.hello m) →
    ∀ ext ∈ m.ext, ext.ip ≠ a ∧ Greets net ext.ip
  tasks : ∀ t ∈ n.tasks.elems, ∀ m, t.data = some (.hello m) → t.srcIp ≠ a ∧ Says net t.srcIp m

section Growth

variable {net net' : Network} {n : Node} {a b ip : Ip} {m : Hello}

theorem Says.mono (h : Says net b m) (hext : Extends net net') : Says net' b m := by
  obtain ⟨s, hs, hm⟩ := h
  exact ⟨s, (hext b).2 s hs, hm⟩

theorem Greets.mono (h : Greets net b) (hext : Extends net net') : Greets net' b := by
  obtain ⟨m, hm⟩ := h
  exact ⟨m, hm.mono hext⟩

theorem Names.mono (h : Names net b ip) (hext : Extends net net') : Names net' b ip := by
  obtain ⟨m, hm, hin⟩ := h
  exact ⟨m, hm.mono hext, hin⟩

theorem Met.mono (h : Met net a n) (hext : Extends net net') : Met net' a n where
  neighs x hx := (h.neighs x hx).imp_right fun h ↦ h.mono hext
  neighTx x hx p hp hne := (h.neighTx x hx p hp hne).mono hext
  neighs2h y hy := by
    obtain ⟨b, hb, hnames⟩ := h.neighs2h y hy
    exact ⟨b, hb, hnames.mono hext⟩

theorem Reached.mono (h : Reached net a ip) (hext : Extends net net') : Reached net' a ip :=
  h.imp_right fun h ↦ h.imp_right fun h ↦ h.mono hext

theorem Acquainted.mono (h : Acquainted net a n) (hext : Extends net net') : Acquainted net' a n where
  met := h.met.mono hext
  tables := h.tables
  hops e he := (h.hops e he).mono hext
  kernel k hk := (h.kernel k hk).mono hext
  sent s hs m hm ext hin := (h.sent s hs m hm ext hin).imp_right fun h ↦ h.mono hext
  tasks t ht m hm := (h.tasks t ht m hm).imp_right fun h ↦ h.mono hext

end Growth

section Steps

variable {net : Network} {a : Ip} {n : Node} {e : Event}

theorem Acquainted.met_step (h : Acquainted net a (net a)) (hstep : (net a).step e = some n) : Met net a n := by
  cases step_neigh hstep with
  | wait ms => exact h.met.lists rfl rfl
  | idle hidle => exact h.met.lists hidle.neigh hidle.neigh2h
  | signal =>
    obtain ⟨-, -, hneigh, hneigh2h, -⟩ := signal_neigh (net a)
    exact h.met.lists hneigh hneigh2h
  | @thread t tasks _ hpop hacts =>
    have hpopped : Met net a { net a with tasks := tasks } := h.met.lists rfl rfl
    exact hpopped.acts (h.tasks t (ClassQueue.pop_mem hpop)) hacts

theorem Acquainted.hops_step (hr : WellFormed (net a).cfg (net a).routing) (h : Acquainted net a (net a))
    (hstep : (net a).step e = some n) :
    (∀ e ∈ n.routing.table, Reached net a e.nextHop) ∧ ∀ k ∈ n.routing.kernel, Reached net a k.gateway := by
  have hfrom : HopsFrom (Reached net a) (net a).routing n.routing := by
    rcases step_cases hr hstep with ⟨t, tasks, rfl, hpop, -⟩ | ⟨-, htouch⟩
    · simp only [Node.step, threadStep, hpop] at hstep
      refine (handle_hops (n := { net a with tasks := tasks }) hr hstep).mono fun ip hip ↦ ?_
      rcases hip with hzero | ⟨x, hx, hip⟩ | ⟨hip, m, hm⟩
      · exact .inl hzero
      · exact .inr (.inr (hip ▸ (h.met.neighs x hx).2))
      · exact .inr (.inr ⟨m, hip ▸ (h.tasks t (ClassQueue.pop_mem hpop) m hm).2⟩)
    · exact hops_of_touches htouch
  have hknown : ∀ ip, KnownHop (Reached net a) (net a).routing ip → Reached net a ip := by
    rintro ip (hip | ⟨e, he, rfl⟩)
    · exact hip
    · exact h.hops e he
  exact ⟨fun e he ↦ hknown _ (hfrom.table e he), fun k hk ↦ (hfrom.kernel k hk).elim (h.kernel k) (hknown _)⟩

theorem Acquainted.sent_step (hr : WellFormed (net a).cfg (net a).routing) (h : Acquainted net a (net a))
    (hstep : (net a).step e = some n) : ∀ s ∈ n.sent, ∀ m, payload s = some (.hello m) →
      ∀ ext ∈ m.ext, ext.ip ≠ a ∧ Greets net ext.ip := by
  intro s hs m hm
  rcases step_path hr hstep with ⟨t, tasks, rfl, hpop, -⟩ | hhook
  · simp only [Node.step, threadStep, hpop] at hstep
    rcases hello_of_handle (n := { net a with tasks := tasks }) hr hstep hs hm with hs | hext
    · exact h.sent s hs m hm
    · intro ext hin
      obtain ⟨x, hx, hip⟩ := hext ext hin
      exact hip ▸ h.met.neighs x hx
  · exact h.sent s (hhook.sent ▸ hs) m hm

theorem Acquainted.tasks_step (hplaced : Placed a (net a)) (h : Acquainted net a (net a))
    (hin : ∀ p, e = .input p → net.Deliverable a p) (hstep : (net a).step e = some n) :
    ∀ t ∈ n.tasks.elems, ∀ m, t.data = some (.hello m) → t.srcIp ≠ a ∧ Says net t.srcIp m := by
  intro t ht m hm
  rcases step_path hplaced.routes hstep with ⟨t', tasks, rfl, hpop, hpath⟩ | hhook
  · have htasks : n.tasks = tasks := (onward_of_path hpath).tasks
    exact h.tasks t (ClassQueue.pop_subset hpop (htasks ▸ ht)) m hm
  · rcases hhook.tasks t ht with ht | ht | ht | ht
    · exact h.tasks t ht m hm
    · rw [hplaced.bare t ht] at hm
      cases hm
    · obtain ⟨m', hdelivered⟩ := delivered_of_arrival hin ht
      obtain ⟨sec, usec, hstamp⟩ := hdelivered.data
      obtain rfl := hello_of_stamp (Option.some.inj (hstamp.symm.trans hm))
      obtain ⟨s, hs, hpayload, -⟩ := hdelivered.sent
      exact ⟨hdelivered.source, s, hs, hpayload⟩
    · rw [ht.2.1] at hm
      cases hm

theorem Acquainted.step (hplaced : Placed a (net a)) (h : Acquainted net a (net a)) (hturn : Turn net a e n) :
    Acquainted net a n := by
  obtain ⟨-, hin, hstep⟩ := hturn
  have hr := hplaced.routes
  exact ⟨h.met_step hstep, step_tablesOrdered h.tables hstep, (h.hops_step hr hstep).1,
    (h.hops_step hr hstep).2, h.sent_step hr hstep, h.tasks_step hplaced hin hstep⟩

theorem acquainted_init (h : net.Initial) (a : Ip) : Acquainted net a (net a) := by
  have hplaced := init_placed h a
  obtain ⟨cfg, env, hcfg, hnet⟩ := h
  obtain ⟨hneigh, hneigh2h⟩ := init_neighLists (cfg a) (env a)
  obtain ⟨hsent, htasks, -⟩ := init_queues (cfg a) (env a)
  have hrouting := (init_frame (cfg a) (env a)).2
  rw [hnet]
  refine ⟨⟨?_, ?_, ?_⟩, init_tablesOrdered _ _, ?_, ?_, ?_, ?_⟩
  · simp [hneigh]
  · simp [hneigh]
  · simp [hneigh2h]
  · rw [hrouting]
    intro e he
    obtain rfl := List.mem_singleton.mp he
    exact .inr (.inl (hcfg a))
  · rw [hrouting]
    intro k hk
    obtain rfl := Finset.mem_singleton.mp hk
    exact .inr (.inl (hcfg a))
  · simp [hsent]
  · simp [htasks]

theorem acquainted_of_run {net₀ : Network} (hinit : net₀.Initial) (h : ReflTransGen Network.Step net₀ net) (a : Ip) :
    Placed a (net a) ∧ Acquainted net a (net a) := by
  have hreaches : Reaches Turn net₀ net := ReflTransGen.mono (fun _ _ ↦ step_iff.mp) _ _ h
  refine hreaches.invariant (P := fun net a n ↦ Placed a n ∧ Acquainted net a n) (fun net a e n hall hturn ↦ ?_)
    (fun net a e n hall hturn b _ ↦ ?_) (fun a ↦ ⟨init_placed hinit a, acquainted_init hinit a⟩) a
  all_goals
    have hplaced := (hall a).1
    have hcfg : n.cfg = (net a).cfg := step_cfg hplaced.routes hturn.2.2
    have hext := extends_update hcfg (sent_of_step hplaced.routes hturn.2.2)
  · exact ⟨hplaced.step hturn.2.2, ((hall a).2.step hplaced hturn).mono hext⟩
  · exact ⟨(hall b).1, (hall b).2.mono hext⟩

/-- In every run of a network, whatever a node knows of its surroundings goes back
to what others have said: its neighbours, the next hops of its routes and the
gateways of its routes in the kernel have broadcast HELLOs, and the neighbours of
its neighbours were named in HELLOs. -/
theorem genuine_neighs {net₀ : Network} (hinit : net₀.Initial) (h : ReflTransGen Network.Step net₀ net) (a : Ip) :
    (∀ x ∈ (net a).aodvNeighList, x.ip ≠ a ∧ Greets net x.ip ∧
        ∀ ip ∈ x.loadMetric.neighTx, ip ≠ 0 → Names net x.ip ip) ∧
      (∀ y ∈ (net a).aodvNeighList2h, y.ip ≠ a ∧ Greets net y.ip ∧ ∃ b, b ≠ a ∧ b ≠ y.ip ∧ Names net b y.ip) ∧
      (∀ e ∈ (net a).routing.table, Reached net a e.nextHop) ∧
        ∀ k ∈ (net a).routing.kernel, Reached net a k.gateway := by
  have hall := acquainted_of_run hinit h
  obtain ⟨hplaced, ha⟩ := hall a
  refine ⟨fun x hx ↦ ⟨(ha.met.neighs x hx).1, (ha.met.neighs x hx).2, ha.met.neighTx x hx⟩, fun y hy ↦ ?_, ha.hops,
    ha.kernel⟩
  obtain ⟨b, hb, m, ⟨s, hs, hm⟩, ext, hext, hip⟩ := ha.met.neighs2h y hy
  obtain ⟨hne, hgreets⟩ := (hall b).2.sent s hs m hm ext hext
  have hown : y.ip ≠ a := hplaced.address ▸ ha.tables.meshIp y hy
  refine ⟨hown, hip ▸ hgreets, b, hb, fun heq ↦ hne (hip.trans heq.symm), m, ⟨s, hs, hm⟩, ext, hext, hip⟩

end Steps

section Stations

/-- The HELLO by which 192.168.1.2 names 192.168.1.3. -/
def namingHello : Hello := ⟨1, 0, 1, [⟨0x0301a8c0, 0, 0, 1⟩]⟩

/-- 192.168.1.1 gets to know 192.168.1.3 from a HELLO of 192.168.1.2. -/
theorem genuine_neighs_named : ∃ net, ReflTransGen Network.Step wcimStations net ∧
    (net 0x0101a8c0).aodvNeighList2h.map AodvNeigh2h.ip = [0x0301a8c0] ∧ Greets net 0x0301a8c0 := by
  have hrun₃ : (runs announce (wcimStations 0x0301a8c0)).map Node.sent = some [.broadcast 1 (.hello ⟨0, 0, 1, []⟩)] := by
    decide +kernel
  have hrun₂ : (runs (hear (packetAt 0x0301a8c0 0x0201a8c0 1 (.hello ⟨0, 0, 1, []⟩)) ++ announce)
      (wcimStations 0x0201a8c0)).map Node.sent = some [.broadcast 1 (.hello namingHello)] := by
    decide +kernel
  have hrun₁ : (runs (hear (packetAt 0x0201a8c0 0x0101a8c0 1 (.hello namingHello))) (wcimStations 0x0101a8c0)).map
      (fun n ↦ n.aodvNeighList2h.map AodvNeigh2h.ip) = some [0x0301a8c0] := by
    decide +kernel
  obtain ⟨n₃, hn₃, hsent₃⟩ := Option.map_eq_some_iff.mp hrun₃
  obtain ⟨n₂, hn₂, hsent₂⟩ := Option.map_eq_some_iff.mp hrun₂
  obtain ⟨n₁, hn₁, hlist⟩ := Option.map_eq_some_iff.mp hrun₁
  obtain ⟨net₃, hnet₃⟩ : ∃ net₃, net₃ = Function.update wcimStations 0x0301a8c0 n₃ := ⟨_, rfl⟩
  obtain ⟨net₂, hnet₂⟩ : ∃ net₂, net₂ = Function.update net₃ 0x0201a8c0 n₂ := ⟨_, rfl⟩
  have hreach₃ : ReflTransGen Network.Step wcimStations net₃ :=
    hnet₃ ▸ reaches_alone (by decide) (by simp [announce]) hn₃
  have hsame₂ : net₃ 0x0201a8c0 = wcimStations 0x0201a8c0 := by
    rw [hnet₃, Function.update_of_ne (by decide)]
  have hsame₁ : net₂ 0x0101a8c0 = wcimStations 0x0101a8c0 := by
    rw [hnet₂, Function.update_of_ne (by decide), hnet₃, Function.update_of_ne (by decide)]
  have hhello₃ : .broadcast 1 (.hello ⟨0, 0, 1, []⟩) ∈ (net₃ 0x0301a8c0).sent := by
    rw [hnet₃, Function.update_self, hsent₃]
    exact List.mem_cons_self
  have hhello₂ : .broadcast 1 (.hello namingHello) ∈ (net₂ 0x0201a8c0).sent := by
    rw [hnet₂, Function.update_self, hsent₂]
    exact List.mem_cons_self
  have hreach₂ : ReflTransGen Network.Step net₃ net₂ := by
    refine hnet₂ ▸ reaches_alone (by decide) (fun p hp ↦ ?_) (hsame₂ ▸ hn₂)
    refine hear_inputs (by decide) hhello₃ ⟨rfl, rfl⟩ p ((List.mem_append.mp hp).resolve_right ?_)
    simp [announce]
  have hreach₁ : ReflTransGen Network.Step net₂ (Function.update net₂ 0x0101a8c0 n₁) :=
    reaches_alone (by decide) (hear_inputs (by decide) hhello₂ ⟨rfl, rfl⟩) (hsame₁ ▸ hn₁)
  have hreach := (hreach₃.trans hreach₂).trans hreach₁
  have hlisted : (Function.update net₂ 0x0101a8c0 n₁ 0x0101a8c0).aodvNeighList2h.map AodvNeigh2h.ip = [0x0301a8c0] := by
    rw [Function.update_self]
    exact hlist
  refine ⟨_, hreach, hlisted, ?_⟩
  obtain ⟨y, hy, hip⟩ := List.mem_map.mp (hlisted ▸ List.mem_cons_self : (0x0301a8c0 : Ip) ∈ _)
  obtain ⟨-, hknown, -⟩ := genuine_neighs ⟨_, fun _ ↦ plainEnvironment, fun _ ↦ rfl, fun _ ↦ rfl⟩ hreach 0x0101a8c0
  exact hip ▸ (hknown y hy).2.1

end Stations

end Fbaodv.Proofs.GenuineNeighs
