import Fbaodv.Proofs.NeighTables
import Fbaodv.Proofs.NetRuns

namespace Fbaodv.Proofs.NeighCreation

open Fbaodv.Foundation Fbaodv.Model Fbaodv.Model.Node
open Fbaodv.Proofs.RouteFrame Fbaodv.Proofs.RoutingInvariant Fbaodv.Proofs.HandlerSpecs
open Fbaodv.Proofs.NodeRun Fbaodv.Proofs.NeighTables Fbaodv.Proofs.PacketDiscovery
open Fbaodv.Proofs.NetRuns

/-- No entry that has been freed is still linked. -/
def NoneFreed (r : Routing) : Prop := ∀ e ∈ r.table, e.ptr ∉ r.freed

/-- The address is listed where `create_aodv_neigh` looks for it. -/
def isListed (ip : Ip) (n : Node) : Bool :=
  (n.aodvNeighList.dropWhile fun x ↦ x.ip < ip).head?.any fun x ↦ x.ip == ip

/-- `create_aodv_neigh` gives up before it links a route entry. -/
def givesUpEarly (ip : Ip) (n : Node) : Bool :=
  !n.kmalloc.next || isListed ip n || !n.routing.kmalloc.next

/-- What a failed creation of a neighbour should leave. -/
structure Traceless (n n' : Node) : Prop where
  table : n'.routing.table = n.routing.table
  neighs : n'.aodvNeighList = n.aodvNeighList
  srcList : n'.routing.srcList = n.routing.srcList
  timers : n'.timers = n.timers
  linked : NoneFreed n'.routing

variable {n n' : Node} {ip : Ip} {ok : Bool}

/-- Once the entry is linked it stays so, whether or not the kernel takes the
route. -/
theorem routeAodvNeigh_linked (hr : WellFormed n.cfg n.routing) (hmem : n.routing.kmalloc.next = true)
    (h : n.routeAodvNeigh ip = some (ok, n')) :
    ∃ dstId lifetime r, n.localDstId = some dstId ∧ n' = { n with routing := r } ∧
      r.localRoute = n.routing.localRoute ∧ r.table = OrderedList.insertBy (fun e ↦ e.dstIp < ip)
        (neighEntry n.cfg n.routing.heap ip dstId lifetime) n.routing.table := by
  obtain ⟨dstId, hdstId, h⟩ := Option.bind_eq_some_iff.mp h
  rcases hcreate : n.routing.createAodvRoute n.cfg.gMeshIp ip 0 dstId with ⟨o, r₀⟩
  rw [hcreate] at h
  rcases createAodvRoute_cases n.cfg hcreate with ⟨rfl, -⟩ | ⟨lifetime, rfl, hins⟩
  · simp [Routing.createAodvRoute, hmem] at hcreate
  have hneigh := hins.modifyAt hr (f := fun e ↦ { e with
    numHops := 1, pathMetric := 1, state := .active, neighRoute := true, selfRoute := true }) rfl rfl
  dsimp only at h
  split at h
  · simp only [Option.some.injEq, Prod.mk.injEq] at h
    exact ⟨dstId, lifetime, _, hdstId, h.2.symm, hneigh.localRoute, hneigh.table⟩
  next src _ =>
  rcases hnew : Routing.newRoute n.cfg false n.cfg.gMeshIp ⟨ip, ip, 1⟩ _ with ⟨ok₁, r₁⟩
  rw [hnew] at h
  obtain ⟨htable, -, hlocal⟩ := newRoute_table hnew
  dsimp only at h
  split at h
  · simp only [Option.some.injEq, Prod.mk.injEq] at h
    exact ⟨dstId, lifetime, _, hdstId, h.2.symm, hlocal.trans hneigh.localRoute, htable.trans hneigh.table⟩
  · simp only [Option.some.injEq, Prod.mk.injEq] at h
    exact ⟨dstId, lifetime, _, hdstId, h.2.symm, hlocal.trans hneigh.localRoute, htable.trans hneigh.table⟩

theorem createAodvNeigh_early (hearly : givesUpEarly ip n = true)
    (h : n.createAodvNeigh ip = some (ok, n')) :
    ok = false ∧ ∃ kmalloc kmalloc', n' =
      { n with kmalloc := kmalloc, routing := { n.routing with kmalloc := kmalloc' } } := by
  -- a creation that is not refused fails at the memory for the route entry
  have hroute : ∀ {ok : Bool} {n₁ : Node}, n.kmalloc.next = true → isListed ip n = false →
      n.alloc.2.routeAodvNeigh ip = some (ok, n₁) → ok = false ∧
        n₁ = { n.alloc.2 with routing := { n.routing with kmalloc := n.routing.kmalloc.rest } } := by
    intro ok n₁ hmem habsent h₁
    have hnext : n.routing.kmalloc.next = false := by
      simpa [givesUpEarly, hmem, habsent] using hearly
    obtain ⟨dstId, -, h₁⟩ := Option.bind_eq_some_iff.mp h₁
    have hnone : ∀ srcIp, n.routing.createAodvRoute srcIp ip 0 dstId =
        (none, { n.routing with kmalloc := n.routing.kmalloc.rest }) := by
      intro srcIp
      rw [Routing.createAodvRoute, if_pos (by simp [hnext])]
    have halloc : n.alloc.2.routing = n.routing := rfl
    rw [halloc, hnone] at h₁
    obtain ⟨rfl, rfl⟩ := Prod.mk.inj (Option.some.inj h₁)
    exact ⟨rfl, rfl⟩
  cases createAodvNeigh_inv h with
  | refused => exact ⟨rfl, n.kmalloc.rest, n.routing.kmalloc, rfl⟩
  | noRoute hmem habsent h₁ => exact ⟨rfl, n.kmalloc.rest, n.routing.kmalloc.rest, (hroute hmem habsent h₁).2⟩
  | linked hmem habsent h₁ => cases (hroute hmem habsent h₁).1
  | probed hmem habsent h₁ => cases (hroute hmem habsent h₁).1

theorem createAodvNeigh_linked (hr : WellFormed n.cfg n.routing) (hlate : givesUpEarly ip n = false)
    (h : n.createAodvNeigh ip = some (ok, n')) :
    ∃ dstId lifetime, n.localDstId = some dstId ∧ n'.routing.localRoute = n.routing.localRoute ∧
      n'.routing.table = OrderedList.insertBy (fun e ↦ e.dstIp < ip)
        (neighEntry n.cfg n.routing.heap ip dstId lifetime) n.routing.table := by
  simp only [givesUpEarly, Bool.or_eq_false_iff, Bool.not_eq_false'] at hlate
  obtain ⟨⟨hmem, hlisted⟩, hnext⟩ := hlate
  have hroute : ∀ {ok : Bool} {n₁ : Node}, n.alloc.2.routeAodvNeigh ip = some (ok, n₁) →
      ∃ dstId lifetime, n.localDstId = some dstId ∧ n₁.routing.localRoute = n.routing.localRoute ∧
        n₁.routing.table = OrderedList.insertBy (fun e ↦ e.dstIp < ip)
          (neighEntry n.cfg n.routing.heap ip dstId lifetime) n.routing.table := by
    intro ok n₁ h₁
    obtain ⟨dstId, lifetime, r, hdstId, rfl, hlocal, htable⟩ :=
      routeAodvNeigh_linked (n := n.alloc.2) hr hnext h₁
    exact ⟨dstId, lifetime, hdstId, hlocal, htable⟩
  cases createAodvNeigh_inv h with
  | refused hrefused =>
    rcases hrefused with hfail | hlisted'
    · rw [hmem] at hfail
      cases hfail
    · exact absurd hlisted' (ne_true_of_eq_false hlisted)
  | noRoute _ _ h₁ => exact hroute h₁
  | linked _ _ h₁ =>
    have hlinked := hroute h₁
    exact hlinked
  | probed _ _ h₁ =>
    have hlinked := hroute h₁
    exact hlinked

theorem isListed_iff (hn : TablesOrdered n) : isListed ip n = true ↔ ∃ x ∈ n.aodvNeighList, x.ip = ip := by
  constructor
  · intro h
    obtain ⟨x, hx, hip⟩ : ∃ x, (n.aodvNeighList.dropWhile fun x ↦ x.ip < ip).head? = some x ∧
        x.ip = ip := by
      simpa [isListed, Option.any_eq_true] using h
    exact ⟨x, (List.dropWhile_subset _) (List.mem_of_mem_head? hx), hip⟩
  · rintro ⟨x, hx, hip⟩
    by_contra hnot
    refine hn.neigh.sorted.key_ne_of_head? (k := ip.toNat) (fun a ↦ ?_) (fun a ↦ ?_)
      (eq_false_of_ne_true hnot) hx (congrArg UInt32.toNat hip)
    · simp [neighKey, UInt32.lt_iff_toNat_lt]
    · simp [neighKey, UInt32.toNat_inj]

/-- A failed creation of a neighbour leaves no trace exactly when it fails for
want of memory or because the neighbour is listed, before it has linked the route
entry, and when no freed entry was linked already. -/
theorem failed_creation_traceless_iff (hn : Reachable n) (h : n.createAodvNeigh ip = some (false, n')) :
    Traceless n n' ↔ NoneFreed n.routing ∧
      (n.kmalloc.next = false ∨ (∃ x ∈ n.aodvNeighList, x.ip = ip) ∨ n.routing.kmalloc.next = false) := by
  have hearly : givesUpEarly ip n = true ↔ n.kmalloc.next = false ∨
      (∃ x ∈ n.aodvNeighList, x.ip = ip) ∨ n.routing.kmalloc.next = false := by
    rw [← isListed_iff (reach_tablesOrdered hn)]
    simp only [givesUpEarly, Bool.or_eq_true, Bool.not_eq_true', or_assoc]
  rw [← hearly]
  cases hgives : givesUpEarly ip n with
  | true =>
    obtain ⟨-, kmalloc, kmalloc', rfl⟩ := createAodvNeigh_early hgives h
    exact ⟨fun hless ↦ ⟨hless.linked, rfl⟩, fun hfreed ↦ ⟨rfl, rfl, rfl, rfl, hfreed.1⟩⟩
  | false =>
    obtain ⟨dstId, lifetime, -, -, htable⟩ := createAodvNeigh_linked (reach_wellFormed hn) hgives h
    refine ⟨fun hless ↦ ?_, fun hfreed ↦ nomatch hfreed.2⟩
    have hlength := congrArg List.length (htable.symm.trans hless.table)
    rw [(OrderedList.insertBy_perm _ _ _).length_eq, List.length_cons] at hlength
    exact absurd hlength (Nat.succ_ne_self _)

/-- There is no memory for the first neighbour. -/
def starvedStation : Node := Node.init station.cfg { plainEnvironment with memory := [false] }

theorem failed_creation_traceless_starved :
    ∃ n', starvedStation.createAodvNeigh 0x0201a8c0 = some (false, n') ∧ Traceless starvedStation n' := by
  have hcreate : starvedStation.createAodvNeigh 0x0201a8c0 = some (false, starvedStation.alloc.2) := rfl
  have hfreed : NoneFreed starvedStation.routing := fun _ _ ↦ List.not_mem_nil
  exact ⟨_, hcreate, (failed_creation_traceless_iff (.init trivial) hcreate).mpr ⟨hfreed, .inl rfl⟩⟩

/-- The kernel refuses the route of the first neighbour. -/
def refusedStation : Node := Node.init station.cfg { plainEnvironment with netlink := [false] }

theorem refusedStation_leaves_entry : ¬ ∀ (n n' : Node) (ip : Ip), Reachable n →
    n.createAodvNeigh ip = some (false, n') → Traceless n n' := by
  intro h
  have hinit : Reachable refusedStation := .init trivial
  have hrun : (refusedStation.createAodvNeigh 0x0201a8c0).map (fun p ↦
      !p.1 && p.2.routing.table.length == 2) = some true := by
    decide +kernel
  obtain ⟨⟨ok, n'⟩, hcreate, hp⟩ := Option.map_eq_some_iff.mp hrun
  obtain ⟨hok, htable⟩ : ok = false ∧ n'.routing.table.length = 2 := by simpa using hp
  have hless := (h refusedStation n' 0x0201a8c0 hinit (hok ▸ hcreate)).table
  rw [hless] at htable
  exact absurd htable (by decide)

end Fbaodv.Proofs.NeighCreation
