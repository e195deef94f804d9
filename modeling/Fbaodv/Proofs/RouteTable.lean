import Fbaodv.Model.RouteLinks
import Fbaodv.Proofs.RouteFlush

namespace Fbaodv.Proofs.RouteTable

open Fbaodv.Foundation Fbaodv.Foundation.DoublyLinked Fbaodv.Foundation.LinkedCells
open Fbaodv.Foundation.OrderedList Fbaodv.Model Fbaodv.Model.RouteHeap
open Fbaodv.Proofs.RoutingInvariant (dstKey)

/-- The operations that make and change the entries of the route table. -/
inductive RouteOp
  | create (kmalloc : Option ℕ) (srcIp dstIp : Ip) (tos : UInt8) (dstId : UInt32) (lifetime : ℕ)
  | remove (p : ℕ)
  | expire (p now : ℕ)
  | request (p now : ℕ) (nextHop : Ip) (hops : UInt8) (dstId pathMetric : UInt32)
      (load : Option UInt8)
  | reply (p now : ℕ)

namespace RouteOp

def apply (turns : ℕ) (h : RouteHeap) : RouteOp → Option RouteHeap
  | create kmalloc srcIp dstIp tos dstId lifetime =>
    h.createAodvRoute turns kmalloc srcIp dstIp tos dstId lifetime
  | remove p => h.removeAodvRoute p
  | expire p now => h.modify p (expired now)
  | request p now nextHop hops dstId pathMetric load =>
    h.modify p (requested now nextHop hops dstId pathMetric load)
  | reply p now => h.modify p (replied now)

/-- The entries that were created and not removed, with the fields that they
were given. -/
def account (entries : ℕ → Option AodvRoute) : RouteOp → ℕ → Option AodvRoute
  | create none _ _ _ _ _ => entries
  | create (some p) srcIp dstIp tos dstId lifetime =>
    Function.update entries p (some (newEntry p srcIp dstIp tos dstId lifetime))
  | remove p => Function.update entries p none
  | expire p now => Function.update entries p ((entries p).map (expired now))
  | request p now nextHop hops dstId pathMetric load =>
    Function.update entries p
      ((entries p).map (requested now nextHop hops dstId pathMetric load))
  | reply p now => Function.update entries p ((entries p).map (replied now))

/-- Memory is handed out once, and only an entry that is there is worked on. -/
def Allowed (entries : ℕ → Option AodvRoute) : RouteOp → Prop
  | create none _ _ _ _ _ => True
  | create (some p) _ _ _ _ _ => entries p = none
  | remove p => (entries p).isSome
  | expire p _ => (entries p).isSome
  | request p _ _ _ _ _ _ => (entries p).isSome
  | reply p _ => (entries p).isSome

def accountAll (entries : ℕ → Option AodvRoute) (ops : List RouteOp) : ℕ → Option AodvRoute :=
  ops.foldl account entries

/-- Every operation is allowed after those before it. -/
def AllAllowed : (ℕ → Option AodvRoute) → List RouteOp → Prop
  | _, [] => True
  | entries, op :: ops => op.Allowed entries ∧ AllAllowed (op.account entries) ops

/-- The operation on the table as a list. -/
def onTable (r : Routing) : RouteOp → Routing
  | create none _ _ _ _ _ => r
  | create (some p) srcIp dstIp tos dstId lifetime =>
    r.insertAodvRoute (newEntry p srcIp dstIp tos dstId lifetime)
  | remove p => r.removeAodvRoute p
  | expire p now => r.expireAodvRoute now p
  | request p now nextHop hops dstId pathMetric load =>
    r.modifyAt p (requested now nextHop hops dstId pathMetric load)
  | reply p now => r.modifyAt p (replied now)

def run (turns : ℕ) (ops : List RouteOp) (h : RouteHeap) : Option RouteHeap :=
  ops.foldlM (apply turns) h

end RouteOp

/-- The heap holds the entries of a table that is sorted by destination. -/
structure Listed (h : RouteHeap) (table : List AodvRoute) : Prop where
  holds : Holds h (table.map fun e => (e.ptr, e))
  sorted : Sorted dstKey table

variable {h h' : RouteHeap} {table a b : List AodvRoute} {r : Routing} {turns p : ℕ}
  {e : AodvRoute} {op : RouteOp} {ops : List RouteOp}

section Insertion

/-- The branches of `insert_aodv_route` are those of a splice. -/
theorem insertAodvRoute_eq_splice {e : AodvRoute} {prevRoute tmpRoute : Option ℕ}
    (hcell : h.cell p = some e)
    (hwalk : h.walk (fun x => x.dstIp < e.dstIp) turns none h.links.head =
      some (prevRoute, tmpRoute)) :
    insertAodvRoute turns p h =
      (h.links.splice prevRoute p tmpRoute).map fun q => { h with links := q } := by
  rw [insertAodvRoute, hcell, Option.bind_eq_bind, Option.bind_some, hwalk, Option.bind_eq_bind,
    Option.bind_some, Links.splice.eq_def]
  dsimp only
  cases h.links.head with
  | none => rfl
  | some head =>
    cases tmpRoute with
    | none => cases prevRoute <;> rfl
    | some tmp =>
      dsimp only
      by_cases htmp : tmp = head
      · rw [if_pos htmp, if_pos htmp]
        rfl
      · rw [if_neg htmp, if_neg htmp]
        cases prevRoute <;> rfl

theorem insertAodvRoute_alloc {zs : List (ℕ × AodvRoute)} (hz : Holds h zs) (hp : h.cell p = none)
    (hturns : zs.length ≤ turns) :
    ∃ h', insertAodvRoute turns p (h.alloc p e) = some h' ∧
      h'.cell = Function.update h.cell p (some e) ∧
      Holds h' (insertBy (fun z => z.2.dstIp < e.dstIp) (p, e) zs) := by
  have halloc : Chained (h.alloc p e) zs := hz.alloc hp
  have hcell : (h.alloc p e).cell p = some e := Function.update_self _ _ _
  have hwalk := halloc.walk_head (g := fun x => decide (x.dstIp < e.dstIp)) hturns
  have hsplice := hz.splice_alloc (x := e) (g := fun x => decide (x.dstIp < e.dstIp)) hp
  refine ⟨_, ?_, rfl, hz.insert (g := fun x => decide (x.dstIp < e.dstIp)) hp⟩
  rw [insertAodvRoute_eq_splice hcell hwalk, hsplice]
  rfl

end Insertion

section Table

theorem fst_map (table : List AodvRoute) :
    (table.map fun e => (e.ptr, e)).map Prod.fst = table.map AodvRoute.ptr := List.map_map

theorem Listed.nodup (hl : Listed h table) : (table.map AodvRoute.ptr).Nodup := by
  rw [← fst_map]
  exact hl.holds.links.nodup

theorem Listed.cell_iff (hl : Listed h table) : h.cell p = some e ↔ e ∈ table ∧ e.ptr = p := by
  constructor
  · intro hp
    obtain ⟨e', he', heq⟩ := List.mem_map.mp (hl.holds.listed p e hp)
    obtain ⟨hptr, rfl⟩ := Prod.mk.inj heq
    exact ⟨he', hptr⟩
  · rintro ⟨he, rfl⟩
    exact hl.holds.cell (e.ptr, e) (List.mem_map_of_mem he)

theorem Listed.split (hl : Listed h table) (hp : h.cell p = some e) :
    e.ptr = p ∧ ∃ a b, table = a ++ e :: b := by
  obtain ⟨he, hptr⟩ := hl.cell_iff.mp hp
  exact ⟨hptr, List.append_of_mem he⟩

theorem Listed.holds_split (hl : Listed h (a ++ e :: b)) :
    Holds h (a.map (fun e => (e.ptr, e)) ++ (e.ptr, e) :: b.map fun e => (e.ptr, e)) := by
  have hholds := hl.holds
  rwa [List.map_append, List.map_cons] at hholds

theorem Listed.create (hl : Listed h r.table) (hp : h.cell e.ptr = none)
    (hturns : r.table.length ≤ turns) :
    ∃ h', insertAodvRoute turns e.ptr (h.alloc e.ptr e) = some h' ∧
      Listed h' (r.insertAodvRoute e).table ∧ h'.cell = Function.update h.cell e.ptr (some e) := by
  have hlen : (r.table.map fun e => (e.ptr, e)).length ≤ turns := by rwa [List.length_map]
  obtain ⟨h', hrun, hcell, hholds⟩ := insertAodvRoute_alloc hl.holds hp hlen
  refine ⟨h', hrun, ⟨?_, ?_⟩, hcell⟩
  · have hmap : insertBy (fun z : ℕ × AodvRoute => z.2.dstIp < e.dstIp) (e.ptr, e)
        (r.table.map fun e => (e.ptr, e)) =
        (r.insertAodvRoute e).table.map fun e => (e.ptr, e) := by
      rw [Routing.insertAodvRoute, insertBy_eq, insertBy_eq, List.takeWhile_map,
        List.dropWhile_map, List.map_append, List.map_cons]
      rfl
    rwa [hmap] at hholds
  · apply hl.sorted.insertBy
    intro x _
    simp [dstKey, UInt32.lt_iff_toNat_lt]

theorem Listed.remove (hl : Listed h r.table) (hp : h.cell p = some e) :
    ∃ h', h.removeAodvRoute p = some h' ∧ Listed h' (r.removeAodvRoute p).table ∧
      h'.cell = Function.update h.cell p none := by
  obtain ⟨rfl, a, b, htable⟩ := hl.split hp
  have hfilter : (r.removeAodvRoute e.ptr).table = a ++ b := by
    have hnodup := hl.nodup
    rw [htable] at hnodup
    rw [Routing.removeAodvRoute, htable]
    exact RouteFlush.filter_ptr hnodup
  have hsorted := hl.sorted
  rw [htable] at hl hsorted
  have hholds := hl.holds_split
  have hvalid : (h.valid (some e.ptr) && h.valid (h.links.prev e.ptr) &&
      h.valid (h.links.next e.ptr)) = true := by
    rw [Bool.and_eq_true, Bool.and_eq_true]
    refine ⟨⟨?_, ?_⟩, ?_⟩
    · rw [valid, Option.all_some, hp]
      rfl
    · rw [valid, Option.all_eq_true]
      exact fun q hq => hholds.prev_isSome hq
    · rw [valid, Option.all_eq_true]
      exact fun q hq => hholds.next_isSome hq
  refine ⟨_, if_pos hvalid, ⟨?_, ?_⟩, rfl⟩
  · have hremoved := hholds.remove
    rwa [← List.map_append, ← hfilter] at hremoved
  · rw [hfilter]
    exact hsorted.sublist ((List.sublist_cons_self e b).append_left a)

theorem Listed.modify {f : AodvRoute → AodvRoute} (hl : Listed h r.table) (hp : h.cell p = some e)
    (hptr : ∀ x, (f x).ptr = x.ptr) (hdst : ∀ x, (f x).dstIp = x.dstIp) :
    ∃ h', h.modify p f = some h' ∧ Listed h' (r.modifyAt p f).table ∧
      h'.cell = Function.update h.cell p ((h.cell p).map f) := by
  obtain ⟨rfl, a, b, htable⟩ := hl.split hp
  have hmap : (r.modifyAt e.ptr f).table = a ++ f e :: b := by
    have hnodup := hl.nodup
    rw [htable] at hnodup
    rw [Routing.modifyAt, htable]
    exact RouteFlush.map_ptr hnodup f
  have hsorted := hl.sorted
  rw [htable] at hl hsorted
  obtain ⟨h', hrun, hmodified⟩ := hl.holds_split.modify f
  have hcell : h'.cell = Function.update h.cell e.ptr (some (f e)) := by
    rw [Cells.modify, hp] at hrun
    rw [← Option.some.inj hrun]
  refine ⟨h', hrun, ⟨?_, ?_⟩, ?_⟩
  · rw [hmap, List.map_append, List.map_cons, hptr]
    exact hmodified
  · have hkeys : (a ++ f e :: b).map dstKey = (a ++ e :: b).map dstKey := by
      rw [List.map_append, List.map_append, List.map_cons, List.map_cons, dstKey, dstKey, hdst]
    have hpairwise : ((a ++ e :: b).map dstKey).Pairwise (· ≤ ·) := List.pairwise_map.mpr hsorted
    rw [← hkeys] at hpairwise
    rw [hmap]
    exact List.pairwise_map.mp hpairwise
  · rw [hcell, hp]
    rfl

theorem apply_spec (hl : Listed h r.table) (hop : op.Allowed h.cell)
    (hturns : r.table.length ≤ turns) :
    ∃ h', op.apply turns h = some h' ∧ Listed h' (op.onTable r).table ∧
      h'.cell = op.account h.cell := by
  cases op with
  | create kmalloc srcIp dstIp tos dstId lifetime =>
    cases kmalloc with
    | none => exact ⟨h, rfl, hl, rfl⟩
    | some p => exact Listed.create (e := newEntry p srcIp dstIp tos dstId lifetime) hl hop hturns
  | remove p =>
    obtain ⟨e, hp⟩ := Option.isSome_iff_exists.mp hop
    exact hl.remove hp
  | expire p now =>
    obtain ⟨e, hp⟩ := Option.isSome_iff_exists.mp hop
    exact hl.modify hp (fun _ => rfl) fun _ => rfl
  | request p now nextHop hops dstId pathMetric load =>
    obtain ⟨e, hp⟩ := Option.isSome_iff_exists.mp hop
    exact hl.modify hp (fun _ => rfl) fun _ => rfl
  | reply p now =>
    obtain ⟨e, hp⟩ := Option.isSome_iff_exists.mp hop
    exact hl.modify hp (fun _ => rfl) fun _ => rfl

theorem length_onTable_le (op : RouteOp) (r : Routing) :
    (op.onTable r).table.length ≤ r.table.length + 1 := by
  cases op with
  | create kmalloc srcIp dstIp tos dstId lifetime =>
    cases kmalloc with
    | none => exact Nat.le_succ _
    | some p =>
      rw [RouteOp.onTable, Routing.insertAodvRoute, (insertBy_perm _ _ _).length_eq,
        List.length_cons]
  | remove p => exact (List.length_filter_le _ _).trans (Nat.le_succ _)
  | expire p now => exact (List.length_map _).le.trans (Nat.le_succ _)
  | request p now nextHop hops dstId pathMetric load =>
    exact (List.length_map _).le.trans (Nat.le_succ _)
  | reply p now => exact (List.length_map _).le.trans (Nat.le_succ _)

end Table

section Runs

theorem allAllowed_concat {entries : ℕ → Option AodvRoute}
    (hops : RouteOp.AllAllowed entries (ops ++ [op])) :
    RouteOp.AllAllowed entries ops ∧ op.Allowed (RouteOp.accountAll entries ops) := by
  induction ops generalizing entries with
  | nil => exact ⟨trivial, hops.1⟩
  | cons op' ops ih =>
    obtain ⟨hop', hrest⟩ := hops
    obtain ⟨hops, hop⟩ := ih hrest
    exact ⟨⟨hop', hops⟩, hop⟩

theorem run_spec (hops : RouteOp.AllAllowed (fun _ => none) ops) (hturns : ops.length ≤ turns)
    (next prev : ℕ → Option ℕ) (hr : r.table = []) :
    ∃ h, RouteOp.run turns ops (initAodvRouteTable next prev) = some h ∧
      Listed h (ops.foldl (fun r op => op.onTable r) r).table ∧
      (ops.foldl (fun r op => op.onTable r) r).table.length ≤ ops.length ∧
      h.cell = RouteOp.accountAll (fun _ => none) ops := by
  induction ops using List.reverseRecOn with
  | nil =>
    refine ⟨initAodvRouteTable next prev, rfl, ⟨?_, ?_⟩, ?_, rfl⟩
    · rw [List.foldl_nil, hr]
      refine ⟨⟨⟨List.nodup_nil, rfl, trivial, trivial, ?_⟩, ?_⟩, ?_⟩
      · exact fun x hx => nomatch hx
      · exact fun z hz => nomatch hz
      · exact fun p x hx => nomatch hx
    · rw [List.foldl_nil, hr]
      exact List.Pairwise.nil
    · rw [List.foldl_nil, hr]
      exact le_rfl
  | append_singleton ops op ih =>
    obtain ⟨hbefore, hop⟩ := allAllowed_concat hops
    rw [List.length_append, List.length_singleton] at hturns
    obtain ⟨h, hrun, hl, hlen, hcell⟩ := ih hbefore (by omega)
    rw [← hcell] at hop
    have hfits : (ops.foldl (fun r op => op.onTable r) r).table.length ≤ turns := by omega
    obtain ⟨h', happly, hl', hcell'⟩ := apply_spec hl hop hfits
    refine ⟨h', ?_, ?_, ?_, ?_⟩
    · rw [RouteOp.run, List.foldlM_append]
      rw [RouteOp.run] at hrun
      rw [hrun, Option.bind_eq_bind, Option.bind_some, List.foldlM_cons, happly]
      rfl
    · rw [List.foldl_append]
      exact hl'
    · rw [List.foldl_append, List.length_append]
      exact (length_onTable_le op _).trans (Nat.add_le_add_right hlen 1)
    · rw [hcell', hcell, RouteOp.accountAll, RouteOp.accountAll, List.foldl_append]
      rfl

end Runs

section Searches

theorem findInRun_eq {zs : List (ℕ × AodvRoute)} (hz : Holds h zs) (hturns : zs.length ≤ turns)
    (dstIp : Ip) (hit : AodvRoute → Bool) :
    h.findInRun turns dstIp hit =
      some ((findRun (fun z => z.2.dstIp < dstIp) (fun z => z.2.dstIp == dstIp)
        (fun z => hit z.2) zs).map Prod.fst) := by
  have hwalk := hz.walk_head (g := fun x => decide (x.dstIp < dstIp)) hturns
  rw [findInRun, hwalk, Option.bind_eq_bind, Option.bind_some, findRun]
  have hsplit := List.takeWhile_append_dropWhile (p := fun z : ℕ × AodvRoute => z.2.dstIp < dstIp)
    (l := zs)
  cases hdrop : zs.dropWhile fun z => decide (z.2.dstIp < dstIp) with
  | nil => rfl
  | cons z b =>
    rw [hdrop] at hsplit
    have hchained := hz.toChained
    rw [← hsplit] at hchained
    have hlen : (z :: b).length ≤ turns := by
      rw [← hsplit, List.length_append] at hturns
      omega
    have hcell := hchained.cell z (by simp)
    dsimp only [List.head?_cons, Option.map_some]
    rw [hcell, Option.bind_eq_bind, Option.bind_some]
    by_cases hdst : z.2.dstIp = dstIp
    · rw [if_neg (not_not.mpr hdst)]
      exact hchained.search hlen
    · have hother : ¬ (z.2.dstIp == dstIp) = true := by simpa using hdst
      rw [if_pos hdst, List.takeWhile_cons_of_neg (by exact hother)]
      rfl

theorem Listed.findInRun (hl : Listed h table) (hturns : table.length ≤ turns) (dstIp : Ip)
    (hit : AodvRoute → Bool) :
    h.findInRun turns dstIp hit =
      some ((findRun (fun e => e.dstIp < dstIp) (fun e => e.dstIp == dstIp) hit table).map
        AodvRoute.ptr) := by
  have hlen : (table.map fun e => (e.ptr, e)).length ≤ turns := by rwa [List.length_map]
  rw [findInRun_eq hl.holds hlen, ← findRun_map, Option.map_map]
  rfl

/-- Where the model has a search of the table, the code's loops find its result. -/
theorem Listed.finders (hl : Listed h r.table) (hturns : r.table.length ≤ turns) :
    (∀ srcIp dstIp tos, h.findAodvRoute turns srcIp dstIp tos =
      some ((r.findAodvRoute srcIp dstIp tos).map AodvRoute.ptr)) ∧
    ∀ dstIp dstId, h.findAodvRouteById turns dstIp dstId =
      some ((r.findAodvRouteById dstIp dstId).map AodvRoute.ptr) :=
  ⟨fun _ dstIp _ => hl.findInRun hturns dstIp _, fun dstIp _ => hl.findInRun hturns dstIp _⟩

/-- On a sorted table the search that stops beyond the key misses no entry. -/
theorem Listed.findRun_eq (hl : Listed h table) (dstIp : Ip) (hit : AodvRoute → Bool) :
    findRun (fun e => e.dstIp < dstIp) (fun e => e.dstIp == dstIp) hit table =
      table.find? fun e => e.dstIp == dstIp && hit e := by
  apply findRun_eq_find? hl.sorted (k := dstIp.toNat)
  · intro e
    simp [dstKey, UInt32.lt_iff_toNat_lt]
  · intro e
    simp [dstKey, UInt32.toNat_inj]

end Searches

/-- The list-based model before any route was created. -/
def noRoutes : Routing where
  table := []
  srcList := []
  kernel := ∅
  installed := ∅
  localRoute := 0
  load := 0
  loadSeq := 1
  heap := 0
  freed := []
  kmalloc := []
  netlink := []
  junk := []

/-- Whatever the operations are, the links lead through the entries that there
are, sorted by destination, and the finders miss none. -/
theorem table_represented (hops : RouteOp.AllAllowed (fun _ => none) ops) (hturns : ops.length ≤ turns)
    (next prev : ℕ → Option ℕ) :
    ∃ (h : RouteHeap) (table : List AodvRoute),
      RouteOp.run turns ops (initAodvRouteTable next prev) = some h ∧
      Represents h.links (table.map AodvRoute.ptr) ∧
      table.Pairwise (fun e e' => e.dstIp ≤ e'.dstIp) ∧
      (∀ p e, h.cell p = some e ↔ e ∈ table ∧ e.ptr = p) ∧
      h.cell = RouteOp.accountAll (fun _ => none) ops ∧
      (∀ srcIp dstIp tos, h.findAodvRoute turns srcIp dstIp tos =
        some ((table.find? fun e => e.dstIp == dstIp && (e.srcIp == srcIp && e.tos == tos)).map
          AodvRoute.ptr)) ∧
      ∀ dstIp dstId, h.findAodvRouteById turns dstIp dstId =
        some ((table.find? fun e => e.dstIp == dstIp && e.dstId == dstId).map AodvRoute.ptr) := by
  obtain ⟨h, hrun, hl, hlen, hcell⟩ := run_spec (r := noRoutes) hops hturns next prev rfl
  have hfits := hlen.trans hturns
  generalize (ops.foldl (fun r op => op.onTable r) noRoutes).table = table at hl hfits
  have hlinks := hl.holds.links
  rw [fst_map] at hlinks
  refine ⟨h, table, hrun, hlinks, ?_, fun p e => hl.cell_iff, hcell, ?_, ?_⟩
  · apply hl.sorted.imp
    intro e e' hle
    exact UInt32.le_iff_toNat_le.mpr hle
  · intro srcIp dstIp tos
    rw [RouteHeap.findAodvRoute, hl.findInRun hfits, hl.findRun_eq]
  · intro dstIp dstId
    rw [RouteHeap.findAodvRouteById, hl.findInRun hfits, hl.findRun_eq]

/-- Two routes, the first of which gives way to a third. -/
def sampleOps : List RouteOp :=
  [.create (some 7) 1 3 0 5 0, .create (some 8) 1 2 0 6 0, .request 8 100 4 1 9 2 none,
    .remove 7, .create (some 7) 2 3 0 1 0]

theorem table_represented_sample :
    ∃ (h : RouteHeap) (table : List AodvRoute),
      RouteOp.run 5 sampleOps (initAodvRouteTable (fun _ => none) fun _ => none) = some h ∧
      Represents h.links (table.map AodvRoute.ptr) ∧
      table.Pairwise (fun e e' => e.dstIp ≤ e'.dstIp) ∧
      (∀ p e, h.cell p = some e ↔ e ∈ table ∧ e.ptr = p) ∧
      h.cell = RouteOp.accountAll (fun _ => none) sampleOps ∧
      (∀ srcIp dstIp tos, h.findAodvRoute 5 srcIp dstIp tos =
        some ((table.find? fun e => e.dstIp == dstIp && (e.srcIp == srcIp && e.tos == tos)).map
          AodvRoute.ptr)) ∧
      ∀ dstIp dstId, h.findAodvRouteById 5 dstIp dstId =
        some ((table.find? fun e => e.dstIp == dstIp && e.dstId == dstId).map AodvRoute.ptr) := by
  have hallowed : RouteOp.AllAllowed (fun _ => none) sampleOps :=
    ⟨rfl, rfl, rfl, rfl, rfl, trivial⟩
  exact table_represented hallowed le_rfl _ _

end Fbaodv.Proofs.RouteTable
