import Fbaodv.Proofs.RouteFrame

namespace Fbaodv.Proofs.RoutingInvariant

open Fbaodv.Model Fbaodv.Foundation Fbaodv.Proofs.RouteFrame

/-- Two entries of one address and one flow. -/
structure SameKey (e e' : AodvRoute) : Prop where
  ptr : e'.ptr = e.ptr
  srcIp : e'.srcIp = e.srcIp
  dstIp : e'.dstIp = e.dstIp
  tos : e'.tos = e.tos
  neighRoute : e'.neighRoute = e.neighRoute
  selfRoute : e'.selfRoute = e.selfRoute

theorem SameKey.refl (e : AodvRoute) : SameKey e e := ⟨rfl, rfl, rfl, rfl, rfl, rfl⟩

theorem EntryTouch.sameKey {cfg : Config} {e e' : AodvRoute} (h : EntryTouch cfg e e') :
    SameKey e e' :=
  ⟨h.ptr, h.srcIp, h.dstIp, h.tos, h.neighRoute, h.selfRoute⟩

/-- The key by which the table is sorted. -/
def dstKey (e : AodvRoute) : ℕ := e.dstIp.toNat

/-- What holds of the route table of every node at any time. -/
structure WellFormed (cfg : Config) (r : Routing) : Prop where
  fresh : ∀ e ∈ r.table, e.ptr < r.heap
  distinct : (r.table.map AodvRoute.ptr).Nodup
  sorted : OrderedList.Sorted dstKey r.table
  localFresh : r.localRoute < r.heap
  localEntry : LocalEntry cfg r
  neighRoute : ∀ e ∈ r.table, e.neighRoute = true → e.selfRoute = true

section WellFormed

variable {cfg : Config} {r r' : Routing}

theorem WellFormed.eq_of_ptr (hr : WellFormed cfg r) {e e' : AodvRoute} (he : e ∈ r.table)
    (he' : e' ∈ r.table) (hptr : e'.ptr = e.ptr) : e' = e :=
  List.inj_on_of_nodup_map hr.distinct he' he hptr

theorem entryAt_of_mem (hr : WellFormed cfg r) {e : AodvRoute} (he : e ∈ r.table) :
    r.entryAt e.ptr = some e := by
  cases h : r.entryAt e.ptr with
  | none => simpa using List.find?_eq_none.mp h e he
  | some x =>
    obtain ⟨hx, hptr⟩ := entryAt_mem h
    rw [hr.eq_of_ptr he hx hptr]

theorem WellFormed.keep (hr : WellFormed cfg r) (hheap : r'.heap = r.heap)
    (hlocal : r'.localRoute = r.localRoute) (h : List.Forall₂ SameKey r.table r'.table) :
    WellFormed cfg r' where
  fresh := by
    intro e' he'
    obtain ⟨e, he, hkey⟩ := Pointwise.exists_of_mem_right h he'
    rw [hkey.ptr, hheap]
    exact hr.fresh e he
  distinct := by
    rw [Pointwise.map_eq h fun hkey ↦ hkey.ptr]
    exact hr.distinct
  sorted := by
    have hmap : r'.table.map dstKey = r.table.map dstKey :=
      Pointwise.map_eq h fun hkey ↦ by simp only [dstKey, hkey.dstIp]
    have hs : (r.table.map dstKey).Pairwise (· ≤ ·) := List.pairwise_map.mpr hr.sorted
    exact List.pairwise_map.mp (hmap ▸ hs)
  localFresh := by rw [hlocal, hheap]; exact hr.localFresh
  localEntry := by
    intro e' he' hptr
    obtain ⟨e, he, hkey⟩ := Pointwise.exists_of_mem_right h he'
    rw [hkey.srcIp, hkey.dstIp]
    exact hr.localEntry e he (by rw [← hkey.ptr, hptr, hlocal])
  neighRoute := by
    intro e' he'
    obtain ⟨e, he, hkey⟩ := Pointwise.exists_of_mem_right h he'
    rw [hkey.neighRoute, hkey.selfRoute]
    exact hr.neighRoute e he

theorem WellFormed.touches (hr : WellFormed cfg r) (h : Touches cfg r r') : WellFormed cfg r' :=
  hr.keep h.heap h.localRoute (h.entries.imp fun _ _ ↦ EntryTouch.sameKey)

theorem WellFormed.modifyAt (hr : WellFormed cfg r) (ptr : ℕ) {f : AodvRoute → AodvRoute}
    (hf : ∀ e, SameKey e (f e)) : WellFormed cfg (r.modifyAt ptr f) := by
  refine hr.keep rfl rfl (Pointwise.forall₂_map fun e _ ↦ ?_)
  split
  · exact hf e
  · exact .refl e

theorem WellFormed.sublist (hr : WellFormed cfg r) (hheap : r'.heap = r.heap)
    (hlocal : r'.localRoute = r.localRoute) (h : r'.table.Sublist r.table) :
    WellFormed cfg r' where
  fresh := fun e he ↦ hheap ▸ hr.fresh e (h.subset he)
  distinct := hr.distinct.sublist (h.map _)
  sorted := hr.sorted.sublist h
  localFresh := by rw [hlocal, hheap]; exact hr.localFresh
  localEntry := fun e he hptr ↦ hr.localEntry e (h.subset he) (hlocal ▸ hptr)
  neighRoute := fun e he ↦ hr.neighRoute e (h.subset he)

/-- `r'` is `r` with one new entry in its place. -/
structure Inserts (new : AodvRoute) (r r' : Routing) : Prop where
  memory : r.kmalloc.next = true
  ptr : new.ptr = r.heap
  table : r'.table = OrderedList.insertBy (fun e ↦ e.dstIp < new.dstIp) new r.table
  heap : r'.heap = r.heap + 1
  localRoute : r'.localRoute = r.localRoute
  kernel : r'.kernel = r.kernel
  installed : r'.installed = r.installed
  srcList : r'.srcList = r.srcList
  freed : r'.freed = r.freed
  netlink : r'.netlink = r.netlink

theorem Inserts.mem {new : AodvRoute} (h : Inserts new r r') {e : AodvRoute} :
    e ∈ r'.table ↔ e = new ∨ e ∈ r.table := by
  rw [h.table, OrderedList.mem_insertBy]

/-- Writing into the new entry is the same as having inserted it so. -/
theorem Inserts.modifyAt {new : AodvRoute} (h : Inserts new r r') (hr : WellFormed cfg r)
    {f : AodvRoute → AodvRoute} (hptr : (f new).ptr = new.ptr) (hdst : (f new).dstIp = new.dstIp) :
    Inserts (f new) r (r'.modifyAt new.ptr f) where
  memory := h.memory
  ptr := hptr.trans h.ptr
  table := by
    have hold : ∀ e ∈ r.table, (if e.ptr = new.ptr then f e else e) = e := fun e he ↦ by
      have := hr.fresh e he
      rw [if_neg (by rw [h.ptr]; omega)]
    have hmap : ∀ l : List AodvRoute, l.Sublist r.table →
        (l.map fun e ↦ if e.ptr = new.ptr then f e else e) = l := fun l hl ↦
      (List.map_congr_left fun e he ↦ hold e (hl.subset he)).trans (List.map_id' l)
    simp only [Routing.modifyAt, h.table, hdst, OrderedList.insertBy_eq, List.map_append,
      List.map_cons, if_true]
    rw [hmap _ (List.takeWhile_sublist _), hmap _ (List.dropWhile_sublist _)]
  heap := h.heap
  localRoute := h.localRoute
  kernel := h.kernel
  installed := h.installed
  srcList := h.srcList
  freed := h.freed
  netlink := h.netlink

theorem WellFormed.inserts (hr : WellFormed cfg r) {new : AodvRoute} (h : Inserts new r r')
    (hnew : new.neighRoute = true → new.selfRoute = true) : WellFormed cfg r' where
  fresh := by
    intro e he
    rw [h.heap]
    rcases h.mem.mp he with rfl | he
    · exact h.ptr ▸ Nat.lt_succ_self _
    · exact (hr.fresh e he).trans (Nat.lt_succ_self _)
  distinct := by
    rw [h.table, ((OrderedList.insertBy_perm _ _ _).map _).nodup_iff, List.map_cons, List.nodup_cons]
    refine ⟨fun hmem ↦ ?_, hr.distinct⟩
    obtain ⟨e, he, hptr⟩ := List.mem_map.mp hmem
    exact absurd (hr.fresh e he) (by rw [hptr, h.ptr]; exact Nat.lt_irrefl _)
  sorted := h.table ▸ hr.sorted.insertBy fun b _ ↦ by simp [dstKey, UInt32.lt_iff_toNat_lt]
  localFresh := by
    rw [h.localRoute, h.heap]
    exact hr.localFresh.trans (Nat.lt_succ_self _)
  localEntry := by
    intro e he hptr
    rw [h.localRoute] at hptr
    rcases h.mem.mp he with rfl | he
    · rw [h.ptr] at hptr
      exact absurd hr.localFresh (hptr ▸ Nat.lt_irrefl _)
    · exact hr.localEntry e he hptr
  neighRoute := by
    intro e he
    rcases h.mem.mp he with rfl | he
    · exact hnew
    · exact hr.neighRoute e he

theorem WellFormed.findAodvRoute_eq (hr : WellFormed cfg r) (srcIp dstIp : Ip) (tos : UInt8) :
    r.findAodvRoute srcIp dstIp tos =
      r.table.find? fun e ↦ e.dstIp == dstIp && (e.srcIp == srcIp && e.tos == tos) :=
  OrderedList.findRun_eq_find? hr.sorted (k := dstIp.toNat)
    (fun e ↦ by simp [dstKey, UInt32.lt_iff_toNat_lt]) fun e ↦ by simp [dstKey, UInt32.toNat_inj]

theorem WellFormed.findAodvRouteById_eq (hr : WellFormed cfg r) (dstIp : Ip) (dstId : UInt32) :
    r.findAodvRouteById dstIp dstId =
      r.table.find? fun e ↦ e.dstIp == dstIp && e.dstId == dstId :=
  OrderedList.findRun_eq_find? hr.sorted (k := dstIp.toNat)
    (fun e ↦ by simp [dstKey, UInt32.lt_iff_toNat_lt]) fun e ↦ by simp [dstKey, UInt32.toNat_inj]

end WellFormed

section Operations

variable {cfg : Config} {r r' : Routing}

theorem findAodvRoute_some {srcIp dstIp : Ip} {tos : UInt8} {e : AodvRoute}
    (h : r.findAodvRoute srcIp dstIp tos = some e) :
    e ∈ r.table ∧ e.srcIp = srcIp ∧ e.dstIp = dstIp ∧ e.tos = tos := by
  obtain ⟨he, hsame, hhit⟩ := OrderedList.findRun_mem h
  simp only [Bool.and_eq_true, beq_iff_eq] at hsame hhit
  exact ⟨he, hhit.1, hsame, hhit.2⟩

theorem findAodvRouteById_some {dstIp : Ip} {dstId : UInt32} {e : AodvRoute}
    (h : r.findAodvRouteById dstIp dstId = some e) :
    e ∈ r.table ∧ e.dstIp = dstIp ∧ e.dstId = dstId := by
  obtain ⟨he, hsame, hhit⟩ := OrderedList.findRun_mem h
  simp only [beq_iff_eq] at hsame hhit
  exact ⟨he, hsame, hhit⟩

/-- The entry that `create_aodv_route` makes, with what it finds in its
`lifetime`. -/
def freshEntry (ptr : ℕ) (srcIp dstIp : Ip) (tos : UInt8) (dstId : UInt32) (lifetime : ℕ) :
    AodvRoute where
  ptr := ptr
  srcIp := srcIp
  dstIp := dstIp
  tos := tos
  nextHop := 0
  lastHop := srcIp
  numHops := 0
  pathMetric := 0
  dstId := dstId
  lifetime := lifetime
  load := 0
  neighRoute := false
  selfRoute := false
  state := .invalid

theorem createAodvRoute_cases (cfg : Config) {srcIp dstIp : Ip} {tos : UInt8} {dstId : UInt32}
    {o : Option AodvRoute} (h : r.createAodvRoute srcIp dstIp tos dstId = (o, r')) :
    (o = none ∧ Touches cfg r r') ∨
      ∃ lifetime, o = some (freshEntry r.heap srcIp dstIp tos dstId lifetime) ∧
        Inserts (freshEntry r.heap srcIp dstIp tos dstId lifetime) r r' := by
  unfold Routing.createAodvRoute at h
  split at h
  · obtain ⟨rfl, rfl⟩ := Prod.mk.inj h
    exact .inl ⟨rfl, { Touches.refl cfg r with }⟩
  · next hmem =>
    obtain ⟨rfl, rfl⟩ := Prod.mk.inj h
    exact .inr ⟨_, rfl, by simpa using hmem, rfl, rfl, rfl, rfl, rfl, rfl, rfl, rfl, rfl⟩

/-- `r'` is `r` but for the source list and the kernel's rules. -/
structure SrcOnly (r r' : Routing) : Prop where
  table : r'.table = r.table
  kernel : r'.kernel = r.kernel
  installed : r'.installed = r.installed
  localRoute : r'.localRoute = r.localRoute
  heap : r'.heap = r.heap
  freed : r'.freed = r.freed
  netlink : r.netlink = [] → r'.netlink = []

theorem SrcOnly.refl (r : Routing) : SrcOnly r r := ⟨rfl, rfl, rfl, rfl, rfl, rfl, id⟩

theorem SrcOnly.trans {r'' : Routing} (h : SrcOnly r r') (h' : SrcOnly r' r'') : SrcOnly r r'' :=
  ⟨h'.table.trans h.table, h'.kernel.trans h.kernel, h'.installed.trans h.installed,
    h'.localRoute.trans h.localRoute, h'.heap.trans h.heap, h'.freed.trans h.freed,
    h'.netlink ∘ h.netlink⟩

theorem WellFormed.srcOnly (hr : WellFormed cfg r) (h : SrcOnly r r') : WellFormed cfg r' :=
  hr.sublist h.heap h.localRoute (h.table ▸ List.Sublist.refl _)

theorem srcOnly_rpdbRule (r : Routing) : SrcOnly r r.rpdbRule.2 :=
  ⟨rfl, rfl, rfl, rfl, rfl, rfl, fun h ↦ by simp [Routing.rpdbRule, h, Outcomes.rest]⟩

theorem srcOnly_insertSrcListEntry (cfg : Config) (ip : Ip) (r : Routing) :
    SrcOnly r (r.insertSrcListEntry cfg ip).2 := by
  have hmem : SrcOnly r { r with kmalloc := r.kmalloc.rest } := { SrcOnly.refl r with }
  unfold Routing.insertSrcListEntry
  split
  · exact hmem
  dsimp only
  split
  · split
    · exact hmem
    split
    · exact (hmem.trans (srcOnly_rpdbRule _)).trans { SrcOnly.refl _ with }
    · exact hmem.trans (srcOnly_rpdbRule _)
  · exact hmem.trans { SrcOnly.refl _ with }

theorem srcOnly_sourceEntry (cfg : Config) (srcIp : Ip) (r : Routing) :
    SrcOnly r (r.sourceEntry cfg srcIp).2 := by
  unfold Routing.sourceEntry
  split
  · exact srcOnly_insertSrcListEntry cfg srcIp r
  · exact .refl r

theorem srcOnly_modifySrc (ip : Ip) (f : ℤ → ℤ) (r : Routing) : SrcOnly r (r.modifySrc ip f) :=
  { SrcOnly.refl r with }

theorem srcOnly_deleteSrcListEntry (ip : Ip) (r : Routing) :
    SrcOnly r (r.deleteSrcListEntry ip) := by
  have herase : ∀ l, SrcOnly r { r with srcList := l } := fun _ ↦ { SrcOnly.refl r with }
  unfold Routing.deleteSrcListEntry
  split
  · exact .refl r
  dsimp only
  split
  · exact (herase _).trans (srcOnly_rpdbRule _)
  · exact herase _

/-- A route of the DTN hello protocol, which `rpdb_route` keeps from the
kernel. -/
def IsDtn (cfg : Config) (srcIp dstIp : Ip) : Prop := dstIp = cfg.dtnHelloIp ∨ srcIp = cfg.dtnHelloIp

instance (cfg : Config) (srcIp dstIp : Ip) : Decidable (IsDtn cfg srcIp dstIp) :=
  inferInstanceAs (Decidable (_ ∨ _))

theorem newRoute_eq (hr : r.netlink = []) (byRrep : Bool) (srcIp : Ip) (k : KernelRoute) :
    r.newRoute cfg byRrep srcIp k = (true,
      if IsDtn cfg srcIp k.dst then r
      else { r with
        kernel := insert k r.kernel
        installed := if byRrep then insert k r.installed else r.installed }) := by
  by_cases hd : IsDtn cfg srcIp k.dst
  · rw [if_pos hd]
    exact if_pos hd
  · rw [if_neg hd]
    refine (if_neg hd).trans ?_
    simp [hr, Outcomes.next, Outcomes.rest]

theorem delRoute_eq (hr : r.netlink = []) (srcIp : Ip) (k : KernelRoute) :
    r.delRoute cfg srcIp k = (true,
      if IsDtn cfg srcIp k.dst then r
      else { r with kernel := r.kernel.erase k, installed := r.installed.erase k }) := by
  by_cases hd : IsDtn cfg srcIp k.dst
  · rw [if_pos hd]
    exact if_pos hd
  · rw [if_neg hd]
    refine (if_neg hd).trans ?_
    simp [hr, Outcomes.next, Outcomes.rest]

theorem newRoute_table {byRrep ok : Bool} {srcIp : Ip} {k : KernelRoute}
    (h : r.newRoute cfg byRrep srcIp k = (ok, r')) :
    r'.table = r.table ∧ r'.heap = r.heap ∧ r'.localRoute = r.localRoute := by
  unfold Routing.newRoute at h
  split at h
  · exact (Prod.mk.inj h).2 ▸ ⟨rfl, rfl, rfl⟩
  split at h <;> exact (Prod.mk.inj h).2 ▸ ⟨rfl, rfl, rfl⟩

theorem delRoute_table {ok : Bool} {srcIp : Ip} {k : KernelRoute}
    (h : r.delRoute cfg srcIp k = (ok, r')) :
    r'.table = r.table ∧ r'.heap = r.heap ∧ r'.localRoute = r.localRoute := by
  unfold Routing.delRoute at h
  split at h
  · exact (Prod.mk.inj h).2 ▸ ⟨rfl, rfl, rfl⟩
  split at h <;> exact (Prod.mk.inj h).2 ▸ ⟨rfl, rfl, rfl⟩

theorem newRoute_freed {byRrep ok : Bool} {srcIp : Ip} {k : KernelRoute}
    (h : r.newRoute cfg byRrep srcIp k = (ok, r')) : r'.freed = r.freed := by
  unfold Routing.newRoute at h
  split at h
  · exact (Prod.mk.inj h).2 ▸ rfl
  split at h <;> exact (Prod.mk.inj h).2 ▸ rfl

theorem delRoute_freed {ok : Bool} {srcIp : Ip} {k : KernelRoute}
    (h : r.delRoute cfg srcIp k = (ok, r')) : r'.freed = r.freed := by
  unfold Routing.delRoute at h
  split at h
  · exact (Prod.mk.inj h).2 ▸ rfl
  split at h <;> exact (Prod.mk.inj h).2 ▸ rfl

theorem delRoute_srcList {ok : Bool} {srcIp : Ip} {k : KernelRoute}
    (h : r.delRoute cfg srcIp k = (ok, r')) : r'.srcList = r.srcList := by
  unfold Routing.delRoute at h
  split at h
  · exact (Prod.mk.inj h).2 ▸ rfl
  split at h <;> exact (Prod.mk.inj h).2 ▸ rfl

/-- The outcomes of `rreqEntry`. -/
inductive RreqEntry (cfg : Config) (srcIp dstIp : Ip) (tos : UInt8) (dstId pathMetric : UInt32)
    (r : Routing) : Option (AodvRoute × RouteState) → Routing → Prop
  | full {r' : Routing} (hfind : r.findAodvRoute srcIp dstIp tos = none) (h : Touches cfg r r') :
      RreqEntry cfg srcIp dstIp tos dstId pathMetric r none r'
  | unlisted {new : AodvRoute} {lifetime : ℕ} {r₀ r' : Routing}
      (hfind : r.findAodvRoute srcIp dstIp tos = none)
      (hnew : new = freshEntry r.heap srcIp dstIp tos dstId lifetime) (h : Inserts new r r₀)
      (hsrc : SrcOnly r₀ r') : RreqEntry cfg srcIp dstIp tos dstId pathMetric r none r'
  | created {new : AodvRoute} {lifetime : ℕ} {r₀ r' : Routing}
      (hfind : r.findAodvRoute srcIp dstIp tos = none)
      (hnew : new = freshEntry r.heap srcIp dstIp tos dstId lifetime) (h : Inserts new r r₀)
      (hsrc : SrcOnly r₀ r') :
      RreqEntry cfg srcIp dstIp tos dstId pathMetric r (some (new, .invalid)) r'
  | rejected {e : AodvRoute} (hfind : r.findAodvRoute srcIp dstIp tos = some e)
      (h : e.rejects dstId pathMetric = true) : RreqEntry cfg srcIp dstIp tos dstId pathMetric r none r
  | refused {e : AodvRoute} {r' : Routing} (hfind : r.findAodvRoute srcIp dstIp tos = some e)
      (h : r.delRoute cfg e.srcIp e.kernelRoute = (false, r')) :
      RreqEntry cfg srcIp dstIp tos dstId pathMetric r none r'
  | invalid {e : AodvRoute} (hfind : r.findAodvRoute srcIp dstIp tos = some e)
      (hrej : e.rejects dstId pathMetric = false) (hstate : e.state = .invalid) :
      RreqEntry cfg srcIp dstIp tos dstId pathMetric r (some (e, e.state)) r
  | withdrawn {e : AodvRoute} {r' : Routing} (hfind : r.findAodvRoute srcIp dstIp tos = some e)
      (hrej : e.rejects dstId pathMetric = false) (hstate : e.state ≠ .invalid)
      (h : r.delRoute cfg e.srcIp e.kernelRoute = (true, r')) :
      RreqEntry cfg srcIp dstIp tos dstId pathMetric r (some (e, e.state)) r'

theorem rreqEntry_spec (cfg : Config) (srcIp dstIp : Ip) (tos : UInt8) (dstId pathMetric : UInt32)
    (r : Routing) :
    RreqEntry cfg srcIp dstIp tos dstId pathMetric r
      (r.rreqEntry cfg srcIp dstIp tos dstId pathMetric).1
      (r.rreqEntry cfg srcIp dstIp tos dstId pathMetric).2 := by
  unfold Routing.rreqEntry
  cases hfind : r.findAodvRoute srcIp dstIp tos with
  | none =>
    dsimp only
    rcases hcreate : r.createAodvRoute srcIp dstIp tos dstId with ⟨o, r₀⟩
    rcases createAodvRoute_cases cfg hcreate with ⟨rfl, htouch⟩ | ⟨lifetime, rfl, hins⟩
    · exact .full hfind htouch
    · dsimp only
      have hsrc := srcOnly_sourceEntry cfg srcIp r₀
      rcases hs : r₀.sourceEntry cfg srcIp with ⟨_ | s, r₁⟩
      · exact .unlisted hfind rfl hins (by rwa [hs] at hsrc)
      · rw [hs] at hsrc
        exact .created hfind rfl hins (hsrc.trans (srcOnly_modifySrc srcIp (· + 1) r₁))
  | some e =>
    dsimp only
    split
    · next hrej => exact .rejected hfind hrej
    next hrej =>
      have hrej : e.rejects dstId pathMetric = false := by simpa using hrej
      split
      · next hstate =>
        rcases hdel : r.delRoute cfg e.srcIp e.kernelRoute with ⟨ok, r'⟩
        cases ok with
        | true => exact .withdrawn hfind hrej hstate hdel
        | false => exact .refused hfind hdel
      · next hstate => exact .invalid hfind hrej (by simpa using hstate)

/-- The entry that `rreq_aodv_route` goes on to update is in the table and has
the key. -/
theorem RreqEntry.mem {srcIp dstIp : Ip} {tos : UInt8} {dstId pathMetric : UInt32} {e : AodvRoute}
    {st : RouteState} (h : RreqEntry cfg srcIp dstIp tos dstId pathMetric r (some (e, st)) r') :
    e ∈ r'.table ∧ e.srcIp = srcIp ∧ e.dstIp = dstIp ∧ e.tos = tos := by
  cases h with
  | created hfind hnew h hsrc =>
    refine ⟨hsrc.table ▸ h.mem.mpr (.inl rfl), ?_⟩
    rw [hnew]
    exact ⟨rfl, rfl, rfl⟩
  | invalid hfind => exact findAodvRoute_some hfind
  | withdrawn hfind _ _ h =>
    obtain ⟨he, hkey⟩ := findAodvRoute_some hfind
    exact ⟨(delRoute_table h).1 ▸ he, hkey⟩

/-- The new contents of an entry in `rreq_aodv_route`. -/
def rreqUpdate (now : ℕ) (nextHop : Ip) (hops : UInt8) (dstId pathMetric : UInt32) (e : AodvRoute) :
    AodvRoute :=
  { e with
    pathMetric := pathMetric
    dstId := dstId
    numHops := hops
    nextHop := nextHop
    lifetime := now + deletePeriod
    state := .active }

theorem touches_setLoad (cfg : Config) (ptr : ℕ) (load : UInt8) (r : Routing) :
    Touches cfg r (r.modifyAt ptr fun e ↦ { e with load := load }) :=
  touches_modifyAt fun _ _ _ ↦ ⟨rfl, rfl, rfl, rfl, rfl, rfl, rfl, rfl, rfl, .inl rfl, id⟩

/-- What `rreq_aodv_route` does: nothing but what `rreqEntry` did, or the update
of the entry that it gave. -/
theorem rreqAodvRoute_cases {now : ℕ} {srcIp dstIp : Ip} {tos : UInt8} {nextHop : Ip}
    {sendRate : UInt16} {hops : UInt8} {dstId pathMetric : UInt32} {ok : Bool}
    (h : r.rreqAodvRoute cfg now srcIp dstIp tos nextHop sendRate hops dstId pathMetric =
      some (ok, r')) :
    (ok = false ∧ r.rreqEntry cfg srcIp dstIp tos dstId pathMetric = (none, r') ∧
        RreqEntry cfg srcIp dstIp tos dstId pathMetric r none r') ∨
      ok = true ∧ ∃ e st r₁, r.rreqEntry cfg srcIp dstIp tos dstId pathMetric = (some (e, st), r₁) ∧
        RreqEntry cfg srcIp dstIp tos dstId pathMetric r (some (e, st)) r₁ ∧
        Touches cfg (r₁.modifyAt e.ptr (rreqUpdate now nextHop hops dstId pathMetric)) r' := by
  have hspec := rreqEntry_spec cfg srcIp dstIp tos dstId pathMetric r
  unfold Routing.rreqAodvRoute at h
  split at h
  · next r₁ heq =>
    simp only [Option.some.injEq, Prod.mk.injEq] at h
    obtain ⟨rfl, rfl⟩ := h
    rw [heq] at hspec
    exact .inl ⟨rfl, heq, hspec⟩
  · next e st r₁ heq =>
    rw [heq] at hspec
    right
    split at h
    · obtain ⟨load, -, h⟩ := Option.bind_eq_some_iff.mp h
      simp only [Option.some.injEq, Prod.mk.injEq] at h
      obtain ⟨rfl, rfl⟩ := h
      refine ⟨rfl, e, st, r₁, heq, hspec, (touches_setLoad cfg e.ptr load _).trans ?_⟩
      split
      · exact touches_updateMyLoad cfg _
      · exact .refl cfg _
    · simp only [Option.some.injEq, Prod.mk.injEq] at h
      obtain ⟨rfl, rfl⟩ := h
      exact ⟨rfl, e, st, r₁, heq, hspec, .refl cfg _⟩

theorem rrepAodvRoute_cases {now ptr : ℕ} {o : Option AodvRoute}
    (h : r.rrepAodvRoute cfg now ptr = some (o, r')) :
    ∃ e, r.entryAt ptr = some e ∧
      ((r.findSrcListEntry e.srcIp = none ∧ o = none ∧ r' = r) ∨
        (r.newRoute cfg true e.srcIp e.kernelRoute = (false, r') ∧ o = none) ∨
        ∃ r₁, r.findSrcListEntry e.srcIp ≠ none ∧
          r.newRoute cfg true e.srcIp e.kernelRoute = (true, r₁) ∧ o = some e ∧
          r' = r₁.modifyAt ptr fun e ↦ { e with state := .replied, lifetime := now + deletePeriod }) := by
  obtain ⟨e, he, h⟩ := Option.bind_eq_some_iff.mp h
  refine ⟨e, he, ?_⟩
  split at h
  · next hsrc =>
    simp only [Option.some.injEq, Prod.mk.injEq] at h
    obtain ⟨rfl, rfl⟩ := h
    exact .inl ⟨hsrc, rfl, rfl⟩
  · next hsrc =>
    rcases hnew : r.newRoute cfg true e.srcIp e.kernelRoute with ⟨ok, r₁⟩
    cases ok with
    | true =>
      simp only [hnew, if_true, Option.some.injEq, Prod.mk.injEq] at h
      obtain ⟨rfl, rfl⟩ := h
      exact .inr (.inr ⟨r₁, by simp [hsrc], rfl, rfl, rfl⟩)
    | false =>
      simp only [hnew, Bool.false_eq_true, if_false, Option.some.injEq, Prod.mk.injEq] at h
      obtain ⟨rfl, rfl⟩ := h
      exact .inr (.inl ⟨rfl, rfl⟩)

/-- What `flush_aodv_route_table` does for one entry. -/
inductive FlushEntry (cfg : Config) (now : ℕ) (r : Routing) (e : AodvRoute) : Routing → Prop
  | kept (h : timeBefore e.lifetime now = false ∨ e.selfRoute = true) : FlushEntry cfg now r e r
  | expired (hdue : timeBefore e.lifetime now = true) (hself : e.selfRoute = false)
      (hstate : e.state ≠ .invalid) : FlushEntry cfg now r e (r.expireAodvRoute now e.ptr)
  | forgotten (hdue : timeBefore e.lifetime now = true) (hself : e.selfRoute = false)
      (hstate : e.state = .invalid) (hsrc : r.findSrcListEntry e.srcIp = none) :
      FlushEntry cfg now r e (r.removeAodvRoute e.ptr)
  | removed {r₀ r₁ r₂ : Routing} (hdue : timeBefore e.lifetime now = true)
      (hself : e.selfRoute = false) (hstate : e.state = .invalid)
      (hsrc : r.findSrcListEntry e.srcIp ≠ none) (h₀ : SrcOnly r r₀)
      (h₁ : r₁ = if e.neighRoute = true then r₀ else (r₀.delRoute cfg e.srcIp e.kernelRoute).2)
      (h₂ : SrcOnly r₁ r₂) : FlushEntry cfg now r e (r₂.removeAodvRoute e.ptr)

theorem flushEntry_spec (cfg : Config) (now : ℕ) (r : Routing) (e : AodvRoute) :
    FlushEntry cfg now r e (r.flushEntry cfg now e) := by
  unfold Routing.flushEntry
  split
  · next hdue =>
    obtain ⟨hdue, hself⟩ := Bool.and_eq_true_iff.mp hdue
    have hself : e.selfRoute = false := by simpa using hself
    split
    · next hstate => exact .expired hdue hself hstate
    next hstate =>
      have hstate : e.state = .invalid := by simpa using hstate
      dsimp only
      split
      · next hsrc => exact .forgotten hdue hself hstate hsrc
      · next s hsrc =>
        have h₀ : SrcOnly r (r.modifySrc e.srcIp (· - 1)) := srcOnly_modifySrc _ _ _
        refine .removed hdue hself hstate (by simp [hsrc]) h₀ rfl ?_
        generalize (if e.neighRoute = true then _ else _) = r₁
        split
        · split
          · exact srcOnly_deleteSrcListEntry _ _
          · exact srcOnly_modifySrc _ _ _
        · exact .refl _
  · next hdue =>
    refine .kept ?_
    cases hb : timeBefore e.lifetime now
    · exact .inl rfl
    · exact .inr (by simpa [hb] using hdue)

end Operations

section Preservation

variable {cfg : Config} {r r' : Routing}

theorem sameKey_rreqUpdate (now : ℕ) (nextHop : Ip) (hops : UInt8) (dstId pathMetric : UInt32)
    (e : AodvRoute) : SameKey e (rreqUpdate now nextHop hops dstId pathMetric e) :=
  ⟨rfl, rfl, rfl, rfl, rfl, rfl⟩

theorem WellFormed.newRoute (hr : WellFormed cfg r) {byRrep ok : Bool} {srcIp : Ip} {k : KernelRoute}
    (h : r.newRoute cfg byRrep srcIp k = (ok, r')) : WellFormed cfg r' := by
  obtain ⟨htable, hheap, hlocal⟩ := newRoute_table h
  exact hr.sublist hheap hlocal (htable ▸ List.Sublist.refl _)

theorem WellFormed.delRoute (hr : WellFormed cfg r) {ok : Bool} {srcIp : Ip} {k : KernelRoute}
    (h : r.delRoute cfg srcIp k = (ok, r')) : WellFormed cfg r' := by
  obtain ⟨htable, hheap, hlocal⟩ := delRoute_table h
  exact hr.sublist hheap hlocal (htable ▸ List.Sublist.refl _)

theorem WellFormed.rreqEntry (hr : WellFormed cfg r) {srcIp dstIp : Ip} {tos : UInt8}
    {dstId pathMetric : UInt32} {o : Option (AodvRoute × RouteState)}
    (h : RreqEntry cfg srcIp dstIp tos dstId pathMetric r o r') : WellFormed cfg r' := by
  cases h with
  | full _ h => exact hr.touches h
  | unlisted _ hnew h hsrc => exact (hr.inserts h (by rw [hnew]; exact nofun)).srcOnly hsrc
  | created _ hnew h hsrc => exact (hr.inserts h (by rw [hnew]; exact nofun)).srcOnly hsrc
  | rejected => exact hr
  | refused _ h => exact hr.delRoute h
  | invalid => exact hr
  | withdrawn _ _ _ h => exact hr.delRoute h

theorem WellFormed.rreqAodvRoute (hr : WellFormed cfg r) {now : ℕ} {srcIp dstIp : Ip} {tos : UInt8}
    {nextHop : Ip} {sendRate : UInt16} {hops : UInt8} {dstId pathMetric : UInt32} {ok : Bool}
    (h : r.rreqAodvRoute cfg now srcIp dstIp tos nextHop sendRate hops dstId pathMetric =
      some (ok, r')) : WellFormed cfg r' := by
  rcases rreqAodvRoute_cases h with ⟨-, -, h⟩ | ⟨-, e, st, r₁, -, h, htouch⟩
  · exact hr.rreqEntry h
  · exact ((hr.rreqEntry h).modifyAt e.ptr (sameKey_rreqUpdate _ _ _ _ _)).touches htouch

theorem WellFormed.rrepAodvRoute (hr : WellFormed cfg r) {now ptr : ℕ} {o : Option AodvRoute}
    (h : r.rrepAodvRoute cfg now ptr = some (o, r')) : WellFormed cfg r' := by
  obtain ⟨e, -, ⟨-, -, rfl⟩ | ⟨hnew, -⟩ | ⟨r₁, -, hnew, -, rfl⟩⟩ := rrepAodvRoute_cases h
  · exact hr
  · exact hr.newRoute hnew
  · exact (hr.newRoute hnew).modifyAt ptr fun _ ↦ ⟨rfl, rfl, rfl, rfl, rfl, rfl⟩

theorem WellFormed.removeAodvRoute (hr : WellFormed cfg r) (ptr : ℕ) :
    WellFormed cfg (r.removeAodvRoute ptr) :=
  hr.sublist rfl rfl List.filter_sublist

theorem WellFormed.flushEntry (hr : WellFormed cfg r) {now : ℕ} {e : AodvRoute}
    (h : FlushEntry cfg now r e r') : WellFormed cfg r' := by
  cases h with
  | kept => exact hr
  | expired => exact hr.touches (touches_expireAodvRoute _ _ _ _)
  | forgotten => exact hr.removeAodvRoute _
  | @removed r₀ r₁ r₂ _ _ _ _ h₀ h₁ h₂ =>
    have hr₁ : WellFormed cfg r₁ := by
      rw [h₁]
      split
      · exact hr.srcOnly h₀
      · exact (hr.srcOnly h₀).delRoute rfl
    exact (hr₁.srcOnly h₂).removeAodvRoute _

/-- What one turn of the flush keeps, the flush keeps. -/
theorem flushAodvRouteTable_induct {now : ℕ} {Q : Routing → Prop} (hr : Q r)
    (hstep : ∀ r₁ e, Q r₁ → Q (r₁.flushEntry cfg now e)) (hload : ∀ r₁, Q r₁ → Q r₁.updateMyLoad) :
    Q (r.flushAodvRouteTable cfg now) := by
  have hfold : Q (r.table.foldl (Routing.flushEntry cfg now) r) := by
    generalize r.table = l
    induction l generalizing r with
    | nil => exact hr
    | cons e l ih => exact ih (hstep r e hr)
  unfold Routing.flushAodvRouteTable
  dsimp only
  split
  · exact hload _ hfold
  · exact hfold

theorem WellFormed.flushAodvRouteTable (hr : WellFormed cfg r) (now : ℕ) :
    WellFormed cfg (r.flushAodvRouteTable cfg now) :=
  flushAodvRouteTable_induct hr (fun _ _ h ↦ h.flushEntry (flushEntry_spec _ _ _ _))
    fun _ h ↦ h.touches (touches_updateMyLoad _ _)

theorem FlushEntry.mem {now : ℕ} {e x : AodvRoute} (h : FlushEntry cfg now r e r')
    (hx : x ∈ r.table) (hptr : x.ptr ≠ e.ptr) : x ∈ r'.table := by
  have hremove : ∀ r₁ : Routing, r₁.table = r.table → x ∈ (r₁.removeAodvRoute e.ptr).table :=
    fun r₁ htable ↦ List.mem_filter.mpr ⟨htable ▸ hx, by simpa using hptr⟩
  cases h with
  | kept => exact hx
  | expired => exact List.mem_map.mpr ⟨x, hx, if_neg hptr⟩
  | forgotten => exact hremove r rfl
  | @removed r₀ r₁ r₂ _ _ _ _ h₀ h₁ h₂ =>
    refine hremove r₂ (h₂.table.trans ?_)
    rw [h₁]
    split
    · exact h₀.table
    · exact (delRoute_table rfl).1.trans h₀.table

/-- The flush turn by turn. An entry whose turn has not come is in the table as
it was. -/
theorem flush_from {now : ℕ} {Q : Routing → Prop} (hr : WellFormed cfg r) (hQ : Q r)
    (hstep : ∀ l₁ e l₂, r.table = l₁ ++ e :: l₂ → ∀ r₁, r₁ = l₁.foldl (Routing.flushEntry cfg now) r →
      WellFormed cfg r₁ → e ∈ r₁.table → Q r₁ → Q (r₁.flushEntry cfg now e))
    (l₁ l₂ : List AodvRoute) (htable : r.table = l₁ ++ l₂) :
    WellFormed cfg (l₁.foldl (Routing.flushEntry cfg now) r) ∧
      (∀ x ∈ l₂, x ∈ (l₁.foldl (Routing.flushEntry cfg now) r).table) ∧
      Q (l₁.foldl (Routing.flushEntry cfg now) r) := by
  induction l₁ using List.reverseRecOn generalizing l₂ with
  | nil => exact ⟨hr, fun x hx ↦ htable ▸ hx, hQ⟩
  | append_singleton l₁ e ih =>
    have htable' : r.table = l₁ ++ e :: l₂ := by rw [htable, List.append_assoc]; rfl
    obtain ⟨hwf, hmem, hQ₁⟩ := ih (e :: l₂) htable'
    have hspec := flushEntry_spec cfg now (l₁.foldl (Routing.flushEntry cfg now) r) e
    have hnodup : ((e :: l₂).map AodvRoute.ptr).Nodup := by
      have := hr.distinct
      rw [htable', List.map_append, List.nodup_append] at this
      exact this.2.1
    rw [List.foldl_append]
    refine ⟨hwf.flushEntry hspec, fun x hx ↦ ?_,
      hstep l₁ e l₂ htable' _ rfl hwf (hmem e List.mem_cons_self) hQ₁⟩
    refine hspec.mem (hmem x (List.mem_cons_of_mem _ hx)) fun hptr ↦ ?_
    exact (List.nodup_cons.mp hnodup).1 (List.mem_map.mpr ⟨x, hx, hptr⟩)

theorem flushAodvRouteTable_turns {now : ℕ} {Q : Routing → Prop} (hr : WellFormed cfg r) (hQ : Q r)
    (hstep : ∀ l₁ e l₂, r.table = l₁ ++ e :: l₂ → ∀ r₁, r₁ = l₁.foldl (Routing.flushEntry cfg now) r →
      WellFormed cfg r₁ → e ∈ r₁.table → Q r₁ → Q (r₁.flushEntry cfg now e))
    (hload : ∀ r₁, Q r₁ → Q r₁.updateMyLoad) : Q (r.flushAodvRouteTable cfg now) := by
  have hall := (flush_from hr hQ hstep r.table [] (List.append_nil _).symm).2.2
  unfold Routing.flushAodvRouteTable
  dsimp only
  split
  · exact hload _ hall
  · exact hall

end Preservation

end Fbaodv.Proofs.RoutingInvariant
