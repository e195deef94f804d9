import Fbaodv.Proofs.FreedRoutes
import Fbaodv.Proofs.RouteKeys
import Fbaodv.Proofs.ServedRoutes

namespace Fbaodv.Proofs.SourceAccounts

open Fbaodv.Model Fbaodv.Model.Node Fbaodv.Foundation
open Fbaodv.Proofs.RouteFrame Fbaodv.Proofs.RoutingInvariant Fbaodv.Proofs.HandlerSpecs
open Fbaodv.Proofs.NodeRun Fbaodv.Proofs.PacketDiscovery Fbaodv.Proofs.NeighLoss
open Fbaodv.Proofs.FreedRoutes Fbaodv.Proofs.RouteKeys Fbaodv.Proofs.ServedRoutes

/-- The number of entries with this source that are no self routes. -/
def numEntries (srcIp : Ip) (table : List AodvRoute) : ℕ :=
  table.countP fun e ↦ e.srcIp == srcIp && !e.selfRoute

/-- What `num_routes` counts besides the entries. -/
def ownRoute (cfg : Config) (srcIp : Ip) : ℕ := if srcIp = cfg.gMeshIp then 1 else 0

/-- Every source of an entry has one element of the list, which counts its
entries. -/
def SourcesCounted (cfg : Config) (r : Routing) : Prop :=
  ∀ e ∈ r.table, e.selfRoute = false → ∃ s, r.srcList.filter (fun s ↦ s.ip == e.srcIp) = [s] ∧
    s.numRoutes = numEntries e.srcIp r.table + ownRoute cfg e.srcIp

/-- The flush calls `delete_src_list_entry` for the entry `e`. -/
def DeletesSource (cfg : Config) (now : ℕ) (r : Routing) (e : AodvRoute) : Prop :=
  timeBefore e.lifetime now = true ∧ e.selfRoute = false ∧ e.state = .invalid ∧
    ∃ s, r.findSrcListEntry e.srcIp = some s ∧ s.numRoutes - 1 ≤ 0 ∧ s.ip ≠ cfg.gMeshIp

/-- Whenever a flush of these tables deletes a source, the entry whose turn it is
is the last one that has it. -/
def DeletesUnused (cfg : Config) (r : Routing) : Prop :=
  ∀ now l₁ e l₂, r.table = l₁ ++ e :: l₂ → ∀ r₁, r₁ = l₁.foldl (Routing.flushEntry cfg now) r →
    DeletesSource cfg now r₁ e → ∀ x ∈ r₁.table, x.srcIp = e.srcIp → x.ptr = e.ptr

/-- An entry that `rreq_aodv_route` creates finds its source listed, or the
source can be listed. -/
def ListsSource (r : Routing) (srcIp dstIp : Ip) (tos : UInt8) : Prop :=
  r.findAodvRoute srcIp dstIp tos = none → r.kmalloc.next = true →
    r.findSrcListEntry srcIp ≠ none ∨ r.kmalloc.rest.next = true ∧
      (srcIp = gNullIp ∨ r.findFirstRttable ≤ maxRouteTables ∧ r.netlink.next = true)

structure Counted (cfg : Config) (r : Routing) : Prop where
  wf : WellFormed cfg r
  self : ∀ e ∈ r.table, e.selfRoute = true → e.srcIp = cfg.gMeshIp
  listed : ∀ e ∈ r.table, e.selfRoute = false → ∃ s ∈ r.srcList, s.ip = e.srcIp
  distinct : (r.srcList.map SrcListEntry.ip).Nodup
  count : ∀ s ∈ r.srcList, s.numRoutes = numEntries s.ip r.table + ownRoute cfg s.ip

section Lists

theorem pairwise_ip {l : List SrcListEntry} (h : (l.map SrcListEntry.ip).Nodup) (ip : Ip) :
    l.Pairwise fun a b ↦ (a.ip == ip) = true → (b.ip == ip) = false := by
  refine (List.pairwise_map.mp h).imp fun {a b} hne ha ↦ ?_
  simp only [beq_iff_eq] at ha
  simpa [← ha] using hne.symm

theorem filter_eq_singleton {l : List SrcListEntry} (h : (l.map SrcListEntry.ip).Nodup)
    {s : SrcListEntry} (hs : s ∈ l) : l.filter (fun x ↦ x.ip == s.ip) = [s] := by
  have hp := pairwise_ip h s.ip
  induction l with
  | nil => cases hs
  | cons x l ih =>
    obtain ⟨hx, hp⟩ := List.pairwise_cons.mp hp
    rcases List.mem_cons.mp hs with rfl | hs
    · rw [List.filter_cons_of_pos (by simp), List.filter_eq_nil_iff.mpr]
      exact fun y hy ↦ by simpa using hx y hy (by simp)
    · have hne : ¬ (x.ip == s.ip) = true := fun hxs ↦ by simpa using hx s hs hxs
      rw [List.filter_cons_of_neg (p := fun x : SrcListEntry ↦ x.ip == s.ip) hne]
      exact ih (List.nodup_cons.mp h).2 hs hp

theorem find_src_some {r : Routing} {ip : Ip} {s : SrcListEntry} (h : r.findSrcListEntry ip = some s) :
    s ∈ r.srcList ∧ s.ip = ip :=
  ⟨List.mem_of_find?_eq_some h, by simpa using List.find?_some h⟩

theorem find_src_none {r : Routing} {ip : Ip} (h : r.findSrcListEntry ip = none) :
    ∀ s ∈ r.srcList, s.ip ≠ ip := fun s hs ↦ by simpa using List.find?_eq_none.mp h s hs

theorem deleteSrcListEntry_srcList {r : Routing} (h : (r.srcList.map SrcListEntry.ip).Nodup)
    (ip : Ip) :
    (r.deleteSrcListEntry ip).srcList = r.srcList.filter fun s ↦ !(s.ip == ip) := by
  unfold Routing.deleteSrcListEntry
  split
  · next hnone =>
    exact (List.filter_eq_self.mpr fun s hs ↦ by simpa using find_src_none hnone s hs).symm
  · rw [← OrderedList.eraseP_eq_filter (pairwise_ip h ip)]
    dsimp only
    split <;> rfl

theorem numEntries_inserts {r r' : Routing} {new : AodvRoute} (h : Inserts new r r') (ip : Ip) :
    numEntries ip r'.table =
      numEntries ip r.table + if new.srcIp = ip ∧ new.selfRoute = false then 1 else 0 := by
  rw [numEntries, h.table, (OrderedList.insertBy_perm _ _ _).countP_eq, List.countP_cons]
  simp [numEntries]

theorem perm_cons_filter {cfg : Config} {r : Routing} (hr : WellFormed cfg r) {e : AodvRoute}
    (he : e ∈ r.table) : r.table.Perm (e :: r.table.filter fun x ↦ x.ptr ≠ e.ptr) := by
  have hnodup : r.table.Nodup := hr.distinct.of_map
  have herase : r.table.erase e = r.table.filter fun x ↦ x.ptr ≠ e.ptr := by
    rw [hnodup.erase_eq_filter]
    refine List.filter_congr fun x hx ↦ ?_
    by_cases hxe : x = e
    · simp [hxe]
    · have hptr : x.ptr ≠ e.ptr := fun hptr ↦ hxe (hr.eq_of_ptr he hx hptr)
      simp [hxe, hptr]
  exact herase ▸ List.perm_cons_erase he

theorem numEntries_remove {cfg : Config} {r : Routing} (hr : WellFormed cfg r) {e : AodvRoute}
    (he : e ∈ r.table) (ip : Ip) : numEntries ip r.table =
      numEntries ip (r.removeAodvRoute e.ptr).table +
        if e.srcIp = ip ∧ e.selfRoute = false then 1 else 0 := by
  rw [numEntries, (perm_cons_filter hr he).countP_eq, List.countP_cons]
  simp [numEntries, Routing.removeAodvRoute]

theorem numEntries_keys {l l' : List AodvRoute} (h : List.Forall₂ SameKey l l') (ip : Ip) :
    numEntries ip l' = numEntries ip l := by
  unfold numEntries
  induction h with
  | nil => rfl
  | cons hkey _ ih => rw [List.countP_cons, List.countP_cons, ih, hkey.srcIp, hkey.selfRoute]

end Lists

section Tables

variable {cfg : Config} {r r' : Routing}

theorem Counted.sourcesCounted (hr : Counted cfg r) : SourcesCounted cfg r := by
  intro e he hself
  obtain ⟨s, hs, hip⟩ := hr.listed e he hself
  exact ⟨s, hip ▸ filter_eq_singleton hr.distinct hs, hip ▸ hr.count s hs⟩

theorem Counted.keep (hr : Counted cfg r) (hwf : WellFormed cfg r')
    (h : List.Forall₂ SameKey r.table r'.table) (hsrc : r'.srcList = r.srcList) : Counted cfg r' where
  wf := hwf
  self := by
    intro e' he'
    obtain ⟨e, he, hkey⟩ := Pointwise.exists_of_mem_right h he'
    rw [hkey.selfRoute, hkey.srcIp]
    exact hr.self e he
  listed := by
    intro e' he'
    obtain ⟨e, he, hkey⟩ := Pointwise.exists_of_mem_right h he'
    rw [hkey.selfRoute, hkey.srcIp, hsrc]
    exact hr.listed e he
  distinct := hsrc ▸ hr.distinct
  count := by
    intro s hs
    rw [numEntries_keys h]
    exact hr.count s (hsrc ▸ hs)

theorem Counted.touches (hr : Counted cfg r) (h : Touches cfg r r') : Counted cfg r' :=
  hr.keep (hr.wf.touches h) (h.entries.imp fun _ _ ↦ EntryTouch.sameKey) h.srcList

theorem Counted.table (hr : Counted cfg r) (hwf : WellFormed cfg r') (htable : r'.table = r.table)
    (hsrc : r'.srcList = r.srcList) : Counted cfg r' :=
  hr.keep hwf (htable ▸ List.forall₂_same.mpr fun e _ ↦ .refl e) hsrc

theorem Counted.modifyAt (hr : Counted cfg r) (ptr : ℕ) {f : AodvRoute → AodvRoute}
    (hf : ∀ e, SameKey e (f e)) : Counted cfg (r.modifyAt ptr f) := by
  refine hr.keep (hr.wf.modifyAt ptr hf) (Pointwise.forall₂_map fun e _ ↦ ?_) rfl
  split
  · exact hf e
  · exact .refl e

theorem Counted.insertsSelf (hr : Counted cfg r) {new : AodvRoute} (h : Inserts new r r')
    (hself : new.selfRoute = true) (hsrc : new.srcIp = cfg.gMeshIp) : Counted cfg r' where
  wf := hr.wf.inserts h fun _ ↦ hself
  self := by
    intro e he hes
    rcases h.mem.mp he with rfl | he
    · exact hsrc
    · exact hr.self e he hes
  listed := by
    intro e he hes
    rw [h.srcList]
    rcases h.mem.mp he with rfl | he
    · simp [hself] at hes
    · exact hr.listed e he hes
  distinct := h.srcList ▸ hr.distinct
  count := by
    intro s hs
    rw [numEntries_inserts h, if_neg (by simp [hself]), Nat.add_zero]
    exact hr.count s (h.srcList ▸ hs)

/-- The source list with one more route for a source. -/
inductive CountsOneMore (cfg : Config) (ip : Ip) (l : List SrcListEntry) : List SrcListEntry → Prop
  | listed (h : ∃ s ∈ l, s.ip = ip) : CountsOneMore cfg ip l
      (OrderedList.modifyFirst (fun s ↦ s.ip == ip) (fun s ↦ { s with numRoutes := s.numRoutes + 1 }) l)
  | inserted (rtTable : ℕ) (h : ∀ s ∈ l, s.ip ≠ ip) :
      CountsOneMore cfg ip l (⟨ip, rtTable, ownRoute cfg ip + 1⟩ :: l)

theorem Counted.insertsCounted (hr : Counted cfg r) {new : AodvRoute} {r₀ : Routing}
    (h : Inserts new r r₀) (hself : new.selfRoute = false) (hneigh : new.neighRoute = false)
    (hwf : WellFormed cfg r') (htable : r'.table = r₀.table)
    (hsrc : CountsOneMore cfg new.srcIp r.srcList r'.srcList) : Counted cfg r' := by
  have hself' : ∀ e ∈ r'.table, e.selfRoute = true → e.srcIp = cfg.gMeshIp := by
    intro e he hes
    rcases h.mem.mp (htable ▸ he) with rfl | he
    · simp [hself] at hes
    · exact hr.self e he hes
  have hcount : ∀ ip, numEntries ip r'.table =
      numEntries ip r.table + if new.srcIp = ip then 1 else 0 := by
    intro ip
    rw [htable, numEntries_inserts h]
    simp [hself]
  have hlisted : ∀ l : List SrcListEntry, (∀ s ∈ r.srcList, ∃ s' ∈ l, s'.ip = s.ip) →
      (∃ s ∈ l, s.ip = new.srcIp) → ∀ e ∈ r'.table, e.selfRoute = false → ∃ s ∈ l, s.ip = e.srcIp := by
    intro l hl hnew e he hes
    rcases h.mem.mp (htable ▸ he) with rfl | he
    · exact hnew
    · obtain ⟨s, hs, hip⟩ := hr.listed e he hes
      obtain ⟨s', hs', hip'⟩ := hl s hs
      exact ⟨s', hs', hip'.trans hip⟩
  generalize hl : r'.srcList = l at hsrc
  cases hsrc with
  | listed hin =>
    rw [OrderedList.modifyFirst_eq_map _ (pairwise_ip hr.distinct new.srcIp)] at hl
    have hips : r'.srcList.map SrcListEntry.ip = r.srcList.map SrcListEntry.ip := by
      rw [hl, List.map_map]
      refine List.map_congr_left fun s _ ↦ ?_
      simp only [Function.comp_apply]
      split <;> rfl
    have hmem : ∀ s ∈ r.srcList, ∃ s' ∈ r'.srcList, s'.ip = s.ip := by
      intro s hs
      have : s.ip ∈ r'.srcList.map SrcListEntry.ip := hips ▸ List.mem_map_of_mem hs
      obtain ⟨s', hs', hip⟩ := List.mem_map.mp this
      exact ⟨s', hs', hip⟩
    refine ⟨hwf, hself', hlisted _ hmem ?_, hips ▸ hr.distinct, fun s' hs' ↦ ?_⟩
    · obtain ⟨s, hs, hip⟩ := hin
      obtain ⟨s', hs', hip'⟩ := hmem s hs
      exact ⟨s', hs', hip'.trans hip⟩
    · rw [hl] at hs'
      obtain ⟨s, hs, rfl⟩ := List.mem_map.mp hs'
      have := hr.count s hs
      split
      · next hip =>
        have hip : s.ip = new.srcIp := by simpa using hip
        simp only [hcount, hip, if_true] at this ⊢
        omega
      · next hip =>
        have hip : ¬ new.srcIp = s.ip := fun heq ↦ by simp [heq] at hip
        rw [hcount, if_neg hip]
        exact this
  | inserted rtTable hnone =>
    have hin : ∃ s ∈ r'.srcList, s.ip = new.srcIp := by
      rw [hl]
      exact ⟨_, List.mem_cons_self, rfl⟩
    refine ⟨hwf, hself', hlisted _ (fun s hs ↦ ⟨s, ?_, rfl⟩) hin, ?_, fun s hs ↦ ?_⟩
    · rw [hl]
      exact List.mem_cons_of_mem _ hs
    · rw [hl, List.map_cons, List.nodup_cons]
      refine ⟨fun hin ↦ ?_, hr.distinct⟩
      obtain ⟨s, hs, hip⟩ := List.mem_map.mp hin
      exact hnone s hs hip
    · rw [hl] at hs
      rw [hcount]
      rcases List.mem_cons.mp hs with rfl | hs
      · have hzero : numEntries new.srcIp r.table = 0 := by
          refine List.countP_eq_zero.mpr fun e he hcond ↦ ?_
          simp only [Bool.and_eq_true, beq_iff_eq, Bool.not_eq_true'] at hcond
          obtain ⟨s, hs, hip⟩ := hr.listed e he hcond.2
          exact hnone s hs (hip.trans hcond.1)
        simp only [hzero, if_true]
        omega
      · rw [if_neg (hnone s hs).symm]
        exact hr.count s hs

theorem newRoute_srcList {byRrep ok : Bool} {srcIp : Ip} {k : KernelRoute}
    (h : r.newRoute cfg byRrep srcIp k = (ok, r')) : r'.srcList = r.srcList := by
  unfold Routing.newRoute at h
  split at h
  · exact (Prod.mk.inj h).2 ▸ rfl
  split at h <;> exact (Prod.mk.inj h).2 ▸ rfl

theorem Counted.newRoute (hr : Counted cfg r) {byRrep ok : Bool} {srcIp : Ip} {k : KernelRoute}
    (h : r.newRoute cfg byRrep srcIp k = (ok, r')) : Counted cfg r' :=
  hr.table (hr.wf.newRoute h) (newRoute_table h).1 (newRoute_srcList h)

theorem Counted.delRoute (hr : Counted cfg r) {ok : Bool} {srcIp : Ip} {k : KernelRoute}
    (h : r.delRoute cfg srcIp k = (ok, r')) : Counted cfg r' :=
  hr.table (hr.wf.delRoute h) (delRoute_table h).1 (delRoute_srcList h)

/-- The list when `rreq_aodv_route` has found or inserted the source and counted
its new route. -/
theorem sourceEntry_counts (cfg : Config) {srcIp : Ip} (hlist : r.findSrcListEntry srcIp ≠ none ∨
      r.kmalloc.next = true ∧ (srcIp = gNullIp ∨
        r.findFirstRttable ≤ maxRouteTables ∧ r.netlink.next = true)) :
    ∃ s r₁, r.sourceEntry cfg srcIp = (some s, r₁) ∧ SrcOnly r r₁ ∧
      CountsOneMore cfg srcIp r.srcList (r₁.modifySrc srcIp (· + 1)).srcList := by
  have hinsert := srcOnly_insertSrcListEntry cfg srcIp r
  unfold Routing.sourceEntry
  cases hfind : r.findSrcListEntry srcIp with
  | some s => exact ⟨s, r, rfl, .refl r, .listed ⟨s, find_src_some hfind⟩⟩
  | none =>
    obtain ⟨hmem, hfits⟩ := hlist.resolve_left (by simp [hfind])
    have hone : ∀ rtTable, (OrderedList.modifyFirst (fun s : SrcListEntry ↦ s.ip == srcIp)
        (fun s ↦ { s with numRoutes := s.numRoutes + 1 })
          (⟨srcIp, rtTable, if srcIp = cfg.gMeshIp then 1 else 0⟩ :: r.srcList)) =
        ⟨srcIp, rtTable, ownRoute cfg srcIp + 1⟩ :: r.srcList := by
      intro rtTable
      simp only [OrderedList.modifyFirst, BEq.rfl, if_true, ownRoute]
      split <;> rfl
    have hnone := find_src_none hfind
    dsimp only
    unfold Routing.insertSrcListEntry at hinsert ⊢
    rw [if_neg (by simp [hmem])] at hinsert ⊢
    dsimp only at hinsert ⊢
    by_cases hnull : srcIp = gNullIp
    · rw [if_neg (not_not.mpr hnull)] at hinsert ⊢
      refine ⟨_, _, rfl, hinsert, ?_⟩
      exact (congrArg (CountsOneMore cfg srcIp r.srcList) (hone _)).mpr (.inserted _ hnone)
    · obtain ⟨htable, hnetlink⟩ := hfits.resolve_left hnull
      have htable : ¬ maxRouteTables < ({ r with kmalloc := r.kmalloc.rest } : Routing).findFirstRttable :=
        not_lt.mpr htable
      have hrule : ({ r with kmalloc := r.kmalloc.rest } : Routing).rpdbRule.1 = true := hnetlink
      rw [if_pos hnull, if_neg htable, if_pos hrule] at hinsert ⊢
      refine ⟨_, _, rfl, hinsert, ?_⟩
      exact (congrArg (CountsOneMore cfg srcIp r.srcList) (hone _)).mpr (.inserted _ hnone)

theorem Counted.rreqEntry (hr : Counted cfg r) {srcIp dstIp : Ip} {tos : UInt8}
    (dstId pathMetric : UInt32) (hlist : ListsSource r srcIp dstIp tos) :
    Counted cfg (r.rreqEntry cfg srcIp dstIp tos dstId pathMetric).2 := by
  have hwf := hr.wf.rreqEntry (rreqEntry_spec cfg srcIp dstIp tos dstId pathMetric r)
  unfold Routing.rreqEntry at hwf ⊢
  cases hfind : r.findAodvRoute srcIp dstIp tos with
  | none =>
    rw [hfind] at hwf
    dsimp only at hwf ⊢
    rcases hcreate : r.createAodvRoute srcIp dstIp tos dstId with ⟨o, r₀⟩
    rw [hcreate] at hwf
    rcases createAodvRoute_cases cfg hcreate with ⟨rfl, htouch⟩ | ⟨lifetime, rfl, hins⟩
    · exact hr.touches htouch
    · have hr₀ : r₀.kmalloc = r.kmalloc.rest ∧ r₀.netlink = r.netlink := by
        unfold Routing.createAodvRoute at hcreate
        rw [if_neg (by simp [hins.memory])] at hcreate
        exact (Prod.mk.inj hcreate).2 ▸ ⟨rfl, rfl⟩
      have hlist₀ := hlist hfind hins.memory
      have hfindSrc : r₀.findSrcListEntry srcIp = r.findSrcListEntry srcIp := by
        simp only [Routing.findSrcListEntry, hins.srcList]
      have htables : r₀.findFirstRttable = r.findFirstRttable := by
        simp only [Routing.findFirstRttable, hins.srcList]
      rw [← hr₀.1, ← hr₀.2, ← hfindSrc, ← htables] at hlist₀
      obtain ⟨s, r₁, hsource, hsrc, hcounts⟩ := sourceEntry_counts cfg hlist₀
      rw [hins.srcList] at hcounts
      simp only [hsource] at hwf ⊢
      exact hr.insertsCounted hins rfl rfl hwf hsrc.table hcounts
  | some e =>
    rw [hfind] at hwf
    dsimp only at hwf ⊢
    split
    · exact hr
    split
    · split
      · exact hr.delRoute rfl
      · exact hr.delRoute rfl
    · exact hr

theorem Counted.rreqAodvRoute (hr : Counted cfg r) {now : ℕ} {srcIp dstIp : Ip} {tos : UInt8}
    {nextHop : Ip} {sendRate : UInt16} {hops : UInt8} {dstId pathMetric : UInt32} {ok : Bool}
    (hlist : ListsSource r srcIp dstIp tos)
    (h : r.rreqAodvRoute cfg now srcIp dstIp tos nextHop sendRate hops dstId pathMetric =
      some (ok, r')) : Counted cfg r' := by
  have hentry := hr.rreqEntry dstId pathMetric hlist
  rcases rreqAodvRoute_cases h with ⟨-, heq, -⟩ | ⟨-, e, st, r₁, heq, -, htouch⟩
  · rwa [heq] at hentry
  · rw [heq] at hentry
    exact (hentry.modifyAt e.ptr (sameKey_rreqUpdate _ _ _ _ _)).touches htouch

theorem Counted.rrepAodvRoute (hr : Counted cfg r) {now ptr : ℕ} {o : Option AodvRoute}
    (h : r.rrepAodvRoute cfg now ptr = some (o, r')) : Counted cfg r' := by
  obtain ⟨e, -, ⟨-, -, rfl⟩ | ⟨hnew, -⟩ | ⟨r₁, -, hnew, -, rfl⟩⟩ := rrepAodvRoute_cases h
  · exact hr
  · exact hr.newRoute hnew
  · exact (hr.newRoute hnew).modifyAt ptr fun _ ↦ ⟨rfl, rfl, rfl, rfl, rfl, rfl⟩

theorem Counted.addsNeigh (hr : Counted cfg r) {ip : Ip} {dstId : UInt32}
    (h : AddsNeigh cfg ip dstId r r') : Counted cfg r' := by
  obtain ⟨lifetime, r₁, hins, h⟩ := h
  have hr₁ : Counted cfg r₁ := hr.insertsSelf hins rfl rfl
  rcases h with h | ⟨ok, r₂, freed, hnew, -, h⟩
  · exact hr₁.touches h
  · have hr₂ : Counted cfg { r₂ with freed := freed } :=
      (hr₁.newRoute hnew).table { hr₁.wf.newRoute hnew with } rfl rfl
    exact hr₂.touches h

theorem numEntries_pos {e : AodvRoute} (he : e ∈ r.table) (hself : e.selfRoute = false) :
    0 < numEntries e.srcIp r.table :=
  List.countP_pos_iff.mpr ⟨e, he, by simp [hself]⟩

theorem numEntries_two (hr : WellFormed cfg r) {e x : AodvRoute} (he : e ∈ r.table)
    (hself : e.selfRoute = false) (hx : x ∈ r.table) (hself' : x.selfRoute = false)
    (hsrc : x.srcIp = e.srcIp) (hptr : x.ptr ≠ e.ptr) : 1 < numEntries e.srcIp r.table := by
  have hx' : x ∈ (r.removeAodvRoute e.ptr).table := List.mem_filter.mpr ⟨hx, by simpa using hptr⟩
  have hpos := numEntries_pos hx' hself'
  rw [numEntries_remove hr he, if_pos ⟨rfl, hself⟩]
  rw [hsrc] at hpos
  omega

theorem Counted.removes (hr : Counted cfg r) {e : AodvRoute} (he : e ∈ r.table)
    (hself : e.selfRoute = false) (hwf : WellFormed cfg r')
    (htable : r'.table = (r.removeAodvRoute e.ptr).table)
    (hdistinct : (r'.srcList.map SrcListEntry.ip).Nodup)
    (hcount : ∀ s' ∈ r'.srcList, ∃ s ∈ r.srcList, s'.ip = s.ip ∧
      s'.numRoutes = s.numRoutes - if s.ip = e.srcIp then 1 else 0)
    (hkeep : ∀ s ∈ r.srcList, s.ip ≠ e.srcIp ∨ 1 < numEntries e.srcIp r.table →
      ∃ s' ∈ r'.srcList, s'.ip = s.ip) : Counted cfg r' where
  wf := hwf
  self := fun x hx ↦ hr.self x (List.mem_filter.mp (htable ▸ hx)).1
  listed := by
    intro x hx hxself
    obtain ⟨hx, hptr⟩ := List.mem_filter.mp (htable ▸ hx)
    obtain ⟨s, hs, hip⟩ := hr.listed x hx hxself
    obtain ⟨s', hs', hip'⟩ := hkeep s hs <| by
      by_cases hsrc : x.srcIp = e.srcIp
      · exact .inr (numEntries_two hr.wf he hself hx hxself hsrc (by simpa using hptr))
      · exact .inl (hip ▸ hsrc)
    exact ⟨s', hs', hip'.trans hip⟩
  distinct := hdistinct
  count := by
    intro s' hs'
    obtain ⟨s, hs, hip, hnum⟩ := hcount s' hs'
    have hold := hr.count s hs
    rw [numEntries_remove hr.wf he] at hold
    rw [hnum, hip, htable, hold]
    simp only [hself, and_true, eq_comm (a := s.ip)]
    split <;> omega

theorem Counted.flushEntry (hr : Counted cfg r) {now : ℕ} {e : AodvRoute} (he : e ∈ r.table) :
    Counted cfg (r.flushEntry cfg now e) := by
  have hwf := hr.wf.flushEntry (flushEntry_spec cfg now r e)
  unfold Routing.flushEntry at hwf ⊢
  split
  · next hdue =>
    rw [if_pos hdue] at hwf
    have hself : e.selfRoute = false := by simpa using (Bool.and_eq_true_iff.mp hdue).2
    split
    · exact hr.touches (touches_expireAodvRoute cfg now e.ptr r)
    next hstate =>
    rw [if_neg hstate] at hwf
    dsimp only at hwf ⊢
    cases hfind : r.findSrcListEntry e.srcIp with
    | none =>
      obtain ⟨s, hs, hip⟩ := hr.listed e he hself
      exact absurd hip (find_src_none hfind s hs)
    | some s =>
      obtain ⟨hs, hip⟩ := find_src_some hfind
      simp only [hfind] at hwf ⊢
      generalize hr₁ : (if e.neighRoute = true then r.modifySrc e.srcIp (· - 1) else _) = r₁ at hwf ⊢
      have htable₁ : r₁.table = r.table := by
        rw [← hr₁]
        split
        · rfl
        · exact (delRoute_table rfl).1
      have hmap : r₁.srcList = r.srcList.map fun s ↦
          if s.ip == e.srcIp then { s with numRoutes := s.numRoutes - 1 } else s := by
        rw [← OrderedList.modifyFirst_eq_map _ (pairwise_ip hr.distinct e.srcIp), ← hr₁]
        split
        · rfl
        · exact delRoute_srcList rfl
      have hips : r₁.srcList.map SrcListEntry.ip = r.srcList.map SrcListEntry.ip := by
        rw [hmap, List.map_map]
        refine List.map_congr_left fun s _ ↦ ?_
        simp only [Function.comp_apply]
        split <;> rfl
      have hdistinct₁ : (r₁.srcList.map SrcListEntry.ip).Nodup := hips ▸ hr.distinct
      have hcount₁ : ∀ s' ∈ r₁.srcList, ∃ s ∈ r.srcList, s'.ip = s.ip ∧
          s'.numRoutes = s.numRoutes - if s.ip = e.srcIp then 1 else 0 := by
        intro s' hs'
        rw [hmap] at hs'
        obtain ⟨s, hs, rfl⟩ := List.mem_map.mp hs'
        refine ⟨s, hs, ?_⟩
        by_cases hse : s.ip = e.srcIp
        · simp [hse]
        · simp [hse]
      have hkeep₁ : ∀ s ∈ r.srcList, ∃ s' ∈ r₁.srcList, s'.ip = s.ip := by
        intro s hs
        have : s.ip ∈ r₁.srcList.map SrcListEntry.ip := hips ▸ List.mem_map_of_mem hs
        obtain ⟨s', hs', hip⟩ := List.mem_map.mp this
        exact ⟨s', hs', hip⟩
      have hnum := hr.count s hs
      have hpos := numEntries_pos he hself
      split at hwf
      · next hzero =>
        rw [if_pos hzero]
        split at hwf
        · next hmesh =>
          rw [if_pos hmesh]
          have hone : numEntries e.srcIp r.table = 1 := by
            rw [hip] at hnum
            omega
          have hsrc : SrcOnly r₁ (r₁.deleteSrcListEntry e.srcIp) := srcOnly_deleteSrcListEntry _ _
          have hlist := deleteSrcListEntry_srcList hdistinct₁ e.srcIp
          refine hr.removes he hself hwf ?_ ?_ (fun s' hs' ↦ ?_) fun s' hs' hor ↦ ?_
          · simp only [Routing.removeAodvRoute, hsrc.table, htable₁]
          · refine hdistinct₁.sublist (List.Sublist.map _ ?_)
            exact (congrArg (List.Sublist · r₁.srcList) hlist).mpr List.filter_sublist
          · exact hcount₁ s' (List.mem_filter.mp (hlist ▸ hs')).1
          · have hne : s'.ip ≠ e.srcIp := hor.resolve_right (by omega)
            obtain ⟨s'', hs'', hip''⟩ := hkeep₁ s' hs'
            refine ⟨s'', ?_, hip''⟩
            exact hlist ▸ List.mem_filter.mpr ⟨hs'', by simpa [hip''] using hne⟩
        · next hmesh =>
          exfalso
          have hmesh : s.ip = cfg.gMeshIp := not_not.mp hmesh
          rw [ownRoute, if_pos hmesh, hip] at hnum
          omega
      · next hzero =>
        rw [if_neg hzero]
        refine hr.removes he hself hwf ?_ hdistinct₁ hcount₁ fun s' hs' _ ↦ hkeep₁ s' hs'
        simp only [Routing.removeAodvRoute, htable₁]
  · exact hr

theorem Counted.flushAodvRouteTable (hr : Counted cfg r) (now : ℕ) :
    Counted cfg (r.flushAodvRouteTable cfg now) :=
  flushAodvRouteTable_turns hr.wf hr (fun _ _ _ _ _ _ _ he h ↦ h.flushEntry he)
    fun r₁ h ↦ h.touches (touches_updateMyLoad cfg r₁)

theorem Counted.deletesUnused (hr : Counted cfg r) : DeletesUnused cfg r := by
  rintro now l₁ e l₂ htable r₁ rfl ⟨-, hself, -, s, hfind, hzero, hmesh⟩ x hx hsrc
  obtain ⟨-, hmem, hr₁⟩ := flush_from hr.wf hr (fun _ _ _ _ _ _ _ he h ↦ h.flushEntry he) l₁
    (e :: l₂) htable
  obtain ⟨hs, hip⟩ := find_src_some hfind
  have hnum := hr₁.count s hs
  rw [ownRoute, if_neg hmesh, hip] at hnum
  have hxself : x.selfRoute = false := by
    by_contra hxself
    have := hr₁.self x hx (by simpa using hxself)
    exact hmesh (hip.trans (hsrc.symm.trans this))
  by_contra hptr
  have := numEntries_two hr₁.wf (hmem e List.mem_cons_self) hself hx hxself hsrc hptr
  omega

end Tables

section Runs

variable {n n' : Node} {t : Task}

/-- Every entry that the task creates is a neighbour's route, which the kernel
takes, or one whose source gets into the list. -/
structure TaskCounts (n : Node) (t : Task) : Prop where
  rreq : ∀ m x pathMetric, t.type = .recvRreq → t.data = some (.rreq m) →
    RreqCall n t m x pathMetric → ListsSource n.routing m.dstIp m.srcIp m.tos
  rrep : ∀ m, t.type = .recvRrep → t.data = some (.rrep m) → n.findAodvNeigh t.srcIp ≠ none →
    isRrepSource n m = true ∨ n.routing.findAodvRouteById m.srcIp m.srcId ≠ none →
      ListsSource n.routing m.srcIp m.dstIp m.tos
  copies : n.routing.kmalloc.next = true → ∀ key, CreatesUnchecked n t key → t.type = .recvHello
  neigh : ¬ RefusesNeigh n t

/-- The thread takes no task that creates an entry which is not counted, or which
is freed while the table leads to it. -/
def Counts (n : Node) : Event → Prop
  | .thread => ∀ t tasks, n.tasks.pop = (some t, tasks) → TaskCounts { n with tasks := tasks } t
  | _ => True

theorem Counted.effect {r : Routing} (hr : Counted n.cfg n.routing) (hcounts : TaskCounts n t)
    (h : RouteEffect n t r) : Counted n.cfg r := by
  cases h with
  | touch h => exact hr.touches h
  | hello _ h _ h' =>
    rcases h with h | ⟨dstId, -, h⟩
    · exact (hr.touches h).touches h'
    · exact (hr.addsNeigh h).touches h'
  | rreq htype hdata hcall h => exact hr.rreqAodvRoute (hcounts.rreq _ _ _ htype hdata hcall) h
  | answer htype h h₁ h₂ h' =>
    rcases h with ⟨rfl, -⟩ | ⟨hdtn, hfind, new, hcopy, -⟩
    · exact ((hr.touches h₁).rrepAodvRoute h₂).touches h'
    · have := hcounts.copies hcopy.inserts.memory _ (.answer htype hdtn hfind)
      simp [htype] at this
  | rrepSource htype hdata hx hsource h₁ h₂ h' =>
    have hr₁ := hr.rreqAodvRoute (hcounts.rrep _ htype hdata (by simp [hx]) (.inl hsource)) h₁
    rcases h₂ with ⟨-, rfl⟩ | ⟨e, o, -, h₂⟩
    · exact hr₁.touches h'
    · exact (hr₁.rrepAodvRoute h₂).touches h'
  | @rrepForward m m' x recv ok n₁ r₁ _ htype hdata hx hsource hrecv h₁ h' =>
    have hr₁ : Counted n.cfg r₁ := by
      rcases rrepRecvRoute_cases (n := n.updateNeighLifetime x.ip) hr.wf hrecv with
        ⟨ho | ⟨-, ho, rfl⟩, rfl⟩ | ⟨hdttl, hfind, e, new, r₀, -, rfl, hcopy, -⟩
      · cases ho
      · have hknown : n.routing.findAodvRouteById m.srcIp m.srcId ≠ none := fun hnone ↦ by
          have : some recv = none := ho.trans hnone
          cases this
        exact hr.rreqAodvRoute (hcounts.rrep _ htype hdata (by simp [hx]) (.inr hknown)) h₁
      · have := hcounts.copies hcopy.inserts.memory _
          (.forward htype hdata (by simp [hx]) hsource hdttl hfind)
        simp [htype] at this
    rcases h' with ⟨-, rfl⟩ | ⟨send, o₂, r₂, o₃, r₃, -, h₂, h₃, h'⟩
    · exact hr₁
    · exact ((hr₁.rrepAodvRoute h₂).rrepAodvRoute h₃).touches h'
  | flush => exact hr.flushAodvRouteTable _

theorem step_counted {e : Event} (hr : Counted n.cfg n.routing) (he : Counts n e)
    (h : n.step e = some n') : Counted n'.cfg n'.routing := by
  rcases step_cases hr.wf h with ⟨t, tasks, rfl, hpop, hcfg, -, heffect⟩ | ⟨hcfg, htouch⟩
  · rw [hcfg]
    exact Counted.effect (n := { n with tasks := tasks }) hr (he t tasks hpop) heffect
  · rw [hcfg]
    exact hr.touches htouch

theorem initRouting_counted (cfg : Config) (kmalloc netlink : Outcomes) (junk : List ℕ) :
    Counted cfg (initRouting cfg kmalloc netlink junk) where
  wf := initRouting_wellFormed _ _ _ _
  self := by simp [initRouting, localEntry]
  listed := by simp [initRouting, localEntry]
  distinct := by simp [initRouting]
  count := by simp [initRouting, localEntry, numEntries, ownRoute]

theorem Counts.keepsLinked {e : Event} (he : Counts n e) : ¬ FreesLinked n e := by
  intro hfrees
  obtain ⟨rfl, t, tasks, hpop, hrefuses⟩ := hfrees.refuses
  exact (he t tasks hpop).neigh hrefuses

/-- In every run whose tasks count what they create, the sources are counted
right in every state, no source with routes is deleted, and no entry has been
freed that the table leads to. -/
theorem sources_counted_of_counts {I : Config → Environment → Prop} (h : Reach I Counts n) :
    SourcesCounted n.cfg n.routing ∧ DeletesUnused n.cfg n.routing ∧ n.routing.freed = [] := by
  have hr : Counted n.cfg n.routing := by
    refine h.induct (Q := fun n ↦ Counted n.cfg n.routing) (fun cfg env _ ↦ ?_) fun n e n' hr he hs ↦ ?_
    · obtain ⟨hcfg, hrouting⟩ := init_frame cfg env
      rw [hcfg, hrouting]
      exact initRouting_counted _ _ _ _
    · exact step_counted hr he hs
  exact ⟨hr.sourcesCounted, hr.deletesUnused, freed_of_run (fun _ _ he ↦ he.keepsLinked) h⟩

end Runs

theorem taskCounts_of_type {n : Node} {t : Task} (h : t.type = .recvHello)
    (hnext : n.routing.netlink.next = true) : TaskCounts n t where
  rreq _ _ _ ht := by simp [h] at ht
  rrep _ ht := by simp [h] at ht
  copies _ _ _ := h
  neigh hrefuses := Bool.noConfusion (hnext.symm.trans hrefuses.refused)

theorem sources_counted_of_counts_heard :
    SourcesCounted station.cfg ((runs hearRreq metStation).getD station).routing ∧
      ((runs hearRreq metStation).getD station).routing.srcList = [⟨0x0101a8c0, 1, 2⟩] := by
  have hmet : Reach (fun _ _ ↦ True) Counts metStation := by
    refine .step (e := .thread) (.step (n := station)
      (e := .input (heard 0x0201a8c0 (.hello ⟨0, 0, 1, []⟩))) (.init trivial) trivial rfl) ?_ rfl
    intro t tasks hpop
    have htype : some TaskType.recvHello = some t.type :=
      congrArg (fun p : Option Task × _ ↦ p.1.map Task.type) hpop
    exact taskCounts_of_type (Option.some.inj htype).symm rfl
  refine ⟨(sources_counted_of_counts (I := fun _ _ ↦ True) ?_).1, by decide +kernel⟩
  refine .step (e := .thread) (.step (e := .input (heard 0x0201a8c0 (.rreq ⟨0, 1, 0, 0x0101a8c0,
    0x0901a8c0, 6, 0, 0⟩))) hmet trivial rfl) ?_ rfl
  intro t tasks hpop
  have htype : some TaskType.recvRreq = some t.type :=
    congrArg (fun p : Option Task × _ ↦ p.1.map Task.type) hpop
  have hdata : some (some (Message.rreq ⟨0, 1, 0, 0x0101a8c0, 0x0901a8c0, 6, 0, 0⟩)) = some t.data :=
    congrArg (fun p : Option Task × _ ↦ p.1.map Task.data) hpop
  rw [Option.some.injEq] at htype hdata
  have hlisted : metStation.routing.findSrcListEntry 0x0101a8c0 ≠ none := by decide +kernel
  refine ⟨fun m _ _ _ hm _ _ _ ↦ .inl ?_, fun _ ht ↦ by simp [← htype] at ht, fun _ key hkey ↦ ?_,
    fun hrefuses ↦ by simpa [← htype] using hrefuses.type⟩
  · obtain rfl : (⟨0, 1, 0, 0x0101a8c0, 0x0901a8c0, 6, 0, 0⟩ : Rreq) = m := by simpa [← hdata] using hm
    exact hlisted
  · cases hkey with
    | neigh ht => exact ht
    | answer ht => simp [← htype] at ht
    | forward ht => simp [← htype] at ht

/-- The station when there is memory for two more entries of the route table and
none for the list of sources. -/
def scarceStation : Node :=
  Node.init station.cfg
    { now := 0
      routeMemory := [true, true, false]
      netlink := []
      routeJunk := []
      timerMemory := []
      packetMemory := []
      maxlen := 100
      memory := []
      rand := []
      junk := [] }

def relayRreq : List Event :=
  meetNeigh ++ [.input (heard 0x0201a8c0 (.rreq ⟨0, 1, 0, 0x0801a8c0, 0x0901a8c0, 6, 0, 0⟩)), .thread]

theorem unlisted_source_stays :
    ∃ n, Reachable n ∧ ¬ SourcesCounted n.cfg n.routing := by
  refine ⟨(runs relayRreq scarceStation).getD station,
    Reach.getD_runs (.init trivial) (by decide +kernel) station, fun h ↦ ?_⟩
  have hunlisted : ∃ e ∈ ((runs relayRreq scarceStation).getD station).routing.table,
      e.selfRoute = false ∧ ((runs relayRreq scarceStation).getD station).routing.srcList.filter
        (fun s ↦ s.ip == e.srcIp) = [] := by decide +kernel
  obtain ⟨e, he, hself, hnil⟩ := hunlisted
  obtain ⟨s, hs, -⟩ := h e he hself
  rw [hnil] at hs
  cases hs

end Fbaodv.Proofs.SourceAccounts
