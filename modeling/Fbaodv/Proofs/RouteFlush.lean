import Fbaodv.Model.RouteLinks
import Fbaodv.Foundation.TwoPhase
import Fbaodv.Proofs.SourceAccounts

namespace Fbaodv.Proofs.RouteFlush

open Fbaodv.Foundation Fbaodv.Model Routing TwoPhase DoublyLinked RouteFrame RoutingInvariant
  SourceAccounts PacketDiscovery

/-- Two-phase expiry of the routes. The route of a node to itself, and those to
its neighbours, are never due. -/
def routeRule (now : ℕ) : Rule AodvRoute where
  due e := timeBefore e.lifetime now && !e.selfRoute
  retired e := e.state == .invalid
  retire e := { e with lifetime := now + deletePeriod, state := .invalid }

/-- The routes of a source that a round removes. -/
def numRemoved (now : ℕ) (ip : Ip) (l : List AodvRoute) : ℕ :=
  l.countP fun e ↦ (routeRule now).dies e && e.srcIp == ip

/-- A source after a round over the routes: it loses what was removed, and goes
when nothing else was left. -/
def settle (now : ℕ) (l : List AodvRoute) (s : SrcListEntry) : Option SrcListEntry :=
  if numRemoved now s.ip l ≠ 0 ∧ s.numRoutes = numRemoved now s.ip l then none
  else some { s with numRoutes := s.numRoutes - numRemoved now s.ip l }

/-- The sources have distinct addresses and count their routes. -/
structure ExactSources (cfg : Config) (r : Routing) : Prop where
  distinct : (r.srcList.map SrcListEntry.ip).Nodup
  count : ∀ s ∈ r.srcList, s.numRoutes = numEntries s.ip r.table + ownRoute cfg s.ip

variable {cfg : Config} {now : ℕ} {r r₀ : Routing} {e : AodvRoute} {a l l₁ l₂ : List AodvRoute}

theorem flushRemoves_eq : flushRemoves now e = (routeRule now).dies e := rfl

theorem numRemoved_append (ip : Ip) :
    numRemoved now ip (l₁ ++ l₂) = numRemoved now ip l₁ + numRemoved now ip l₂ :=
  List.countP_append

theorem numRemoved_le (ip : Ip) : numRemoved now ip l ≤ numEntries ip l := by
  refine List.countP_mono_left fun e _ h ↦ ?_
  simp only [Rule.dies, routeRule, Bool.and_eq_true] at h ⊢
  exact ⟨h.2, h.1.1.2⟩

section Table

theorem ptr_ne (hnd : ((a ++ e :: l).map AodvRoute.ptr).Nodup) :
    ∀ x ∈ a ++ l, x.ptr ≠ e.ptr := by
  rw [List.map_append, List.map_cons, (List.perm_middle).nodup_iff, List.nodup_cons,
    ← List.map_append] at hnd
  intro x hx heq
  exact hnd.1 (List.mem_map.mpr ⟨x, hx, heq⟩)

theorem filter_ptr (hnd : ((a ++ e :: l).map AodvRoute.ptr).Nodup) :
    ((a ++ e :: l).filter fun x ↦ x.ptr ≠ e.ptr) = a ++ l := by
  have hne := ptr_ne hnd
  rw [List.filter_append, List.filter_cons_of_neg (by simp), ← List.filter_append]
  exact List.filter_eq_self.mpr fun x hx ↦ by simpa using hne x hx

theorem map_ptr (hnd : ((a ++ e :: l).map AodvRoute.ptr).Nodup) (f : AodvRoute → AodvRoute) :
    ((a ++ e :: l).map fun x ↦ if x.ptr = e.ptr then f x else x) = a ++ f e :: l := by
  have hne := ptr_ne hnd
  have hsame : ∀ l' : List AodvRoute, (∀ x ∈ l', x.ptr ≠ e.ptr) →
      (l'.map fun x ↦ if x.ptr = e.ptr then f x else x) = l' := fun l' h ↦
    (List.map_congr_left fun x hx ↦ if_neg (h x hx)).trans (List.map_id' l')
  rw [List.map_append, List.map_cons, if_pos rfl,
    hsame a fun x hx ↦ hne x (List.mem_append_left _ hx),
    hsame l fun x hx ↦ hne x (List.mem_append_right _ hx)]

theorem flushEntry_table (htable : r.table = a ++ e :: l)
    (hnd : (r.table.map AodvRoute.ptr).Nodup) :
    (r.flushEntry cfg now e).table = a ++ ((routeRule now).turn e).toList ++ l := by
  have hspec := flushEntry_spec cfg now r e
  rw [htable] at hnd
  generalize r.flushEntry cfg now e = r' at hspec ⊢
  cases hspec with
  | kept h =>
    have hdue : (routeRule now).due e = false := by
      rcases h with h | h <;> simp [routeRule, h]
    simp [Rule.turn_fresh hdue, htable]
  | expired hdue hself hstate =>
    have hdue' : (routeRule now).due e = true := by simp [routeRule, hdue, hself]
    have hret : (routeRule now).retired e = false := by simpa [routeRule] using hstate
    rw [Rule.turn_retire hdue' hret, expireAodvRoute, modifyAt, htable]
    rw [map_ptr hnd fun e ↦ { e with lifetime := now + deletePeriod, state := .invalid }]
    simp [routeRule]
  | forgotten hdue hself hstate hsrc =>
    have hdue' : (routeRule now).due e = true := by simp [routeRule, hdue, hself]
    have hret : (routeRule now).retired e = true := by simp [routeRule, hstate]
    rw [Rule.turn_dies hdue' hret, removeAodvRoute, htable, filter_ptr hnd]
    simp
  | removed hdue hself hstate hsrc h₀ h₁ h₂ =>
    have hdue' : (routeRule now).due e = true := by simp [routeRule, hdue, hself]
    have hret : (routeRule now).retired e = true := by simp [routeRule, hstate]
    have hdel : ∀ r₀ : Routing, (if e.neighRoute = true then r₀ else
        (r₀.delRoute cfg e.srcIp e.kernelRoute).2).table = r₀.table := by
      intro r₀
      split
      · rfl
      · exact (delRoute_table rfl).1
    rw [Rule.turn_dies hdue' hret, removeAodvRoute, h₂.table, h₁, hdel, h₀.table, htable,
      filter_ptr hnd]
    simp

end Table

section Sources

theorem flushEntry_srcList (hdies : (routeRule now).dies e = true) :
    (r.flushEntry cfg now e).srcList =
      match r.findSrcListEntry e.srcIp with
      | none => r.srcList
      | some s =>
        let counted := OrderedList.modifyFirst (fun s ↦ s.ip == e.srcIp)
          (fun s ↦ { s with numRoutes := s.numRoutes - 1 }) r.srcList
        if s.numRoutes - 1 ≤ 0 then
          if s.ip ≠ cfg.gMeshIp then
            ({ r with srcList := counted }.deleteSrcListEntry e.srcIp).srcList
          else OrderedList.modifyFirst (fun s ↦ s.ip == e.srcIp)
            (fun s ↦ { s with numRoutes := 1 }) counted
        else counted := by
  simp only [Rule.dies, routeRule, Bool.and_eq_true, beq_iff_eq] at hdies
  obtain ⟨hdue, hstate⟩ := hdies
  have hdelete : ∀ r₁ : Routing, ∀ l, r₁.srcList = l →
      (r₁.deleteSrcListEntry e.srcIp).srcList =
        ({ r with srcList := l }.deleteSrcListEntry e.srcIp).srcList := by
    rintro r₁ l rfl
    simp only [deleteSrcListEntry, findSrcListEntry]
    split
    · rfl
    · split <;> rfl
  rw [flushEntry, if_pos (by simp [hdue]), if_neg (by simp [hstate])]
  simp only [removeAodvRoute]
  cases r.findSrcListEntry e.srcIp with
  | none => rfl
  | some s =>
    dsimp only
    generalize hr₁ : (if e.neighRoute = true then r.modifySrc e.srcIp (· - 1) else _) = r₁
    have hcounted : r₁.srcList = OrderedList.modifyFirst (fun s ↦ s.ip == e.srcIp)
        (fun s ↦ { s with numRoutes := s.numRoutes - 1 }) r.srcList := by
      rw [← hr₁]
      split
      · rfl
      · exact delRoute_srcList rfl
    split
    · split
      · exact hdelete r₁ _ hcounted
      · rw [modifySrc, hcounted]
    · exact hcounted

theorem numRemoved_other {ip : Ip} (h : e.srcIp ≠ ip) : numRemoved now ip [e] = 0 := by
  simp [numRemoved, h]

theorem numRemoved_self (hdies : (routeRule now).dies e = true) :
    numRemoved now e.srcIp [e] = 1 := by
  simp [numRemoved, hdies]

theorem numRemoved_stays (h : (routeRule now).dies e = false) (ip : Ip) :
    numRemoved now ip [e] = 0 := by
  simp [numRemoved, h]

theorem settle_congr {s : SrcListEntry} (h : numRemoved now s.ip [e] = 0) :
    settle now (l₁ ++ [e]) s = settle now l₁ s := by
  simp only [settle, numRemoved_append, h, Nat.add_zero]

/-- Before the loop comes to an entry that it removes, its source counts more
than what was removed. -/
theorem ExactSources.numRoutes (hex : ExactSources cfg r₀) (htable : r₀.table = l₁ ++ e :: l₂)
    (hdies : (routeRule now).dies e = true) {s : SrcListEntry} (hs : s ∈ r₀.srcList)
    (hip : s.ip = e.srcIp) :
    (numRemoved now e.srcIp l₁ : ℤ) + 1 + ownRoute cfg e.srcIp ≤ s.numRoutes := by
  have hle : numRemoved now e.srcIp (l₁ ++ [e]) ≤ numEntries e.srcIp (l₁ ++ [e]) := numRemoved_le _
  have hsub : numEntries e.srcIp (l₁ ++ [e]) ≤ numEntries e.srcIp r₀.table := by
    rw [htable]
    refine List.Sublist.countP_le ?_
    rw [List.append_sublist_append_left]
    exact List.singleton_sublist.mpr List.mem_cons_self
  rw [numRemoved_append, numRemoved_self hdies] at hle
  rw [hex.count s hs, hip]
  omega

theorem settle_before (hex : ExactSources cfg r₀) (htable : r₀.table = l₁ ++ e :: l₂)
    (hdies : (routeRule now).dies e = true) {s : SrcListEntry} (hs : s ∈ r₀.srcList)
    (hip : s.ip = e.srcIp) :
    settle now l₁ s = some { s with numRoutes := s.numRoutes - numRemoved now e.srcIp l₁ } := by
  have hnum := hex.numRoutes htable hdies hs hip
  rw [settle, hip, if_neg]
  omega

theorem settle_ip {s s' : SrcListEntry} (h : settle now l s = some s') : s'.ip = s.ip := by
  rw [settle] at h
  split at h
  · cases h
  · cases h
    rfl

theorem settled_distinct (hex : ExactSources cfg r₀) :
    ((r₀.srcList.filterMap (settle now l)).map SrcListEntry.ip).Nodup := by
  refine hex.distinct.sublist ?_
  generalize r₀.srcList = srcs
  induction srcs with
  | nil => exact .slnil
  | cons s srcs ih =>
    cases h : settle now l s with
    | none =>
      rw [List.filterMap_cons_none h]
      exact ih.cons _
    | some s' =>
      rw [List.filterMap_cons_some h, List.map_cons, List.map_cons, settle_ip h]
      exact ih.cons_cons _

theorem settle_last (hex : ExactSources cfg r₀) (htable : r₀.table = l₁ ++ e :: l₂)
    (hdies : (routeRule now).dies e = true) {s : SrcListEntry} (hs : s ∈ r₀.srcList)
    (hlast : s.numRoutes ≤ numRemoved now e.srcIp l₁ + 1) (hip : s.ip = e.srcIp) :
    settle now (l₁ ++ [e]) s = none := by
  have hnum := hex.numRoutes htable hdies hs hip
  rw [settle, hip, numRemoved_append, numRemoved_self hdies, if_pos]
  omega

theorem settle_more {s : SrcListEntry} (hdies : (routeRule now).dies e = true)
    (hmore : ¬s.numRoutes ≤ numRemoved now e.srcIp l₁ + 1) (hip : s.ip = e.srcIp) :
    settle now (l₁ ++ [e]) s =
      some { s with numRoutes := s.numRoutes - numRemoved now e.srcIp l₁ - 1 } := by
  rw [settle, hip, numRemoved_append, numRemoved_self hdies, if_neg (by omega)]
  have hsum : s.numRoutes - ((numRemoved now e.srcIp l₁ + 1 : ℕ) : ℤ) =
      s.numRoutes - numRemoved now e.srcIp l₁ - 1 := by omega
  rw [hsum]

theorem flushEntry_settles (hex : ExactSources cfg r₀) (htable : r₀.table = l₁ ++ e :: l₂)
    (hsrc : r.srcList = r₀.srcList.filterMap (settle now l₁)) :
    (r.flushEntry cfg now e).srcList = r₀.srcList.filterMap (settle now (l₁ ++ [e])) := by
  have hother : ∀ s : SrcListEntry, s.ip ≠ e.srcIp →
      settle now (l₁ ++ [e]) s = settle now l₁ s := fun s hs ↦ settle_congr (numRemoved_other hs.symm)
  cases hdies : (routeRule now).dies e with
  | false =>
    have hsame : (r.flushEntry cfg now e).srcList = r.srcList := by
      have hspec := flushEntry_spec cfg now r e
      generalize r.flushEntry cfg now e = r' at hspec ⊢
      cases hspec with
      | kept => rfl
      | expired => rfl
      | forgotten hdue hself hstate => simp [Rule.dies, routeRule, hdue, hself, hstate] at hdies
      | removed hdue hself hstate => simp [Rule.dies, routeRule, hdue, hself, hstate] at hdies
    rw [hsame, hsrc]
    exact List.filterMap_congr fun s _ ↦ (settle_congr (numRemoved_stays hdies s.ip)).symm
  | true =>
    have hdistinct : (r.srcList.map SrcListEntry.ip).Nodup := hsrc ▸ settled_distinct hex
    rw [flushEntry_srcList hdies]
    cases hfind : r.findSrcListEntry e.srcIp with
    | none =>
      rw [hsrc]
      refine List.filterMap_congr fun s hs ↦ (hother s fun hip ↦ ?_).symm
      have hmem := List.mem_filterMap.mpr ⟨s, hs, settle_before hex htable hdies hs hip⟩
      rw [← hsrc] at hmem
      exact find_src_none hfind _ hmem hip
    | some s' =>
      obtain ⟨hs', hip'⟩ := find_src_some hfind
      rw [hsrc] at hs'
      obtain ⟨s, hs, hsettle⟩ := List.mem_filterMap.mp hs'
      have hip : s.ip = e.srcIp := (settle_ip hsettle).symm.trans hip'
      have hcount : ∀ x ∈ r₀.srcList, x.ip = e.srcIp → x.numRoutes = s.numRoutes :=
        fun x hx hx' ↦ by rw [hex.count x hx, hex.count s hs, hx', hip]
      have hnum := hex.numRoutes htable hdies hs hip
      rw [settle_before hex htable hdies hs hip] at hsettle
      cases hsettle
      dsimp only at hip' ⊢
      rw [OrderedList.modifyFirst_eq_map _ (pairwise_ip hdistinct e.srcIp)]
      split
      · next hlast =>
        have hmesh : s.ip ≠ cfg.gMeshIp := fun hmesh ↦ by
          rw [ownRoute, if_pos (hip ▸ hmesh)] at hnum
          omega
        have hkeep : ∀ l : List SrcListEntry, (l.map fun s ↦
            if s.ip == e.srcIp then { s with numRoutes := s.numRoutes - 1 } else s).map
              SrcListEntry.ip = l.map SrcListEntry.ip := fun l ↦ by
          rw [List.map_map]
          refine List.map_congr_left fun x _ ↦ ?_
          simp only [Function.comp_apply]
          split <;> rfl
        rw [if_pos hmesh, deleteSrcListEntry_srcList (by rw [hkeep]; exact hdistinct), hsrc,
          List.map_filterMap, List.filter_filterMap]
        refine List.filterMap_congr fun x hx ↦ ?_
        by_cases hx' : x.ip = e.srcIp
        · rw [settle_last hex htable hdies hx (by rw [hcount x hx hx']; omega) hx',
            settle_before hex htable hdies hx hx']
          simp [hx']
        · rw [hother x hx']
          cases hset : settle now l₁ x with
          | none => rfl
          | some y =>
            have hy : y.ip ≠ e.srcIp := settle_ip hset ▸ hx'
            simp [hy]
      · next hmore =>
        rw [hsrc, List.map_filterMap]
        refine List.filterMap_congr fun x hx ↦ ?_
        by_cases hx' : x.ip = e.srcIp
        · rw [settle_more hdies (by rw [hcount x hx hx']; omega) hx',
            settle_before hex htable hdies hx hx']
          simp [hx']
        · rw [hother x hx']
          cases hset : settle now l₁ x with
          | none => rfl
          | some y =>
            have hy : y.ip ≠ e.srcIp := settle_ip hset ▸ hx'
            simp [hy]

end Sources

section Loop

/-- The loop, when it has dealt with `l₁` and comes to `l₂`. -/
structure Underway (now : ℕ) (r₀ : Routing) (l₁ l₂ : List AodvRoute) (q : Links ℕ) (r : Routing) :
    Prop where
  table : r.table = (routeRule now).sweep l₁ ++ l₂
  links : Represents q (r.table.map AodvRoute.ptr)
  sources : r.srcList = r₀.srcList.filterMap (settle now l₁)

theorem sweep_append : (routeRule now).sweep (l₁ ++ l₂) =
    (routeRule now).sweep l₁ ++ (routeRule now).sweep l₂ :=
  List.filterMap_append

theorem turn_ptr {x : AodvRoute} (h : (routeRule now).turn e = some x) : x.ptr = e.ptr := by
  rw [Rule.turn] at h
  split at h
  · split at h
    · cases h
    · cases h
      rfl
  · cases h
    rfl

theorem entryAt_mid (htable : r.table = a ++ e :: l) (hnd : (r.table.map AodvRoute.ptr).Nodup) :
    r.entryAt e.ptr = some e := by
  rw [htable] at hnd
  have hskip : a.find? (fun x ↦ x.ptr == e.ptr) = none :=
    List.find?_eq_none.mpr fun x hx ↦ by simpa using ptr_ne hnd x (List.mem_append_left _ hx)
  rw [entryAt, htable, List.find?_append, hskip, Option.none_or, List.find?_cons_of_pos (by simp)]

/-- One turn: the links keep up with the table. -/
theorem Underway.turn {q : Links ℕ} (h : Underway now r₀ l₁ (e :: l₂) q r)
    (hex : ExactSources cfg r₀) (htable : r₀.table = l₁ ++ e :: l₂) :
    Underway now r₀ (l₁ ++ [e]) l₂ (if flushRemoves now e then q.remove e.ptr else q)
      (r.flushEntry cfg now e) := by
  have hstep : (r.flushEntry cfg now e).table =
      (routeRule now).sweep l₁ ++ ((routeRule now).turn e).toList ++ l₂ :=
    flushEntry_table h.table h.links.nodup
  have hsweep : (routeRule now).sweep (l₁ ++ [e]) =
      (routeRule now).sweep l₁ ++ ((routeRule now).turn e).toList := by
    rw [sweep_append]
    cases hturn : (routeRule now).turn e with
    | none => rw [Rule.sweep_cons_none hturn]; rfl
    | some x => rw [Rule.sweep_cons_some hturn]; rfl
  have hlinks := h.links
  rw [h.table, List.map_append, List.map_cons] at hlinks
  refine ⟨by rw [hstep, hsweep], ?_, flushEntry_settles hex htable h.sources⟩
  rw [hstep, flushRemoves_eq]
  cases hturn : (routeRule now).turn e with
  | none =>
    rw [if_pos (Rule.turn_eq_none_iff.mp hturn)]
    simpa using remove_spec hlinks
  | some x =>
    have hstays : ¬(routeRule now).dies e = true := fun hdies ↦ by
      rw [Rule.turn_eq_none_iff.mpr hdies] at hturn
      cases hturn
    rw [if_neg hstays]
    simpa [turn_ptr hturn] using hlinks

theorem flushLoop_spec (hex : ExactSources cfg r₀) {q : Links ℕ} {turns : ℕ}
    (h : Underway now r₀ l₁ l₂ q r) (htable : r₀.table = l₁ ++ l₂) (hturns : l₂.length ≤ turns) :
    ∃ q', flushLoop cfg now turns (l₂.map AodvRoute.ptr).head? q r =
        some (q', l₂.foldl (flushEntry cfg now) r) ∧
      Underway now r₀ r₀.table [] q' (l₂.foldl (flushEntry cfg now) r) := by
  induction l₂ generalizing l₁ q r turns with
  | nil =>
    rw [List.append_nil] at htable
    subst htable
    exact ⟨q, by cases turns <;> rfl, h⟩
  | cons e l₂ ih =>
    obtain ⟨turns, rfl⟩ : ∃ n, turns = n + 1 := ⟨turns - 1, by simp at hturns; omega⟩
    have hnext : q.next e.ptr = (l₂.map AodvRoute.ptr).head? := by
      have hlinks := h.links
      rw [h.table, List.map_append, List.map_cons] at hlinks
      exact hlinks.next_eq
    obtain ⟨q', hloop, hdone⟩ := ih (h.turn hex htable) (by rw [htable]; simp)
      (by simpa using hturns)
    refine ⟨q', ?_, hdone⟩
    rw [List.map_cons, List.head?_cons, flushLoop, entryAt_mid h.table h.links.nodup]
    rw [← hnext] at hloop
    simp only [Option.bind_eq_bind, Option.bind_some, List.foldl_cons]
    rw [← hloop]
    split <;> rfl

/-- `flush_aodv_route_table` is two-phase expiry: it comes to its end, the table
is what the rule leaves of it, with its links in order, and each source has lost
what was removed. The walk along the links is the walk over the list. -/
theorem flush_two_phase (cfg : Config) (now turns : ℕ) (q : Links ℕ) (r : Routing)
    (hlinks : Represents q (r.table.map AodvRoute.ptr)) (hex : ExactSources cfg r)
    (hturns : r.table.length ≤ turns) :
    ∃ q' r', flushLinked cfg now turns q r = some (q', r') ∧
      r' = r.flushAodvRouteTable cfg now ∧
      r'.table = (routeRule now).sweep r.table ∧
      Represents q' (r'.table.map AodvRoute.ptr) ∧
      r'.srcList = r.srcList.filterMap (settle now r.table) := by
  have hstart : Underway now r [] r.table q r := by
    refine ⟨rfl, hlinks, ?_⟩
    have hsettle : settle now [] = some := by
      funext s
      simp [settle, numRemoved]
    rw [hsettle, List.filterMap_some]
  obtain ⟨q', hloop, hdone⟩ := flushLoop_spec hex hstart rfl hturns
  have hhead : (r.table.map AodvRoute.ptr).head? = q.head := hlinks.head.symm
  refine ⟨q', r.flushAodvRouteTable cfg now, ?_, rfl, ?_⟩
  · rw [flushLinked, ← hhead, hloop]
    rfl
  · have hload : (r.flushAodvRouteTable cfg now).table =
          (r.table.foldl (flushEntry cfg now) r).table ∧
        (r.flushAodvRouteTable cfg now).srcList =
          (r.table.foldl (flushEntry cfg now) r).srcList := by
      rw [flushAodvRouteTable]
      split
      · exact ⟨updateMyLoad_table _, (touches_updateMyLoad cfg _).srcList⟩
      · exact ⟨rfl, rfl⟩
    rw [hload.1, hload.2]
    exact ⟨by simpa using hdone.table, hdone.links, hdone.sources⟩

end Loop

def agedEntry (ptr : ℕ) (dstIp : Ip) (state : RouteState) : AodvRoute :=
  { freshEntry ptr 0x0301a8c0 dstIp 0 1 0 with state := state }

/-- The station with two routes of one source that are both due. -/
def agedRouting : Routing :=
  { station.routing with
    table := station.routing.table ++
      [agedEntry 1 0x0901a8c0 .active, agedEntry 2 0x0a01a8c0 .invalid]
    srcList := ⟨0x0301a8c0, 2, 2⟩ :: station.routing.srcList }

def agedLinks : Links ℕ where
  head := some 0
  next p := if p < 2 then some (p + 1) else none
  prev p := if p = 0 then none else some (p - 1)

theorem flush_two_phase_aged :
    ∃ q r, flushLinked station.cfg 5000 3 agedLinks agedRouting = some (q, r) ∧
      r.table.map AodvRoute.ptr = [0, 1] ∧ Represents q [0, 1] ∧
      r.srcList.map SrcListEntry.numRoutes = [1, 1] := by
  have hptrs : agedRouting.table.map AodvRoute.ptr = [0, 1, 2] := rfl
  have hlinks : Represents agedLinks (agedRouting.table.map AodvRoute.ptr) := by
    rw [hptrs]
    exact ⟨by decide, rfl, ⟨rfl, rfl, rfl⟩, ⟨rfl, rfl, trivial⟩, by simp [agedLinks]⟩
  have hex : ExactSources station.cfg agedRouting := ⟨by decide +kernel, by decide +kernel⟩
  obtain ⟨q, r, hflush, -, htable, hq, hsrc⟩ :=
    flush_two_phase station.cfg 5000 3 agedLinks agedRouting hlinks hex (by decide +kernel)
  have hptr : r.table.map AodvRoute.ptr = [0, 1] := by
    rw [htable]
    decide +kernel
  refine ⟨q, r, hflush, hptr, hptr ▸ hq, ?_⟩
  rw [hsrc]
  decide +kernel

end Fbaodv.Proofs.RouteFlush
