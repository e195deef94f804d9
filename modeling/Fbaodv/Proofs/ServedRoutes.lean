import Fbaodv.Proofs.OrphanRoutes

namespace Fbaodv.Proofs.ServedRoutes

open Fbaodv.Model Fbaodv.Model.Node Fbaodv.Foundation
open Fbaodv.Proofs.RouteFrame Fbaodv.Proofs.RoutingInvariant Fbaodv.Proofs.HandlerSpecs
open Fbaodv.Proofs.NodeRun Fbaodv.Proofs.PacketDiscovery Fbaodv.Proofs.NeighLoss
open Fbaodv.Proofs.OrphanRoutes (flowRrep answeredStation)

/-- Every entry on which `output_handler` accepts has its kernel route. -/
def AllServed (r : Routing) : Prop :=
  ∀ e ∈ r.table, e.selfRoute = false → e.state ≠ .invalid → e.kernelRoute ∈ r.kernel

/-- The same, except for the entry under `p`. -/
def ServedBut (p : Option ℕ) (r : Routing) : Prop :=
  ∀ e ∈ r.table, some e.ptr ≠ p → e.selfRoute = false → e.state ≠ .invalid → e.kernelRoute ∈ r.kernel

/-- No other usable entry is served by the kernel route of `e`. -/
def SoleUser (cfg : Config) (r : Routing) (e : AodvRoute) : Prop :=
  IsDtn cfg e.srcIp e.dstIp ∨ ∀ x ∈ r.table, x.ptr ≠ e.ptr → x.selfRoute = false →
    x.state ≠ .invalid → x.kernelRoute ≠ e.kernelRoute

instance (cfg : Config) (r : Routing) (e : AodvRoute) : Decidable (SoleUser cfg r e) :=
  inferInstanceAs (Decidable (_ ∨ _))

/-- An installation of `e` serves it, or is not made, or is not needed. -/
def Installs (cfg : Config) (r : Routing) (e : AodvRoute) : Prop :=
  e.selfRoute = true ∨ r.findSrcListEntry e.srcIp = none ∨ ¬ IsDtn cfg e.srcIp e.dstIp ∨
    e.kernelRoute ∈ r.kernel

instance (cfg : Config) (r : Routing) (e : AodvRoute) : Decidable (Installs cfg r e) :=
  inferInstanceAs (Decidable (_ ∨ _ ∨ _ ∨ _))

/-- The address of the entry that `rreq_aodv_route` goes on to update. -/
def updated (cfg : Config) (r : Routing) (srcIp dstIp : Ip) (tos : UInt8) (dstId pathMetric : UInt32) :
    Option ℕ :=
  (r.rreqEntry cfg srcIp dstIp tos dstId pathMetric).1.map fun x ↦ x.1.ptr

/-- What `rreq_aodv_route` withdraws serves no other entry. -/
def WithdrawsOwn (cfg : Config) (r : Routing) (srcIp dstIp : Ip) (tos : UInt8)
    (dstId pathMetric : UInt32) : Prop :=
  ∀ e ∈ r.findAodvRoute srcIp dstIp tos, e.rejects dstId pathMetric = false → e.state ≠ .invalid →
    SoleUser cfg r e

/-- The kernel has the new route of the entry that `rreq_aodv_route` updates
already and keeps it. -/
def AlreadyServed (cfg : Config) (r : Routing) (srcIp dstIp : Ip) (tos : UInt8) (nextHop : Ip)
    (hops : UInt8) (dstId pathMetric : UInt32) : Prop :=
  ∀ x ∈ (r.rreqEntry cfg srcIp dstIp tos dstId pathMetric).1, x.1.selfRoute = true ∨
    (⟨dstIp, nextHop, hops⟩ ∈ r.kernel ∧
      (x.2 = .invalid ∨ IsDtn cfg srcIp dstIp ∨ x.1.kernelRoute ≠ ⟨dstIp, nextHop, hops⟩))

/-- An installation of `e` serves the entry under `p`. -/
def ServesUpdated (cfg : Config) (r : Routing) (p : Option ℕ) (e : AodvRoute) : Prop :=
  some e.ptr = p ∧ r.findSrcListEntry e.srcIp ≠ none ∧ ¬ IsDtn cfg e.srcIp e.dstIp

instance (cfg : Config) (r : Routing) (p : Option ℕ) (e : AodvRoute) :
    Decidable (ServesUpdated cfg r p e) :=
  inferInstanceAs (Decidable (_ ∧ _ ∧ _))

structure Served (p : Option ℕ) (cfg : Config) (r : Routing) : Prop where
  wf : WellFormed cfg r
  netlink : r.netlink = []
  served : ServedBut p r

section Tables

variable {cfg : Config} {r r' : Routing} {p : Option ℕ}

theorem Served.allServed (h : Served none cfg r) : AllServed r :=
  fun e he ↦ h.served e he (by simp)

theorem Served.weaken (h : Served none cfg r) (p : Option ℕ) : Served p cfg r :=
  ⟨h.wf, h.netlink, fun e he _ ↦ h.served e he (by simp)⟩

theorem Served.touches (hr : Served p cfg r) (h : Touches cfg r r') : Served p cfg r' where
  wf := hr.wf.touches h
  netlink := h.netlink.trans hr.netlink
  served := by
    intro e' he' hp hself hstate
    obtain ⟨e, he, htouch⟩ := Pointwise.exists_of_mem_right h.entries he'
    rw [htouch.kernelRoute, h.kernel]
    exact hr.served e he (htouch.ptr ▸ hp) (htouch.selfRoute ▸ hself) (htouch.state hstate)

theorem Served.inserts (hr : Served p cfg r) {new : AodvRoute} (h : Inserts new r r')
    (hneigh : new.neighRoute = true → new.selfRoute = true)
    (hnew : new.selfRoute = true ∨ new.state = .invalid) : Served p cfg r' where
  wf := hr.wf.inserts h hneigh
  netlink := h.netlink.trans hr.netlink
  served := by
    intro e he hp hself hstate
    rw [h.kernel]
    rcases h.mem.mp he with rfl | he
    · rcases hnew with hnew | hnew
      · simp [hnew] at hself
      · exact absurd hnew hstate
    · exact hr.served e he hp hself hstate

theorem Served.srcOnly (hr : Served p cfg r) (h : SrcOnly r r') : Served p cfg r' where
  wf := hr.wf.srcOnly h
  netlink := h.netlink hr.netlink
  served := by
    unfold ServedBut
    rw [h.kernel, h.table]
    exact hr.served

theorem Served.newRoute (hr : Served p cfg r) {byRrep ok : Bool} {srcIp : Ip} {k : KernelRoute}
    (h : r.newRoute cfg byRrep srcIp k = (ok, r')) : Served p cfg r' := by
  have hwf := hr.wf.newRoute h
  rw [newRoute_eq hr.netlink] at h
  obtain ⟨-, rfl⟩ := Prod.mk.inj h
  split at hwf
  · next hd => rwa [if_pos hd]
  · next hd =>
    rw [if_neg hd]
    exact ⟨hwf, hr.netlink, fun e he hp hself hstate ↦
      Finset.mem_insert_of_mem (hr.served e he hp hself hstate)⟩

/-- Withdrawing a kernel route that serves `e` alone leaves the others served. -/
theorem Served.delRoute (hr : Served p cfg r) {e : AodvRoute} (hsole : SoleUser cfg r e) {ok : Bool}
    (hp : p = none ∨ p = some e.ptr)
    (h : r.delRoute cfg e.srcIp e.kernelRoute = (ok, r')) : ok = true ∧ Served (some e.ptr) cfg r' := by
  have hwf := hr.wf.delRoute h
  have hbut : ∀ x : AodvRoute, some x.ptr ≠ some e.ptr → some x.ptr ≠ p := fun x hx ↦ by
    rcases hp with rfl | rfl
    · simp
    · exact hx
  rw [delRoute_eq hr.netlink] at h
  obtain ⟨rfl, rfl⟩ := Prod.mk.inj h
  refine ⟨rfl, ?_⟩
  by_cases hd : IsDtn cfg e.srcIp e.kernelRoute.dst
  · rw [if_pos hd]
    exact ⟨hr.wf, hr.netlink, fun x hx hx' ↦ hr.served x hx (hbut x hx')⟩
  · rw [if_neg hd] at hwf ⊢
    refine ⟨hwf, hr.netlink, fun x hx hx' hself hstate ↦ ?_⟩
    refine Finset.mem_erase.mpr ⟨?_, hr.served x hx (hbut x hx') hself hstate⟩
    exact hsole.resolve_left hd x hx (fun hptr ↦ hx' (by rw [hptr])) hself hstate

theorem Served.modifyAt {ptr : ℕ} (hr : Served p cfg r) (hp : p = none ∨ p = some ptr)
    {f : AodvRoute → AodvRoute} (hf : ∀ e, SameKey e (f e)) :
    Served (some ptr) cfg (r.modifyAt ptr f) where
  wf := hr.wf.modifyAt ptr hf
  netlink := hr.netlink
  served := by
    intro x hx hx'
    obtain ⟨e, he, rfl⟩ := List.mem_map.mp hx
    split at hx'
    · next hptr => exact absurd (by rw [(hf e).ptr, hptr]) hx'
    · next hptr =>
      rw [if_neg hptr]
      refine hr.served e he ?_
      rcases hp with rfl | rfl
      · simp
      · exact hx'

theorem Served.close {ptr : ℕ} (hr : Served (some ptr) cfg r)
    (h : ∀ e ∈ r.table, e.ptr = ptr → e.selfRoute = true ∨ e.kernelRoute ∈ r.kernel) :
    Served none cfg r where
  wf := hr.wf
  netlink := hr.netlink
  served := by
    intro e he _ hself hstate
    by_cases hptr : e.ptr = ptr
    · exact (h e he hptr).resolve_left (by simp [hself])
    · exact hr.served e he (by simpa using hptr) hself hstate

theorem Served.rreqAodvRoute (hr : Served none cfg r) {now : ℕ} {srcIp dstIp : Ip} {tos : UInt8}
    {nextHop : Ip} {sendRate : UInt16} {hops : UInt8} {dstId pathMetric : UInt32} {ok : Bool}
    (hown : WithdrawsOwn cfg r srcIp dstIp tos dstId pathMetric)
    (h : r.rreqAodvRoute cfg now srcIp dstIp tos nextHop sendRate hops dstId pathMetric =
      some (ok, r')) :
    Served (updated cfg r srcIp dstIp tos dstId pathMetric) cfg r' ∧
      (AlreadyServed cfg r srcIp dstIp tos nextHop hops dstId pathMetric → Served none cfg r') := by
  rcases rreqAodvRoute_cases h with ⟨-, heq, h⟩ | ⟨-, e, st, r₁, heq, h, htouch⟩
  · have hr' : Served none cfg r' := by
      cases h with
      | full _ h => exact hr.touches h
      | unlisted _ hnew h hsrc =>
        exact (hr.inserts h (by rw [hnew]; exact nofun) (.inr (by rw [hnew]; rfl))).srcOnly hsrc
      | rejected => exact hr
      | refused hfind h =>
        rw [delRoute_eq hr.netlink] at h
        exact absurd (Prod.mk.inj h).1 (by simp)
    exact ⟨hr'.weaken _, fun _ ↦ hr'⟩
  · simp only [updated, AlreadyServed, heq, Option.map_some, Option.mem_some_iff, forall_eq']
    obtain ⟨he, hsrc, hdst, -⟩ := h.mem
    have hr₁ : Served (some e.ptr) cfg r₁ ∧ ∀ k ∈ r.kernel,
        st = .invalid ∨ IsDtn cfg srcIp dstIp ∨ e.kernelRoute ≠ k → k ∈ r₁.kernel := by
      cases h with
      | created _ hnew h hsrc =>
        refine ⟨((hr.inserts h (by rw [hnew]; exact nofun) (.inr (by rw [hnew]; rfl))).srcOnly
          hsrc).weaken _, fun k hk _ ↦ ?_⟩
        rwa [hsrc.kernel, h.kernel]
      | invalid => exact ⟨hr.weaken _, fun k hk _ ↦ hk⟩
      | withdrawn hfind hrej hstate h =>
        refine ⟨(hr.delRoute (hown e hfind hrej hstate) (.inl rfl) h).2, fun k hk hkeep ↦ ?_⟩
        rw [delRoute_eq hr.netlink] at h
        obtain ⟨-, rfl⟩ := Prod.mk.inj h
        by_cases hd : IsDtn cfg e.srcIp e.kernelRoute.dst
        · rwa [if_pos hd]
        · rw [if_neg hd]
          refine Finset.mem_erase.mpr ⟨?_, hk⟩
          rcases hkeep with hkeep | hkeep | hkeep
          · exact absurd hkeep hstate
          · exact absurd (show IsDtn cfg e.srcIp e.dstIp by rwa [hsrc, hdst]) hd
          · exact hkeep.symm
    obtain ⟨hr₁, hkernel⟩ := hr₁
    have hmod := hr₁.modifyAt (.inr rfl) (sameKey_rreqUpdate now nextHop hops dstId pathMetric)
    refine ⟨hmod.touches htouch, fun halready ↦ Served.touches (hmod.close fun x hx hptr ↦ ?_) htouch⟩
    have hmem : rreqUpdate now nextHop hops dstId pathMetric e ∈
        (r₁.modifyAt e.ptr (rreqUpdate now nextHop hops dstId pathMetric)).table :=
      List.mem_map.mpr ⟨e, he, if_pos rfl⟩
    obtain rfl := hmod.wf.eq_of_ptr hmem hx hptr
    refine halready.imp id fun hk ↦ ?_
    rw [← hdst] at hk
    exact hkernel _ hk.1 (hdst ▸ hk.2)

theorem Served.rrepAodvRoute (hr : Served p cfg r) {now ptr : ℕ} {o : Option AodvRoute}
    (hins : ∀ e ∈ r.entryAt ptr, Installs cfg r e)
    (h : r.rrepAodvRoute cfg now ptr = some (o, r')) :
    Served p cfg r' ∧ (∀ e ∈ r.entryAt ptr, ServesUpdated cfg r p e → Served none cfg r') := by
  have hwf := hr.wf.rrepAodvRoute h
  obtain ⟨e, hentry, hcases⟩ := rrepAodvRoute_cases h
  obtain ⟨he, rfl⟩ := entryAt_mem hentry
  have hins := hins e hentry
  simp only [hentry, Option.mem_some_iff, forall_eq']
  rcases hcases with ⟨hsrc, -, rfl⟩ | ⟨hnew, -⟩ | ⟨r₁, hlisted, hnew, -, rfl⟩
  · exact ⟨hr, fun hserve ↦ absurd hsrc hserve.2.1⟩
  · rw [newRoute_eq hr.netlink] at hnew
    exact absurd (Prod.mk.inj hnew).1 (by simp)
  have hr₁ := hr.newRoute hnew
  have he₁ : e ∈ r₁.table := (newRoute_table hnew).1 ▸ he
  have hgrow : ∀ k ∈ r.kernel, k ∈ r₁.kernel := by
    rw [newRoute_eq hr.netlink] at hnew
    obtain ⟨-, rfl⟩ := Prod.mk.inj hnew
    split
    · exact fun k hk ↦ hk
    · exact fun k hk ↦ Finset.mem_insert_of_mem hk
  have hinstall : ¬ IsDtn cfg e.srcIp e.kernelRoute.dst → e.kernelRoute ∈ r₁.kernel := by
    intro hdtn
    rw [newRoute_eq hr.netlink, if_neg hdtn] at hnew
    obtain ⟨-, rfl⟩ := Prod.mk.inj hnew
    exact Finset.mem_insert_self _ _
  have hentry' : ∀ x ∈ (r₁.modifyAt e.ptr fun e ↦
      { e with state := .replied, lifetime := now + deletePeriod }).table,
      x.ptr = e.ptr → x.selfRoute = e.selfRoute ∧ x.kernelRoute = e.kernelRoute := by
    intro x hx hptr
    have hmem : { e with state := .replied, lifetime := now + deletePeriod } ∈
        (r₁.modifyAt e.ptr fun e ↦
          { e with state := .replied, lifetime := now + deletePeriod }).table :=
      List.mem_map.mpr ⟨e, he₁, if_pos rfl⟩
    obtain rfl := hwf.eq_of_ptr hmem hx hptr
    exact ⟨rfl, rfl⟩
  constructor
  · refine ⟨hwf, hr₁.netlink, fun x hx hp hself hstate ↦ ?_⟩
    by_cases hptr : x.ptr = e.ptr
    · obtain ⟨hself', hroute⟩ := hentry' x hx hptr
      rw [hroute]
      rcases hins with hins | hins | hins | hins
      · simp [hself', hins] at hself
      · exact absurd hins hlisted
      · exact hinstall hins
      · exact hgrow _ hins
    · obtain ⟨y, hy, rfl⟩ := List.mem_map.mp hx
      split at hptr
      · next hy' => exact absurd hy' hptr
      · next hy' =>
        rw [if_neg hy'] at hp hself hstate ⊢
        exact hr₁.served y hy hp hself hstate
  · rintro ⟨rfl, -, hdtn⟩
    refine Served.close (hr₁.modifyAt (.inr rfl) fun _ ↦ ⟨rfl, rfl, rfl, rfl, rfl, rfl⟩)
      fun x hx hptr ↦ .inr ?_
    rw [(hentry' x hx hptr).2]
    exact hinstall hdtn

theorem rrepAodvRoute_keeps (hr : r.netlink = []) {now ptr : ℕ} {o : Option AodvRoute}
    (h : r.rrepAodvRoute cfg now ptr = some (o, r')) :
    r'.srcList = r.srcList ∧ (∀ k ∈ r.kernel, k ∈ r'.kernel) ∧
      ∀ x' ∈ r'.table, ∃ x ∈ r.table, SameKey x x' ∧ x'.kernelRoute = x.kernelRoute := by
  obtain ⟨e, -, ⟨-, -, rfl⟩ | ⟨hnew, -⟩ | ⟨r₁, -, hnew, -, rfl⟩⟩ := rrepAodvRoute_cases h
  · exact ⟨rfl, fun _ hk ↦ hk, fun x hx ↦ ⟨x, hx, .refl x, rfl⟩⟩
  · rw [newRoute_eq hr] at hnew
    exact absurd (Prod.mk.inj hnew).1 (by simp)
  rw [newRoute_eq hr] at hnew
  obtain ⟨-, rfl⟩ := Prod.mk.inj hnew
  have hentries : ∀ r₁ : Routing, r₁.table = r.table → ∀ x' ∈ (r₁.modifyAt ptr fun e ↦
      { e with state := .replied, lifetime := now + deletePeriod }).table,
      ∃ x ∈ r.table, SameKey x x' ∧ x'.kernelRoute = x.kernelRoute := by
    intro r₁ htable x' hx'
    obtain ⟨x, hx, rfl⟩ := List.mem_map.mp hx'
    refine ⟨x, htable ▸ hx, ?_⟩
    split <;> exact ⟨⟨rfl, rfl, rfl, rfl, rfl, rfl⟩, rfl⟩
  split
  · exact ⟨rfl, fun _ hk ↦ hk, hentries r rfl⟩
  · exact ⟨rfl, fun _ hk ↦ Finset.mem_insert_of_mem hk, hentries _ rfl⟩

theorem Installs.keep {e e' : AodvRoute} (h : Installs cfg r e) (hkey : SameKey e e')
    (hroute : e'.kernelRoute = e.kernelRoute) (hsrc : r'.srcList = r.srcList)
    (hkernel : ∀ k ∈ r.kernel, k ∈ r'.kernel) : Installs cfg r' e' := by
  unfold Installs Routing.findSrcListEntry at h ⊢
  rw [hkey.selfRoute, hkey.srcIp, hkey.dstIp, hroute, hsrc]
  exact h.imp_right (Or.imp_right (Or.imp_right (hkernel _)))

theorem Installs.touches (hr : WellFormed cfg r) {e : AodvRoute} (he : e ∈ r.table)
    (hins : Installs cfg r e) (h : Touches cfg r r') : ∀ e' ∈ r'.entryAt e.ptr, Installs cfg r' e' := by
  intro e' he'
  obtain ⟨he', hptr⟩ := entryAt_mem he'
  obtain ⟨x, hx, htouch⟩ := Pointwise.exists_of_mem_right h.entries he'
  obtain rfl := hr.eq_of_ptr he hx (htouch.ptr ▸ hptr)
  exact hins.keep (EntryTouch.sameKey htouch) htouch.kernelRoute h.srcList (h.kernel ▸ fun _ ↦ id)

theorem Served.addsNeigh {ip : Ip} {dstId : UInt32} (hr : Served p cfg r)
    (h : AddsNeigh cfg ip dstId r r') : Served p cfg r' := by
  obtain ⟨lifetime, r₁, hins, h⟩ := h
  have hr₁ : Served p cfg r₁ := hr.inserts hins (fun _ ↦ rfl) (.inl rfl)
  rcases h with h | ⟨ok, r₂, freed, hnew, -, h⟩
  · exact hr₁.touches h
  · have hr₂ := hr₁.newRoute hnew
    have hfreed : Served p cfg { r₂ with freed := freed } := ⟨{ hr₂.wf with }, hr₂.netlink, hr₂.served⟩
    exact hfreed.touches h

theorem Served.removeAodvRoute {ptr : ℕ} (hr : Served p cfg r) (hp : p = none ∨ p = some ptr) :
    Served none cfg (r.removeAodvRoute ptr) where
  wf := hr.wf.removeAodvRoute ptr
  netlink := hr.netlink
  served := by
    intro e he _ hself hstate
    obtain ⟨he, hptr⟩ := List.mem_filter.mp he
    refine hr.served e he ?_ hself hstate
    rcases hp with rfl | rfl
    · simp
    · simpa using hptr

/-- What the flush withdraws from the kernel serves no entry that stays. -/
def FlushWithdrawsOwn (cfg : Config) (now : ℕ) (r : Routing) : Prop :=
  ∀ l₁ e l₂, r.table = l₁ ++ e :: l₂ → ∀ r₁, r₁ = l₁.foldl (Routing.flushEntry cfg now) r →
    e.state = .invalid → e.selfRoute = false → timeBefore e.lifetime now = true →
      r₁.findSrcListEntry e.srcIp ≠ none → SoleUser cfg r₁ e

theorem Served.flushAodvRouteTable (hr : Served none cfg r) {now : ℕ}
    (hown : FlushWithdrawsOwn cfg now r) : Served none cfg (r.flushAodvRouteTable cfg now) := by
  refine flushAodvRouteTable_turns hr.wf hr (fun l₁ e l₂ htable r₁ hr₁ hwf he hserved ↦ ?_)
    fun r₁ h ↦ h.touches (touches_updateMyLoad cfg r₁)
  have hspec := flushEntry_spec cfg now r₁ e
  generalize r₁.flushEntry cfg now e = r' at hspec ⊢
  cases hspec with
  | kept => exact hserved
  | expired => exact hserved.touches (touches_expireAodvRoute _ _ _ _)
  | forgotten => exact hserved.removeAodvRoute (.inl rfl)
  | @removed r₂ r₃ r₄ hdue hself hstate hsrc h₂ h₃ h₄ =>
    have hneigh : e.neighRoute = false := by
      by_contra hneigh
      simp [hwf.neighRoute e he (by simpa using hneigh)] at hself
    rw [hneigh, if_neg (by simp)] at h₃
    subst h₃
    have hsole : SoleUser cfg r₂ e := by
      have := hown l₁ e l₂ htable r₁ hr₁ hstate hself hdue hsrc
      unfold SoleUser at this ⊢
      rwa [h₂.table]
    have hdel := ((hserved.srcOnly h₂).delRoute hsole (.inl rfl) rfl).2
    exact (hdel.srcOnly h₄).removeAodvRoute (.inr rfl)

/-- The part of `recv_rrep` after the update that left `r₁`: the entry with the
RREP's number is served when it is installed, and it is the updated one unless
that is served already. -/
structure RrepServes (cfg : Config) (r : Routing) (srcIp dstIp : Ip) (tos : UInt8) (nextHop : Ip)
    (hops : UInt8) (dstId pathMetric : UInt32) (r₁ : Routing) : Prop where
  installs : ∀ e ∈ r₁.findAodvRouteById dstIp dstId, Installs cfg r₁ e
  updated : AlreadyServed cfg r srcIp dstIp tos nextHop hops dstId pathMetric ∨
    ∃ e ∈ r₁.findAodvRouteById dstIp dstId,
      ServesUpdated cfg r₁ (updated cfg r srcIp dstIp tos dstId pathMetric) e

/-- `recv_rrep` from the update to the installation of the entry with the RREP's
number. -/
theorem Served.rrepServes (hr : Served none cfg r) {now : ℕ} {srcIp dstIp : Ip} {tos : UInt8}
    {nextHop : Ip} {sendRate : UInt16} {hops : UInt8} {dstId pathMetric : UInt32} {ok : Bool}
    {r₁ r₂ : Routing} (hown : WithdrawsOwn cfg r srcIp dstIp tos dstId pathMetric)
    (h : r.rreqAodvRoute cfg now srcIp dstIp tos nextHop sendRate hops dstId pathMetric =
      some (ok, r₁)) (hserves : RrepServes cfg r srcIp dstIp tos nextHop hops dstId pathMetric r₁)
    (h₂ : r₁.findAodvRouteById dstIp dstId = none ∧ r₂ = r₁ ∨
      ∃ e o, r₁.findAodvRouteById dstIp dstId = some e ∧
        r₁.rrepAodvRoute cfg now e.ptr = some (o, r₂)) : Served none cfg r₂ := by
  obtain ⟨hbut, halready⟩ := hr.rreqAodvRoute hown h
  rcases h₂ with ⟨hfind, rfl⟩ | ⟨e, o, hfind, h₂⟩
  · refine halready (hserves.updated.resolve_right ?_)
    rintro ⟨e, he, -⟩
    simp [hfind] at he
  · have hentry := entryAt_of_mem hbut.wf (findAodvRouteById_some hfind).1
    have hins : ∀ x ∈ r₁.entryAt e.ptr, Installs cfg r₁ x := by
      rw [hentry]
      simpa using hserves.installs e hfind
    rcases hserves.updated with hup | ⟨f, hf, hup⟩
    · exact ((halready hup).rrepAodvRoute hins h₂).1
    · obtain rfl : e = f := by simpa [hfind] using hf
      exact (hbut.rrepAodvRoute hins h₂).2 e hentry hup

/-- The same with the route back to the source installed in between. -/
theorem Served.forwards (hr : Served none cfg r) {now : ℕ} {srcIp dstIp : Ip} {tos : UInt8}
    {nextHop : Ip} {sendRate : UInt16} {hops : UInt8} {dstId pathMetric : UInt32} {ok : Bool}
    {ptr : ℕ} {send : AodvRoute} {o₂ o₃ : Option AodvRoute} {r₁ r₂ r₃ : Routing}
    (hown : WithdrawsOwn cfg r srcIp dstIp tos dstId pathMetric)
    (h : r.rreqAodvRoute cfg now srcIp dstIp tos nextHop sendRate hops dstId pathMetric =
      some (ok, r₁)) (hserves : RrepServes cfg r srcIp dstIp tos nextHop hops dstId pathMetric r₁)
    (hinstalls : ∀ e ∈ r₁.entryAt ptr, Installs cfg r₁ e)
    (hfind : r₁.findAodvRouteById dstIp dstId = some send)
    (h₂ : r₁.rrepAodvRoute cfg now ptr = some (o₂, r₂))
    (h₃ : r₂.rrepAodvRoute cfg now send.ptr = some (o₃, r₃)) : Served none cfg r₃ := by
  obtain ⟨hbut, halready⟩ := hr.rreqAodvRoute hown h
  obtain ⟨hsrcList, hkernel, hentries⟩ := rrepAodvRoute_keeps hbut.netlink h₂
  have hsame : ∀ e ∈ r₂.entryAt send.ptr, SameKey send e ∧ e.kernelRoute = send.kernelRoute := by
    intro e he
    obtain ⟨he, hptr⟩ := entryAt_mem he
    obtain ⟨x, hx, hkey, hroute⟩ := hentries e he
    obtain rfl := hbut.wf.eq_of_ptr (findAodvRouteById_some hfind).1 hx (hkey.ptr ▸ hptr)
    exact ⟨hkey, hroute⟩
  have hins : ∀ e ∈ r₂.entryAt send.ptr, Installs cfg r₂ e := fun e he ↦
    (hserves.installs send hfind).keep (hsame e he).1 (hsame e he).2 hsrcList hkernel
  rcases hserves.updated with hup | ⟨f, hf, hup⟩
  · exact (((halready hup).rrepAodvRoute hinstalls h₂).1.rrepAodvRoute hins h₃).1
  · obtain rfl : send = f := by simpa [hfind] using hf
    obtain ⟨e, hentry, -⟩ := rrepAodvRoute_cases h₃
    have hkey := (hsame e hentry).1
    refine ((hbut.rrepAodvRoute hinstalls h₂).1.rrepAodvRoute hins h₃).2 e hentry ?_
    unfold ServesUpdated Routing.findSrcListEntry at hup ⊢
    rwa [hkey.ptr, hkey.srcIp, hkey.dstIp, hsrcList]

end Tables

section Runs

variable {n n' : Node} {t : Task}

/-- Every route that a task makes usable gets its kernel route within the task
or has it, and no task withdraws a kernel route that other usable entries
need. -/
structure TaskServes (n : Node) (t : Task) : Prop where
  rreq : ∀ m x pathMetric, t.type = .recvRreq → t.data = some (.rreq m) →
    RreqCall n t m x pathMetric →
      WithdrawsOwn n.cfg n.routing m.dstIp m.srcIp m.tos m.dstId pathMetric ∧
      AlreadyServed n.cfg n.routing m.dstIp m.srcIp m.tos x.ip (m.numHops + 1) m.dstId pathMetric
  answer : t.type = .sendRrep → isDtnAnswer n t.dstIp = false →
    ∀ e ∈ n.routing.findAodvRoute t.dstIp t.srcIp t.tos, Installs n.cfg n.routing e
  answerDtn : t.type = .sendRrep → isDtnAnswer n t.dstIp = true →
    ¬ IsDtn n.cfg n.cfg.gMeshIp t.srcIp
  source : ∀ m x, t.type = .recvRrep → t.data = some (.rrep m) → n.findAodvNeigh t.srcIp = some x →
    isRrepSource n m = true →
      WithdrawsOwn n.cfg n.routing m.srcIp m.dstIp m.tos m.dstId m.pathMetric ∧
      ∀ ok r₁, n.routing.rreqAodvRoute n.cfg n.now m.srcIp m.dstIp m.tos x.ip x.sendRate
          (m.numHops + 1) m.dstId m.pathMetric = some (ok, r₁) →
        RrepServes n.cfg n.routing m.srcIp m.dstIp m.tos x.ip (m.numHops + 1) m.dstId m.pathMetric r₁
  forward : ∀ m x recv m' n₁, t.type = .recvRrep → t.data = some (.rrep m) →
    n.findAodvNeigh t.srcIp = some x → isRrepSource n m = false →
      (n.updateNeighLifetime x.ip).rrepRecvRoute { m with numHops := m.numHops + 1 } =
        some (some recv, m', n₁) →
      WithdrawsOwn n.cfg n₁.routing m'.srcIp m'.dstIp m'.tos m'.dstId
        (m'.pathMetric - recv.pathMetric) ∧
      ∀ ok r₁, n₁.routing.rreqAodvRoute n.cfg n.now m'.srcIp m'.dstIp m'.tos x.ip x.sendRate
          m'.numHops m'.dstId (m'.pathMetric - recv.pathMetric) = some (ok, r₁) →
        RrepServes n.cfg n₁.routing m'.srcIp m'.dstIp m'.tos x.ip m'.numHops m'.dstId
          (m'.pathMetric - recv.pathMetric) r₁ ∧
        ∀ e ∈ r₁.entryAt recv.ptr, Installs n.cfg r₁ e
  flush : t.type = .cleanup ∨ t.type = .routeCleanup → FlushWithdrawsOwn n.cfg n.now n.routing

/-- The thread takes no task that leaves a usable route without its kernel
route. -/
def Serves (n : Node) : Event → Prop
  | .thread => ∀ t tasks, n.tasks.pop = (some t, tasks) → TaskServes { n with tasks := tasks } t
  | _ => True

theorem Served.effect {r : Routing} (hr : Served none n.cfg n.routing) (hserve : TaskServes n t)
    (h : RouteEffect n t r) : Served none n.cfg r := by
  cases h with
  | touch h => exact hr.touches h
  | hello _ h _ h' =>
    rcases h with h | ⟨dstId, -, h⟩
    · exact (hr.touches h).touches h'
    · exact (hr.addsNeigh h).touches h'
  | rreq htype hdata hcall h =>
    obtain ⟨hown, halready⟩ := hserve.rreq _ _ _ htype hdata hcall
    exact (hr.rreqAodvRoute hown h).2 halready
  | @answer e o r₀ r₁ r₂ _ htype h h₁ h₂ h' =>
    rcases h with ⟨rfl, hfind, hdtn⟩ | ⟨hdtn, -, new, hcopy, hptr⟩
    · have hins := (hserve.answer htype hdtn e hfind).touches hr.wf (findAodvRoute_some hfind).1 h₁
      exact (((hr.touches h₁).rrepAodvRoute hins h₂).1).touches h'
    · have hr₀ : Served none n.cfg r₀ :=
        (hr.touches (touches_setDstId hr.wf.localEntry)).inserts hcopy.inserts
          (by simp [hcopy.neighRoute]) (.inr hcopy.state)
      have hinstalls : Installs n.cfg r₀ new :=
        .inr (.inr (.inl (by rw [hcopy.srcIp, hcopy.dstIp]; exact hserve.answerDtn htype hdtn)))
      rw [hptr] at h₂
      exact (((hr₀.touches h₁).rrepAodvRoute
        (hinstalls.touches hr₀.wf (hcopy.inserts.mem.mpr (.inl rfl)) h₁) h₂).1).touches h'
  | rrepSource htype hdata hx hsource h₁ h₂ h' =>
    obtain ⟨hown, hrest⟩ := hserve.source _ _ htype hdata hx hsource
    exact (hr.rrepServes hown h₁ (hrest _ _ h₁) h₂).touches h'
  | @rrepForward m m' x recv ok n₁ r₁ _ htype hdata hx hsource hrecv h₁ h' =>
    obtain ⟨hown, hrest⟩ := hserve.forward _ _ _ _ _ htype hdata hx hsource hrecv
    obtain ⟨hserves, hinstalls⟩ := hrest _ _ h₁
    have hn₁ : Served none n.cfg n₁.routing := by
      rcases rrepRecvRoute_cases (n := n.updateNeighLifetime x.ip) hr.wf hrecv with
        ⟨-, rfl⟩ | ⟨-, -, e, new, r, -, rfl, hcopy, -⟩
      · exact hr
      · exact hr.inserts hcopy.inserts (by simp [hcopy.neighRoute]) (.inr hcopy.state)
    rcases h' with ⟨hfind, rfl⟩ | ⟨send, o₂, r₂, o₃, r₃, hfind, h₂, h₃, h'⟩
    · exact hn₁.rrepServes hown h₁ hserves (.inl ⟨hfind, rfl⟩)
    · exact (hn₁.forwards hown h₁ hserves hinstalls hfind h₂ h₃).touches h'
  | flush htype => exact hr.flushAodvRouteTable (hserve.flush htype)

theorem step_served {e : Event} (hr : Served none n.cfg n.routing) (he : Serves n e)
    (h : n.step e = some n') : Served none n'.cfg n'.routing := by
  rcases step_cases hr.wf h with ⟨t, tasks, rfl, hpop, hcfg, -, heffect⟩ | ⟨hcfg, htouch⟩
  · rw [hcfg]
    exact Served.effect (n := { n with tasks := tasks }) hr (he t tasks hpop) heffect
  · rw [hcfg]
    exact hr.touches htouch

/-- In every run whose tasks all serve the routes that they make usable, every
usable entry has its kernel route. -/
theorem all_served_of_serves (h : Reach (fun _ env ↦ env.netlink = []) Serves n) :
    AllServed n.routing := by
  refine (h.induct (Q := fun n ↦ Served none n.cfg n.routing) (fun cfg env hnetlink ↦ ?_)
    fun n e n' hr he hs ↦ step_served hr he hs).allServed
  obtain ⟨hcfg, hrouting⟩ := init_frame cfg env
  rw [hcfg, hrouting]
  refine ⟨initRouting_wellFormed _ _ _ _, hnetlink, fun e he _ hself ↦ ?_⟩
  obtain rfl : e = localEntry cfg := by simpa [initRouting] using he
  simp [localEntry] at hself

theorem taskServes_of_type (h : t.type ≠ .recvRreq) (h' : t.type ≠ .recvRrep) (h'' : t.type ≠ .sendRrep)
    (hflush : ¬ (t.type = .cleanup ∨ t.type = .routeCleanup)) : TaskServes n t :=
  ⟨fun _ _ _ ht ↦ absurd ht h, fun ht ↦ absurd ht h'', fun ht ↦ absurd ht h'',
    fun _ _ ht ↦ absurd ht h', fun _ _ _ _ _ ht ↦ absurd ht h', fun ht ↦ absurd ht hflush⟩

end Runs

/-- The station when it has heard the RREP for its flow to 192.168.1.9. -/
def heardStation : Node := (metStation.inputHandler (heard 0x0201a8c0 (.rrep flowRrep))).2

def metNeigh : AodvNeigh := (metStation.findAodvNeigh 0x0201a8c0).getD (newAodvNeigh station.cfg 0)

/-- The tables between the update and the installation. -/
def updatedTables : Routing :=
  ((metStation.routing.rreqAodvRoute metStation.cfg metStation.now 0x0101a8c0 0x0901a8c0 0 metNeigh.ip
    metNeigh.sendRate 1 5 2).getD (false, metStation.routing)).2

theorem all_served_of_serves_answer :
    AllServed answeredStation.routing ∧
      ∃ e ∈ answeredStation.routing.table, e.selfRoute = false ∧ e.state = .replied := by
  refine ⟨all_served_of_serves ?_, by decide +kernel⟩
  have hmet : Reach (fun _ env ↦ env.netlink = []) Serves metStation := by
    refine .step (e := .thread) (.step (n := station)
      (e := .input (heard 0x0201a8c0 (.hello ⟨0, 0, 1, []⟩))) (.init rfl) trivial rfl) ?_ rfl
    intro t tasks hpop
    have htype : some TaskType.recvHello = some t.type :=
      congrArg (fun p : Option Task × _ ↦ p.1.map Task.type) hpop
    rw [Option.some.injEq] at htype
    exact taskServes_of_type (by simp [← htype]) (by simp [← htype]) (by simp [← htype])
      (by simp [← htype])
  refine .step (e := .thread) (n := heardStation)
    (.step (e := .input (heard 0x0201a8c0 (.rrep flowRrep))) hmet trivial rfl) ?_ rfl
  intro t tasks hpop
  have ht : t = heardStation.tasks.pop.1.getD (createTask .recvRrep 0) := by rw [hpop]; rfl
  have htasks : tasks = heardStation.tasks.pop.2 := by rw [hpop]
  subst ht htasks
  have htype : (heardStation.tasks.pop.1.getD (createTask .recvRrep 0)).type = .recvRrep := by
    decide +kernel
  have hdata : (heardStation.tasks.pop.1.getD (createTask .recvRrep 0)).data = some (.rrep flowRrep) := by
    decide +kernel
  refine ⟨by simp [htype], by simp [htype], by simp [htype], ?_, ?_, by simp [htype]⟩
  · intro m x _ hm hx _
    obtain rfl : flowRrep = m := by simpa [hdata] using hm
    have hx : metStation.findAodvNeigh 0x0201a8c0 = some x := hx
    obtain rfl : x = metNeigh := by rw [metNeigh, hx]; rfl
    have hown : WithdrawsOwn metStation.cfg metStation.routing 0x0101a8c0 0x0901a8c0 0 5 2 := by
      unfold WithdrawsOwn
      decide +kernel
    refine ⟨hown, fun ok r₁ hr₁ ↦ ?_⟩
    have hr₁ : metStation.routing.rreqAodvRoute metStation.cfg metStation.now 0x0101a8c0 0x0901a8c0 0
        metNeigh.ip metNeigh.sendRate 1 5 2 = some (ok, r₁) := hr₁
    obtain rfl : r₁ = updatedTables := by rw [updatedTables, hr₁]; rfl
    have hserves : RrepServes metStation.cfg metStation.routing 0x0101a8c0 0x0901a8c0 0 metNeigh.ip 1
        5 2 updatedTables := ⟨by decide +kernel, .inr (by decide +kernel)⟩
    exact hserves
  · intro m x recv m' n₁ _ hm _ hsource
    obtain rfl : flowRrep = m := by simpa [hdata] using hm
    have htrue : isRrepSource metStation flowRrep = true := by decide +kernel
    exact absurd (htrue.symm.trans hsource) (by simp)

/-- The station hears an RREQ of 192.168.1.9, which makes the route to it
active. -/
def hearRreq : List Event :=
  [.input (heard 0x0201a8c0 (.rreq ⟨0, 1, 0, 0x0101a8c0, 0x0901a8c0, 6, 0, 0⟩)), .thread]

theorem rreq_route_not_served :
    Reach (fun _ env ↦ env.netlink = []) (fun _ _ ↦ True) ((runs hearRreq metStation).getD station) ∧
      ¬ AllServed ((runs hearRreq metStation).getD station).routing := by
  have hmet : Reach (fun _ env ↦ env.netlink = []) (fun _ _ ↦ True) metStation :=
    Reach.of_runs (n := station) (l := meetNeigh) (.init rfl) rfl
  exact ⟨hmet.getD_runs (by decide +kernel) station, by unfold AllServed; decide +kernel⟩

end Fbaodv.Proofs.ServedRoutes
