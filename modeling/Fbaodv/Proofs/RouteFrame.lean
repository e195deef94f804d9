import Fbaodv.Model.Thread
import Fbaodv.Foundation.Pointwise

namespace Fbaodv.Proofs.RouteFrame

open Fbaodv.Model Fbaodv.Foundation

/-- An entry whose route stays as it is. Its `dst_id` only moves where the
entry is the node's route to itself, and nothing becomes usable again. -/
structure EntryTouch (cfg : Config) (e e' : AodvRoute) : Prop where
  ptr : e'.ptr = e.ptr
  srcIp : e'.srcIp = e.srcIp
  dstIp : e'.dstIp = e.dstIp
  tos : e'.tos = e.tos
  nextHop : e'.nextHop = e.nextHop
  numHops : e'.numHops = e.numHops
  pathMetric : e'.pathMetric = e.pathMetric
  neighRoute : e'.neighRoute = e.neighRoute
  selfRoute : e'.selfRoute = e.selfRoute
  dstId : e'.dstId = e.dstId ∨ e.srcIp = cfg.gMeshIp ∧ e.dstIp = cfg.gMeshIp
  state : e'.state ≠ .invalid → e.state ≠ .invalid

section EntryTouch

variable {cfg : Config} {e e' e'' : AodvRoute}

theorem EntryTouch.refl (cfg : Config) (e : AodvRoute) : EntryTouch cfg e e :=
  ⟨rfl, rfl, rfl, rfl, rfl, rfl, rfl, rfl, rfl, .inl rfl, id⟩

theorem EntryTouch.trans (h : EntryTouch cfg e e') (h' : EntryTouch cfg e' e'') :
    EntryTouch cfg e e'' where
  ptr := h'.ptr.trans h.ptr
  srcIp := h'.srcIp.trans h.srcIp
  dstIp := h'.dstIp.trans h.dstIp
  tos := h'.tos.trans h.tos
  nextHop := h'.nextHop.trans h.nextHop
  numHops := h'.numHops.trans h.numHops
  pathMetric := h'.pathMetric.trans h.pathMetric
  neighRoute := h'.neighRoute.trans h.neighRoute
  selfRoute := h'.selfRoute.trans h.selfRoute
  dstId := by
    rcases h'.dstId with hd | hd
    · rcases h.dstId with hd' | hd'
      · exact .inl (hd.trans hd')
      · exact .inr hd'
    · exact .inr (by rwa [h.srcIp, h.dstIp] at hd)
  state := h.state ∘ h'.state

theorem EntryTouch.kernelRoute (h : EntryTouch cfg e e') : e'.kernelRoute = e.kernelRoute := by
  simp only [AodvRoute.kernelRoute, h.dstIp, h.nextHop, h.numHops]

end EntryTouch

/-- `r'` is `r` but for touched entries, the load and the kernel's memory. -/
structure Touches (cfg : Config) (r r' : Routing) : Prop where
  kernel : r'.kernel = r.kernel
  installed : r'.installed = r.installed
  srcList : r'.srcList = r.srcList
  localRoute : r'.localRoute = r.localRoute
  heap : r'.heap = r.heap
  freed : r'.freed = r.freed
  netlink : r'.netlink = r.netlink
  entries : List.Forall₂ (EntryTouch cfg) r.table r'.table

section Touches

variable {cfg : Config} {r r' r'' : Routing}

theorem Touches.refl (cfg : Config) (r : Routing) : Touches cfg r r :=
  ⟨rfl, rfl, rfl, rfl, rfl, rfl, rfl, List.forall₂_same.mpr fun e _ ↦ .refl cfg e⟩

theorem Touches.trans (h : Touches cfg r r') (h' : Touches cfg r' r'') : Touches cfg r r'' where
  kernel := h'.kernel.trans h.kernel
  installed := h'.installed.trans h.installed
  srcList := h'.srcList.trans h.srcList
  localRoute := h'.localRoute.trans h.localRoute
  heap := h'.heap.trans h.heap
  freed := h'.freed.trans h.freed
  netlink := h'.netlink.trans h.netlink
  entries := Pointwise.forall₂_trans EntryTouch.trans h.entries h'.entries

theorem touches_modifyAt {ptr : ℕ} {f : AodvRoute → AodvRoute}
    (h : ∀ e ∈ r.table, e.ptr = ptr → EntryTouch cfg e (f e)) :
    Touches cfg r (r.modifyAt ptr f) where
  kernel := rfl
  installed := rfl
  srcList := rfl
  localRoute := rfl
  heap := rfl
  freed := rfl
  netlink := rfl
  entries := by
    refine Pointwise.forall₂_map fun e he ↦ ?_
    split
    · next hptr => exact h e he hptr
    · exact .refl cfg e

theorem updateMyLoad_table (r : Routing) : r.updateMyLoad.table = r.table := by
  unfold Routing.updateMyLoad
  dsimp only
  split <;> rfl

theorem touches_updateMyLoad (cfg : Config) (r : Routing) : Touches cfg r r.updateMyLoad := by
  unfold Routing.updateMyLoad
  dsimp only
  split
  · exact { Touches.refl cfg r with }
  · exact .refl cfg r

theorem touches_expireAodvRoute (cfg : Config) (now ptr : ℕ) (r : Routing) :
    Touches cfg r (r.expireAodvRoute now ptr) :=
  touches_modifyAt fun _ _ _ ↦
    ⟨rfl, rfl, rfl, rfl, rfl, rfl, rfl, rfl, rfl, .inl rfl, fun h ↦ absurd rfl h⟩

theorem touches_setLastHop (cfg : Config) (ptr : ℕ) (ip : Ip) (r : Routing) :
    Touches cfg r (r.modifyAt ptr fun e ↦ { e with lastHop := ip }) :=
  touches_modifyAt fun _ _ _ ↦ ⟨rfl, rfl, rfl, rfl, rfl, rfl, rfl, rfl, rfl, .inl rfl, id⟩

/-- The entry under `g_local_route` is the node's route to itself. -/
def LocalEntry (cfg : Config) (r : Routing) : Prop :=
  ∀ e ∈ r.table, e.ptr = r.localRoute → e.srcIp = cfg.gMeshIp ∧ e.dstIp = cfg.gMeshIp

theorem Touches.localEntry (h : Touches cfg r r') (hr : LocalEntry cfg r) : LocalEntry cfg r' := by
  intro e' he' hptr
  obtain ⟨e, he, htouch⟩ := Pointwise.exists_of_mem_right h.entries he'
  rw [htouch.srcIp, htouch.dstIp]
  exact hr e he (by rw [← htouch.ptr, hptr, h.localRoute])

theorem touches_setDstId {ptr : ℕ} {f : AodvRoute → UInt32}
    (h : ∀ e ∈ r.table, e.ptr = ptr → e.srcIp = cfg.gMeshIp ∧ e.dstIp = cfg.gMeshIp) :
    Touches cfg r (r.modifyAt ptr fun e ↦ { e with dstId := f e }) :=
  touches_modifyAt fun e he hptr ↦
    ⟨rfl, rfl, rfl, rfl, rfl, rfl, rfl, rfl, rfl, .inr (h e he hptr), id⟩

end Touches

/-- An entry of which at most the use has changed. -/
def SoftEntry (e e' : AodvRoute) : Prop :=
  ∃ lastHop lifetime load state,
    e' = { e with lastHop := lastHop, lifetime := lifetime, load := load, state := state }

/-- The routes of `r'` are those of `r`, with the same numbers. -/
structure Soft (r r' : Routing) : Prop where
  localRoute : r'.localRoute = r.localRoute
  entries : List.Forall₂ SoftEntry r.table r'.table

section Soft

variable {r r' r'' : Routing}

theorem SoftEntry.refl (e : AodvRoute) : SoftEntry e e := ⟨e.lastHop, e.lifetime, e.load, e.state, rfl⟩

theorem SoftEntry.trans {e e' e'' : AodvRoute} (h : SoftEntry e e') (h' : SoftEntry e' e'') :
    SoftEntry e e'' := by
  obtain ⟨_, _, _, _, rfl⟩ := h
  obtain ⟨_, _, _, _, rfl⟩ := h'
  exact ⟨_, _, _, _, rfl⟩

theorem Soft.of_eq (htable : r'.table = r.table) (hlocal : r'.localRoute = r.localRoute) : Soft r r' :=
  ⟨hlocal, htable ▸ List.forall₂_same.mpr fun e _ ↦ .refl e⟩

theorem Soft.refl (r : Routing) : Soft r r := .of_eq rfl rfl

theorem Soft.trans (h : Soft r r') (h' : Soft r' r'') : Soft r r'' :=
  ⟨h'.localRoute.trans h.localRoute, Pointwise.forall₂_trans SoftEntry.trans h.entries h'.entries⟩

theorem soft_modifyAt {ptr : ℕ} {f : AodvRoute → AodvRoute} (h : ∀ e, SoftEntry e (f e)) :
    Soft r (r.modifyAt ptr f) := by
  refine ⟨rfl, Pointwise.forall₂_map fun e _ ↦ ?_⟩
  split
  · exact h e
  · exact .refl e

/-- Writing into entries commutes with what is soft. -/
theorem Soft.modifyAt (h : Soft r r') (ptr : ℕ) {f : AodvRoute → AodvRoute}
    (hf : ∀ e e', SoftEntry e e' → SoftEntry (f e) (f e')) :
    Soft (r.modifyAt ptr f) (r'.modifyAt ptr f) := by
  refine ⟨h.localRoute, ?_⟩
  refine List.forall₂_map_left_iff.mpr (List.forall₂_map_right_iff.mpr (h.entries.imp fun e e' he ↦ ?_))
  have hptr : e'.ptr = e.ptr := by
    obtain ⟨_, _, _, _, rfl⟩ := he
    rfl
  rw [hptr]
  split
  · exact hf e e' he
  · exact he

theorem soft_updateMyLoad (r : Routing) : Soft r r.updateMyLoad := by
  unfold Routing.updateMyLoad
  dsimp only
  split
  · exact .of_eq rfl rfl
  · exact .refl r

theorem soft_expireAodvRoute (now ptr : ℕ) (r : Routing) : Soft r (r.expireAodvRoute now ptr) :=
  soft_modifyAt fun _ ↦ ⟨_, _, _, _, rfl⟩

end Soft

theorem entryAt_mem {ptr : ℕ} {r : Routing} {e : AodvRoute} (h : r.entryAt ptr = some e) :
    e ∈ r.table ∧ e.ptr = ptr :=
  ⟨List.mem_of_find?_eq_some h, by simpa using List.find?_some h⟩

theorem entryAt_modifyAt (ptr : ℕ) {f : AodvRoute → AodvRoute} (hf : ∀ e, (f e).ptr = e.ptr)
    (r : Routing) : (r.modifyAt ptr f).entryAt ptr = (r.entryAt ptr).map f := by
  have hcomp : ((fun e : AodvRoute ↦ e.ptr == ptr) ∘ fun e ↦ if e.ptr = ptr then f e else e) =
      fun e ↦ e.ptr == ptr := by
    funext e
    simp only [Function.comp_apply]
    split <;> simp [*]
  simp only [Routing.entryAt, Routing.modifyAt, List.find?_map, hcomp]
  cases h : r.table.find? fun e ↦ e.ptr == ptr with
  | none => rfl
  | some e =>
    have hptr : e.ptr = ptr := by simpa using List.find?_some h
    simp [hptr]

end Fbaodv.Proofs.RouteFrame
