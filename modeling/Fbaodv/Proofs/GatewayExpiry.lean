import Fbaodv.Foundation.LinkedPath
import Fbaodv.Model.GwLinks

namespace Fbaodv.Proofs.GatewayExpiry

open Fbaodv.Foundation Fbaodv.Model LinkedPath GwHeap

/-- The list that the memory holds, with the addresses of its entries. A gateway
is listed once: `update_gw` looks for it first. -/
structure Holds (h : GwHeap) (l : List (ℕ × GwEntry)) : Prop where
  nodup : (l.map Prod.fst).Nodup
  entry : ∀ p ∈ l, h.entry p.1 = some p.2
  next : Path h.next (l.map Prod.fst) none
  head : h.gwList = (l.map Prod.fst).head?
  gateways : (l.map fun p ↦ p.2.ip).Nodup

/-- The gateway is the first one with the smallest metric, if that metric is one. -/
def Chosen (l : List GwEntry) (gw : Ip) : Prop :=
  (∃ a g b, l = a ++ g :: b ∧ gw = g.ip ∧ g.metric < defaultEttMetric ∧
    (∀ x ∈ a, g.metric < x.metric) ∧ ∀ x ∈ b, g.metric ≤ x.metric) ∨
  (∀ x ∈ l, defaultEttMetric ≤ x.metric) ∧ gw = gNullIp

/-- `update_gw_lifetimes` ends without a fault, keeps those that have not
expired, and chooses among them. -/
def ExpiresGateways (now : ℕ) (h : GwHeap) (l : List (ℕ × GwEntry)) : Prop :=
  ∃ limit h', updateGwLifetimes now limit h = some h' ∧
    Holds h' (l.filter fun p ↦ ¬ p.2.lifetime < now) ∧
    Chosen ((l.filter fun p ↦ ¬ p.2.lifetime < now).map Prod.snd) h'.gDefaultGw

section Choice

variable {l : List GwEntry} {g : GwEntry} {best : Ip × UInt32}

/-- The running minimum of `update_gw_lifetimes`. -/
def bestGw (best : Ip × UInt32) (l : List GwEntry) : Ip × UInt32 :=
  l.foldl (fun best g ↦ if g.metric < best.2 then (g.ip, g.metric) else best) best

theorem bestGw_cases (l : List GwEntry) (best : Ip × UInt32) :
    (∃ a g b, l = a ++ g :: b ∧ bestGw best l = (g.ip, g.metric) ∧ g.metric < best.2 ∧
      (∀ x ∈ a, g.metric < x.metric) ∧ ∀ x ∈ b, g.metric ≤ x.metric) ∨
    (∀ x ∈ l, best.2 ≤ x.metric) ∧ bestGw best l = best := by
  induction l generalizing best with
  | nil => exact .inr ⟨fun x hx ↦ absurd hx List.not_mem_nil, rfl⟩
  | cons x l ih =>
    by_cases hlt : x.metric < best.2
    · have hstep : bestGw best (x :: l) = bestGw (x.ip, x.metric) l := by rw [bestGw, List.foldl_cons, if_pos hlt, bestGw]
      rw [hstep]
      rcases ih (x.ip, x.metric) with ⟨a, g, b, rfl, hbest, hg, ha, hb⟩ | ⟨hall, hbest⟩
      · refine .inl ⟨x :: a, g, b, rfl, hbest, UInt32.lt_trans hg hlt, fun y hy ↦ ?_, hb⟩
        rcases List.mem_cons.mp hy with rfl | hy
        · exact hg
        · exact ha y hy
      · exact .inl ⟨[], x, l, rfl, hbest, hlt, fun y hy ↦ absurd hy List.not_mem_nil, hall⟩
    · have hstep : bestGw best (x :: l) = bestGw best l := by rw [bestGw, List.foldl_cons, if_neg hlt, bestGw]
      rw [hstep]
      rcases ih best with ⟨a, g, b, rfl, hbest, hg, ha, hb⟩ | ⟨hall, hbest⟩
      · refine .inl ⟨x :: a, g, b, rfl, hbest, hg, fun y hy ↦ ?_, hb⟩
        rcases List.mem_cons.mp hy with rfl | hy
        · exact UInt32.lt_of_lt_of_le hg (UInt32.not_lt.mp hlt)
        · exact ha y hy
      · refine .inr ⟨fun y hy ↦ ?_, hbest⟩
        rcases List.mem_cons.mp hy with rfl | hy
        · exact UInt32.not_lt.mp hlt
        · exact hall y hy

theorem chosen_bestGw (l : List GwEntry) : Chosen l (bestGw (gNullIp, defaultEttMetric) l).1 := by
  rcases bestGw_cases l (gNullIp, defaultEttMetric) with ⟨a, g, b, hl, hbest, hg, ha, hb⟩ | ⟨hall, hbest⟩
  · exact .inl ⟨a, g, b, hl, by rw [hbest], hg, ha, hb⟩
  · exact .inr ⟨hall, by rw [hbest]⟩

end Choice

section Walks

variable {h h' : GwHeap} {a b l : List (ℕ × GwEntry)} {p : ℕ} {x : GwEntry} {now limit turns : ℕ}

theorem deleteGwLoop_frees {prev tmp : Option ℕ} (hpath : Path h.next ((a ++ (p, x) :: b).map Prod.fst) none)
    (hentry : ∀ q ∈ a ++ (p, x) :: b, h.entry q.1 = some q.2) (hother : ∀ q ∈ a, q.2.ip ≠ x.ip)
    (htmp : tmp = ((a ++ (p, x) :: b).map Prod.fst).head?)
    (hdelete : deleteGwLoop x.ip turns prev tmp h = some h') : h'.entry p = none := by
  induction a generalizing turns prev tmp with
  | nil =>
    obtain rfl : tmp = some p := htmp
    cases turns with
    | zero => cases hdelete
    | succ turns =>
      have hp : h.entry p = some x := hentry (p, x) List.mem_cons_self
      obtain ⟨y, hy, hdelete⟩ := Option.bind_eq_some_iff.mp hdelete
      obtain rfl := Option.some.inj (hp.symm.trans hy)
      rw [if_pos rfl] at hdelete
      obtain rfl := Option.some.inj hdelete
      exact Function.update_self _ _ _
  | cons q a ih =>
    obtain rfl : tmp = some q.1 := htmp
    cases turns with
    | zero => cases hdelete
    | succ turns =>
      have hq : h.entry q.1 = some q.2 := hentry q List.mem_cons_self
      obtain ⟨y, hy, hdelete⟩ := Option.bind_eq_some_iff.mp hdelete
      obtain rfl := Option.some.inj (hq.symm.trans hy)
      rw [if_neg (hother q List.mem_cons_self)] at hdelete
      obtain ⟨hnext, hrest⟩ := path_cons.mp hpath
      refine ih hrest (fun q' hq' ↦ hentry q' (List.mem_cons_of_mem _ hq')) (fun q' hq' ↦ hother q' (List.mem_cons_of_mem _ hq'))
        ?_ hdelete
      rw [hnext, Option.or_none]
      rfl

theorem Holds.next_eq {q : ℕ × GwEntry} (hl : Holds h (a ++ q :: b)) : h.next q.1 = (b.map Prod.fst).head? := by
  have hpath := hl.next
  rw [List.map_append, List.map_cons] at hpath
  obtain ⟨hnext, -⟩ := path_cons.mp (path_append.mp hpath).2
  rw [hnext, Option.or_none]

theorem gwLifetimesLoop_expired {tmp : Option ℕ} {best : Ip × UInt32} {r : Ip × GwHeap} (hl : Holds h (a ++ b))
    (hexpired : ∃ q ∈ b, timeAfter now q.2.lifetime = true) (htmp : tmp = (b.map Prod.fst).head?) :
    gwLifetimesLoop now limit turns tmp best h ≠ some r := by
  induction b generalizing a turns tmp best with
  | nil =>
    obtain ⟨q, hq, -⟩ := hexpired
    cases hq
  | cons q b ih =>
    obtain rfl : tmp = some q.1 := htmp
    intro hloop
    cases turns with
    | zero => cases hloop
    | succ turns =>
      have hq : h.entry q.1 = some q.2 := hl.entry q (List.mem_append_right _ List.mem_cons_self)
      obtain ⟨y, hy, hloop⟩ := Option.bind_eq_some_iff.mp hloop
      obtain rfl := Option.some.inj (hq.symm.trans hy)
      by_cases hafter : timeAfter now q.2.lifetime = true
      · rw [if_pos hafter] at hloop
        obtain ⟨h', hdelete, hloop⟩ := Option.bind_eq_some_iff.mp hloop
        obtain ⟨z, hz, -⟩ := Option.bind_eq_some_iff.mp hloop
        have hother : ∀ q' ∈ a, q'.2.ip ≠ q.2.ip := by
          intro q' hq' heq
          have hnd := hl.gateways
          rw [List.map_append, List.map_cons] at hnd
          exact List.disjoint_of_nodup_append hnd (List.mem_map_of_mem hq') (heq ▸ List.mem_cons_self)
        have hfreed := deleteGwLoop_frees hl.next hl.entry hother hl.head hdelete
        rw [hfreed] at hz
        cases hz
      · rw [if_neg hafter] at hloop
        have hrest : ∃ q' ∈ b, timeAfter now q'.2.lifetime = true := by
          obtain ⟨q', hq', hafter'⟩ := hexpired
          rcases List.mem_cons.mp hq' with rfl | hq'
          · exact absurd hafter' hafter
          · exact ⟨q', hq', hafter'⟩
        rw [List.append_cons] at hl
        exact ih hl hrest (List.append_cons a q b ▸ hl).next_eq hloop

theorem gwLifetimesLoop_fresh {tmp : Option ℕ} {best : Ip × UInt32} (hl : Holds h (a ++ b))
    (hfresh : ∀ q ∈ b, timeAfter now q.2.lifetime = false) (htmp : tmp = (b.map Prod.fst).head?) :
    gwLifetimesLoop now limit turns tmp best h =
      if b.length ≤ turns then some ((bestGw best (b.map Prod.snd)).1, h) else none := by
  induction b generalizing a turns tmp best with
  | nil =>
    obtain rfl : tmp = none := htmp
    cases turns <;> rfl
  | cons q b ih =>
    obtain rfl : tmp = some q.1 := htmp
    obtain ⟨hq', hfresh⟩ := List.forall_mem_cons.mp hfresh
    have hq : h.entry q.1 = some q.2 := hl.entry q (List.mem_append_right _ List.mem_cons_self)
    have hnext := hl.next_eq
    rw [List.append_cons] at hl
    cases turns with
    | zero => rfl
    | succ turns =>
      rw [gwLifetimesLoop, hq, Option.bind_eq_bind, Option.bind_some, if_neg (by rw [hq']; exact Bool.false_ne_true),
        ih hl hfresh hnext]
      simp only [List.length_cons, Nat.add_le_add_iff_right]
      rfl

theorem updateGwLifetimes_fresh (limit : ℕ) (hl : Holds h l) (hfresh : ∀ q ∈ l, timeAfter now q.2.lifetime = false) :
    updateGwLifetimes now limit h = if l.length ≤ limit then
      some { h with gDefaultGw := (bestGw (gNullIp, defaultEttMetric) (l.map Prod.snd)).1 } else none := by
  rw [updateGwLifetimes, gwLifetimesLoop_fresh (a := []) hl hfresh hl.head]
  split <;> rfl

theorem Holds.withDefault {gw : Ip} (hl : Holds h l) : Holds { h with gDefaultGw := gw } l :=
  ⟨hl.nodup, hl.entry, hl.next, hl.head, hl.gateways⟩

theorem listLoop_fresh {gws l : List GwEntry} {best : Ip × UInt32} (hfresh : ∀ g ∈ l, timeAfter now g.lifetime = false) :
    Node.gwLifetimesLoop now l gws best = (gws, (bestGw best l).1) := by
  induction l generalizing best with
  | nil => rfl
  | cons g l ih =>
    obtain ⟨hg, hl⟩ := List.forall_mem_cons.mp hfresh
    rw [Node.gwLifetimesLoop, if_neg (by rw [hg]; exact Bool.false_ne_true), ih hl]
    rfl

/-- `update_gw` lists no gateway twice. -/
theorem updateGw_gateways {n : Node} {gwIp : Ip} {dstId pathMetric : UInt32} {numHops : UInt8}
    (hn : (n.gwList.map GwEntry.ip).Nodup) :
    ((n.updateGw gwIp dstId numHops pathMetric).2.gwList.map GwEntry.ip).Nodup := by
  unfold Node.updateGw
  split
  · split
    · exact hn
    split
    · exact hn
    · have hsame := @OrderedList.map_modifyFirst GwEntry Ip GwEntry.ip (fun g ↦ { g with
        lifetime := n.now + activeGwrouteTimeout, metric := pathMetric, numHops := numHops, dstId := dstId })
        (fun _ ↦ rfl) (fun g ↦ g.ip == gwIp) n.gwList
      exact hsame ▸ hn
  · next hnone =>
    dsimp only
    split
    · exact hn
    · refine List.nodup_cons.mpr ⟨fun hmem ↦ ?_, hn⟩
      obtain ⟨g, hg, heq⟩ := List.mem_map.mp hmem
      exact absurd (beq_iff_eq.mpr heq) (List.find?_eq_none.mp hnone g hg)

/-- `update_gw_lifetimes` comes to its end exactly if no gateway has expired. -/
theorem updateGwLifetimes_ends_iff (hl : Holds h l) :
    (∃ limit h', updateGwLifetimes now limit h = some h') ↔ ∀ p ∈ l, timeAfter now p.2.lifetime = false := by
  constructor
  · rintro ⟨limit, h', hupdate⟩
    obtain ⟨r, hloop, -⟩ := Option.bind_eq_some_iff.mp hupdate
    by_contra! hexpired
    obtain ⟨p, hp, hafter⟩ := hexpired
    exact gwLifetimesLoop_expired (a := []) hl ⟨p, hp, Bool.eq_true_of_not_eq_false hafter⟩ hl.head hloop
  · intro hfresh
    exact ⟨l.length, _, (updateGwLifetimes_fresh l.length hl hfresh).trans (if_pos (le_refl _))⟩

/-- Up to the first expiry the list of a node is what the memory holds. -/
theorem updateGwLifetimes_refines {n : Node} (hl : Holds h l) (hlist : n.gwList = l.map Prod.snd)
    (hfresh : ∀ q ∈ l, timeAfter n.now q.2.lifetime = false) :
    ∃ limit h', updateGwLifetimes n.now limit h = some h' ∧ Holds h' l ∧
      n.updateGwLifetimes.gwList = l.map Prod.snd ∧ n.updateGwLifetimes.gDefaultGw = h'.gDefaultGw := by
  refine ⟨l.length, _, (updateGwLifetimes_fresh l.length hl hfresh).trans (if_pos (le_refl _)), hl.withDefault, ?_⟩
  have hlist' : ∀ g ∈ l.map Prod.snd, timeAfter n.now g.lifetime = false := by
    intro g hg
    obtain ⟨q, hq, rfl⟩ := List.mem_map.mp hg
    exact hfresh q hq
  rw [Node.updateGwLifetimes, hlist, listLoop_fresh hlist']
  exact ⟨rfl, rfl⟩

end Walks

/-- `update_gw_lifetimes` does what is asked of it exactly if it has nothing to
remove, and leaves nothing: it reads the next link of the entry that it has just
had freed. -/
theorem gateway_expiry_iff {h : GwHeap} {l : List (ℕ × GwEntry)} (hl : Holds h l) (now : ℕ) :
    ExpiresGateways now h l ↔ ∀ p ∈ l, now ≤ p.2.lifetime ∧ timeAfter now p.2.lifetime = false := by
  constructor
  · rintro ⟨limit, h', hupdate', hkept, -⟩
    have hfresh : ∀ p ∈ l, timeAfter now p.2.lifetime = false :=
      (updateGwLifetimes_ends_iff hl).mp ⟨limit, h', hupdate'⟩
    have hkeeps := updateGwLifetimes_fresh limit hl hfresh
    rw [hupdate'] at hkeeps
    split at hkeeps
    · obtain rfl := Option.some.inj hkeeps
      have hsame := hkept.next.unique hl.next (hkept.head.symm.trans hl.head)
      have hlength := congrArg List.length hsame
      rw [List.length_map, List.length_map] at hlength
      have hall := List.filter_eq_self.mp (List.filter_sublist.eq_of_length hlength)
      exact fun p hp ↦ ⟨not_lt.mp (of_decide_eq_true (hall p hp)), hfresh p hp⟩
    · cases hkeeps
  · intro hfresh
    have hall : (l.filter fun p ↦ ¬ p.2.lifetime < now) = l :=
      List.filter_eq_self.mpr fun p hp ↦ decide_eq_true (not_lt.mpr (hfresh p hp).1)
    have hupdate := updateGwLifetimes_fresh l.length hl fun p hp ↦ (hfresh p hp).2
    refine ⟨l.length, _, hupdate.trans (if_pos (le_refl _)), ?_, ?_⟩
    · rw [hall]
      exact hl.withDefault
    · rw [hall]
      exact chosen_bestGw _

/-- Two gateways, the first of which has this lifetime. -/
def twoGateways (lifetime : ℕ) : List (ℕ × GwEntry) :=
  [(0, ⟨0x0901a8c0, lifetime, 300, 2, 1⟩), (1, ⟨0x0a01a8c0, 9000, 200, 3, 1⟩)]

def twoGatewaysHeap (lifetime : ℕ) : GwHeap where
  next p := if p = 0 then some 1 else none
  entry p := ((twoGateways lifetime)[p]?).map Prod.snd
  gwList := some 0
  gDefaultGw := gNullIp

theorem holds_twoGateways (lifetime : ℕ) : Holds (twoGatewaysHeap lifetime) (twoGateways lifetime) where
  nodup := by simp [twoGateways]
  entry := by simp [twoGateways, twoGatewaysHeap]
  next := ⟨rfl, rfl⟩
  head := rfl
  gateways := by simp [twoGateways]

theorem gateway_expiry_none : ExpiresGateways 7000 (twoGatewaysHeap 8000) (twoGateways 8000) :=
  (gateway_expiry_iff (holds_twoGateways 8000) 7000).mpr (by decide)

/-- The first gateway has expired, and its next link is read after it was freed. -/
theorem gateway_expiry_freed : Holds (twoGatewaysHeap 6000) (twoGateways 6000) ∧
    (∀ limit, updateGwLifetimes 7000 limit (twoGatewaysHeap 6000) = none) ∧
    ¬ ExpiresGateways 7000 (twoGatewaysHeap 6000) (twoGateways 6000) := by
  have hfault : ∀ limit, updateGwLifetimes 7000 limit (twoGatewaysHeap 6000) = none := by
    intro limit
    by_contra hsome
    obtain ⟨h', hupdate⟩ := Option.ne_none_iff_exists'.mp hsome
    exact absurd ((updateGwLifetimes_ends_iff (holds_twoGateways 6000)).mp ⟨limit, h', hupdate⟩) (by decide)
  refine ⟨holds_twoGateways 6000, hfault, fun ⟨limit, h', hupdate, _⟩ ↦ ?_⟩
  rw [hfault limit] at hupdate
  cases hupdate

end Fbaodv.Proofs.GatewayExpiry
