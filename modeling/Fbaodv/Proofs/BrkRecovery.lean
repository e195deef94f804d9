import Fbaodv.Foundation.LinkedCells
import Fbaodv.Model.BrkLinks
import Fbaodv.Proofs.BrkLists

namespace Fbaodv.Proofs.BrkRecovery

open Fbaodv.Foundation Fbaodv.Foundation.OrderedList Fbaodv.Foundation.DoublyLinked
open Fbaodv.Model Fbaodv.Model.Node Fbaodv.Proofs.BrkLists

/-- The links lead through these entries at these addresses. -/
structure Chained (h : BrkHeap) (zs : List (ℕ × BrkLink)) : Prop where
  links : Represents h.links (zs.map Prod.fst)
  cell : ∀ z ∈ zs, h.entry z.1 = some z.2

/-- The heap holds these entries in this order and no others. -/
structure Holds (h : BrkHeap) (zs : List (ℕ × BrkLink)) : Prop extends Chained h zs where
  listed : ∀ p x, h.entry p = some x → (p, x) ∈ zs

/-- Given turns enough, the loops return `r`. -/
def Returns {α : Type} (f : ℕ → Option α) (r : α) : Prop := ∃ bound, ∀ turns, bound ≤ turns → f turns = some r

/-- The heaps that come from an empty list, whatever the rest of the node does
between the operations. -/
inductive Built : BrkHeap → Prop
  | empty {h : BrkHeap} (hhead : h.links.head = none) (hfree : ∀ p, h.entry p = none) : Built h
  | create {h h' : BrkHeap} {p : ℕ} {srcIp dstIp lastHop lastAvail : Ip} {n n' : Node} (hh : Built h)
      (hp : h.entry p = none) (habsent : ∀ p x, h.entry p = some x → brkPair x ≠ (srcIp, dstIp))
      (hrun : Returns (fun turns ↦ h.createBrkLink turns p srcIp dstIp lastHop lastAvail n) (h', n')) : Built h'
  | remove {h h' : BrkHeap} {p : ℕ} {x : BrkLink} (hh : Built h) (hp : h.entry p = some x)
      (hrun : h.removeBrkLink p = some h') : Built h'
  | genRcvp {h h' : BrkHeap} {dstIp : Ip} {n n' : Node} (hh : Built h)
      (hrun : Returns (fun turns ↦ h.genRcvp turns dstIp n) (h', n')) : Built h'
  | recvRcvp {h h' : BrkHeap} {m : Rcvp} {n n' : Node} (hh : Built h)
      (hrun : Returns (fun turns ↦ h.recvRcvp turns m n) (h', n')) : Built h'

def isRcvp : Sent → Bool
  | .unicast _ _ (.rcvp _) => true
  | _ => false

/-- What `gen_rcvp` has to hand to `send_message`: the last hop and the RCVP of
each link to `dstIp` that another node is the source of. -/
def handedOver (dstIp : Ip) (n : Node) (l : List BrkLink) : List (Ip × Rcvp) :=
  (l.filter fun x ↦ x.dstIp = dstIp ∧ x.srcIp ≠ n.cfg.gMeshIp).map fun x ↦
    (x.lastHop, ⟨0, dstIp, x.srcIp, x.lastAvailIp⟩)

/-- An RCVP on the way. -/
def sentRcvp (c : Ip × Rcvp) : Sent := .unicast c.1 netDiameter (.rcvp c.2)

variable {h h' : BrkHeap} {zs a b : List (ℕ × BrkLink)} {z : ℕ × BrkLink} {n n' : Node}
  {turns p : ℕ} {srcIp dstIp : Ip}

/-- The heap as linked cells. -/
def cells (h : BrkHeap) : LinkedCells.Cells BrkLink := ⟨h.links, h.entry⟩

section Walks

theorem Chained.cells (hz : Chained h zs) : LinkedCells.Chained (cells h) zs := ⟨hz.links, hz.cell⟩

theorem Holds.cells (hz : Holds h zs) : LinkedCells.Holds (cells h) zs := ⟨hz.toChained.cells, hz.listed⟩

theorem Holds.of_cells {c : LinkedCells.Cells BrkLink} (hz : LinkedCells.Holds c zs) :
    Holds ⟨c.links, c.cell⟩ zs := ⟨⟨hz.links, hz.cell⟩, hz.listed⟩

theorem skipBelow_eq_walk (prev tmp : Option ℕ) :
    BrkHeap.skipBelow dstIp turns prev tmp h = (cells h).walk (fun x ↦ x.dstIp < dstIp) turns prev tmp := by
  induction turns generalizing prev tmp with
  | zero => cases tmp <;> rfl
  | succ turns ih =>
    cases tmp with
    | none => rfl
    | some p =>
      refine Option.bind_congr fun x _ ↦ ?_
      by_cases hlt : x.dstIp < dstIp
      · rw [if_pos hlt, if_pos (decide_eq_true hlt), ih]
        rfl
      · rw [if_neg hlt, if_neg (by simpa using hlt)]

theorem findInRun_eq_search (first : Option ℕ) :
    BrkHeap.findInRun srcIp dstIp turns first h =
      (cells h).search (fun x ↦ x.dstIp == dstIp) (fun x ↦ x.srcIp == srcIp) turns first := by
  induction turns generalizing first with
  | zero => cases first <;> rfl
  | succ turns ih =>
    cases first with
    | none => rfl
    | some p =>
      refine Option.bind_congr fun x _ ↦ ?_
      by_cases hdst : x.dstIp = dstIp
      · rw [if_neg (not_not.mpr hdst), if_pos (beq_iff_eq.mpr hdst)]
        by_cases hsrc : x.srcIp = srcIp
        · rw [if_pos hsrc, if_pos (beq_iff_eq.mpr hsrc)]
        · rw [if_neg hsrc, if_neg (by simpa using hsrc), ih]
          rfl
      · rw [if_pos hdst, if_neg (by simpa using hdst)]

theorem Chained.skipBelow_head (hz : Chained h zs) (hturns : zs.length ≤ turns) (dstIp : Ip) :
    BrkHeap.skipBelow dstIp turns none h.links.head h =
      some ((zs.takeWhile fun z ↦ z.2.dstIp < dstIp).getLast?.map Prod.fst,
        (zs.dropWhile fun z ↦ z.2.dstIp < dstIp).head?.map Prod.fst) := by
  rw [skipBelow_eq_walk]
  exact hz.cells.walk_head hturns

theorem Chained.findFirst (hz : Chained h zs) (hturns : zs.length ≤ turns) (dstIp : Ip) :
    h.findFirstBrkLinkWithDst turns dstIp =
      some ((((zs.dropWhile fun z ↦ z.2.dstIp < dstIp).takeWhile fun z ↦ z.2.dstIp == dstIp).head?).map
        Prod.fst) := by
  rw [BrkHeap.findFirstBrkLinkWithDst, hz.skipBelow_head hturns, Option.bind_eq_bind, Option.bind_some]
  cases hdrop : zs.dropWhile fun z ↦ z.2.dstIp < dstIp with
  | nil => rfl
  | cons z b =>
    have hmem : z ∈ zs := (List.dropWhile_suffix _).subset (hdrop ▸ List.mem_cons_self)
    dsimp only [List.head?_cons, Option.map_some]
    rw [hz.cell z hmem, Option.bind_eq_bind, Option.bind_some]
    by_cases hdst : z.2.dstIp = dstIp
    · rw [List.takeWhile_cons_of_pos (by simpa using hdst), if_neg (not_not.mpr hdst)]
      rfl
    · rw [List.takeWhile_cons_of_neg (by simpa using hdst), if_pos hdst]
      rfl

theorem Chained.findBrkLink (hz : Chained h zs) (hturns : zs.length ≤ turns) (srcIp dstIp : Ip) :
    h.findBrkLink turns srcIp dstIp =
      some ((findRun (fun z ↦ z.2.dstIp < dstIp) (fun z ↦ z.2.dstIp == dstIp)
        (fun z ↦ z.2.srcIp == srcIp) zs).map Prod.fst) := by
  rw [BrkHeap.findBrkLink, hz.findFirst hturns, Option.bind_eq_bind, Option.bind_some, findRun]
  have hzs := List.takeWhile_append_dropWhile (p := fun z : ℕ × BrkLink ↦ z.2.dstIp < dstIp) (l := zs)
  have hlen : (zs.dropWhile fun z ↦ z.2.dstIp < dstIp).length ≤ turns :=
    (List.dropWhile_suffix _).length_le.trans hturns
  cases hdrop : zs.dropWhile fun z ↦ z.2.dstIp < dstIp with
  | nil => simp [BrkHeap.findInRun]
  | cons z b =>
    rw [hdrop] at hzs hlen
    by_cases hdst : z.2.dstIp = dstIp
    · have hrun : LinkedCells.Chained (BrkRecovery.cells h)
          ((zs.takeWhile fun z ↦ z.2.dstIp < dstIp) ++ z :: b) := hzs.symm ▸ hz.cells
      rw [List.takeWhile_cons_of_pos (by simpa using hdst), findInRun_eq_search]
      refine (hrun.search hlen).trans ?_
      rw [List.takeWhile_cons_of_pos (by simpa using hdst)]
    · rw [List.takeWhile_cons_of_neg (by simpa using hdst)]
      cases turns with
      | zero => rfl
      | succ turns => rfl

end Walks

section Changes

theorem Holds.remove (hz : Holds h (a ++ z :: b)) :
    ∃ h', h.removeBrkLink z.1 = some h' ∧ Holds h' (a ++ b) := by
  have hcells : LinkedCells.Holds (BrkRecovery.cells h) (a ++ z :: b) := hz.cells
  have hvalid : (h.valid (some z.1) && h.valid (h.links.prev z.1) && h.valid (h.links.next z.1)) = true := by
    rw [Bool.and_eq_true, Bool.and_eq_true]
    refine ⟨⟨?_, ?_⟩, ?_⟩
    · rw [BrkHeap.valid, Option.all_some, hz.cell z (by simp)]
      rfl
    · rw [BrkHeap.valid, Option.all_eq_true]
      exact fun p hp ↦ hcells.prev_isSome hp
    · rw [BrkHeap.valid, Option.all_eq_true]
      exact fun p hp ↦ hcells.next_isSome hp
  exact ⟨_, if_pos hvalid, .of_cells hcells.remove⟩

/-- The branches of `insert_brk_link` are those of a splice. -/
theorem insertBrkLink_eq_splice {x : BrkLink} {prev tmp : Option ℕ} (hx : h.entry p = some x)
    (hskip : BrkHeap.skipBelow x.dstIp turns none h.links.head h = some (prev, tmp)) :
    h.insertBrkLink turns p = (h.links.splice prev p tmp).map fun q ↦ { h with links := q } := by
  rw [BrkHeap.insertBrkLink, hx, Option.bind_eq_bind, Option.bind_some, hskip, Option.bind_eq_bind,
    Option.bind_some, Links.splice.eq_def]
  dsimp only
  cases h.links.head with
  | none => rfl
  | some head =>
    cases tmp with
    | none => cases prev <;> rfl
    | some tmp =>
      dsimp only
      by_cases htmp : tmp = head
      · rw [if_pos htmp, if_pos htmp]
        rfl
      · rw [if_neg htmp, if_neg htmp]
        cases prev <;> rfl

theorem Holds.insert {x : BrkLink} (hz : Holds h zs) (hp : h.entry p = none) :
    ∃ h', (∀ turns, zs.length ≤ turns → BrkHeap.insertBrkLink turns p
        { links := { h.links with
            next := Function.update h.links.next p none
            prev := Function.update h.links.prev p none }
          entry := Function.update h.entry p (some x) } = some h') ∧
      Holds h' (insertBy (fun z ↦ z.2.dstIp < x.dstIp) (p, x) zs) := by
  have hcells : LinkedCells.Holds (BrkRecovery.cells h) zs := hz.cells
  have halloc : LinkedCells.Chained ((BrkRecovery.cells h).alloc p x) zs := hcells.alloc hp
  have hsplice := hcells.splice_alloc (x := x) (g := fun y ↦ decide (y.dstIp < x.dstIp)) hp
  have hinsert := hcells.insert (x := x) (g := fun y ↦ decide (y.dstIp < x.dstIp)) hp
  refine ⟨_, fun turns hturns ↦ ?_, .of_cells hinsert⟩
  rw [insertBrkLink_eq_splice (Function.update_self _ _ _)
    ((skipBelow_eq_walk _ _).trans (halloc.walk_head hturns))]
  exact congrArg _ hsplice

end Changes

section Operations

theorem erase_first (ha : ∀ w ∈ a, w.2.dstIp ≠ z.2.dstIp) :
    (((a ++ z :: b).map Prod.snd).eraseP fun y ↦ y.dstIp == z.2.dstIp) = (a ++ b).map Prod.snd := by
  rw [List.map_append, List.map_cons, List.map_append]
  refine erase_head fun y hy ↦ ?_
  obtain ⟨w, hw, rfl⟩ := List.mem_map.mp hy
  exact ha w hw

theorem genRcvpLoop_turn {x : BrkLink} (hx : h.entry p = some x) (hdst : x.dstIp = dstIp)
    (hmem : x.srcIp = n.cfg.gMeshIp ∨ n.kmalloc.next = true) (hremove : h.removeBrkLink p = some h') :
    BrkHeap.genRcvpLoop dstIp (turns + 1) (some p) h n =
      BrkHeap.genRcvpLoop dstIp turns (h.links.next p) h' { n with
        sent := n.sent ++ rcvpPosts n x
        kmalloc := if x.srcIp = n.cfg.gMeshIp then n.kmalloc else n.kmalloc.rest } := by
  rw [BrkHeap.genRcvpLoop, hx, Option.bind_eq_bind, Option.bind_some, if_neg (not_not.mpr hdst), hremove]
  subst hdst
  unfold rcvpPosts
  split
  · next hsrc =>
    obtain ⟨n₁, halloc, hn₁⟩ :
        ∃ n₁, n.alloc = (true, n₁) ∧ n₁ = { n with kmalloc := n.kmalloc.rest } :=
      ⟨_, Prod.ext (hmem.resolve_left hsrc) rfl, rfl⟩
    simp only [halloc, notify_eq, sendMessage_eq, List.append_assoc, Bool.not_true,
      Bool.false_eq_true, if_false, Option.bind_eq_bind, Option.bind_some]
    subst hn₁
    rfl
  · next hsrc =>
    have hsrc : x.srcIp = n.cfg.gMeshIp := not_not.mp hsrc
    simp only [if_pos hsrc, notify_eq, List.append_nil, Option.bind_eq_bind, Option.bind_some]

/-- The loop on the heap does what the loop on the list does. -/
theorem Holds.genRcvpLoop (hz : Holds h (a ++ b)) (hturns : b.length ≤ turns)
    (ha : ∀ w ∈ a, w.2.dstIp ≠ dstIp) :
    ∃ h' n' zs', BrkHeap.genRcvpLoop dstIp turns (b.head?.map Prod.fst) h n = some (h', n') ∧
      Holds h' zs' ∧ zs'.Sublist (a ++ b) ∧
      Node.genRcvpLoop dstIp (b.map Prod.snd) { n with brkList := (a ++ b).map Prod.snd } =
        { n' with brkList := zs'.map Prod.snd } := by
  induction b generalizing h n turns with
  | nil =>
    refine ⟨h, n, a ++ [], ?_, hz, .refl _, rfl⟩
    cases turns with
    | zero => rfl
    | succ turns => rfl
  | cons z b ih =>
    have hentry : h.entry z.1 = some z.2 := hz.cell z (by simp)
    have hnext : h.links.next z.1 = b.head?.map Prod.fst := hz.cells.next
    cases turns with
    | zero => simp at hturns
    | succ turns =>
    rw [List.head?_cons, Option.map_some, List.map_cons]
    by_cases hdst : z.2.dstIp = dstIp
    swap
    · refine ⟨h, n, _, ?_, hz, .refl _, ?_⟩
      · rw [BrkHeap.genRcvpLoop, hentry, Option.bind_eq_bind, Option.bind_some, if_pos hdst]
      · rw [Node.genRcvpLoop, if_pos hdst]
    by_cases hmem : z.2.srcIp = n.cfg.gMeshIp ∨ n.kmalloc.next = true
    · obtain ⟨h₁, hremove, hz₁⟩ := hz.remove
      obtain ⟨h', n', zs', hloop, hz', hsub, hlist⟩ := ih (n := { n with
        sent := n.sent ++ rcvpPosts n z.2
        kmalloc := if z.2.srcIp = n.cfg.gMeshIp then n.kmalloc else n.kmalloc.rest }) hz₁
          (Nat.le_of_succ_le_succ hturns)
      refine ⟨h', n', zs', ?_, hz', hsub.trans ((List.sublist_cons_self z b).append_left a), ?_⟩
      · rw [genRcvpLoop_turn hentry hdst hmem hremove, hnext]
        exact hloop
      · refine (genRcvpLoop_cons (n := { n with brkList := (a ++ z :: b).map Prod.snd }) hdst
          hmem).trans (Eq.trans ?_ hlist)
        subst hdst
        dsimp only
        rw [erase_first ha]
        rfl
    · obtain ⟨hsrc, hnext⟩ := not_or.mp hmem
      have hfail : n.kmalloc.next = false := eq_false_of_ne_true hnext
      refine ⟨h, n.alloc.2, _, ?_, hz, .refl _, ?_⟩
      · rw [BrkHeap.genRcvpLoop, hentry, Option.bind_eq_bind, Option.bind_some,
          if_neg (not_not.mpr hdst), if_pos hsrc]
        simp only [Node.alloc, hfail, Bool.not_false, if_true]
      · rw [Node.genRcvpLoop, if_neg (not_not.mpr hdst), if_pos hsrc]
        simp only [Node.alloc, hfail, Bool.not_false, if_true]

theorem Holds.genRcvp (hz : Holds h zs) (hturns : zs.length ≤ turns) (dstIp : Ip) (n : Node) :
    ∃ h' n' zs', h.genRcvp turns dstIp n = some (h', n') ∧ Holds h' zs' ∧ zs'.Sublist zs ∧
      Node.genRcvp dstIp { n with brkList := zs.map Prod.snd } = { n' with brkList := zs'.map Prod.snd } := by
  have hzs := List.takeWhile_append_dropWhile (p := fun z : ℕ × BrkLink ↦ z.2.dstIp < dstIp) (l := zs)
  have hlen : (zs.dropWhile fun z ↦ z.2.dstIp < dstIp).length ≤ turns :=
    (List.dropWhile_suffix _).length_le.trans hturns
  have hbelow : ∀ w ∈ zs.takeWhile (fun z ↦ z.2.dstIp < dstIp), w.2.dstIp ≠ dstIp := by
    intro w hw
    have hlt := List.mem_takeWhile_imp hw
    exact UInt32.ne_of_lt (of_decide_eq_true hlt)
  have hdrop : ((zs.map Prod.snd).dropWhile fun x ↦ x.dstIp < dstIp) =
      (zs.dropWhile fun z ↦ z.2.dstIp < dstIp).map Prod.snd := List.dropWhile_map ..
  rw [BrkHeap.genRcvp, hz.findFirst hturns, Option.bind_eq_bind, Option.bind_some, Node.genRcvp, hdrop]
  generalize zs.takeWhile (fun z ↦ z.2.dstIp < dstIp) = a at hzs hbelow
  generalize zs.dropWhile (fun z ↦ z.2.dstIp < dstIp) = b at hzs hlen ⊢
  subst hzs
  obtain ⟨h', n', zs', hloop, hspec⟩ := hz.genRcvpLoop (n := n) hlen hbelow
  refine ⟨h', n', zs', Eq.trans ?_ hloop, hspec⟩
  cases b with
  | nil => rfl
  | cons z b =>
    by_cases hdst : z.2.dstIp = dstIp
    · rw [List.takeWhile_cons_of_pos (by simpa using hdst)]
      rfl
    · -- the finder tests the entry already, the loop would test it again
      rw [List.takeWhile_cons_of_neg (by simpa using hdst)]
      cases turns with
      | zero => simp at hlen
      | succ turns =>
        refine Eq.trans (b := some (h, n)) rfl (Eq.symm ?_)
        rw [List.head?_cons, Option.map_some, BrkHeap.genRcvpLoop, hz.cell z (by simp), Option.bind_eq_bind,
          Option.bind_some, if_pos hdst]

/-- The node after `recv_rcvp`, but for its list; `found` is the link that it
looked up. -/
def afterRcvp (m : Rcvp) (found : Option BrkLink) (n : Node) : Node :=
  let note := notified dtnPort m.srcIp m.dstIp m.lastAvailIp rcvpMessage n
  match found with
  | none => { n with sent := n.sent ++ note }
  | some x =>
    if m.srcIp = n.cfg.gMeshIp then { n with sent := n.sent ++ note }
    else if n.kmalloc.next then
      { n with
        kmalloc := n.kmalloc.rest
        sent := n.sent ++ (note ++ posted x.lastHop (.rcvp ⟨m.numHops + 1, m.dstIp, m.srcIp, x.lastAvailIp⟩) n) }
    else { n with kmalloc := n.kmalloc.rest, sent := n.sent ++ note }

/-- Whether `recv_rcvp` removes the link that it found. -/
def consumes (m : Rcvp) (n : Node) : Bool := m.srcIp = n.cfg.gMeshIp || n.kmalloc.next

theorem recvRcvp_eq (m : Rcvp) (n : Node) :
    n.recvRcvp m = { afterRcvp m (n.findBrkLink m.srcIp m.dstIp) n with
      brkList :=
        if (n.findBrkLink m.srcIp m.dstIp).isSome && consumes m n then
          n.brkList.eraseP (isBrkLink m.srcIp m.dstIp)
        else n.brkList } := by
  unfold Node.recvRcvp afterRcvp consumes
  simp only [notify_eq, Node.alloc, sendMessage_eq]
  have hfind : ∀ l, Node.findBrkLink m.srcIp m.dstIp { n with sent := l } = n.findBrkLink m.srcIp m.dstIp :=
    fun _ ↦ rfl
  rw [hfind]
  cases n.findBrkLink m.srcIp m.dstIp with
  | none => rfl
  | some x =>
    by_cases hsrc : m.srcIp = n.cfg.gMeshIp
    · simp [hsrc, Node.removeBrkLink]
    · cases hmem : n.kmalloc.next with
      | false => simp [hsrc]
      | true =>
        simp only [hsrc, Node.removeBrkLink, List.append_assoc]
        rfl

theorem afterRcvp_links (m : Rcvp) (found : Option BrkLink) (n : Node) (l l' : List BrkLink) :
    { afterRcvp m found { n with brkList := l } with brkList := l' } =
      { afterRcvp m found n with brkList := l' } := by
  unfold afterRcvp
  cases found with
  | none => rfl
  | some x =>
    dsimp only
    split
    · rfl
    split
    · rfl
    · rfl

theorem recvRcvp_missing {m : Rcvp} (hfound : h.findBrkLink turns m.srcIp m.dstIp = some none) (n : Node) :
    h.recvRcvp turns m n = some (h, afterRcvp m none n) := by
  unfold BrkHeap.recvRcvp afterRcvp
  simp only [hfound, notify_eq, Option.bind_eq_bind, Option.bind_some]

theorem recvRcvp_found {m : Rcvp} {x : BrkLink} (hfound : h.findBrkLink turns m.srcIp m.dstIp = some (some p))
    (hx : h.entry p = some x) (hremove : h.removeBrkLink p = some h') (n : Node) :
    h.recvRcvp turns m n = some (if consumes m n then h' else h, afterRcvp m (some x) n) := by
  unfold BrkHeap.recvRcvp afterRcvp consumes
  simp only [hfound, notify_eq, Option.bind_eq_bind, Option.bind_some, hx, hremove, Node.alloc, sendMessage_eq]
  by_cases hsrc : m.srcIp = n.cfg.gMeshIp
  · simp [hsrc]
  · cases hmem : n.kmalloc.next with
    | false => simp [hsrc]
    | true =>
      simp only [hsrc, List.append_assoc]
      rfl

theorem Holds.recvRcvp (hz : Holds h zs) (hturns : zs.length ≤ turns) (m : Rcvp) (n : Node) :
    ∃ h' n' zs', h.recvRcvp turns m n = some (h', n') ∧ Holds h' zs' ∧ zs'.Sublist zs ∧
      Node.recvRcvp m { n with brkList := zs.map Prod.snd } = { n' with brkList := zs'.map Prod.snd } := by
  have hmap : Node.findBrkLink m.srcIp m.dstIp { n with brkList := zs.map Prod.snd } =
      (findRun (fun z ↦ z.2.dstIp < m.dstIp) (fun z ↦ z.2.dstIp == m.dstIp)
        (fun z ↦ z.2.srcIp == m.srcIp) zs).map Prod.snd :=
    (findRun_map Prod.snd (fun x : BrkLink ↦ x.dstIp < m.dstIp) (fun x : BrkLink ↦ x.dstIp == m.dstIp)
      (fun x : BrkLink ↦ x.srcIp == m.srcIp) zs).symm
  have hfound := hz.findBrkLink hturns m.srcIp m.dstIp
  rw [recvRcvp_eq, hmap]
  cases hrun : findRun (fun z : ℕ × BrkLink ↦ z.2.dstIp < m.dstIp) (fun z ↦ z.2.dstIp == m.dstIp)
      (fun z ↦ z.2.srcIp == m.srcIp) zs with
  | none =>
    rw [hrun] at hfound
    exact ⟨h, _, zs, recvRcvp_missing hfound n, hz, .refl _, afterRcvp_links ..⟩
  | some z =>
    rw [hrun] at hfound
    have hfirst := find?_of_findRun (fun w hw ↦ by simpa using UInt32.ne_of_lt (of_decide_eq_true hw)) hrun
    obtain ⟨hpair, a, b, rfl, hbefore⟩ := List.find?_eq_some_iff_append.mp hfirst
    have hpair : isBrkLink m.srcIp m.dstIp z.2 = true := hpair
    obtain ⟨h', hremove, hz'⟩ := hz.remove
    have herase : ((a ++ z :: b).map Prod.snd).eraseP (isBrkLink m.srcIp m.dstIp) = (a ++ b).map Prod.snd := by
      rw [List.map_append, List.map_cons, List.eraseP_append_right, List.eraseP_cons_of_pos hpair,
        List.map_append]
      intro y hy
      obtain ⟨w, hw, rfl⟩ := List.mem_map.mp hy
      simpa [isBrkLink, imp_iff_not_or] using hbefore w hw
    refine ⟨_, _, if consumes m n then a ++ b else a ++ z :: b,
      recvRcvp_found hfound (hz.cell z (by simp)) hremove n, ?_, ?_, ?_⟩
    · split
      · exact hz'
      · exact hz
    · split
      · exact (List.sublist_cons_self z b).append_left a
      · exact .refl _
    · have hcons : consumes m { n with brkList := (a ++ z :: b).map Prod.snd } = consumes m n := rfl
      rw [hcons, Option.map_some, Option.isSome_some, Bool.true_and, afterRcvp_links, herase]
      cases consumes m n with
      | false => rfl
      | true => rfl

theorem map_insertBy (past : BrkLink → Bool) (z : ℕ × BrkLink) (zs : List (ℕ × BrkLink)) :
    (insertBy (fun z ↦ past z.2) z zs).map Prod.snd = insertBy past z.2 (zs.map Prod.snd) := by
  rw [insertBy_eq, insertBy_eq, List.takeWhile_map, List.dropWhile_map, List.map_append, List.map_cons]
  rfl

theorem Holds.create (hz : Holds h zs) (hturns : zs.length ≤ turns) (hp : h.entry p = none)
    (srcIp dstIp lastHop lastAvail : Ip) (n : Node) :
    ∃ h' n' zs', h.createBrkLink turns p srcIp dstIp lastHop lastAvail n = some (h', n') ∧ Holds h' zs' ∧
      (zs' = zs ∨ zs' = insertBy (fun z ↦ z.2.dstIp < dstIp)
        (p, newBrkLink srcIp dstIp lastHop lastAvail n.now) zs) ∧
      Node.createBrkLink srcIp dstIp lastHop lastAvail { n with brkList := zs.map Prod.snd } =
        { n' with brkList := zs'.map Prod.snd } := by
  unfold BrkHeap.createBrkLink Node.createBrkLink Node.alloc
  cases hmem : n.kmalloc.next with
  | false => exact ⟨h, { n with kmalloc := n.kmalloc.rest }, zs, rfl, hz, .inl rfl, rfl⟩
  | true =>
    obtain ⟨h', hinsert, hz'⟩ :=
      hz.insert (x := newBrkLink srcIp dstIp lastHop lastAvail n.now) hp
    refine ⟨h', { n with kmalloc := n.kmalloc.rest }, _, ?_, hz', .inr rfl, ?_⟩
    · exact congrArg (·.bind fun h ↦ some (h, { n with kmalloc := n.kmalloc.rest })) (hinsert turns hturns)
    · have hmap := map_insertBy (fun x ↦ x.dstIp < dstIp)
        (p, newBrkLink srcIp dstIp lastHop lastAvail n.now) zs
      exact congrArg (fun l ↦ { n with brkList := l, kmalloc := n.kmalloc.rest }) hmap.symm

end Operations

section Runs

theorem Returns.at {α : Type} {f : ℕ → Option α} {r : α} (h : Returns f r) (k : ℕ) :
    ∃ turns, k ≤ turns ∧ f turns = some r := by
  obtain ⟨bound, hbound⟩ := h
  exact ⟨max bound k, le_max_right _ _, hbound _ (le_max_left _ _)⟩

theorem holds_empty (hhead : h.links.head = none) (hfree : ∀ p, h.entry p = none) : Holds h [] := by
  refine ⟨⟨⟨List.nodup_nil, hhead, trivial, trivial, by simp⟩, by simp⟩, fun p x hx ↦ ?_⟩
  rw [hfree p] at hx
  cases hx

/-- At all times the heap is a doubly linked list, in order. -/
theorem Built.holds (hb : Built h) : ∃ zs, Holds h zs ∧ BrkOrdered (zs.map Prod.snd) := by
  induction hb with
  | empty hhead hfree => exact ⟨[], holds_empty hhead hfree, brkOrdered_nil⟩
  | @create h h' p srcIp dstIp lastHop lastAvail n n' _ hp habsent hrun ih =>
    obtain ⟨zs, hz, hl⟩ := ih
    obtain ⟨turns, hturns, hrun⟩ := hrun.at zs.length
    obtain ⟨h₁, n₁, zs', hcreate, hz', hzs', -⟩ := hz.create hturns hp srcIp dstIp lastHop lastAvail n
    obtain ⟨rfl, -⟩ := Prod.mk.inj (Option.some.inj (hcreate.symm.trans hrun))
    refine ⟨zs', hz', ?_⟩
    rcases hzs' with rfl | rfl
    · exact hl
    · have hmap := map_insertBy (fun x ↦ x.dstIp < dstIp)
        (p, newBrkLink srcIp dstIp lastHop lastAvail n.now) zs
      rw [hmap]
      refine BrkOrdered.insert (x := newBrkLink srcIp dstIp lastHop lastAvail n.now) hl fun y hy ↦ ?_
      obtain ⟨z, hz₁, rfl⟩ := List.mem_map.mp hy
      exact habsent z.1 z.2 (hz.cell z hz₁)
  | @remove h h' p x _ hp hrun ih =>
    obtain ⟨zs, hz, hl⟩ := ih
    obtain ⟨a, b, rfl⟩ := List.append_of_mem (hz.listed p x hp)
    obtain ⟨h₁, hremove, hz'⟩ := hz.remove
    obtain rfl := Option.some.inj (hremove.symm.trans hrun)
    exact ⟨_, hz', hl.sublist (((List.sublist_cons_self _ b).append_left a).map _)⟩
  | @genRcvp h h' dstIp n n' _ hrun ih =>
    obtain ⟨zs, hz, hl⟩ := ih
    obtain ⟨turns, hturns, hrun⟩ := hrun.at zs.length
    obtain ⟨h₁, n₁, zs', hgen, hz', hsub, -⟩ := hz.genRcvp hturns dstIp n
    obtain ⟨rfl, -⟩ := Prod.mk.inj (Option.some.inj (hgen.symm.trans hrun))
    exact ⟨zs', hz', hl.sublist (hsub.map _)⟩
  | @recvRcvp h h' m n n' _ hrun ih =>
    obtain ⟨zs, hz, hl⟩ := ih
    obtain ⟨turns, hturns, hrun⟩ := hrun.at zs.length
    obtain ⟨h₁, n₁, zs', hrecv, hz', hsub, -⟩ := hz.recvRcvp hturns m n
    obtain ⟨rfl, -⟩ := Prod.mk.inj (Option.some.inj (hrecv.symm.trans hrun))
    exact ⟨zs', hz', hl.sublist (hsub.map _)⟩

/-- The heap holds one list. -/
theorem Holds.unique {zs' : List (ℕ × BrkLink)} (hz : Holds h zs) (hz' : Holds h zs') : zs' = zs := by
  have hptrs : zs'.map Prod.fst = zs.map Prod.fst :=
    hz'.links.next.unique hz.links.next (hz'.links.head.symm.trans hz.links.head)
  have hentries : ∀ l, Holds h l → l.map (Prod.map id some) = (l.map Prod.fst).map fun p ↦ (p, h.entry p) := by
    intro l hl
    rw [List.map_map]
    exact List.map_congr_left fun z hz ↦ Prod.ext rfl (hl.cell z hz).symm
  have hinj : Function.Injective (Prod.map id some : ℕ × BrkLink → ℕ × Option BrkLink) :=
    Function.injective_id.prodMap (Option.some_injective _)
  refine List.map_injective_iff.mpr hinj ?_
  rw [hentries zs' hz', hentries zs hz, hptrs]

/-- With memory the link of another pair comes into the list. -/
theorem Built.grow (hb : Built h) (hz : Holds h zs) (hp : h.entry p = none)
    (habsent : ∀ z ∈ zs, brkPair z.2 ≠ (srcIp, dstIp)) (hmem : n.kmalloc.next = true) (lastHop lastAvail : Ip) :
    ∃ h', Built h' ∧ Holds h' (insertBy (fun z ↦ z.2.dstIp < dstIp)
      (p, newBrkLink srcIp dstIp lastHop lastAvail n.now) zs) := by
  obtain ⟨h', hinsert, hz'⟩ := hz.insert (x := newBrkLink srcIp dstIp lastHop lastAvail n.now) hp
  have hcreate : Returns (fun turns ↦ h.createBrkLink turns p srcIp dstIp lastHop lastAvail n)
      (h', { n with kmalloc := n.kmalloc.rest }) := by
    refine ⟨zs.length, fun turns hturns ↦ ?_⟩
    unfold BrkHeap.createBrkLink Node.alloc
    rw [hmem]
    exact congrArg (·.bind fun h ↦ some (h, { n with kmalloc := n.kmalloc.rest })) (hinsert turns hturns)
  exact ⟨h', .create hb hp (fun q x hx ↦ habsent _ (hz.listed q x hx)) hcreate, hz'⟩

theorem filter_rcvpPosts (n : Node) (x : BrkLink) :
    (rcvpPosts n x).filter isRcvp =
      if x.srcIp = n.cfg.gMeshIp then []
      else posted x.lastHop (.rcvp ⟨0, x.dstIp, x.srcIp, x.lastAvailIp⟩) n := by
  have hnote : (notified dtnPort x.srcIp x.dstIp x.lastAvailIp rcvpMessage n).filter isRcvp = [] := by
    unfold notified
    split
    · rfl
    · rfl
  rw [rcvpPosts, List.filter_append, hnote, List.nil_append]
  split
  · rfl
  · unfold posted
    split
    · rfl
    · rfl

theorem filter_posts (n : Node) (dstIp : Ip) (l : List BrkLink) :
    ((l.filter fun x ↦ x.dstIp = dstIp).flatMap (rcvpPosts n)).filter isRcvp =
      ((handedOver dstIp n l).filter fun c ↦ (n.findAodvNeigh c.1).isSome).map sentRcvp := by
  induction l with
  | nil => rfl
  | cons x l ih =>
    unfold handedOver at ih ⊢
    by_cases hdst : x.dstIp = dstIp
    swap
    · rw [List.filter_cons_of_neg (by simpa using hdst), List.filter_cons_of_neg (by simp [hdst]), ih]
    rw [List.filter_cons_of_pos (by simpa using hdst), List.flatMap_cons, List.filter_append, ih,
      filter_rcvpPosts]
    by_cases hsrc : x.srcIp = n.cfg.gMeshIp
    · rw [if_pos hsrc, List.nil_append, List.filter_cons_of_neg (by simp [hsrc])]
    · rw [if_neg hsrc, List.filter_cons_of_pos (by simp [hdst, hsrc]), List.map_cons, posted]
      cases hneigh : n.findAodvNeigh x.lastHop with
      | none =>
        rw [Option.isNone_none, if_pos rfl, List.nil_append, List.filter_cons_of_neg (by simp [hneigh])]
      | some y =>
        rw [Option.isNone_some, if_neg (by simp), List.filter_cons_of_pos (by simp [hneigh]), List.map_cons,
          hdst]
        rfl

/-- What is left of a list without repetitions is known by its elements. -/
theorem sublist_eq_filter {α : Type} {q : α → Bool} {l l' : List α} (hsub : l'.Sublist l) (hl : l.Nodup)
    (hmem : ∀ x ∈ l, x ∈ l' ↔ q x = true) : l' = l.filter q := by
  induction hsub with
  | slnil => rfl
  | @cons l' l x hsub ih =>
    obtain ⟨hx, hl⟩ := List.nodup_cons.mp hl
    have hgone : ¬q x = true := fun hq ↦ hx (hsub.subset ((hmem x List.mem_cons_self).mpr hq))
    rw [List.filter_cons_of_neg hgone]
    exact ih hl fun y hy ↦ hmem y (List.mem_cons_of_mem _ hy)
  | @cons_cons l' l x hsub ih =>
    obtain ⟨hx, hl⟩ := List.nodup_cons.mp hl
    rw [List.filter_cons_of_pos ((hmem x List.mem_cons_self).mp List.mem_cons_self)]
    refine congrArg _ (ih hl fun y hy ↦ ?_)
    have hne : y ≠ x := by
      rintro rfl
      exact hx hy
    rw [← hmem y (List.mem_cons_of_mem _ hy), List.mem_cons]
    exact ⟨.inr, (·.resolve_left hne)⟩

theorem Holds.genRcvp_ready (hz : Holds h zs) (hl : BrkOrdered (zs.map Prod.snd)) (hn : MemoryReady n)
    (hturns : zs.length ≤ turns) (dstIp : Ip) :
    ∃ h' n' posts, h.genRcvp turns dstIp n = some (h', n') ∧ Holds h' (zs.filter fun z ↦ z.2.dstIp ≠ dstIp) ∧
      n'.sent = n.sent ++ posts ∧ posts.filter isRcvp =
        ((handedOver dstIp n (zs.map Prod.snd)).filter fun c ↦ (n.findAodvNeigh c.1).isSome).map sentRcvp := by
  obtain ⟨h', n', zs', hgen, hz', hsub, hlist⟩ := hz.genRcvp hturns dstIp n
  obtain ⟨kmalloc, hspec⟩ := genRcvp_spec (n := { n with brkList := zs.map Prod.snd }) hn hl dstIp
  have hsame := hlist.symm.trans hspec
  have hbrk : zs'.map Prod.snd = (zs.map Prod.snd).filter fun x ↦ x.dstIp ≠ dstIp :=
    congrArg Node.brkList hsame
  have hsent : n'.sent = n.sent ++
      ((zs.map Prod.snd).filter fun x ↦ x.dstIp = dstIp).flatMap (rcvpPosts n) := congrArg Node.sent hsame
  have hleft : zs' = zs.filter fun z ↦ z.2.dstIp ≠ dstIp := by
    refine sublist_eq_filter hsub (List.Nodup.of_map _ hz.links.nodup) fun z hzs ↦ ?_
    have hdistinct : (zs.map Prod.snd).Nodup := List.Nodup.of_map _ hl.distinct
    constructor
    · intro hmem
      have hkept := hbrk ▸ List.mem_map_of_mem (f := Prod.snd) hmem
      exact (List.mem_filter.mp hkept).2
    · intro hkeep
      have hkept : z.2 ∈ zs'.map Prod.snd :=
        hbrk ▸ List.mem_filter.mpr ⟨List.mem_map_of_mem hzs, hkeep⟩
      obtain ⟨w, hw, heq⟩ := List.mem_map.mp hkept
      exact List.inj_on_of_nodup_map hdistinct (hsub.subset hw) hzs heq ▸ hw
  exact ⟨h', n', _, hgen, hleft ▸ hz', hsent, filter_posts n dstIp _⟩

theorem find_pair_iff (hl : BrkOrdered (zs.map Prod.snd)) :
    (zs.find? fun z ↦ z.2.dstIp == dstIp && z.2.srcIp == srcIp).map Prod.fst = some p ↔
      ∃ x, (p, x) ∈ zs ∧ x.srcIp = srcIp ∧ x.dstIp = dstIp := by
  rw [Option.map_eq_some_iff]
  constructor
  · rintro ⟨z, hfind, rfl⟩
    have hpair := List.find?_some hfind
    simp only [Bool.and_eq_true, beq_iff_eq] at hpair
    exact ⟨z.2, List.mem_of_find?_eq_some hfind, hpair.2, hpair.1⟩
  · rintro ⟨x, hx, rfl, rfl⟩
    obtain ⟨z, hfind⟩ : ∃ z, (zs.find? fun z ↦ z.2.dstIp == x.dstIp && z.2.srcIp == x.srcIp) = some z :=
      Option.isSome_iff_exists.mp (List.find?_isSome.mpr ⟨(p, x), hx, by simp⟩)
    have hpair := List.find?_some hfind
    simp only [Bool.and_eq_true, beq_iff_eq] at hpair
    have hdistinct : (zs.map fun z ↦ brkPair z.2).Nodup := by
      have hmap := hl.distinct
      rwa [List.map_map] at hmap
    have heq : z = (p, x) := List.inj_on_of_nodup_map hdistinct (List.mem_of_find?_eq_some hfind) hx
      (Prod.ext hpair.2 hpair.1)
    exact ⟨z, hfind, by rw [heq]⟩

theorem genRcvpLoop_more {turns' : ℕ} {first : Option ℕ} {r : BrkHeap × Node} (hmore : turns ≤ turns')
    (hrun : BrkHeap.genRcvpLoop dstIp turns first h n = some r) :
    BrkHeap.genRcvpLoop dstIp turns' first h n = some r := by
  induction turns generalizing turns' first h n with
  | zero =>
    cases first with
    | none => cases turns' <;> exact hrun
    | some p => cases hrun
  | succ turns ih =>
    cases turns' with
    | zero => simp at hmore
    | succ turns' =>
    have hmore : turns ≤ turns' := Nat.le_of_succ_le_succ hmore
    cases first with
    | none => exact hrun
    | some p =>
      rw [BrkHeap.genRcvpLoop] at hrun ⊢
      obtain ⟨x, hx, hrun⟩ := Option.bind_eq_some_iff.mp hrun
      refine Option.bind_eq_some_iff.mpr ⟨x, hx, ?_⟩
      split at hrun
      · next hdst => exact (if_pos hdst).trans hrun
      next hdst =>
      rw [if_neg hdst]
      split at hrun
      · next hsrc =>
        rw [if_pos hsrc]
        dsimp only at hrun ⊢
        split at hrun
        · next hok => exact (if_pos hok).trans hrun
        · next hok =>
          rw [if_neg hok]
          obtain ⟨h', hremove, hrun⟩ := Option.bind_eq_some_iff.mp hrun
          exact Option.bind_eq_some_iff.mpr ⟨h', hremove, ih hmore hrun⟩
      · next hsrc =>
        rw [if_neg hsrc]
        obtain ⟨h', hremove, hrun⟩ := Option.bind_eq_some_iff.mp hrun
        exact Option.bind_eq_some_iff.mpr ⟨h', hremove, ih hmore hrun⟩

theorem Holds.genRcvp_more {r : BrkHeap × Node} (hz : Holds h zs) (hturns : zs.length ≤ turns)
    (hrun : h.genRcvp zs.length dstIp n = some r) : h.genRcvp turns dstIp n = some r := by
  rw [BrkHeap.genRcvp, hz.findFirst le_rfl, Option.bind_eq_bind, Option.bind_some] at hrun
  rw [BrkHeap.genRcvp, hz.findFirst hturns, Option.bind_eq_bind, Option.bind_some]
  exact genRcvpLoop_more hturns hrun

/-- The broken links are in order at all times, the searches along them miss
nothing, and `gen_rcvp` deals with the whole run of its destination. -/
theorem brk_links_recover (hb : Built h) :
    ∃ zs : List (ℕ × BrkLink), Holds h zs ∧ Sorted (fun z ↦ z.2.dstIp.toNat) zs ∧
      (∀ srcIp dstIp, ∃ found, Returns (fun turns ↦ h.findBrkLink turns srcIp dstIp) found ∧
        ∀ p, found = some p ↔ ∃ x, (p, x) ∈ zs ∧ x.srcIp = srcIp ∧ x.dstIp = dstIp) ∧
      (∀ dstIp, Returns (fun turns ↦ h.findFirstBrkLinkWithDst turns dstIp)
        ((zs.find? fun z ↦ z.2.dstIp == dstIp).map Prod.fst)) ∧
      ∀ dstIp n, MemoryReady n → ∃ h' n' posts,
        Returns (fun turns ↦ h.genRcvp turns dstIp n) (h', n') ∧
        Holds h' (zs.filter fun z ↦ z.2.dstIp ≠ dstIp) ∧ n'.sent = n.sent ++ posts ∧
        posts.filter isRcvp = ((handedOver dstIp n (zs.map Prod.snd)).filter fun c ↦
          (n.findAodvNeigh c.1).isSome).map sentRcvp := by
  obtain ⟨zs, hz, hl⟩ := hb.holds
  have hsorted : Sorted (fun z : ℕ × BrkLink ↦ z.2.dstIp.toNat) zs := by
    have hmap : (zs.map Prod.snd).Pairwise fun x y ↦ brkKey x ≤ brkKey y := hl.sorted
    rwa [List.pairwise_map] at hmap
  have hbelow : ∀ dstIp : Ip, ∀ z : ℕ × BrkLink, decide (z.2.dstIp < dstIp) = true ↔
      z.2.dstIp.toNat < dstIp.toNat := by simp [UInt32.lt_iff_toNat_lt]
  have hsame : ∀ dstIp : Ip, ∀ z : ℕ × BrkLink, (z.2.dstIp == dstIp) = true ↔
      z.2.dstIp.toNat = dstIp.toNat := by simp [UInt32.toNat_inj]
  refine ⟨zs, hz, hsorted, fun srcIp dstIp ↦ ?_, fun dstIp ↦ ?_, fun dstIp n hn ↦ ?_⟩
  · refine ⟨_, ⟨zs.length, fun turns hturns ↦ hz.findBrkLink hturns srcIp dstIp⟩, fun p ↦ ?_⟩
    rw [findRun_eq_find? hsorted (hbelow dstIp) (hsame dstIp)]
    exact find_pair_iff hl
  · refine ⟨zs.length, fun turns hturns ↦ (hz.findFirst hturns dstIp).trans ?_⟩
    have hfirst : findRun (fun z : ℕ × BrkLink ↦ z.2.dstIp < dstIp) (fun z ↦ z.2.dstIp == dstIp)
        (fun _ ↦ true) zs = zs.find? fun z ↦ z.2.dstIp == dstIp && true :=
      findRun_eq_find? hsorted (hbelow dstIp) (hsame dstIp)
    have hhead : ∀ l : List (ℕ × BrkLink), l.find? (fun _ ↦ true) = l.head? := by
      rintro (_ | ⟨z, l⟩)
      · rfl
      · rfl
    simp only [findRun, Bool.and_true, hhead] at hfirst
    rw [hfirst]
  · obtain ⟨h', n', posts, hgen, hspec⟩ := hz.genRcvp_ready hl hn le_rfl dstIp
    exact ⟨h', n', posts, ⟨zs.length, fun turns hturns ↦ hz.genRcvp_more hturns hgen⟩, hspec⟩

end Runs

section Station

def emptyHeap : BrkHeap := ⟨⟨none, fun _ ↦ none, fun _ ↦ none⟩, fun _ ↦ none⟩

/-- The break of 192.168.1.7's flow to 192.168.1.9, whose last hop is
192.168.1.5. -/
def flowBreak : BrkLink := newBrkLink 0x0701a8c0 0x0901a8c0 0x0501a8c0 0x0101a8c0 0

def breakHeap : BrkHeap :=
  { links := ⟨some 1, Function.update (fun _ ↦ none) 1 none, Function.update (fun _ ↦ none) 1 none⟩
    entry := Function.update (fun _ ↦ none) 1 (some flowBreak) }

theorem breakHeap_built : Built breakHeap := by
  have hrun : Returns (fun turns ↦ emptyHeap.createBrkLink turns 1 0x0701a8c0 0x0901a8c0 0x0501a8c0
      0x0101a8c0 PacketDiscovery.station) (breakHeap, PacketDiscovery.station.alloc.2) := by
    refine ⟨0, fun turns _ ↦ ?_⟩
    cases turns with
    | zero => rfl
    | succ turns => rfl
  exact .create (.empty rfl fun _ ↦ rfl) rfl (fun p x hx ↦ by cases hx) hrun

/-- A relay that knows the last hop 192.168.1.5. -/
def relay : Node :=
  { PacketDiscovery.station with aodvNeighList := [newAodvNeigh PacketDiscovery.station.cfg 0x0501a8c0] }

/-- Three of five flows went to 192.168.1.9, one of them the relay's own and one
over a last hop that it does not know. -/
def lostFlows : List (ℕ × BrkLink) :=
  [(5, newBrkLink 0x0701a8c0 0x0401a8c0 0x0501a8c0 0 0), (4, newBrkLink 0x0101a8c0 0x0901a8c0 0 0 0),
    (2, newBrkLink 0x0801a8c0 0x0901a8c0 0x0601a8c0 0 0), (1, newBrkLink 0x0701a8c0 0x0901a8c0 0x0501a8c0 0 0),
    (3, newBrkLink 0x0701a8c0 0x0a01a8c0 0x0501a8c0 0 0)]

theorem lostFlows_built : ∃ h, Built h ∧ Holds h lostFlows := by
  have hgrow : ∀ {h : BrkHeap} {zs : List (ℕ × BrkLink)}, Built h → Holds h zs → ∀ (p : ℕ) (srcIp dstIp lastHop : Ip),
      (∀ z ∈ zs, z.1 ≠ p) → (∀ z ∈ zs, brkPair z.2 ≠ (srcIp, dstIp)) → ∃ h', Built h' ∧ Holds h'
        (insertBy (fun z ↦ z.2.dstIp < dstIp) (p, newBrkLink srcIp dstIp lastHop 0 0) zs) := by
    intro h zs hb hz p srcIp dstIp lastHop hfree habsent
    refine Built.grow (n := relay) hb hz ?_ habsent rfl lastHop 0
    cases hx : h.entry p with
    | none => rfl
    | some x => exact absurd rfl (hfree _ (hz.listed p x hx))
  have hempty : Built emptyHeap := .empty rfl fun _ ↦ rfl
  obtain ⟨h₁, hb₁, hz₁⟩ := hgrow hempty (holds_empty rfl fun _ ↦ rfl) 1 0x0701a8c0 0x0901a8c0 0x0501a8c0
    (by simp) (by simp)
  obtain ⟨h₂, hb₂, hz₂⟩ := hgrow hb₁ hz₁ 2 0x0801a8c0 0x0901a8c0 0x0601a8c0 (by decide) (by decide)
  obtain ⟨h₃, hb₃, hz₃⟩ := hgrow hb₂ hz₂ 3 0x0701a8c0 0x0a01a8c0 0x0501a8c0 (by decide) (by decide)
  obtain ⟨h₄, hb₄, hz₄⟩ := hgrow hb₃ hz₃ 4 0x0101a8c0 0x0901a8c0 0 (by decide) (by decide)
  obtain ⟨h₅, hb₅, hz₅⟩ := hgrow hb₄ hz₄ 5 0x0701a8c0 0x0401a8c0 0x0501a8c0 (by decide) (by decide)
  exact ⟨h₅, hb₅, hz₅⟩

theorem brk_links_recover_break : ∃ h, Built h ∧ Holds h lostFlows ∧
    Returns (fun turns ↦ h.findBrkLink turns 0x0801a8c0 0x0901a8c0) (some 2) ∧
    Returns (fun turns ↦ h.findFirstBrkLinkWithDst turns 0x0901a8c0) (some 4) ∧
    ∃ h' n', Returns (fun turns ↦ h.genRcvp turns 0x0901a8c0 relay) (h', n') ∧
      Holds h' (lostFlows.filter fun z ↦ z.2.dstIp ≠ 0x0901a8c0) ∧
      n'.sent.filter isRcvp = [.unicast 0x0501a8c0 10 (.rcvp ⟨0, 0x0901a8c0, 0x0701a8c0, 0⟩)] := by
  obtain ⟨h, hb, hz⟩ := lostFlows_built
  obtain ⟨zs, hzs, -, hfind, hfirst, hrecover⟩ := brk_links_recover hb
  obtain rfl : zs = lostFlows := hz.unique hzs
  obtain ⟨found, hreturns, hfound⟩ := hfind 0x0801a8c0 0x0901a8c0
  obtain rfl : found = some 2 := (hfound 2).mpr ⟨newBrkLink 0x0801a8c0 0x0901a8c0 0x0601a8c0 0 0, by decide, rfl, rfl⟩
  obtain ⟨h', n', posts, hgen, hleft, hsent, hrcvps⟩ := hrecover 0x0901a8c0 relay fun b hb ↦ by cases hb
  refine ⟨h, hb, hz, hreturns, hfirst 0x0901a8c0, h', n', hgen, hleft, ?_⟩
  have hnothing : relay.sent = [] := rfl
  rw [hsent, hnothing, List.nil_append, hrcvps]
  decide

theorem breakHeap_holds : Holds breakHeap [(1, flowBreak)] := by
  refine ⟨⟨⟨List.nodup_singleton _, rfl, rfl, trivial, ?_⟩, ?_⟩, fun p x hx ↦ ?_⟩
  · rintro p ⟨⟩
    rfl
  · intro z hz
    obtain rfl := List.mem_singleton.mp hz
    rfl
  · by_cases hp : p = 1
    · subst hp
      obtain rfl := Option.some.inj hx
      exact List.mem_singleton_self _
    · simp [breakHeap, hp] at hx

/-- The last hop of the break is not a neighbour: the entry goes and nobody is
told. -/
theorem break_untold : ¬ ∀ (h h' : BrkHeap) (n n' : Node) (zs : List (ℕ × BrkLink)) (dstIp : Ip)
    (posts : List Sent), Built h → Holds h zs → MemoryReady n →
      Returns (fun turns ↦ h.genRcvp turns dstIp n) (h', n') → n'.sent = n.sent ++ posts →
      posts.filter isRcvp = (handedOver dstIp n (zs.map Prod.snd)).map sentRcvp := by
  intro hclaim
  have hrun : breakHeap.genRcvp 1 0x0901a8c0 PacketDiscovery.station =
      some ((breakHeap.genRcvp 1 0x0901a8c0 PacketDiscovery.station).getD
        (emptyHeap, PacketDiscovery.station)) := rfl
  have hposts := hclaim breakHeap _ PacketDiscovery.station _ _ 0x0901a8c0 [] breakHeap_built breakHeap_holds
    (fun b hb ↦ by cases hb) ⟨1, fun turns hturns ↦ breakHeap_holds.genRcvp_more hturns hrun⟩ rfl
  exact absurd hposts (by decide)

end Station

end Fbaodv.Proofs.BrkRecovery
