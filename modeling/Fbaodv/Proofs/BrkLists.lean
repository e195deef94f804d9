import Fbaodv.Proofs.BrkListFlush
import Fbaodv.Proofs.NodeOps

namespace Fbaodv.Proofs.BrkLists

open Fbaodv.Foundation Fbaodv.Foundation.OrderedList Fbaodv.Model Fbaodv.Model.Node
open Fbaodv.Proofs.NodeRun Fbaodv.Proofs.NodeOps Fbaodv.Proofs.BrkListFlush

/-- The key by which the broken links are sorted. -/
def brkKey (x : BrkLink) : ℕ := x.dstIp.toNat

def brkPair (x : BrkLink) : Ip × Ip := (x.srcIp, x.dstIp)

/-- What holds of the broken links of every node at any time. -/
structure BrkOrdered (l : List BrkLink) : Prop where
  sorted : Sorted brkKey l
  distinct : (l.map brkPair).Nodup

/-- Every message gets its memory. -/
def MemoryReady (n : Node) : Prop := ∀ b ∈ n.kmalloc, b = true

/-- What `send_message` puts on the way for one neighbour. -/
def posted (ip : Ip) (m : Message) (n : Node) : List Sent :=
  if (n.findAodvNeigh ip).isNone then [] else [.unicast ip netDiameter m]

/-- What the DTN layer is told, if there is one. -/
def notified (port : UInt16) (para₀ para₁ para₂ para₃ : UInt32) (n : Node) : List Sent :=
  if n.dtnRegister then [.toDtn port para₀ para₁ para₂ para₃] else []

/-- What `gen_rcvp` says about a link that it removes. -/
def rcvpPosts (n : Node) (x : BrkLink) : List Sent :=
  notified dtnPort x.srcIp x.dstIp x.lastAvailIp rcvpMessage n ++
    if x.srcIp = n.cfg.gMeshIp then []
    else posted x.lastHop (.rcvp ⟨0, x.dstIp, x.srcIp, x.lastAvailIp⟩) n

variable {n n' : Node} {l l' : List BrkLink} {x : BrkLink} {srcIp dstIp : Ip}

section Memory

theorem MemoryReady.alloc (hn : MemoryReady n) : n.alloc.1 = true ∧ MemoryReady n.alloc.2 := by
  unfold MemoryReady Node.alloc Outcomes.next Outcomes.rest at *
  cases hmem : n.kmalloc with
  | nil => exact ⟨rfl, by simp⟩
  | cons b o =>
    rw [hmem] at hn
    exact ⟨hn b List.mem_cons_self, fun b' hb' ↦ hn b' (List.mem_cons_of_mem _ hb')⟩

theorem sendMessage_eq (ip : Ip) (m : Message) (n : Node) :
    n.sendMessage ip netDiameter m = { n with sent := n.sent ++ posted ip m n } := by
  unfold sendMessage posted
  rw [if_neg (by decide)]
  split
  · rw [List.append_nil]
  · rfl

theorem notify_eq (port : UInt16) (para₀ para₁ para₂ para₃ : UInt32) (n : Node) :
    (if n.dtnRegister then n.send2dtn port para₀ para₁ para₂ para₃ else n) =
      { n with sent := n.sent ++ notified port para₀ para₁ para₂ para₃ n } := by
  unfold notified
  split
  · rfl
  · rw [List.append_nil]

theorem sendMessage_brkList (ip : Ip) (ttl : UInt8) (m : Message) (n : Node) :
    (n.sendMessage ip ttl m).brkList = n.brkList := by
  rcases sendMessage_cases ip ttl m n with h | h
  · rw [h]
  · rw [h]

theorem notify_brkList {c : Prop} [Decidable c] {port : UInt16} {para₀ para₁ para₂ para₃ : UInt32} :
    (if c then n.send2dtn port para₀ para₁ para₂ para₃ else n).brkList = n.brkList := by
  split
  · rfl
  · rfl

end Memory

section Lists

theorem BrkOrdered.find_eq (hl : BrkOrdered n.brkList) (srcIp dstIp : Ip) :
    n.findBrkLink srcIp dstIp = n.brkList.find? (isBrkLink srcIp dstIp) := by
  refine findRun_eq_find? (k := dstIp.toNat) hl.sorted (fun a ↦ ?_) fun a ↦ ?_
  · simp [brkKey, UInt32.lt_iff_toNat_lt]
  · simp [brkKey, UInt32.toNat_inj]

theorem isBrkLink_iff : isBrkLink srcIp dstIp x = true ↔ brkPair x = (srcIp, dstIp) := by
  simp only [isBrkLink, Bool.and_eq_true, beq_iff_eq, brkPair, Prod.mk.injEq]
  exact and_comm

theorem BrkOrdered.eq_of_pair (hl : BrkOrdered l) {y : BrkLink} (hx : x ∈ l) (hy : y ∈ l)
    (h : brkPair x = brkPair y) : x = y := List.inj_on_of_nodup_map hl.distinct hx hy h

/-- The search finds a link exactly when it is listed. -/
theorem BrkOrdered.find_iff (hl : BrkOrdered n.brkList) :
    n.findBrkLink srcIp dstIp = some x ↔ x ∈ n.brkList ∧ brkPair x = (srcIp, dstIp) := by
  rw [hl.find_eq]
  constructor
  · exact fun h ↦ ⟨List.mem_of_find?_eq_some h, isBrkLink_iff.mp (List.find?_some h)⟩
  · rintro ⟨hx, hpair⟩
    obtain ⟨y, hy⟩ : ∃ y, n.brkList.find? (isBrkLink srcIp dstIp) = some y :=
      Option.isSome_iff_exists.mp (List.find?_isSome.mpr ⟨x, hx, isBrkLink_iff.mpr hpair⟩)
    have hpair' := isBrkLink_iff.mp (List.find?_some hy)
    rwa [← hl.eq_of_pair (List.mem_of_find?_eq_some hy) hx (hpair'.trans hpair.symm)]

theorem BrkOrdered.find_none (hl : BrkOrdered n.brkList) (h : n.findBrkLink srcIp dstIp = none) :
    ∀ x ∈ n.brkList, brkPair x ≠ (srcIp, dstIp) := by
  intro x hx hpair
  have hfound := hl.find_iff.mpr ⟨hx, hpair⟩
  rw [h] at hfound
  cases hfound

theorem brkOrdered_nil : BrkOrdered [] := ⟨List.Pairwise.nil, List.nodup_nil⟩

theorem BrkOrdered.sublist (hl : BrkOrdered l) (h : l'.Sublist l) : BrkOrdered l' :=
  ⟨hl.sorted.sublist h, hl.distinct.sublist (h.map _)⟩

/-- Only the addresses in the list matter. -/
theorem BrkOrdered.of_pairs (hl : BrkOrdered l) (h : (l'.map brkPair).Sublist (l.map brkPair)) :
    BrkOrdered l' := by
  refine ⟨?_, hl.distinct.sublist h⟩
  have hdst : (l'.map brkKey).Sublist (l.map brkKey) := by
    have hmap := h.map fun p : Ip × Ip ↦ p.2.toNat
    rwa [List.map_map, List.map_map] at hmap
  have hsorted : (l.map brkKey).Pairwise (· ≤ ·) := List.pairwise_map.mpr hl.sorted
  exact List.pairwise_map.mp (hsorted.sublist hdst)

theorem BrkOrdered.insert (hl : BrkOrdered l) (hnew : ∀ y ∈ l, brkPair y ≠ brkPair x) :
    BrkOrdered (insertBy (fun y ↦ y.dstIp < x.dstIp) x l) := by
  refine ⟨hl.sorted.insertBy fun b _ ↦ ?_, ?_⟩
  · simp [brkKey, UInt32.lt_iff_toNat_lt]
  · rw [((insertBy_perm _ _ _).map _).nodup_iff, List.map_cons, List.nodup_cons]
    refine ⟨fun hmem ↦ ?_, hl.distinct⟩
    obtain ⟨y, hy, hpair⟩ := List.mem_map.mp hmem
    exact hnew y hy hpair

/-- The turns of the loop of `flush_brk_list`. -/
inductive Flushes (now : ℕ) : List BrkLink → List BrkLink → Prop
  | nil : Flushes now [] []
  | fresh {x : BrkLink} {l l' : List BrkLink} (hx : (brkRule now).due x = false) (h : Flushes now l l') :
      Flushes now (x :: l) (x :: l')
  | expire {x y z : BrkLink} {l l' : List BrkLink} (hx : (brkRule now).due x = true)
      (hr : x.state ≠ .invalid) (h : Flushes now l l') :
      Flushes now (x :: y :: z :: l) (expireBrkLink now x :: z :: l')
  | remove {x z : BrkLink} {l l' : List BrkLink} (hx : (brkRule now).due x = true)
      (hr : x.state = .invalid) (h : Flushes now l l') : Flushes now (x :: z :: l) (z :: l')

theorem flushes_of_some {now : ℕ} (h : flushBrkLinks now l = some l') : Flushes now l l' := by
  induction l using flushBrkLinks.induct now generalizing l' with
  | case1 =>
    have hnil : some [] = some l' := h
    exact Option.some.inj hnil ▸ .nil
  | case2 x l hdue ih =>
    have hdue : (brkRule now).due x = false := by simpa [brkRule] using hdue
    rw [flush_fresh hdue, Option.map_eq_some_iff] at h
    obtain ⟨r, hr, rfl⟩ := h
    exact .fresh hdue (ih hr)
  | case3 x hdue hstate y z l ih =>
    have hdue : (brkRule now).due x = true := by simpa [brkRule] using hdue
    rw [flush_expire hdue (by simpa [brkRule] using hstate), Option.map_eq_some_iff] at h
    obtain ⟨r, hr, rfl⟩ := h
    exact .expire hdue hstate (ih hr)
  | case4 x l hdue hstate hshort =>
    rw [flushBrkLinks.eq_def] at h
    rcases l with - | ⟨y, - | ⟨z, l⟩⟩
    · simp [hdue, hstate] at h
    · simp [hdue, hstate] at h
    · exact (hshort y z l rfl).elim
  | case5 x hdue hstate z l ih =>
    have hdue : (brkRule now).due x = true := by simpa [brkRule] using hdue
    have hstate : x.state = .invalid := by simpa using hstate
    have hdies : (brkRule now).dies x = true := by
      rw [TwoPhase.Rule.dies, hdue]
      simpa [brkRule] using hstate
    rw [flush_remove hdies, Option.map_eq_some_iff] at h
    obtain ⟨r, hr, rfl⟩ := h
    exact .remove hdue hstate (ih hr)
  | case6 x hdue hstate =>
    rw [flushBrkLinks.eq_def] at h
    simp [hdue, hstate] at h

theorem Flushes.pairs {now : ℕ} (h : Flushes now l l') : (l'.map brkPair).Sublist (l.map brkPair) := by
  induction h with
  | nil => exact .slnil
  | fresh _ _ ih => exact ih.cons_cons _
  | expire _ _ _ ih => exact ((ih.cons_cons _).cons _).cons_cons _
  | remove _ _ _ ih => exact (ih.cons_cons _).cons _

theorem Flushes.mem {now : ℕ} (h : Flushes now l l') {y : BrkLink} (hy : y ∈ l') :
    y ∈ l ∨ ∃ x ∈ l, y = expireBrkLink now x := by
  induction h with
  | nil => cases hy
  | fresh _ _ ih =>
    rcases List.mem_cons.mp hy with rfl | hy
    · exact .inl List.mem_cons_self
    · refine (ih hy).imp (fun hmem ↦ by simp [hmem]) ?_
      rintro ⟨w, hw, rfl⟩
      exact ⟨w, by simp [hw], rfl⟩
  | expire _ _ _ ih =>
    rcases List.mem_cons.mp hy with rfl | hy
    · exact .inr ⟨_, List.mem_cons_self, rfl⟩
    rcases List.mem_cons.mp hy with rfl | hy
    · exact .inl (by simp)
    · refine (ih hy).imp (fun hmem ↦ by simp [hmem]) ?_
      rintro ⟨w, hw, rfl⟩
      exact ⟨w, by simp [hw], rfl⟩
  | remove _ _ _ ih =>
    rcases List.mem_cons.mp hy with rfl | hy
    · exact .inl (by simp)
    · refine (ih hy).imp (fun hmem ↦ by simp [hmem]) ?_
      rintro ⟨w, hw, rfl⟩
      exact ⟨w, by simp [hw], rfl⟩

theorem Flushes.not_mem {now : ℕ} (h : Flushes now l l') {y : BrkLink} (hy : brkPair y ∉ l.map brkPair) : y ∉ l' :=
  fun hmem ↦ hy (h.pairs.subset (List.mem_map_of_mem hmem))

end Lists

section Records

/-- The link that `create_brk_link` fills in. -/
def newBrkLink (srcIp dstIp lastHop lastAvail : Ip) (now : ℕ) : BrkLink where
  dstIp := dstIp
  srcIp := srcIp
  lastHop := lastHop
  state := .active
  lastAvailIp := lastAvail
  lifetime := now + brkLinkTimeout

/-- The list between the record of a broken link and its flush. -/
def recordedLinks (srcIp dstIp lastHop lastAvail : Ip) (n : Node) : List BrkLink :=
  match n.findBrkLink srcIp dstIp with
  | some _ => modifyFirst (isBrkLink srcIp dstIp)
      (fun x ↦ { x with lifetime := n.now + brkLinkTimeout }) n.brkList
  | none =>
    if n.kmalloc.next then
      insertBy (fun x ↦ x.dstIp < dstIp) (newBrkLink srcIp dstIp lastHop lastAvail n.now) n.brkList
    else n.brkList

/-- The memory after the record. -/
def recordedMemory (srcIp dstIp : Ip) (n : Node) : Outcomes :=
  match n.findBrkLink srcIp dstIp with
  | some _ => n.kmalloc
  | none => n.kmalloc.rest

theorem recordBrkLink_eq (srcIp dstIp lastHop lastAvail : Ip) (n : Node) :
    n.recordBrkLink srcIp dstIp lastHop lastAvail =
      (flushBrkLinks n.now (recordedLinks srcIp dstIp lastHop lastAvail n)).map fun l ↦
        { n with brkList := l, kmalloc := recordedMemory srcIp dstIp n } := by
  have hflush : ∀ n₁ : Node, n₁.flushBrkList =
      (flushBrkLinks n₁.now n₁.brkList).map fun l ↦ { n₁ with brkList := l } := by
    intro n₁
    rw [Option.map_eq_bind]
    rfl
  unfold recordBrkLink recordedLinks recordedMemory
  cases n.findBrkLink srcIp dstIp with
  | some x => exact hflush _
  | none =>
    dsimp only
    rw [hflush]
    unfold createBrkLink Node.alloc
    cases hmem : n.kmalloc.next with
    | false => simp
    | true => simp [insertBrkLink, newBrkLink]

theorem recordBrkLink_frame {lastHop lastAvail : Ip}
    (h : n.recordBrkLink srcIp dstIp lastHop lastAvail = some n') :
    flushBrkLinks n.now (recordedLinks srcIp dstIp lastHop lastAvail n) = some n'.brkList ∧
      ∃ l o, n' = { n with brkList := l, kmalloc := o } ∧ (MemoryReady n → MemoryReady n') := by
  rw [recordBrkLink_eq, Option.map_eq_some_iff] at h
  obtain ⟨l, hl, rfl⟩ := h
  refine ⟨hl, l, _, rfl, fun hn b hb ↦ ?_⟩
  unfold recordedMemory at hb
  dsimp only at hb
  split at hb
  · exact hn b hb
  · exact hn.alloc.2 b hb

theorem BrkOrdered.recorded {lastHop lastAvail : Ip} (hl : BrkOrdered n.brkList) :
    BrkOrdered (recordedLinks srcIp dstIp lastHop lastAvail n) := by
  unfold recordedLinks
  cases hfind : n.findBrkLink srcIp dstIp with
  | some x =>
    have hpairs : (modifyFirst (isBrkLink srcIp dstIp)
        (fun x ↦ { x with lifetime := n.now + brkLinkTimeout }) n.brkList).map brkPair =
          n.brkList.map brkPair := by
      apply map_modifyFirst
      intro x
      rfl
    exact hl.of_pairs (hpairs ▸ .refl _)
  | none =>
    dsimp only
    split
    · exact hl.insert (x := newBrkLink srcIp dstIp lastHop lastAvail n.now) (hl.find_none hfind)
    · exact hl

theorem BrkOrdered.record {lastHop lastAvail : Ip} (hl : BrkOrdered n.brkList)
    (h : n.recordBrkLink srcIp dstIp lastHop lastAvail = some n') : BrkOrdered n'.brkList :=
  hl.recorded.of_pairs (flushes_of_some (recordBrkLink_frame h).1).pairs

end Records

section Recovery

theorem erase_head {a : List BrkLink} (ha : ∀ y ∈ a, y.dstIp ≠ x.dstIp) :
    (a ++ x :: l).eraseP (fun y ↦ y.dstIp == x.dstIp) = a ++ l := by
  rw [List.eraseP_append_right _ (by simpa using ha), List.eraseP_cons_of_pos (by simp)]

/-- The links of a run that `gen_rcvp` removes before it finds no memory for an
RCVP. -/
def served (gMeshIp : Ip) : Outcomes → List BrkLink → List BrkLink
  | _, [] => []
  | kmalloc, x :: l =>
    if x.srcIp = gMeshIp then x :: served gMeshIp kmalloc l
    else if kmalloc.next then x :: served gMeshIp kmalloc.rest l
    else []

theorem served_initial (gMeshIp : Ip) (kmalloc : Outcomes) (l : List BrkLink) :
    served gMeshIp kmalloc l <+: l := by
  induction l generalizing kmalloc with
  | nil => exact List.prefix_refl _
  | cons x l ih =>
    unfold served
    split
    · exact (List.prefix_cons_inj x).mpr (ih _)
    split
    · exact (List.prefix_cons_inj x).mpr (ih _)
    · exact List.nil_prefix

theorem served_ready (gMeshIp : Ip) {kmalloc : Outcomes} (h : ∀ b ∈ kmalloc, b = true)
    (l : List BrkLink) : served gMeshIp kmalloc l = l := by
  induction l generalizing kmalloc with
  | nil => rfl
  | cons x l ih =>
    have hnext : kmalloc.next = true := by
      cases kmalloc with
      | nil => rfl
      | cons b kmalloc => exact h b List.mem_cons_self
    have hrest : served gMeshIp kmalloc.rest l = l := ih fun b hb ↦ h b (List.mem_of_mem_tail hb)
    rw [served, hnext, ih h, hrest, if_pos rfl, ite_self]

theorem genRcvpLoop_cons (hx : x.dstIp = dstIp) (hmem : x.srcIp = n.cfg.gMeshIp ∨ n.kmalloc.next = true) :
    genRcvpLoop dstIp (x :: l) n = genRcvpLoop dstIp l { n with
      brkList := n.brkList.eraseP fun y ↦ y.dstIp == dstIp
      sent := n.sent ++ rcvpPosts n x
      kmalloc := if x.srcIp = n.cfg.gMeshIp then n.kmalloc else n.kmalloc.rest } := by
  rw [genRcvpLoop, if_neg (by simp [hx])]
  subst hx
  unfold rcvpPosts
  split
  · next hsrc =>
    obtain ⟨n₁, halloc, hn₁⟩ :
        ∃ n₁, n.alloc = (true, n₁) ∧ n₁ = { n with kmalloc := n.kmalloc.rest } :=
      ⟨_, Prod.ext (hmem.resolve_left hsrc) rfl, rfl⟩
    rw [halloc]
    simp only [Bool.not_true, Bool.false_eq_true, if_false, notify_eq, sendMessage_eq,
      List.append_assoc]
    subst hn₁
    rfl
  · next hsrc =>
    have hsrc : x.srcIp = n.cfg.gMeshIp := by simpa using hsrc
    simp only [if_pos hsrc, notify_eq, List.append_nil]

/-- `gen_rcvp` walks over the links to its destination, which stand together. -/
theorem genRcvpLoop_spec {a run rest : List BrkLink} (hbrk : n.brkList = a ++ (run ++ rest))
    (ha : ∀ x ∈ a, x.dstIp ≠ dstIp) (hrun : ∀ x ∈ run, x.dstIp = dstIp)
    (hrest : ∀ x ∈ rest.head?, x.dstIp ≠ dstIp) :
    ∃ kmalloc left, run = served n.cfg.gMeshIp n.kmalloc run ++ left ∧
      genRcvpLoop dstIp (run ++ rest) n = { n with
        brkList := a ++ (left ++ rest)
        sent := n.sent ++ (served n.cfg.gMeshIp n.kmalloc run).flatMap (rcvpPosts n)
        kmalloc := kmalloc } := by
  induction run generalizing n with
  | nil =>
    have hdone : genRcvpLoop dstIp rest n = n := by
      cases rest with
      | nil => rfl
      | cons y rest => simp [genRcvpLoop, hrest y rfl]
    rw [List.nil_append] at hbrk
    refine ⟨n.kmalloc, [], rfl, ?_⟩
    rw [List.nil_append, hdone, ← hbrk, served, List.flatMap_nil, List.append_nil]
  | cons x run ih =>
    obtain ⟨hx, hrun⟩ := List.forall_mem_cons.mp hrun
    by_cases hmem : x.srcIp = n.cfg.gMeshIp ∨ n.kmalloc.next = true
    · have herase : n.brkList.eraseP (fun y ↦ y.dstIp == dstIp) = a ++ (run ++ rest) := by
        subst hx
        rw [hbrk]
        exact erase_head ha
      obtain ⟨kmalloc, left, hleft, hloop⟩ := ih (n := { n with
        brkList := a ++ (run ++ rest)
        sent := n.sent ++ rcvpPosts n x
        kmalloc := if x.srcIp = n.cfg.gMeshIp then n.kmalloc else n.kmalloc.rest }) rfl hrun
      dsimp only at hleft hloop
      have hserved : served n.cfg.gMeshIp n.kmalloc (x :: run) = x :: served n.cfg.gMeshIp
          (if x.srcIp = n.cfg.gMeshIp then n.kmalloc else n.kmalloc.rest) run := by
        rw [served]
        split
        · rfl
        · next hsrc => rw [if_pos (hmem.resolve_left hsrc)]
      refine ⟨kmalloc, left, ?_, ?_⟩
      · rw [hserved, List.cons_append, ← hleft]
      · rw [List.cons_append, genRcvpLoop_cons hx hmem, herase, hloop, hserved, List.flatMap_cons,
          List.append_assoc]
        rfl
    · obtain ⟨hsrc, hnext⟩ := not_or.mp hmem
      have hnone : served n.cfg.gMeshIp n.kmalloc (x :: run) = [] := by
        rw [served, if_neg hsrc, if_neg hnext]
      refine ⟨n.kmalloc.rest, x :: run, ?_, ?_⟩
      · rw [hnone, List.nil_append]
      · rw [hnone, List.flatMap_nil, List.append_nil, ← hbrk, List.cons_append, genRcvpLoop,
          if_neg (by simp [hx]), if_pos hsrc]
        simp only [Node.alloc, hnext, Bool.not_false, if_true]

/-- The links to `dstIp` that `gen_rcvp` removes. -/
def recovered (dstIp : Ip) (n : Node) : List BrkLink :=
  served n.cfg.gMeshIp n.kmalloc (n.brkList.filter fun x ↦ x.dstIp = dstIp)

/-- `gen_rcvp` removes links to its destination and no others, and says of each
what it has to. -/
theorem genRcvp_recovered (hl : BrkOrdered n.brkList) (dstIp : Ip) :
    ∃ kmalloc, n.genRcvp dstIp = { n with
      brkList := n.brkList.filter fun x ↦ x ∉ recovered dstIp n
      sent := n.sent ++ (recovered dstIp n).flatMap (rcvpPosts n)
      kmalloc := kmalloc } := by
  have hbelow : ∀ x : BrkLink, decide (x.dstIp < dstIp) = true ↔ brkKey x < dstIp.toNat := by
    simp [brkKey, UInt32.lt_iff_toNat_lt]
  have hsame : ∀ x : BrkLink, decide (x.dstIp = dstIp) = true ↔ brkKey x = dstIp.toNat := by
    simp [brkKey, UInt32.toNat_inj]
  have hruns := hl.sorted.eq_runs hbelow hsame
  have ha : ∀ x ∈ n.brkList.filter (fun x ↦ decide (x.dstIp < dstIp)), x.dstIp ≠ dstIp :=
    fun x hx ↦ UInt32.ne_of_lt (of_decide_eq_true (List.mem_filter.mp hx).2)
  have hrun : ∀ x ∈ n.brkList.filter (fun x ↦ decide (x.dstIp = dstIp)), x.dstIp = dstIp :=
    fun x hx ↦ of_decide_eq_true (List.mem_filter.mp hx).2
  have hrest : ∀ x ∈ n.brkList.filter (fun x ↦ !decide (x.dstIp < dstIp) && !decide (x.dstIp = dstIp)),
      x.dstIp ≠ dstIp := by
    intro x hx
    simpa using (Bool.and_eq_true_iff.mp (List.mem_filter.mp hx).2).2
  obtain ⟨kmalloc, left, hleft, hloop⟩ := genRcvpLoop_spec hruns.symm ha hrun
    fun x hx ↦ hrest x (List.mem_of_mem_head? hx)
  have hkeep : (n.brkList.filter fun x ↦ decide (x ∉ recovered dstIp n)) =
      n.brkList.filter (fun x ↦ decide (x.dstIp < dstIp)) ++
        (left ++ n.brkList.filter fun x ↦ !decide (x.dstIp < dstIp) && !decide (x.dstIp = dstIp)) := by
    have hgone : ∀ x ∈ recovered dstIp n, x.dstIp = dstIp :=
      fun x hx ↦ hrun x ((served_initial _ _ _).subset hx)
    have hnone : (recovered dstIp n).filter (fun x ↦ decide (x ∉ recovered dstIp n)) = [] :=
      List.filter_eq_nil_iff.mpr fun x hx ↦ by simp [hx]
    have hleft' : ∀ x ∈ left, x ∉ recovered dstIp n := by
      have hnodup : (recovered dstIp n ++ left).Nodup :=
        hleft ▸ (List.Nodup.of_map _ hl.distinct).filter _
      exact fun x hx hgone ↦ (List.nodup_append.mp hnodup).2.2 x hgone x hx rfl
    nth_rewrite 1 [← hruns]
    nth_rewrite 1 [hleft]
    rw [List.filter_append, List.filter_append, List.filter_append]
    refine congrArg₂ (· ++ ·) (List.filter_eq_self.mpr fun x hx ↦ ?_)
      (congrArg₂ (· ++ ·) ?_ (List.filter_eq_self.mpr fun x hx ↦ ?_))
    · exact decide_eq_true fun hmem ↦ ha x hx (hgone x hmem)
    · exact (congrArg₂ (· ++ ·) hnone (List.filter_eq_self.mpr fun x hx ↦
        decide_eq_true (hleft' x hx))).trans (List.nil_append left)
    · exact decide_eq_true fun hmem ↦ hrest x hx (hgone x hmem)
  refine ⟨kmalloc, ?_⟩
  rw [hkeep, genRcvp, hl.sorted.dropWhile_eq hbelow hsame]
  exact hloop

/-- With memory at hand `gen_rcvp` removes all links to its destination. -/
theorem genRcvp_spec (hn : MemoryReady n) (hl : BrkOrdered n.brkList) (dstIp : Ip) :
    ∃ kmalloc, n.genRcvp dstIp = { n with
      brkList := n.brkList.filter fun x ↦ x.dstIp ≠ dstIp
      sent := n.sent ++ (n.brkList.filter fun x ↦ x.dstIp = dstIp).flatMap (rcvpPosts n)
      kmalloc := kmalloc } := by
  have hall : recovered dstIp n = n.brkList.filter fun x ↦ x.dstIp = dstIp := served_ready _ hn _
  obtain ⟨kmalloc, h⟩ := genRcvp_recovered hl dstIp
  rw [hall] at h
  refine ⟨kmalloc, h.trans ?_⟩
  congr 1
  refine List.filter_congr fun x hx ↦ ?_
  simp [hx]

theorem genRcvpLoop_frame (dstIp : Ip) (l : List BrkLink) (n : Node) :
    (genRcvpLoop dstIp l n).brkList.Sublist n.brkList ∧ (genRcvpLoop dstIp l n).routing = n.routing := by
  induction l generalizing n with
  | nil => exact ⟨.refl _, rfl⟩
  | cons x l ih =>
    unfold genRcvpLoop
    split
    · exact ⟨.refl _, rfl⟩
    split
    · dsimp only
      split
      · exact ⟨.refl _, rfl⟩
      · refine ⟨(ih _).1.trans ?_, (ih _).2.trans ?_⟩
        · dsimp only
          rw [sendMessage_brkList, notify_eq]
          exact List.eraseP_sublist
        · dsimp only
          rw [(sendMessage_frame _ _ _ _).2, notify_eq]
          rfl
    · refine ⟨(ih _).1.trans ?_, (ih _).2.trans ?_⟩
      · dsimp only
        rw [notify_eq]
        exact List.eraseP_sublist
      · dsimp only
        rw [notify_eq]

theorem recvRcvp_sublist (m : Rcvp) (n : Node) : (n.recvRcvp m).brkList.Sublist n.brkList := by
  unfold recvRcvp
  dsimp only
  generalize hn₁ : (if n.dtnRegister = true then _ else n) = n₁
  have hbrk : n₁.brkList = n.brkList := hn₁ ▸ notify_brkList
  rw [← hbrk]
  split
  · exact .refl _
  split
  · exact List.eraseP_sublist
  split
  · exact .refl _
  · unfold removeBrkLink
    rw [sendMessage_brkList]
    exact List.eraseP_sublist

end Recovery

section Steps

variable {e : Event} {t : Task}

theorem BrkOrdered.genRerrRoute {r : AodvRoute} {go : Bool} (hl : BrkOrdered n.brkList)
    (h : n.genRerrRoute r = some (go, n')) : BrkOrdered n'.brkList := by
  unfold Node.genRerrRoute at h
  split at h
  · split at h
    · dsimp only at h
      split at h
      · simp only [Option.some.injEq, Prod.mk.injEq] at h
        exact h.2 ▸ hl
      · obtain ⟨n₁, hrecord, h⟩ := Option.bind_eq_some_iff.mp h
        simp only [Option.some.injEq, Prod.mk.injEq] at h
        refine h.2 ▸ BrkOrdered.record ?_ hrecord
        rw [sendMessage_brkList, notify_brkList]
        exact hl
    · simp only [Option.some.injEq, Prod.mk.injEq] at h
      exact h.2 ▸ hl
  · obtain ⟨n₁, hrecord, h⟩ := Option.bind_eq_some_iff.mp h
    simp only [Option.some.injEq, Prod.mk.injEq] at h
    refine h.2 ▸ BrkOrdered.record ?_ hrecord
    rwa [notify_brkList]

theorem BrkOrdered.genRerr {ip : Ip} (hl : BrkOrdered n.brkList) (h : n.genRerr ip = some n') :
    BrkOrdered n'.brkList := by
  have hloop : ∀ (l : List AodvRoute) (k : ℕ) (k' : Option ℕ) (n₁ n₂ : Node),
      genRerrLoop ip l k n₁ = some (k', n₂) → BrkOrdered n₁.brkList → BrkOrdered n₂.brkList := by
    intro l
    induction l with
    | nil =>
      intro k k' n₁ n₂ h hl
      simp only [genRerrLoop, Option.some.injEq, Prod.mk.injEq] at h
      exact h.2 ▸ hl
    | cons r l ih =>
      intro k k' n₁ n₂ h hl
      unfold genRerrLoop at h
      split at h
      · obtain ⟨⟨go, n₃⟩, hroute, h⟩ := Option.bind_eq_some_iff.mp h
        have hl₃ : BrkOrdered n₃.brkList := hl.genRerrRoute hroute
        dsimp only at h
        split at h
        · simp only [Option.some.injEq, Prod.mk.injEq] at h
          exact h.2 ▸ hl₃
        split at h
        · exact ih _ _ _ _ h hl₃
        · exact ih _ _ _ _ h hl₃
      · exact ih _ _ _ _ h hl
  obtain ⟨⟨k, n₁⟩, h₁, h⟩ := Option.bind_eq_some_iff.mp h
  have hl₁ := hloop _ _ _ _ _ h₁ hl
  dsimp only at h
  split at h
  · exact Option.some.inj h ▸ hl₁
  split at h
  · exact Option.some.inj h ▸ hl₁
  · exact Option.some.inj h ▸ hl₁

theorem BrkOrdered.recvRerrRoute {m : Rerr} {firstDtn : Bool} {r : AodvRoute}
    (hl : BrkOrdered n.brkList) (h : n.recvRerrRoute m firstDtn r = some n') :
    BrkOrdered n'.brkList := by
  unfold Node.recvRerrRoute at h
  split at h
  · split at h
    · refine BrkOrdered.record ?_ h
      rwa [sendMessage_brkList]
    · exact Option.some.inj h ▸ hl
  · exact hl.record h

theorem BrkOrdered.recvRerr {m : Rerr} (hl : BrkOrdered n.brkList) (h : n.recvRerr t m = some n') :
    BrkOrdered n'.brkList := by
  unfold Node.recvRerr at h
  dsimp only at h
  generalize hn₁ : (if n.dtnRegister = true then _ else n) = n₁ at h
  have hl : BrkOrdered n₁.brkList := by
    rw [← hn₁, notify_brkList]
    exact hl
  split at h
  · exact Option.some.inj h ▸ hl
  split at h
  · exact Option.some.inj h ▸ hl
  obtain ⟨n₂, hroute, h⟩ := Option.bind_eq_some_iff.mp h
  have hl₂ : BrkOrdered n₂.brkList := hl.recvRerrRoute hroute
  split at h
  · rw [← Option.some.inj h]
    split
    · exact hl₂
    · exact hl₂
  · exact Option.some.inj h ▸ hl₂

theorem SideOps.brkList (h : SideOps n n') : n'.brkList = n.brkList := by
  have hops : Ops n (createTask .hello 0) n n' := h.ops
  exact hops.frame.2

theorem BrkOrdered.handling (hl : BrkOrdered n.brkList) (h : Handling n t n') :
    BrkOrdered n'.brkList := by
  cases h with
  | plain h => exact h.frame.2 ▸ hl
  | genRerr h₁ h h₂ =>
    rw [SideOps.brkList h₂]
    exact BrkOrdered.genRerr (SideOps.brkList h₁ ▸ hl) h
  | recvRerr h => exact hl.recvRerr h
  | @genRcvp n₁ ip h₁ h₂ =>
    rw [h₂.frame.2]
    refine BrkOrdered.sublist ?_ (genRcvpLoop_frame ip _ n₁).1
    exact h₁.frame.2 ▸ hl
  | @recvRcvp m h => exact h ▸ hl.sublist (recvRcvp_sublist m n)

theorem hookOps_brkList (h : HookOps n e n n') : n'.brkList = n.brkList := by
  induction h with
  | refl => rfl
  | tail _ h ih =>
    refine Eq.trans ?_ ih
    cases h with
    | side h => exact SideOps.brkList (.single h)
    | routing | arrival | miss | enqueue => rfl
    | signal =>
      obtain ⟨tasks, heq, -⟩ := signal_eq _
      exact heq ▸ rfl

theorem step_brkOrdered (hl : BrkOrdered n.brkList) (h : n.step e = some n') :
    BrkOrdered n'.brkList := by
  rcases step_ops h with h | ⟨t, tasks, -, -, h⟩
  · exact hookOps_brkList h ▸ hl
  · exact BrkOrdered.handling (n := { n with tasks := tasks }) hl h

/-- The broken links of a node are at any time sorted by destination, and no
two have the same source and destination. -/
theorem reach_brkOrdered {I : Config → Environment → Prop} {C : Node → Event → Prop} (h : Reach I C n) :
    BrkOrdered n.brkList := by
  refine h.induct (fun cfg env _ ↦ ?_) fun _ _ _ hl _ hs ↦ step_brkOrdered hl hs
  have hnil : (Node.init cfg env).brkList = [] := by
    unfold Node.init
    dsimp only
    split
    · rfl
    · rfl
  exact hnil ▸ brkOrdered_nil

end Steps

end Fbaodv.Proofs.BrkLists
