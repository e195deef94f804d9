import Fbaodv.Proofs.BrkRecords
import Fbaodv.Proofs.ConsumedReports
import Fbaodv.Proofs.OrphanRoutes

namespace Fbaodv.Proofs.RerrRoutes

open Fbaodv.Foundation Fbaodv.Foundation.OrderedList Fbaodv.Model Fbaodv.Model.Node
open Fbaodv.Proofs.RoutingInvariant Fbaodv.Proofs.NodeRun Fbaodv.Proofs.NodeOps
open Fbaodv.Proofs.BrkListFlush Fbaodv.Proofs.BrkLists Fbaodv.Proofs.ConsumedReports
open Fbaodv.Proofs.BrkRecords Fbaodv.Proofs.RouteFrame Fbaodv.Proofs.PacketDiscovery
open Fbaodv.Proofs.NeighLoss Fbaodv.Proofs.OrphanRoutes

/-- The entry is a route of more than one hop through `ip`. -/
def isThrough (ip : Ip) (e : AodvRoute) : Bool := e.nextHop == ip && !e.selfRoute && !e.neighRoute

/-- It is a usable one. -/
def isBroken (ip : Ip) (e : AodvRoute) : Bool := isThrough ip e && e.state != .invalid

/-- Under this pair the break of a route is recorded. -/
def breakPair (e : AodvRoute) : Ip × Ip := (e.srcIp, e.dstIp)

/-- The RERR about an entry, as it goes to the last hop. -/
def rerrOf (n : Node) (e : AodvRoute) : Sent :=
  .unicast e.lastHop netDiameter (.rerr ⟨0, e.dstIp, e.dstId, n.lastAvail, e.srcIp⟩)

/-- The entry after `expire_aodv_route`. -/
def expired (now : ℕ) (e : AodvRoute) : AodvRoute :=
  { e with lifetime := now + deletePeriod, state := .invalid }

/-- The table with the broken routes `INVALID`. -/
def brokenTable (ip : Ip) (n : Node) : List AodvRoute :=
  n.routing.table.map fun e ↦ if isBroken ip e then expired n.now e else e

/-- One RERR for each broken transit route. -/
def brokenRerrs (ip : Ip) (n : Node) : List Sent :=
  (n.routing.table.filter fun e ↦ isBroken ip e && !n.replyToRrer e.srcIp).map (rerrOf n)

/-- What `gen_rerr` should do: the usable routes through `ip` become `INVALID`,
all other entries stay, the last hops of the transit routes among them get one
RERR each, the links of the broken routes are on record from now on, and any other
link is one of before, as it was or as `flush_brk_list` expires it. -/
structure ReportsBroken (ip : Ip) (n n' : Node) : Prop where
  table : n'.routing.table = brokenTable ip n
  rerrs : rerrs n' = rerrs n ++ brokenRerrs ip n
  recorded : ∀ e ∈ n.routing.table, isBroken ip e →
    ∃ x ∈ n'.brkList, brkPair x = breakPair e ∧ x.lifetime = n.now + brkLinkTimeout
  others : ∀ x ∈ n'.brkList, x ∈ n.brkList ∨ (∃ y ∈ n.brkList, x = expireBrkLink n.now y) ∨
    ∃ e ∈ n.routing.table, isBroken ip e ∧ brkPair x = breakPair e

/-- Whether `gen_rerr` records a break for an entry through the hop. -/
def isRecorded (n : Node) (e : AodvRoute) : Bool := n.replyToRrer e.srcIp || e.state != .invalid

/-- `flush_brk_list` does what it should in the list with the first break. -/
def FirstFlush (ip : Ip) (n : Node) (table : List AodvRoute) : Prop :=
  ∀ e ∈ table.find? fun e ↦ isThrough ip e && isRecorded n e,
    AllFollowed n.now (recordedLinks e.srcIp e.dstIp (recordedHop n e) n.lastAvail n)

/-- `flush_brk_list` comes through the list with the first break. -/
def FirstReturns (ip : Ip) (n : Node) (table : List AodvRoute) : Prop :=
  ∀ e ∈ table.find? fun e ↦ isThrough ip e && isRecorded n e,
    ComesThrough n.now (recordedLinks e.srcIp e.dstIp (recordedHop n e) n.lastAvail n)

/-- A route of the node itself that is `INVALID` already breaks together with a
usable one of its pair, or its link was recorded at this very time. -/
def NoStaleBreak (ip : Ip) (n : Node) : Prop :=
  ∀ e ∈ n.routing.table, isThrough ip e → n.replyToRrer e.srcIp → e.state = .invalid →
    (∃ e' ∈ n.routing.table, isBroken ip e' ∧ breakPair e' = breakPair e) ∨
      ∃ x ∈ n.brkList, brkPair x = breakPair e ∧ x.lifetime = n.now + brkLinkTimeout

/-- The last hops of the broken transit routes are known. -/
def LastHopsKnown (ip : Ip) (n : Node) : Prop :=
  ∀ e ∈ n.routing.table, isBroken ip e → n.replyToRrer e.srcIp = false → (n.findAodvNeigh e.lastHop).isSome

variable {n n' : Node} {ip : Ip} {e : AodvRoute} {l : List AodvRoute}

section Links

variable {now : ℕ} {pairs : List (Ip × Ip)} {p : Ip × Ip} {links links₁ links' : List BrkLink}
  {srcIp dstIp lastHop lastAvail : Ip}

/-- The links of these pairs were recorded one after the other, with a flush
after each. -/
structure Records (now : ℕ) (pairs : List (Ip × Ip)) (links links' : List BrkLink) : Prop where
  listed : ∀ p ∈ pairs, ∃ x ∈ links', brkPair x = p ∧ x.lifetime = now + brkLinkTimeout
  others : ∀ x ∈ links', brkPair x ∉ pairs → x ∈ links ∨ ∃ y ∈ links, x = expireBrkLink now y
  kept : ∀ x ∈ links, x.lifetime = now + brkLinkTimeout → x ∈ links'

theorem Records.refl (now : ℕ) (links : List BrkLink) : Records now [] links links :=
  ⟨fun _ hp ↦ absurd hp List.not_mem_nil, fun _ hx _ ↦ .inl hx, fun _ hx _ ↦ hx⟩

theorem Records.cons (h : Records now [p] links links₁) (h' : Records now pairs links₁ links') :
    Records now (p :: pairs) links links' := by
  refine ⟨fun q hq ↦ ?_, fun x hx hpair ↦ ?_, fun x hx hlife ↦ h'.kept x (h.kept x hx hlife) hlife⟩
  · rcases List.mem_cons.mp hq with rfl | hq
    · obtain ⟨x, hx, hpair, hlife⟩ := h.listed q List.mem_cons_self
      exact ⟨x, h'.kept x hx hlife, hpair, hlife⟩
    · exact h'.listed q hq
  · obtain ⟨hp, hpairs⟩ := not_or.mp (List.mem_cons.not.mp hpair)
    rcases h'.others x hx hpairs with hx | ⟨y, hy, rfl⟩
    · exact h.others x hx (List.mem_singleton.not.mpr hp)
    -- what is expired twice is expired once
    · rcases h.others y hy (List.mem_singleton.not.mpr hp) with hy | ⟨z, hz, rfl⟩
      · exact .inr ⟨y, hy, rfl⟩
      · exact .inr ⟨z, hz, rfl⟩

/-- A link that was recorded at this time is not changed by one more record. -/
theorem recordedLinks_kept {x : BrkLink} (hl : BrkOrdered n.brkList) (hx : x ∈ n.brkList)
    (hlife : x.lifetime = n.now + brkLinkTimeout) : x ∈ recordedLinks srcIp dstIp lastHop lastAvail n := by
  by_cases hpair : brkPair x = (srcIp, dstIp)
  · have hfind := hl.find_iff.mpr ⟨hx, hpair⟩
    have hsame : ({ x with lifetime := n.now + brkLinkTimeout } : BrkLink) = x := by rw [← hlife]
    have hrefreshed := find?_modifyFirst (p := isBrkLink srcIp dstIp)
      (f := fun x ↦ { x with lifetime := n.now + brkLinkTimeout }) (fun _ ↦ rfl) n.brkList
    unfold recordedLinks
    rw [hfind]
    rw [← hl.find_eq, hfind, Option.map_some, hsame] at hrefreshed
    exact List.mem_of_find?_eq_some hrefreshed
  · exact (mem_recorded_of_ne hpair).mpr hx

theorem records_of_flush (hl : BrkOrdered n.brkList) (hmem : n.kmalloc.next = true)
    (h : flushBrkLinks n.now (recordedLinks srcIp dstIp lastHop lastAvail n) = some links')
    (hspares : ∀ x ∈ recordedLinks srcIp dstIp lastHop lastAvail n, (brkRule n.now).due x = false → x ∈ links') :
    Records n.now [(srcIp, dstIp)] n.brkList links' := by
  refine ⟨fun p hp ↦ ?_, fun x hx hpair ↦ ?_, fun x hx hlife ↦ ?_⟩
  · obtain rfl := List.mem_singleton.mp hp
    obtain ⟨x, hx, hpair, hlife, -⟩ := exists_recorded lastHop lastAvail hl
      fun _ : ∀ x ∈ n.brkList, brkPair x ≠ (srcIp, dstIp) ↦ hmem
    exact ⟨x, hspares x hx (due_recorded hlife), hpair, hlife⟩
  · have hpair := List.mem_singleton.not.mp hpair
    rcases (flushes_of_some h).mem hx with hx | ⟨y, hy, rfl⟩
    · exact .inl ((mem_recorded_of_ne hpair).mp hx)
    · have hpair : brkPair y ≠ (srcIp, dstIp) := hpair
      exact .inr ⟨y, (mem_recorded_of_ne hpair).mp hy, rfl⟩
  · exact hspares x (recordedLinks_kept hl hx hlife) (due_recorded hlife)

theorem flush_of_fresh (h : ∀ x ∈ links, (brkRule now).due x = false) : flushBrkLinks now links = some links := by
  induction links with
  | nil => rfl
  | cons x links ih =>
    obtain ⟨hx, hl⟩ := List.forall_mem_cons.mp h
    rw [flush_fresh hx, ih hl]
    rfl

theorem allFollowed_of_fresh (h : ∀ x ∈ links, (brkRule now).due x = false) : AllFollowed now links := by
  induction links with
  | nil => trivial
  | cons x links ih =>
    obtain ⟨hx, hl⟩ := List.forall_mem_cons.mp h
    refine ⟨fun hdue ↦ ?_, ih hl⟩
    rw [hx] at hdue
    cases hdue

theorem recordedLinks_fresh (srcIp dstIp lastHop lastAvail : Ip)
    (hfresh : ∀ x ∈ n.brkList, (brkRule n.now).due x = false) :
    ∀ x ∈ recordedLinks srcIp dstIp lastHop lastAvail n, (brkRule n.now).due x = false := by
  intro x hx
  unfold recordedLinks at hx
  split at hx
  · rcases mem_modifyFirst hx with hx | ⟨y, -, -, rfl⟩
    · exact hfresh x hx
    · exact due_recorded rfl
  split at hx
  · rcases List.mem_cons.mp ((insertBy_perm _ _ _).mem_iff.mp hx) with rfl | hx
    · exact due_recorded rfl
    · exact hfresh x hx
  · exact hfresh x hx

/-- With no link due the bookkeeping of a break comes to its end. -/
theorem recordBrkLink_fresh (srcIp dstIp lastHop lastAvail : Ip)
    (hfresh : ∀ x ∈ n.brkList, (brkRule n.now).due x = false) :
    ∃ n', n.recordBrkLink srcIp dstIp lastHop lastAvail = some n' ∧
      ∀ x ∈ n'.brkList, (brkRule n'.now).due x = false := by
  have hrecorded := recordedLinks_fresh srcIp dstIp lastHop lastAvail hfresh
  rw [recordBrkLink_eq, flush_of_fresh hrecorded]
  exact ⟨_, rfl, hrecorded⟩

/-- With memory at hand the record does not depend on how much there is. -/
theorem recordedLinks_congr (hn : n.kmalloc.next = true) (hn' : n'.kmalloc.next = true)
    (hbrk : n'.brkList = n.brkList) (hnow : n'.now = n.now) :
    recordedLinks srcIp dstIp lastHop lastAvail n' = recordedLinks srcIp dstIp lastHop lastAvail n := by
  unfold recordedLinks findBrkLink
  rw [hbrk, hnow, if_pos hn, if_pos hn']

end Links

section Loop

/-- What `gen_rerr` sends for an entry through the hop. -/
def rerrPosts (n : Node) (e : AodvRoute) : List Sent :=
  if isRecorded n e then
    notified dtnPort e.srcIp e.dstIp n.lastAvail rerrMessage n ++
      if n.replyToRrer e.srcIp then []
      else posted e.lastHop (.rerr ⟨0, e.dstIp, e.dstId, n.lastAvail, e.srcIp⟩) n
  else []

/-- `n'` is `n` as far as `gen_rerr` asks. -/
structure SameHost (n n' : Node) : Prop where
  cfg : n'.cfg = n.cfg
  now : n'.now = n.now
  dtnRegister : n'.dtnRegister = n.dtnRegister
  neighs : n'.aodvNeighList = n.aodvNeighList

theorem SameHost.refl (n : Node) : SameHost n n := ⟨rfl, rfl, rfl, rfl⟩

theorem SameHost.trans {n'' : Node} (h : SameHost n n') (h' : SameHost n' n'') : SameHost n n'' :=
  ⟨h'.cfg.trans h.cfg, h'.now.trans h.now, h'.dtnRegister.trans h.dtnRegister, h'.neighs.trans h.neighs⟩

theorem SameHost.isRecorded (h : SameHost n n') (e : AodvRoute) : isRecorded n' e = isRecorded n e := by
  rw [RerrRoutes.isRecorded, RerrRoutes.isRecorded, replyToRrer, replyToRrer, h.cfg]

theorem SameHost.rerrPosts (h : SameHost n n') (e : AodvRoute) : rerrPosts n' e = rerrPosts n e := by
  have hfind : n'.findAodvNeigh e.lastHop = n.findAodvNeigh e.lastHop := by
    rw [findAodvNeigh, findAodvNeigh, h.neighs]
  unfold RerrRoutes.rerrPosts notified posted lastAvail
  rw [h.isRecorded, h.dtnRegister, hfind, replyToRrer, replyToRrer, h.cfg]

/-- Nothing is done for an entry of another source that is `INVALID`. -/
theorem genRerrRoute_silent (hrec : isRecorded n e = false) : n.genRerrRoute e = some (true, n) := by
  obtain ⟨hreply, hstate⟩ : n.replyToRrer e.srcIp = false ∧ e.state = .invalid := by simpa [isRecorded] using hrec
  rw [genRerrRoute, if_pos (by simp [hreply]), if_neg (not_not.mpr hstate)]

theorem recordedMemory_ready (hn : MemoryReady n) (srcIp dstIp : Ip) :
    ∀ b ∈ recordedMemory srcIp dstIp n, b = true := by
  unfold recordedMemory
  split
  · exact hn
  · exact hn.alloc.2

/-- For any other entry through the hop the messages go out and the break is recorded. -/
theorem genRerrRoute_eq (hn : MemoryReady n) (hrec : isRecorded n e = true) :
    ∃ o : Outcomes, (∀ b ∈ o, b = true) ∧ n.genRerrRoute e =
      (recordBrkLink e.srcIp e.dstIp (recordedHop n e) n.lastAvail
        { n with sent := n.sent ++ rerrPosts n e, kmalloc := o }).map (true, ·) := by
  unfold recordedHop rerrPosts
  rw [if_pos hrec]
  cases hreply : n.replyToRrer e.srcIp with
  | false =>
    have hstate : e.state ≠ .invalid := by simpa [isRecorded, hreply] using hrec
    refine ⟨n.kmalloc.rest, hn.alloc.2, ?_⟩
    rw [genRerrRoute_transit hreply hstate hn.alloc.1, rerrSent, List.append_assoc]
    rfl
  | true =>
    refine ⟨n.kmalloc, hn, ?_⟩
    rw [genRerrRoute, if_neg (by simp [hreply])]
    simp only [if_true, notify_eq, List.append_nil, Option.map_eq_bind]
    rfl

/-- With memory at hand the record depends on the list and the time only. -/
theorem recordBrkLink_ready {n₀ : Node} (srcIp dstIp lastHop lastAvail : Ip) (hn : MemoryReady n)
    (hn₀ : MemoryReady n₀) (hbrk : n₀.brkList = n.brkList) (hnow : n₀.now = n.now) :
    ∃ o : Outcomes, (∀ b ∈ o, b = true) ∧ n₀.recordBrkLink srcIp dstIp lastHop lastAvail =
      (flushBrkLinks n.now (recordedLinks srcIp dstIp lastHop lastAvail n)).map fun l ↦
        { n₀ with brkList := l, kmalloc := o } := by
  refine ⟨_, recordedMemory_ready hn₀ srcIp dstIp, ?_⟩
  rw [recordBrkLink_eq, hnow, recordedLinks_congr hn.alloc.1 hn₀.alloc.1 hbrk hnow]

/-- The list is flushed, with the link of the pair in it. -/
theorem genRerrRoute_flush (hn : MemoryReady n) (hrec : isRecorded n e = true) :
    ∃ o : Outcomes, (∀ b ∈ o, b = true) ∧ n.genRerrRoute e =
      (flushBrkLinks n.now (recordedLinks e.srcIp e.dstIp (recordedHop n e) n.lastAvail n)).map fun l ↦
        (true, { n with brkList := l, sent := n.sent ++ rerrPosts n e, kmalloc := o }) := by
  obtain ⟨o, ho, heq⟩ := genRerrRoute_eq hn hrec
  have hready : MemoryReady { n with sent := n.sent ++ rerrPosts n e, kmalloc := o } := ho
  obtain ⟨o', ho', hrecord⟩ := recordBrkLink_ready e.srcIp e.dstIp (recordedHop n e) n.lastAvail hn hready rfl rfl
  refine ⟨o', ho', ?_⟩
  rw [heq, hrecord, Option.map_map]
  rfl

theorem genRerrRoute_spec {go : Bool} (hn : MemoryReady n) (h : n.genRerrRoute e = some (go, n')) :
    go = true ∧ SameHost n n' ∧ MemoryReady n' ∧ n'.routing = n.routing ∧ n'.sent = n.sent ++ rerrPosts n e := by
  cases hrec : isRecorded n e with
  | false =>
    rw [genRerrRoute_silent hrec, Option.some.injEq, Prod.mk.injEq] at h
    obtain ⟨rfl, rfl⟩ := h
    refine ⟨rfl, .refl n, hn, rfl, ?_⟩
    rw [rerrPosts, if_neg (by simp [hrec]), List.append_nil]
  | true =>
    obtain ⟨o, ho, heq⟩ := genRerrRoute_flush hn hrec
    rw [heq, Option.map_eq_some_iff] at h
    obtain ⟨links, -, h⟩ := h
    rw [Prod.mk.injEq] at h
    obtain ⟨rfl, rfl⟩ := h
    exact ⟨rfl, ⟨rfl, rfl, rfl, rfl⟩, ho, rfl, rfl⟩

/-- The entries whose addresses are among these, expired. -/
def expireAll (now : ℕ) (ptrs : List ℕ) (l : List AodvRoute) : List AodvRoute :=
  l.map fun e ↦ if e.ptr ∈ ptrs then expired now e else e

theorem expireAll_nil (now : ℕ) (l : List AodvRoute) : expireAll now [] l = l := by
  simp [expireAll]

theorem expireAll_cons (now ptr : ℕ) (ptrs : List ℕ) (l : List AodvRoute) :
    expireAll now ptrs (expireAll now [ptr] l) = expireAll now (ptr :: ptrs) l := by
  simp only [expireAll, List.map_map]
  refine List.map_congr_left fun e _ ↦ ?_
  simp only [Function.comp_apply, List.mem_cons, List.not_mem_nil, or_false]
  by_cases hptr : e.ptr = ptr
  · simp only [hptr, if_true, true_or]
    split
    · rfl
    · rfl
  · rw [if_neg hptr]
    simp only [hptr, false_or]

theorem expireRoute_expireAll (ptr : ℕ) (n : Node) :
    (n.expireRoute ptr).routing.table = expireAll n.now [ptr] n.routing.table := by
  simp only [expireRoute, Routing.expireAodvRoute, Routing.modifyAt, expireAll, List.mem_singleton]
  rfl

/-- The node after the turn for an entry through the hop. -/
def afterTurn (e : AodvRoute) (n : Node) : Node := if e.state = .invalid then n else n.expireRoute e.ptr

theorem afterTurn_frame (e : AodvRoute) (n : Node) : SameHost n (afterTurn e n) ∧
    (afterTurn e n).brkList = n.brkList ∧ (afterTurn e n).sent = n.sent ∧ (afterTurn e n).kmalloc = n.kmalloc := by
  unfold afterTurn
  split
  · exact ⟨.refl n, rfl, rfl, rfl⟩
  · exact ⟨⟨rfl, rfl, rfl, rfl⟩, rfl, rfl, rfl⟩

theorem afterTurn_table (e : AodvRoute) (n : Node) : (afterTurn e n).routing.table =
    expireAll n.now (if e.state = .invalid then [] else [e.ptr]) n.routing.table := by
  unfold afterTurn
  split
  · exact (expireAll_nil _ _).symm
  · exact expireRoute_expireAll e.ptr n

theorem genRerrLoop_skip {k : ℕ} (h : isThrough ip e = false) :
    genRerrLoop ip (e :: l) k n = genRerrLoop ip l k n := by
  rw [genRerrLoop, if_neg (by simpa [isThrough, and_assoc] using h)]

theorem genRerrLoop_turn {k : ℕ} {n₁ : Node} (h : isThrough ip e = true)
    (hroute : n.genRerrRoute e = some (true, n₁)) :
    ∃ k₁, genRerrLoop ip (e :: l) k n = genRerrLoop ip l k₁ (afterTurn e n₁) := by
  rw [genRerrLoop, if_pos (by simpa [isThrough, and_assoc] using h), hroute, afterTurn]
  by_cases hstate : e.state = .invalid
  · exact ⟨k, by simp [hstate]⟩
  · exact ⟨k + 1, by simp [hstate]⟩

theorem genRerrLoop_spec {k : ℕ} {k' : Option ℕ} (hn : MemoryReady n)
    (h : genRerrLoop ip l k n = some (k', n')) :
    n'.sent = n.sent ++ (l.filter (isThrough ip)).flatMap (rerrPosts n) ∧
      n'.routing.table = expireAll n.now ((l.filter (isBroken ip)).map AodvRoute.ptr) n.routing.table := by
  induction l generalizing k n with
  | nil =>
    simp only [genRerrLoop, Option.some.injEq, Prod.mk.injEq] at h
    obtain ⟨rfl, rfl⟩ := h
    exact ⟨by simp, (expireAll_nil _ _).symm⟩
  | cons e l ih =>
    cases hthrough : isThrough ip e with
    | false =>
      rw [genRerrLoop_skip hthrough] at h
      rw [List.filter_cons_of_neg (by simp [hthrough]), List.filter_cons_of_neg (by simp [isBroken, hthrough])]
      exact ih hn h
    | true =>
      obtain ⟨⟨go, n₁⟩, hroute⟩ : ∃ r, n.genRerrRoute e = some r := by
        rw [genRerrLoop, if_pos (by simpa [isThrough, and_assoc] using hthrough)] at h
        exact (Option.bind_eq_some_iff.mp h).imp fun _ h ↦ h.1
      obtain ⟨rfl, hsame, hn₁, hrouting, hsent⟩ := genRerrRoute_spec hn hroute
      obtain ⟨k₁, hturn⟩ := genRerrLoop_turn (l := l) (k := k) hthrough hroute
      obtain ⟨hsame₂, -, hsent₂, hmem₂⟩ := afterTurn_frame e n₁
      have hready : MemoryReady (afterTurn e n₁) := by
        unfold MemoryReady
        rwa [hmem₂]
      have hhost := hsame.trans hsame₂
      obtain ⟨hsent', htable'⟩ := ih hready (hturn ▸ h)
      refine ⟨?_, ?_⟩
      · rw [hsent', hsent₂, hsent, List.filter_cons_of_pos hthrough, List.flatMap_cons, List.append_assoc,
          funext hhost.rerrPosts]
      · rw [htable', afterTurn_table, hrouting, hhost.now, hsame.now]
        by_cases hstate : e.state = .invalid
        · rw [if_pos hstate, expireAll_nil, List.filter_cons_of_neg (by simp [isBroken, hstate])]
        · rw [if_neg hstate, expireAll_cons, List.filter_cons_of_pos (by simp [isBroken, hstate, hthrough]),
            List.map_cons]

theorem firstFlush_of_fresh (ip : Ip) (l : List AodvRoute)
    (hfresh : ∀ x ∈ n.brkList, (brkRule n.now).due x = false) : FirstFlush ip n l :=
  fun _ _ ↦ allFollowed_of_fresh (recordedLinks_fresh _ _ _ _ hfresh)

/-- A flush that does what it should leaves the new link and nothing that is due. -/
theorem genRerrLoop_record {k : ℕ} (hn : MemoryReady n) (hl : BrkOrdered n.brkList)
    (hthrough : isThrough ip e = true) (hrec : isRecorded n e = true)
    (hfollowed : AllFollowed n.now (recordedLinks e.srcIp e.dstIp (recordedHop n e) n.lastAvail n)) :
    ∃ k₁ n₁, genRerrLoop ip (e :: l) k n = genRerrLoop ip l k₁ n₁ ∧ SameHost n n₁ ∧ MemoryReady n₁ ∧
      BrkOrdered n₁.brkList ∧ (∀ x ∈ n₁.brkList, (brkRule n₁.now).due x = false) ∧
      Records n.now [breakPair e] n.brkList n₁.brkList := by
  have hflush := flush_of_followed hfollowed
  obtain ⟨o, ho, hroute⟩ := genRerrRoute_flush hn hrec
  rw [hflush, Option.map_some] at hroute
  obtain ⟨k₁, hturn⟩ := genRerrLoop_turn (l := l) (k := k) hthrough hroute
  refine ⟨k₁, _, hturn, ?_⟩
  obtain ⟨hsame, hbrk, -, hmem⟩ := afterTurn_frame e { n with
    brkList := (brkRule n.now).sweep (recordedLinks e.srcIp e.dstIp (recordedHop n e) n.lastAvail n)
    sent := n.sent ++ rerrPosts n e
    kmalloc := o }
  generalize afterTurn e _ = n₁ at hsame hbrk hmem ⊢
  dsimp only at hbrk hmem
  refine ⟨⟨hsame.cfg, hsame.now, hsame.dtnRegister, hsame.neighs⟩, ?_, ?_, ?_, ?_⟩
  · unfold MemoryReady
    rwa [hmem]
  · rw [hbrk]
    exact hl.recorded.of_pairs (flushes_of_some hflush).pairs
  · rw [hbrk, hsame.now]
    exact fun x hx ↦ TwoPhase.Rule.not_due_of_sweep due_expireBrkLink hx
  · rw [hbrk]
    refine records_of_flush hl hn.alloc.1 hflush fun x hx hdue ↦ ?_
    exact List.mem_filterMap.mpr ⟨x, hx, TwoPhase.Rule.turn_fresh hdue⟩

/-- After the first flush none of the others changes anything. -/
theorem genRerrLoop_records {k : ℕ} (hn : MemoryReady n) (hl : BrkOrdered n.brkList) (hfirst : FirstFlush ip n l) :
    ∃ k' n', genRerrLoop ip l k n = some (some k', n') ∧ BrkOrdered n'.brkList ∧
      Records n.now ((l.filter fun e ↦ isThrough ip e && isRecorded n e).map breakPair) n.brkList n'.brkList := by
  induction l generalizing k n with
  | nil => exact ⟨k, n, rfl, hl, .refl _ _⟩
  | cons e l ih =>
    have hskip : (isThrough ip e && isRecorded n e) = false → FirstFlush ip n l ∧
        (e :: l).filter (fun e ↦ isThrough ip e && isRecorded n e) =
          l.filter fun e ↦ isThrough ip e && isRecorded n e := by
      intro hnot
      rw [FirstFlush, List.find?_cons_of_neg (by simp [hnot])] at hfirst
      exact ⟨hfirst, List.filter_cons_of_neg (by simp [hnot])⟩
    cases hthrough : isThrough ip e with
    | false =>
      obtain ⟨hrest, hfilter⟩ := hskip (by simp [hthrough])
      rw [genRerrLoop_skip hthrough, hfilter]
      exact ih hn hl hrest
    | true =>
      cases hrec : isRecorded n e with
      | false =>
        obtain ⟨hrest, hfilter⟩ := hskip (by simp [hrec])
        obtain ⟨k₁, hturn⟩ := genRerrLoop_turn (l := l) (k := k) hthrough (genRerrRoute_silent hrec)
        have hstate : e.state = .invalid := by simpa [isRecorded] using (Bool.or_eq_false_iff.mp hrec).2
        rw [hturn, afterTurn, if_pos hstate, hfilter]
        exact ih hn hl hrest
      | true =>
        have hfollowed := hfirst e (by rw [List.find?_cons_of_pos (by simp [hthrough, hrec])]; rfl)
        obtain ⟨k₁, n₁, hturn, hhost, hready, hordered, hfresh, hrecord⟩ :=
          genRerrLoop_record (l := l) (k := k) hn hl hthrough hrec hfollowed
        obtain ⟨k', n', hloop, hordered', hrecords⟩ := ih (k := k₁) hready hordered (firstFlush_of_fresh ip l hfresh)
        refine ⟨k', n', hturn.trans hloop, hordered', ?_⟩
        rw [funext fun e ↦ congrArg (isThrough ip e && ·) (hhost.isRecorded e), hhost.now] at hrecords
        rw [List.filter_cons_of_pos (by simp [hthrough, hrec]), List.map_cons]
        exact hrecord.cons hrecords

/-- No entry before the first record touches the list. -/
theorem firstReturns_of_loop {k : ℕ} {r : Option ℕ × Node} (hn : MemoryReady n)
    (h : genRerrLoop ip l k n = some r) : FirstReturns ip n l := by
  induction l generalizing k with
  | nil => exact fun _ he ↦ (by cases he)
  | cons e l ih =>
    have hskip : (isThrough ip e && isRecorded n e) = false → FirstReturns ip n l → FirstReturns ip n (e :: l) := by
      intro hnot hl
      rwa [FirstReturns, List.find?_cons_of_neg (by simp [hnot])]
    cases hthrough : isThrough ip e with
    | false =>
      rw [genRerrLoop_skip hthrough] at h
      exact hskip (by simp [hthrough]) (ih h)
    | true =>
      cases hrec : isRecorded n e with
      | false =>
        obtain ⟨k₁, hturn⟩ := genRerrLoop_turn (l := l) (k := k) hthrough (genRerrRoute_silent hrec)
        have hstate : e.state = .invalid := by simpa [isRecorded] using (Bool.or_eq_false_iff.mp hrec).2
        rw [hturn, afterTurn, if_pos hstate] at h
        exact hskip (by simp [hrec]) (ih h)
      | true =>
        intro e' he'
        rw [List.find?_cons_of_pos (by simp [hthrough, hrec])] at he'
        obtain rfl := Option.some.inj he'
        obtain ⟨o, -, hroute⟩ := genRerrRoute_flush hn hrec
        rw [genRerrLoop, if_pos (by simpa [isThrough, and_assoc] using hthrough), hroute] at h
        obtain ⟨r₁, hflush, -⟩ := Option.bind_eq_some_iff.mp h
        obtain ⟨links, hflush, -⟩ := Option.map_eq_some_iff.mp hflush
        exact comesThrough_iff.mp ⟨links, hflush⟩

end Loop

section Exactness

theorem rerrs_rerrPosts (n : Node) (e : AodvRoute) : (rerrPosts n e).filter isRerr =
    if e.state ≠ .invalid ∧ n.replyToRrer e.srcIp = false ∧ (n.findAodvNeigh e.lastHop).isSome then
      [rerrOf n e]
    else [] := by
  have hdtn : (notified dtnPort e.srcIp e.dstIp n.lastAvail rerrMessage n).filter isRerr = [] := by
    unfold notified
    split
    · rfl
    · rfl
  unfold rerrPosts
  cases hreply : n.replyToRrer e.srcIp with
  | true =>
    rw [if_neg (c := _ ∧ _) (by simp), if_pos (by simp [isRecorded, hreply]), if_pos rfl, List.append_nil, hdtn]
  | false =>
    by_cases hstate : e.state = .invalid
    · rw [if_neg (c := _ ∧ _) (by simp [hstate]), if_neg (by simp [isRecorded, hreply, hstate])]
      rfl
    · rw [if_pos (by simp [isRecorded, hstate]), List.filter_append, hdtn, List.nil_append, if_neg (by simp)]
      unfold posted
      cases hfind : n.findAodvNeigh e.lastHop with
      | none => simp
      | some x =>
        rw [if_pos (c := _ ∧ _) ⟨hstate, rfl, rfl⟩]
        rfl

theorem flatMap_ite_singleton {α β : Type} (p : α → Prop) [DecidablePred p] (f : α → β) (l : List α) :
    (l.flatMap fun a ↦ if p a then [f a] else []) = (l.filter fun a ↦ p a).map f := by
  induction l with
  | nil => rfl
  | cons a l ih =>
    rw [List.flatMap_cons, ih]
    by_cases ha : p a
    · rw [if_pos ha, List.filter_cons_of_pos (by simpa using ha)]
      rfl
    · rw [if_neg ha, List.filter_cons_of_neg (by simpa using ha)]
      rfl

theorem genRerr_of_loop {k' : Option ℕ} (h : genRerrLoop ip n.routing.table 0 n = some (k', n')) :
    ∃ n'', n.genRerr ip = some n'' ∧ n''.sent = n'.sent ∧ n''.routing.table = n'.routing.table ∧
      n''.brkList = n'.brkList := by
  rw [genRerr, h]
  dsimp only [Option.bind_eq_bind, Option.bind_some]
  split
  · exact ⟨_, rfl, rfl, rfl, rfl⟩
  split
  · exact ⟨_, rfl, rfl, updateMyLoad_table _, rfl⟩
  · exact ⟨_, rfl, rfl, rfl, rfl⟩

/-- For every return: the broken routes expire and no others, and one RERR goes
out for each broken transit route whose last hop is known. -/
theorem genRerr_broken (hn : MemoryReady n) (hptrs : (n.routing.table.map AodvRoute.ptr).Nodup)
    (h : n.genRerr ip = some n') : n'.routing.table = brokenTable ip n ∧
      (rerrs n' = rerrs n ++ brokenRerrs ip n ↔ LastHopsKnown ip n) := by
  obtain ⟨⟨k', n₁⟩, hloop, -⟩ := Option.bind_eq_some_iff.mp h
  obtain ⟨hsent, htable⟩ := genRerrLoop_spec hn hloop
  obtain ⟨n'', h'', hsent'', htable'', -⟩ := genRerr_of_loop hloop
  obtain rfl : n' = n'' := Option.some.inj (h.symm.trans h'')
  constructor
  · rw [htable'', htable]
    refine List.map_congr_left fun e he ↦ ?_
    have hmem : e.ptr ∈ (n.routing.table.filter (isBroken ip)).map AodvRoute.ptr ↔ isBroken ip e = true := by
      constructor
      · intro hptr
        obtain ⟨e', he', hptr⟩ := List.mem_map.mp hptr
        obtain ⟨hmem', hsel⟩ := List.mem_filter.mp he'
        rwa [← List.inj_on_of_nodup_map hptrs hmem' he hptr]
      · exact fun hsel ↦ List.mem_map_of_mem (List.mem_filter.mpr ⟨he, hsel⟩)
    simp only [hmem]
  · have hrerrs : rerrs n' = rerrs n ++ ((n.routing.table.filter fun e ↦
        isBroken ip e && !n.replyToRrer e.srcIp).filter fun e ↦ (n.findAodvNeigh e.lastHop).isSome).map (rerrOf n) := by
      rw [ConsumedReports.rerrs, hsent'', hsent, List.filter_append, List.filter_flatMap]
      refine congrArg _ ?_
      rw [funext (rerrs_rerrPosts n), flatMap_ite_singleton, List.filter_filter, List.filter_filter]
      refine congrArg _ (List.filter_congr fun e _ ↦ ?_)
      rw [Bool.eq_iff_iff]
      simp [isBroken]
      tauto
    rw [hrerrs, brokenRerrs]
    constructor
    · intro hall
      have hlen := congrArg List.length (List.append_cancel_left hall)
      rw [List.length_map, List.length_map, List.length_filter_eq_length_iff] at hlen
      exact fun e he hbroken hreply ↦ hlen e (List.mem_filter.mpr ⟨he, by simp [hbroken, hreply]⟩)
    · intro hknown
      rw [List.filter_eq_self.mpr fun e he ↦ ?_]
      obtain ⟨hmem, hsel⟩ := List.mem_filter.mp he
      simp only [Bool.and_eq_true, Bool.not_eq_true'] at hsel
      exact hknown e hmem hsel.1 hsel.2

theorem mem_recorded {p : Ip × Ip} : p ∈ (n.routing.table.filter fun e ↦ isThrough ip e && isRecorded n e).map breakPair ↔
    ∃ e ∈ n.routing.table, isThrough ip e ∧ (n.replyToRrer e.srcIp ∨ e.state ≠ .invalid) ∧ breakPair e = p := by
  simp only [List.mem_map, List.mem_filter, isRecorded, Bool.and_eq_true, Bool.or_eq_true, bne_iff_ne, and_assoc]

/-- Once the links of all recorded entries are on record, nothing else is exactly
if there is no stale break. -/
theorem noStaleBreak_iff (hl : BrkOrdered n'.brkList) (h : Records n.now ((n.routing.table.filter fun e ↦
    isThrough ip e && isRecorded n e).map breakPair) n.brkList n'.brkList) :
    (∀ x ∈ n'.brkList, x ∈ n.brkList ∨ (∃ y ∈ n.brkList, x = expireBrkLink n.now y) ∨
      ∃ e ∈ n.routing.table, isBroken ip e ∧ brkPair x = breakPair e) ↔ NoStaleBreak ip n := by
  constructor
  · intro hothers e he hthrough hreply hstate
    obtain ⟨x, hx, hpair, hlife⟩ := h.listed _ (mem_recorded.mpr ⟨e, he, hthrough, .inl hreply, rfl⟩)
    rcases hothers x hx with hold | ⟨y, -, rfl⟩ | ⟨e', he', hbroken, hpair'⟩
    · exact .inr ⟨x, hold, hpair, hlife⟩
    · have hperiods : n.now + deletePeriod = n.now + brkLinkTimeout := hlife
      exact absurd (Nat.add_left_cancel hperiods) (by decide)
    · exact .inl ⟨e', he', hbroken, hpair'.symm.trans hpair⟩
  · intro hstale x hx
    by_cases hpair : brkPair x ∈ (n.routing.table.filter fun e ↦ isThrough ip e && isRecorded n e).map breakPair
    · obtain ⟨e, he, hthrough, hrec, hpair⟩ := mem_recorded.mp hpair
      by_cases hstate : e.state = .invalid
      · rcases hstale e he hthrough (hrec.resolve_right (not_not.mpr hstate)) hstate with
          ⟨e', he', hbroken, hpair'⟩ | ⟨y, hy, hpair', hlife⟩
        · exact .inr (.inr ⟨e', he', hbroken, hpair.symm.trans hpair'.symm⟩)
        -- the link was there and has not been changed
        · obtain rfl := hl.eq_of_pair hx (h.kept y hy hlife) (hpair.symm.trans hpair'.symm)
          exact .inl hy
      · exact .inr (.inr ⟨e, he, by simp [isBroken, hthrough, hstate], hpair.symm⟩)
    · exact (h.others x hx hpair).imp id .inl

/-- For every table whose entries stand at different addresses: in every return
the usable routes through `ip` expire and no others, the RERRs are right exactly
when the last hops are known, and `flush_brk_list` came through after the first
record. Where it did there what it should, `gen_rerr` returns, and it does all that
it should exactly when, besides, it comes to no stale break. -/
theorem gen_rerr_exact_iff (hn : MemoryReady n) (hptrs : (n.routing.table.map AodvRoute.ptr).Nodup)
    (hl : BrkOrdered n.brkList) (ip : Ip) :
    (∀ n', n.genRerr ip = some n' → n'.routing.table = brokenTable ip n ∧
      (rerrs n' = rerrs n ++ brokenRerrs ip n ↔ LastHopsKnown ip n) ∧ FirstReturns ip n n.routing.table) ∧
    (FirstFlush ip n n.routing.table → ∃ n', n.genRerr ip = some n' ∧
      (ReportsBroken ip n n' ↔ NoStaleBreak ip n ∧ LastHopsKnown ip n)) := by
  refine ⟨fun n' h ↦ ?_, fun hfirst ↦ ?_⟩
  · obtain ⟨htable, hrerrs⟩ := genRerr_broken hn hptrs h
    obtain ⟨r, hloop, -⟩ := Option.bind_eq_some_iff.mp h
    exact ⟨htable, hrerrs, firstReturns_of_loop hn hloop⟩
  obtain ⟨k', n₁, hloop, hordered, hrecords⟩ := genRerrLoop_records (k := 0) hn hl hfirst
  obtain ⟨n', h, -, -, hbrk⟩ := genRerr_of_loop hloop
  rw [← hbrk] at hordered hrecords
  obtain ⟨htable, hrerrs⟩ := genRerr_broken hn hptrs h
  refine ⟨n', h, fun hall ↦ ⟨(noStaleBreak_iff hordered hrecords).mp hall.others, hrerrs.mp hall.rerrs⟩, ?_⟩
  rintro ⟨hstale, hknown⟩
  refine ⟨htable, hrerrs.mpr hknown, fun e he hbroken ↦ ?_, (noStaleBreak_iff hordered hrecords).mpr hstale⟩
  obtain ⟨hthrough, hstate⟩ : isThrough ip e = true ∧ e.state ≠ .invalid := by simpa [isBroken] using hbroken
  exact hrecords.listed _ (mem_recorded.mpr ⟨e, he, hthrough, .inr hstate, rfl⟩)

/-- A route of a flow to 192.168.1.9 or beyond. -/
def flowEntry (ptr : ℕ) (srcIp dstIp : Ip) (tos : UInt8) (nextHop lastHop : Ip) (state : RouteState) : AodvRoute :=
  { freshEntry ptr srcIp dstIp tos 5 80000 with
    nextHop := nextHop
    lastHop := lastHop
    state := state }

/-- A link for the break of a route from 192.168.1.8. -/
def flowLink (dstIp : Ip) (state : RouteState) (lifetime : ℕ) : BrkLink where
  dstIp := dstIp
  srcIp := 0x0801a8c0
  lastHop := 0x0701a8c0
  state := state
  lastAvailIp := 0
  lifetime := lifetime

/-- Routes of the node itself and of 192.168.1.8 go through 192.168.1.2, one of
them broken before, and one through 192.168.1.3. Of the recorded links two are due. -/
def busyRelay : Node :=
  { station with
    now := 70000
    routing := { station.routing with
      table := station.routing.table ++ [flowEntry 1 0x0101a8c0 0x0901a8c0 0 0x0201a8c0 0 .active,
        flowEntry 2 0x0101a8c0 0x0901a8c0 2 0x0201a8c0 0 .invalid,
        flowEntry 3 0x0801a8c0 0x0901a8c0 0 0x0201a8c0 0x0701a8c0 .active,
        flowEntry 4 0x0801a8c0 0x0a01a8c0 0 0x0301a8c0 0x0701a8c0 .active]
      heap := 5 }
    aodvNeighList := [newAodvNeigh station.cfg 0x0201a8c0, newAodvNeigh station.cfg 0x0301a8c0,
      newAodvNeigh station.cfg 0x0701a8c0]
    brkList := [flowLink 0x0401a8c0 .active 69000, flowLink 0x0501a8c0 .invalid 69500,
      flowLink 0x0601a8c0 .active 99000, flowLink 0x0901a8c0 .active 100000] }

theorem busyRelay_firstFlush : FirstFlush 0x0201a8c0 busyRelay busyRelay.routing.table := by
  have hfind : (busyRelay.routing.table.find? fun e ↦ isThrough 0x0201a8c0 e && isRecorded busyRelay e) =
      some (flowEntry 1 0x0101a8c0 0x0901a8c0 0 0x0201a8c0 0 .active) := by
    decide +kernel
  have hlinks : recordedLinks 0x0101a8c0 0x0901a8c0 0 0 busyRelay =
      [flowLink 0x0401a8c0 .active 69000, flowLink 0x0501a8c0 .invalid 69500, flowLink 0x0601a8c0 .active 99000,
        newBrkLink 0x0101a8c0 0x0901a8c0 0 0 70000, flowLink 0x0901a8c0 .active 100000] := by
    decide +kernel
  intro e he
  rw [hfind] at he
  obtain rfl := Option.some.inj he
  have hfollowed : AllFollowed 70000 (recordedLinks 0x0101a8c0 0x0901a8c0 0 0 busyRelay) := by
    rw [hlinks]
    refine ⟨fun _ ↦ ⟨_, rfl, by decide⟩, fun _ ↦ ⟨_, rfl, by decide⟩, allFollowed_of_fresh ?_⟩
    decide
  exact hfollowed

theorem gen_rerr_exact_iff_relay : ∃ n', busyRelay.genRerr 0x0201a8c0 = some n' ∧
    ReportsBroken 0x0201a8c0 busyRelay n' ∧
    n'.brkList = [expireBrkLink 70000 (flowLink 0x0401a8c0 .active 69000), flowLink 0x0601a8c0 .active 99000,
      newBrkLink 0x0101a8c0 0x0901a8c0 0 0 70000, flowLink 0x0901a8c0 .active (70000 + brkLinkTimeout)] := by
  have hready : MemoryReady busyRelay := fun b hb ↦ absurd hb List.not_mem_nil
  have hordered : BrkOrdered busyRelay.brkList := by
    have hkeys : (busyRelay.brkList.map brkKey).Pairwise (· ≤ ·) := by decide
    exact ⟨List.pairwise_map.mp hkeys, by decide⟩
  obtain ⟨-, hexact⟩ := gen_rerr_exact_iff hready (by decide +kernel) hordered 0x0201a8c0
  obtain ⟨n', h, hiff⟩ := hexact busyRelay_firstFlush
  have hlinks : (busyRelay.genRerr 0x0201a8c0).map Node.brkList =
      some [expireBrkLink 70000 (flowLink 0x0401a8c0 .active 69000), flowLink 0x0601a8c0 .active 99000,
        newBrkLink 0x0101a8c0 0x0901a8c0 0 0 70000, flowLink 0x0901a8c0 .active (70000 + brkLinkTimeout)] := by
    decide +kernel
  rw [h] at hlinks
  refine ⟨n', h, hiff.mpr ⟨?_, ?_⟩, Option.some.inj hlinks⟩
  · unfold NoStaleBreak
    decide +kernel
  · unfold LastHopsKnown
    decide +kernel

/-- The flow of the station to 192.168.1.9 breaks after it was answered. -/
def loseAnswer : List Event := [.input (heard 0x0201a8c0 (.rerr ⟨0, 0x0901a8c0, 5, 0, 0x0101a8c0⟩)), .thread]

/-- The next hop is lost a second after it reported the break, which is recorded
again. -/
theorem reported_break_recorded : ¬ ∀ (n n' : Node) (ip : Ip), Reachable n →
    MemoryReady n → n.genRerr ip = some n' → ReportsBroken ip n n' := by
  intro h
  have hrun : ((runs (meetNeigh ++ answer ++ loseAnswer ++ [.wait 1000]) station).bind fun n ↦
      (n.genRerr 0x0201a8c0).map fun n' ↦ n.kmalloc == [] && n'.brkList.any fun x ↦
        !n.brkList.contains x && !(n.brkList.map (expireBrkLink n.now)).contains x &&
          n.routing.table.all fun e ↦ !isBroken 0x0201a8c0 e) = some true := by
    decide +kernel
  obtain ⟨n, hn, hrun⟩ := Option.bind_eq_some_iff.mp hrun
  obtain ⟨n', hn', hp⟩ := Option.map_eq_some_iff.mp hrun
  simp only [Bool.and_eq_true, beq_iff_eq, List.any_eq_true, Bool.not_eq_true', List.contains_eq_mem,
    decide_eq_false_iff_not, List.all_eq_true, List.mem_map, not_exists, not_and] at hp
  obtain ⟨hmem, x, hx, ⟨hold, hexpired⟩, hnone⟩ := hp
  have hstart : Reachable station := .init trivial
  have hready : MemoryReady n := by
    intro b hb
    rw [hmem] at hb
    cases hb
  rcases (h n n' _ (hstart.of_runs hn) hready hn').others x hx with hx | ⟨y, hy, heq⟩ | ⟨e, he, hbroken, -⟩
  · exact hold hx
  · exact hexpired y hy heq.symm
  · rw [hnone e he] at hbroken
    cases hbroken

end Exactness

section Receipt

/-- No usable route of the flow goes through the sender of the RERR. -/
def FlowDisabled (t : Task) (m : Rerr) (n : Node) : Prop :=
  ∀ e ∈ n.routing.table, e.srcIp = m.srcIp → e.dstIp = m.dstIp → e.nextHop = t.srcIp → e.state = .invalid

theorem recvRerrRoute_frame {m : Rerr} {firstDtn : Bool} (h : n.recvRerrRoute m firstDtn e = some n') :
    n'.routing = n.routing ∧ n'.now = n.now := by
  unfold recvRerrRoute at h
  split at h
  · split at h
    · dsimp only at h
      rw [sendMessage_eq] at h
      obtain ⟨-, l, o, rfl, -⟩ := recordBrkLink_frame h
      exact ⟨rfl, rfl⟩
    · exact Option.some.inj h ▸ ⟨rfl, rfl⟩
  · obtain ⟨-, l, o, rfl, -⟩ := recordBrkLink_frame h
    exact ⟨rfl, rfl⟩

theorem recvRerr_table {t : Task} {m : Rerr} (h : n.recvRerr t m = some n') :
    (∃ e, n.routing.findAodvRouteById m.dstIp m.dstId = some e ∧ e.nextHop = t.srcIp ∧
      e.state ≠ .invalid ∧ n'.routing.table = expireAll n.now [e.ptr] n.routing.table) ∨
    (∀ e, n.routing.findAodvRouteById m.dstIp m.dstId = some e → e.nextHop = t.srcIp →
      e.state = .invalid) ∧ n'.routing.table = n.routing.table := by
  unfold recvRerr at h
  dsimp only at h
  generalize hn₁ : (if n.dtnRegister = true then _ else n) = n₁ at h
  have hnow : n₁.now = n.now := by
    rw [← hn₁]
    split
    · rfl
    · rfl
  have hrouting : n₁.routing = n.routing := by
    rw [← hn₁]
    split
    · rfl
    · rfl
  rw [hrouting] at h
  cases hfind : n.routing.findAodvRouteById m.dstIp m.dstId with
  | none =>
    rw [hfind] at h
    exact .inr ⟨nofun, Option.some.inj h ▸ congrArg _ hrouting⟩
  | some e =>
    rw [hfind] at h
    dsimp only at h
    split at h
    · next hhop =>
      refine .inr ⟨?_, Option.some.inj h ▸ congrArg _ hrouting⟩
      rintro e' ⟨⟩ hhop'
      exact absurd hhop' hhop
    next hhop =>
    obtain ⟨n₂, hroute, h⟩ := Option.bind_eq_some_iff.mp h
    have hsame : n₂.routing = n.routing ∧ n₂.now = n.now := by
      obtain ⟨hrouting₂, hnow₂⟩ := recvRerrRoute_frame hroute
      exact ⟨hrouting₂.trans hrouting, hnow₂.trans hnow⟩
    split at h
    · next hstate =>
      refine .inl ⟨e, rfl, not_not.mp hhop, hstate, ?_⟩
      rw [← hsame.1, ← hsame.2, ← expireRoute_expireAll, ← Option.some.inj h]
      split
      · exact updateMyLoad_table _
      · rfl
    · next hstate =>
      refine .inr ⟨?_, Option.some.inj h ▸ congrArg _ hsame.1⟩
      rintro e' ⟨⟩ -
      exact not_not.mp hstate

/-- For every table whose entries stand at different addresses and every RERR:
it disables the flow through its sender exactly when the entry that
`find_aodv_route_by_id` picks is the only usable one of that flow. -/
theorem recv_rerr_disables_iff {t : Task} {m : Rerr} (hptrs : (n.routing.table.map AodvRoute.ptr).Nodup)
    (h : n.recvRerr t m = some n') : FlowDisabled t m n' ↔
      ∀ e ∈ n.routing.table, e.srcIp = m.srcIp → e.dstIp = m.dstIp → e.nextHop = t.srcIp →
        e.state ≠ .invalid → n.routing.findAodvRouteById m.dstIp m.dstId = some e := by
  unfold FlowDisabled
  rcases recvRerr_table h with ⟨e₀, hfind, hhop₀, hstate₀, htable⟩ | ⟨hnone, htable⟩
  · have hmem₀ := (findAodvRouteById_some hfind).1
    rw [htable, hfind]
    constructor
    · intro hall e he hsrc hdst hhop hstate
      by_contra hne
      have hptr : e.ptr ≠ e₀.ptr := fun hptr ↦
        hne (congrArg some (List.inj_on_of_nodup_map hptrs he hmem₀ hptr).symm)
      refine hstate (hall e (List.mem_map.mpr ⟨e, he, ?_⟩) hsrc hdst hhop)
      rw [if_neg (by simpa using hptr)]
    · intro hall e' he' hsrc hdst hhop
      obtain ⟨e, he, rfl⟩ := List.mem_map.mp he'
      by_cases hptr : e.ptr = e₀.ptr
      · rw [if_pos (by simpa using hptr)]
        rfl
      · rw [if_neg (by simpa using hptr)] at hsrc hdst hhop ⊢
        by_contra hstate
        obtain rfl := Option.some.inj (hall e he hsrc hdst hhop hstate)
        exact hptr rfl
  · rw [htable]
    constructor
    · exact fun hall e he hsrc hdst hhop hstate ↦ absurd (hall e he hsrc hdst hhop) hstate
    · intro hall e he hsrc hdst hhop
      by_contra hstate
      exact hstate (hnone e (hall e he hsrc hdst hhop hstate) hhop)

/-- The route of the flow from 192.168.1.8 to 192.168.1.9. -/
def relayedFlow (nextHop lastHop : Ip) (dstId : UInt32) : AodvRoute :=
  { freshEntry 1 0x0801a8c0 0x0901a8c0 0 dstId 10000 with
    nextHop := nextHop
    lastHop := lastHop
    state := .active }

/-- The flow comes from 192.168.1.7 and goes on to 192.168.1.2. -/
def upstream : Node :=
  { station with routing := { station.routing with
      table := station.routing.table ++ [relayedFlow 0x0201a8c0 0x0701a8c0 5]
      heap := 2 } }

theorem upstream_wellFormed : WellFormed upstream.cfg upstream.routing where
  fresh := by decide
  distinct := by decide
  sorted := by
    have hsorted : (upstream.routing.table.map dstKey).Pairwise (· ≤ ·) := by decide
    exact List.pairwise_map.mp hsorted
  localFresh := by decide
  localEntry := by
    have hlocal : ∀ e ∈ upstream.routing.table, e.ptr = upstream.routing.localRoute →
        e.srcIp = upstream.cfg.gMeshIp ∧ e.dstIp = upstream.cfg.gMeshIp := by decide
    exact hlocal
  neighRoute := by decide

/-- It is the node 192.168.1.2 and has heard of a newer route to 192.168.1.9. -/
def downstream : Node :=
  { station with
    cfg := { station.cfg with gMeshIp := 0x0201a8c0 }
    routing := { station.routing with table := [relayedFlow 0x0901a8c0 0x0101a8c0 6] }
    aodvNeighList := [newAodvNeigh station.cfg 0x0101a8c0] }

/-- The RERR about that flow, on its way to the last hop. -/
def flowReport (dstId : UInt32) : Rerr := ⟨0, 0x0901a8c0, dstId, 0, 0x0801a8c0⟩

def reportTask : Task := { createTask .recvRerr 0 with srcIp := 0x0201a8c0 }

theorem recv_rerr_disables_iff_upstream : ∃ n', upstream.recvRerr reportTask (flowReport 5) = some n' ∧
    FlowDisabled reportTask (flowReport 5) n' := by
  have hrun : (upstream.recvRerr reportTask (flowReport 5)).isSome := by decide +kernel
  obtain ⟨n', h⟩ := Option.isSome_iff_exists.mp hrun
  exact ⟨n', h, (recv_rerr_disables_iff (by decide) h).mpr (by decide)⟩

/-- The neighbour knows the flow by another number. -/
theorem upstream_keeps_flow : ¬ ∀ (k k' n n' : Node) (ip : Ip) (t : Task) (m : Rerr),
    k.genRerr ip = some k' → .unicast n.cfg.gMeshIp netDiameter (.rerr m) ∈ k'.sent →
    t.srcIp = k.cfg.gMeshIp → WellFormed n.cfg n.routing → n.recvRerr t m = some n' →
    FlowDisabled t m n' := by
  intro h
  have hsend : (downstream.genRerr 0x0901a8c0).map (fun k' ↦
      decide (Sent.unicast upstream.cfg.gMeshIp netDiameter (.rerr (flowReport 6)) ∈ k'.sent)) = some true := by
    decide +kernel
  obtain ⟨k', hk', hsent⟩ := Option.map_eq_some_iff.mp hsend
  have hrecv : (upstream.recvRerr reportTask (flowReport 6)).map (fun n' ↦
      n'.routing.table.any fun e ↦ e == relayedFlow 0x0201a8c0 0x0701a8c0 5) = some true := by
    decide +kernel
  obtain ⟨n', hn', hkept⟩ := Option.map_eq_some_iff.mp hrecv
  simp only [List.any_eq_true, beq_iff_eq] at hkept
  obtain ⟨e, he, rfl⟩ := hkept
  have hdisabled := h downstream k' upstream n' _ reportTask _ hk' (of_decide_eq_true hsent) rfl
    upstream_wellFormed hn'
  exact absurd (hdisabled _ he rfl rfl rfl) (by decide)

end Receipt

end Fbaodv.Proofs.RerrRoutes
