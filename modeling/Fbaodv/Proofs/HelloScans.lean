import Fbaodv.Proofs.BrkLists
import Fbaodv.Proofs.NeighCreation

namespace Fbaodv.Proofs.HelloScans

open Fbaodv.Foundation Fbaodv.Foundation.OrderedList Fbaodv.Model Fbaodv.Model.Node
open Fbaodv.Proofs.RouteFrame Fbaodv.Proofs.RoutingInvariant Fbaodv.Proofs.HandlerSpecs
open Fbaodv.Proofs.Background Fbaodv.Proofs.NodeRun Fbaodv.Proofs.NodeOps Fbaodv.Proofs.BrkLists
open Fbaodv.Proofs.NeighCreation Fbaodv.Proofs.PacketDiscovery
open Fbaodv.Proofs.NetRuns (packetAt)

/-- `recv_hello` accepts a HELLO from a new neighbour, with which the node is
`n₁`. -/
structure Meets (t : Task) (n n₁ : Node) : Prop where
  welcome : n.cfg.aodvBlacklistIp.contains t.srcIp = false
  new : n.findAodvNeigh t.srcIp = none
  created : (n.takeNeigh2h t.srcIp).2.2.createAodvNeigh t.srcIp = some (true, n₁)

/-- The rest of `recv_hello` after the scan of the broken links, which left `n₂`. -/
def greeted (t : Task) (m : Hello) (n n₂ : Node) : Node :=
  ((redirectRoutes n₂.routing.table n₂).modifyNeigh t.srcIp fun x ↦
    { x with loadMetric := { x.loadMetric with
        load := (n.takeNeigh2h t.srcIp).1, loadSeq := (n.takeNeigh2h t.srcIp).2.1 } }).helloFromNeigh
    t.srcIp m

/-- What a call of `gen_rrdp` is given. -/
structure RrdpCall where
  srcIp : Ip
  dstIp : Ip
  lastHop : Ip
  tos : UInt8
  deriving DecidableEq

def rrdpCall (e : AodvRoute) : RrdpCall := ⟨e.srcIp, e.dstIp, e.lastHop, e.tos⟩

/-- A usable route of another node's flow. -/
def isTransit (gMeshIp : Ip) (e : AodvRoute) : Bool :=
  e.state != .invalid && e.srcIp != e.dstIp && e.srcIp != gMeshIp

/-- The walk of `recv_hello` over the routes, with the calls of `gen_rrdp` that
it makes. -/
def redirectCalls : List AodvRoute → Node → List RrdpCall × Node
  | [], n => ([], n)
  | e :: l, n =>
    if e.state = .invalid then ([], n)
    else
      let (call, n) :=
        if e.srcIp ≠ e.dstIp ∧ e.srcIp ≠ n.cfg.gMeshIp then
          ([rrdpCall e], n.genRrdp e.srcIp e.dstIp e.lastHop e.tos)
        else ([], n)
      let n :=
        if e.srcIp = n.cfg.gMeshIp ∧ n.dtnRegister ∧ e.srcIp ≠ e.dstIp then
          n.send2dtn dtnPort e.srcIp e.dstIp 0 rrdpMessage
        else n
      let (calls, n) := redirectCalls l n
      (call ++ calls, n)

/-- What a recovery of a broken link calls. -/
inductive Recovery
  | genRcvp (dstIp : Ip)
  | genRreq (srcIp dstIp : Ip) (tos : UInt8)
  deriving DecidableEq

/-- One turn of the scan: the link that it reads, the node as it then is, and
the recovery. -/
structure Turn where
  link : BrkLink
  node : Node
  recovery : Option Recovery

/-- The scan of the broken links with its turns. -/
def scanTurns (ip : Ip) : List BrkLink → Node → Option (List Turn × Node)
  | [], n => some ([], n)
  | x :: l, n =>
    if x.state ≠ .invalid ∧ !n.isOverlappedWithRoute x then
      if x.dstIp = ip then some ([⟨x, n, some (.genRcvp ip)⟩], n.genRcvp ip)
      else do
        let n₁ ← n.genRreq n.cfg.gMeshIp x.dstIp recoveryTos
        let (turns, n₂) ← scanTurns ip l n₁
        some (⟨x, n, some (.genRreq n.cfg.gMeshIp x.dstIp recoveryTos)⟩ :: turns, n₂)
    else do
      let (turns, n₂) ← scanTurns ip l n
      some (⟨x, n, none⟩ :: turns, n₂)

/-- The link is to be recovered. -/
def recoverable (n : Node) (x : BrkLink) : Bool := x.state != .invalid && !n.isOverlappedWithRoute x

/-- What the scans see of a route. -/
def routeView (e : AodvRoute) : ℕ × RouteState × RrdpCall := (e.ptr, e.state, rrdpCall e)

/-- `n'` is `n` after `k` calls of `gen_rreq`, as far as the scans can tell. -/
structure Searched (k : ℕ) (n n' : Node) : Prop where
  cfg : n'.cfg = n.cfg
  brkList : n'.brkList = n.brkList
  dtnRegister : n'.dtnRegister = n.dtnRegister
  neighs : n'.aodvNeighList = n.aodvNeighList
  kmalloc : n'.kmalloc = n.kmalloc.drop k
  sent : ∃ said, n'.sent = n.sent ++ said
  localRoute : n'.routing.localRoute = n.routing.localRoute
  routes : n'.routing.table.map routeView = n.routing.table.map routeView

/-- Every link that is to be recovered gets its recovery in the scan for the
new neighbour `ip`. -/
structure Complete (ip : Ip) (n n' : Node) (turns : List Turn) : Prop where
  others : ((turns.filterMap Turn.recovery).filter fun r ↦ r != .genRcvp ip) =
    (n.brkList.filter fun x ↦ recoverable n x && x.dstIp != ip).map fun x ↦
      .genRreq n.cfg.gMeshIp x.dstIp recoveryTos
  own : ∀ x ∈ n.brkList, recoverable n x = true → x.dstIp = ip →
    .genRcvp ip ∈ turns.filterMap Turn.recovery ∧ x ∉ n'.brkList ∧
      ∃ before after, n'.sent = n.sent ++ before ++ rcvpPosts n x ++ after

/-- The memory when the scan for `ip` comes to `gen_rcvp`. -/
def memoryAtRcvp (ip : Ip) (n : Node) : Outcomes :=
  n.kmalloc.drop (n.brkList.countP fun x ↦ recoverable n x && x.dstIp < ip)

/-- No link beyond those to `ip` waits for its recovery, and the memory lasts for
the RCVPs. -/
structure Undisturbed (ip : Ip) (n : Node) : Prop where
  last : ∀ x ∈ n.brkList, recoverable n x = true → x.dstIp = ip →
    ∀ y ∈ n.brkList, recoverable n y = true → y.dstIp ≤ ip
  memory : ∀ x ∈ n.brkList, recoverable n x = true → x.dstIp = ip →
    x ∈ served n.cfg.gMeshIp (memoryAtRcvp ip n) (n.brkList.filter fun x ↦ x.dstIp = ip)

variable {n n' n₁ n₂ : Node} {t : Task} {ip : Ip} {x : BrkLink} {l : List BrkLink} {turns : List Turn}

section Scan

/-- The scan that keeps its turns is the scan of `recv_hello`. -/
theorem scanTurns_node (ip : Ip) (l : List BrkLink) (n : Node) :
    (scanTurns ip l n).map Prod.snd = recoverLinks ip l n := by
  induction l generalizing n with
  | nil => rfl
  | cons x l ih =>
    have hrest : ∀ (turn : Turn) (n₁ : Node), ((scanTurns ip l n₁).bind fun p ↦
        some (turn :: p.1, p.2)).map Prod.snd = recoverLinks ip l n₁ := by
      intro turn n₁
      rw [← ih n₁]
      cases scanTurns ip l n₁ with
      | none => rfl
      | some p => rfl
    unfold scanTurns recoverLinks
    split
    · split
      · rfl
      · simp only [Option.bind_eq_bind, Option.map_bind]
        refine Option.bind_congr fun n₁ _ ↦ ?_
        exact hrest _ n₁
    · exact hrest _ n

theorem Searched.refl (n : Node) : Searched 0 n n := ⟨rfl, rfl, rfl, rfl, rfl, ⟨[], by simp⟩, rfl, rfl⟩

theorem Searched.trans {j k : ℕ} (h : Searched j n n₁) (h' : Searched k n₁ n₂) :
    Searched (j + k) n n₂ where
  cfg := h'.cfg.trans h.cfg
  brkList := h'.brkList.trans h.brkList
  dtnRegister := h'.dtnRegister.trans h.dtnRegister
  neighs := h'.neighs.trans h.neighs
  kmalloc := by rw [h'.kmalloc, h.kmalloc, List.drop_drop]
  sent := by
    obtain ⟨said, hsaid⟩ := h.sent
    obtain ⟨said', hsaid'⟩ := h'.sent
    exact ⟨said ++ said', by rw [hsaid', hsaid, List.append_assoc]⟩
  localRoute := h'.localRoute.trans h.localRoute
  routes := h'.routes.trans h.routes

theorem bumpLocalDstId_routes (n : Node) :
    n.bumpLocalDstId.routing.table.map routeView = n.routing.table.map routeView := by
  refine List.map_map.trans (List.map_congr_left fun e _ ↦ ?_)
  simp only [Function.comp_apply]
  split
  · rfl
  · rfl

theorem searched_genRreq {srcIp dstIp : Ip} {tos : UInt8} (h : n.genRreq srcIp dstIp tos = some n') :
    Searched 1 n n' := by
  have hrest : n.kmalloc.rest = n.kmalloc.drop 1 := List.drop_one.symm
  unfold genRreq at h
  dsimp only at h
  split at h
  · exact Option.some.inj h ▸ ⟨rfl, rfl, rfl, rfl, hrest, ⟨[], by simp [Node.alloc]⟩, rfl, rfl⟩
  · obtain ⟨dstId, -, h⟩ := Option.bind_eq_some_iff.mp h
    refine Option.some.inj h ▸ ⟨rfl, rfl, rfl, rfl, hrest, ⟨_, rfl⟩, rfl, ?_⟩
    exact bumpLocalDstId_routes n.alloc.2

theorem localDstId_isSome (n : Node) : n.localDstId.isSome = true ↔
    ∃ v ∈ n.routing.table.map routeView, v.1 = n.routing.localRoute := by
  rw [localDstId, Option.isSome_map, Routing.entryAt, List.find?_isSome]
  simp only [List.mem_map, exists_exists_and_eq_and, routeView, beq_iff_eq]

theorem Searched.localDstId {k : ℕ} (h : Searched k n n') (hlocal : n.localDstId.isSome) :
    n'.localDstId.isSome := by
  rw [localDstId_isSome, h.routes, h.localRoute, ← localDstId_isSome]
  exact hlocal

theorem genRreq_returns (hlocal : n.localDstId.isSome) (srcIp dstIp : Ip) (tos : UInt8) :
    ∃ n', n.genRreq srcIp dstIp tos = some n' := by
  have hbump : n.alloc.2.bumpLocalDstId.localDstId.isSome = true := by
    rw [localDstId_isSome, bumpLocalDstId_routes]
    exact (localDstId_isSome n).mp hlocal
  obtain ⟨dstId, hdstId⟩ := Option.isSome_iff_exists.mp hbump
  unfold genRreq
  dsimp only
  split
  · exact ⟨_, rfl⟩
  · rw [hdstId]
    exact ⟨_, rfl⟩

theorem Searched.overlapped {k : ℕ} (h : Searched k n n') (x : BrkLink) :
    n'.isOverlappedWithRoute x = n.isOverlappedWithRoute x := by
  refine isOverlapped_congr x ?_
  have hpairs := congrArg (List.map fun v ↦ (v.2.2.dstIp, v.2.2.srcIp)) h.routes
  rwa [List.map_map, List.map_map] at hpairs

theorem Searched.recoverable {k : ℕ} (h : Searched k n n') (x : BrkLink) :
    recoverable n' x = recoverable n x := by
  rw [HelloScans.recoverable, HelloScans.recoverable, h.overlapped]

/-- The call of `gen_rreq` for a link. -/
def search (gMeshIp : Ip) (x : BrkLink) : Recovery := .genRreq gMeshIp x.dstIp recoveryTos

/-- Before it comes to a link to the new neighbour, the scan looks for the
destination of each link that is to be recovered. -/
theorem scanTurns_append {a : List BrkLink} (b : List BrkLink) (hlocal : n.localDstId.isSome)
    (ha : ∀ x ∈ a, recoverable n x = true → x.dstIp ≠ ip) :
    ∃ turns n₁, Searched (a.countP (recoverable n)) n n₁ ∧ turns.map Turn.link = a ∧
      (∀ turn ∈ turns, turn.node.brkList = n.brkList) ∧
      turns.filterMap Turn.recovery = (a.filter (recoverable n)).map (search n.cfg.gMeshIp) ∧
      scanTurns ip (a ++ b) n = (scanTurns ip b n₁).map fun p ↦ (turns ++ p.1, p.2) := by
  induction a generalizing n with
  | nil =>
    refine ⟨[], n, .refl n, rfl, by simp, rfl, ?_⟩
    exact Option.map_id'.symm
  | cons x a ih =>
    obtain ⟨hx, ha⟩ := List.forall_mem_cons.mp ha
    rw [List.cons_append, scanTurns]
    cases hrec : recoverable n x with
    | false =>
      have hnot : ¬ (x.state ≠ .invalid ∧ !n.isOverlappedWithRoute x) := by
        simpa [recoverable] using hrec
      obtain ⟨turns, n₁, hsearch, hlinks, hnodes, hcalls, hscan⟩ := ih hlocal ha
      refine ⟨⟨x, n, none⟩ :: turns, n₁, ?_, ?_, ?_, ?_, ?_⟩
      · rwa [List.countP_cons_of_neg (by simp [hrec])]
      · rw [List.map_cons, hlinks]
      · exact List.forall_mem_cons.mpr ⟨rfl, hnodes⟩
      · rw [List.filterMap_cons_none rfl, hcalls, List.filter_cons_of_neg (by simp [hrec])]
      · rw [if_neg hnot, hscan]
        cases scanTurns ip b n₁ with
        | none => rfl
        | some p => rfl
    | true =>
      have hyes : x.state ≠ .invalid ∧ !n.isOverlappedWithRoute x := by
        simpa [recoverable] using hrec
      obtain ⟨n₂, hgen⟩ := genRreq_returns hlocal n.cfg.gMeshIp x.dstIp recoveryTos
      have hsearch₂ := searched_genRreq hgen
      obtain ⟨turns, n₁, hsearch, hlinks, hnodes, hcalls, hscan⟩ := ih (hsearch₂.localDstId hlocal)
        fun y hy hrec ↦ ha y hy (hsearch₂.recoverable y ▸ hrec)
      have hsame : recoverable n₂ = recoverable n := funext hsearch₂.recoverable
      rw [hsame] at hsearch hcalls
      refine ⟨⟨x, n, some (search n.cfg.gMeshIp x)⟩ :: turns, n₁, ?_, ?_, ?_, ?_, ?_⟩
      · rw [List.countP_cons_of_pos hrec, Nat.add_comm]
        exact hsearch₂.trans hsearch
      · rw [List.map_cons, hlinks]
      · exact List.forall_mem_cons.mpr ⟨rfl, fun turn h ↦ (hnodes turn h).trans hsearch₂.brkList⟩
      · have hhead : Turn.recovery ⟨x, n, some (search n.cfg.gMeshIp x)⟩ = some (search n.cfg.gMeshIp x) := rfl
        rw [List.filterMap_cons_some hhead, hcalls, List.filter_cons_of_pos hrec, List.map_cons,
          hsearch₂.cfg]
      · rw [if_pos hyes, if_neg (hx hrec), hgen]
        simp only [Option.bind_eq_bind, Option.bind_some, hscan]
        cases scanTurns ip b n₁ with
        | none => rfl
        | some p => rfl

theorem Searched.rcvpPosts {k : ℕ} (h : Searched k n n') (x : BrkLink) :
    rcvpPosts n' x = rcvpPosts n x := by
  have hfind : n'.findAodvNeigh x.lastHop = n.findAodvNeigh x.lastHop := by
    rw [findAodvNeigh, findAodvNeigh, h.neighs]
  unfold BrkLists.rcvpPosts notified posted
  rw [h.dtnRegister, h.cfg, hfind]

theorem filter_searches (ip gMeshIp : Ip) {l : List BrkLink} :
    ((l.map (search gMeshIp)).filter fun r ↦ r != .genRcvp ip) = l.map (search gMeshIp) := by
  refine List.filter_eq_self.mpr fun r hr ↦ ?_
  obtain ⟨x, -, rfl⟩ := List.mem_map.mp hr
  simp [search]

theorem scan_without (hlocal : n.localDstId.isSome)
    (hnone : ∀ x ∈ n.brkList, recoverable n x = true → x.dstIp ≠ ip) :
    ∃ turns n', scanTurns ip n.brkList n = some (turns, n') ∧
      (∀ turn ∈ turns, turn.link ∈ turn.node.brkList) ∧
      (Complete ip n n' turns ↔ Undisturbed ip n) := by
  obtain ⟨turns, n', hsearch, hlinks, hnodes, hcalls, hscan⟩ := scanTurns_append [] hlocal hnone
  rw [List.append_nil, scanTurns, Option.map_some, List.append_nil] at hscan
  refine ⟨turns, n', hscan, ?_, ?_⟩
  · intro turn hturn
    rw [hnodes turn hturn, ← hlinks]
    exact List.mem_map_of_mem hturn
  · refine ⟨fun _ ↦ ⟨fun x hx hrec hip ↦ absurd hip (hnone x hx hrec),
      fun x hx hrec hip ↦ absurd hip (hnone x hx hrec)⟩, fun _ ↦ ⟨?_, fun x hx hrec hip ↦
        absurd hip (hnone x hx hrec)⟩⟩
    have hothers : (n.brkList.filter fun x ↦ recoverable n x && x.dstIp != ip) =
        n.brkList.filter (recoverable n) := by
      refine List.filter_congr fun x hx ↦ ?_
      cases hrec : recoverable n x with
      | false => rfl
      | true => simpa using hnone x hx hrec
    rw [hcalls, hothers]
    exact filter_searches _ _

/-- What the scan has said when it comes to `gen_rcvp`. -/
theorem recovered_searched {a b : List BrkLink} {y : BrkLink} (hl : BrkOrdered n.brkList)
    (hbrk : n.brkList = a ++ y :: b) (hy : y.dstIp = ip)
    (ha : ∀ x ∈ a, recoverable n x = true → x.dstIp ≠ ip)
    (h : Searched (a.countP (recoverable n)) n n₁) :
    recovered ip n₁ = served n.cfg.gMeshIp (memoryAtRcvp ip n)
      (n.brkList.filter fun x ↦ x.dstIp = ip) := by
  have hsorted := hl.sorted
  rw [hbrk] at hsorted
  obtain ⟨-, hyb, hay⟩ := List.pairwise_append.mp hsorted
  have hcount : a.countP (recoverable n) =
      n.brkList.countP fun x ↦ recoverable n x && decide (x.dstIp < ip) := by
    have hbeyond : ((y :: b).countP fun x ↦ recoverable n x && decide (x.dstIp < ip)) = 0 := by
      refine List.countP_eq_zero.mpr fun x hx ↦ ?_
      have hle : y.dstIp ≤ x.dstIp := by
        rcases List.mem_cons.mp hx with rfl | hx
        · exact UInt32.le_refl _
        · exact (List.pairwise_cons.mp hyb).1 x hx
      have hnot : ¬ x.dstIp < ip := UInt32.not_lt.mpr (hy ▸ hle)
      simp [hnot]
    rw [hbrk, List.countP_append, hbeyond, Nat.add_zero]
    refine List.countP_congr fun x hx ↦ ?_
    have hle : x.dstIp ≤ ip := hy ▸ hay x hx y List.mem_cons_self
    have hlt : recoverable n x = true → x.dstIp < ip := fun hrec ↦
      UInt32.lt_of_le_of_ne hle (ha x hx hrec)
    simpa using hlt
  rw [recovered, h.cfg, h.kmalloc, h.brkList, hcount, memoryAtRcvp]

/-- The links before the first one to the new neighbour are all the others that
are to be recovered exactly when none of those beyond is. -/
theorem others_iff {a b : List BrkLink} {y : BrkLink} (hl : BrkOrdered n.brkList)
    (hbrk : n.brkList = a ++ y :: b) (hrec : recoverable n y = true) (hy : y.dstIp = ip)
    (ha : ∀ x ∈ a, recoverable n x = true → x.dstIp ≠ ip) :
    (a.filter (recoverable n)).map (search n.cfg.gMeshIp) =
        (n.brkList.filter fun x ↦ recoverable n x && x.dstIp != ip).map (search n.cfg.gMeshIp) ↔
      ∀ x ∈ n.brkList, recoverable n x = true → x.dstIp = ip →
        ∀ z ∈ n.brkList, recoverable n z = true → z.dstIp ≤ ip := by
  have hsorted := hl.sorted
  rw [hbrk] at hsorted
  obtain ⟨-, hyb, hay⟩ := List.pairwise_append.mp hsorted
  have hbefore : a.filter (fun x ↦ recoverable n x && x.dstIp != ip) = a.filter (recoverable n) := by
    refine List.filter_congr fun x hx ↦ ?_
    cases hrec : recoverable n x with
    | false => rfl
    | true => simpa using ha x hx hrec
  have hsplit : (n.brkList.filter fun x ↦ recoverable n x && x.dstIp != ip) =
      a.filter (recoverable n) ++ b.filter fun x ↦ recoverable n x && x.dstIp != ip := by
    rw [hbrk, List.filter_append, hbefore, List.filter_cons_of_neg (by simp [hy])]
  rw [hsplit, List.map_append]
  constructor
  · intro h x _ _ _ z hz hzrec
    have hnil : (b.filter fun x ↦ recoverable n x && x.dstIp != ip) = [] :=
      List.map_eq_nil_iff.mp (List.self_eq_append_right.mp h)
    rw [hbrk] at hz
    rcases List.mem_append.mp hz with hz | hz
    · exact hy ▸ hay z hz y List.mem_cons_self
    rcases List.mem_cons.mp hz with rfl | hz
    · exact hy ▸ UInt32.le_refl _
    · have hzip := List.filter_eq_nil_iff.mp hnil z hz
      have hzip : z.dstIp = ip := by simpa [hzrec] using hzip
      exact hzip ▸ UInt32.le_refl _
  · intro h
    have hnil : (b.filter fun x ↦ recoverable n x && x.dstIp != ip) = [] := by
      refine List.filter_eq_nil_iff.mpr fun z hz hzrec ↦ ?_
      obtain ⟨hzrec, hne⟩ : recoverable n z = true ∧ z.dstIp ≠ ip := by simpa using hzrec
      have hle : z.dstIp ≤ ip := h y (hbrk ▸ List.mem_append_right _ List.mem_cons_self) hrec hy z
        (hbrk ▸ List.mem_append_right _ (List.mem_cons_of_mem _ hz)) hzrec
      have hge : y.dstIp ≤ z.dstIp := (List.pairwise_cons.mp hyb).1 z hz
      exact hne (UInt32.le_antisymm hle (hy ▸ hge))
    rw [hnil, List.map_nil, List.append_nil]

theorem scan_with {a b : List BrkLink} {y : BrkLink} (hl : BrkOrdered n.brkList)
    (hlocal : n.localDstId.isSome) (hbrk : n.brkList = a ++ y :: b) (hrec : recoverable n y = true)
    (hy : y.dstIp = ip) (ha : ∀ x ∈ a, recoverable n x = true → x.dstIp ≠ ip) :
    ∃ turns n', scanTurns ip n.brkList n = some (turns, n') ∧
      (∀ turn ∈ turns, turn.link ∈ turn.node.brkList) ∧
      (Complete ip n n' turns ↔ Undisturbed ip n) := by
  obtain ⟨turns, n₁, hsearch, hlinks, hnodes, hcalls, hscan⟩ := scanTurns_append (y :: b) hlocal ha
  have hlast : scanTurns ip (y :: b) n₁ = some ([⟨y, n₁, some (.genRcvp ip)⟩], n₁.genRcvp ip) := by
    rw [scanTurns, if_pos (by simpa [recoverable, hsearch.overlapped] using hrec), if_pos hy]
  rw [hlast, Option.map_some, ← hbrk] at hscan
  refine ⟨turns ++ [⟨y, n₁, some (.genRcvp ip)⟩], n₁.genRcvp ip, hscan, ?_, ?_⟩
  · intro turn hturn
    rcases List.mem_append.mp hturn with hturn | hturn
    · rw [hnodes turn hturn, hbrk]
      exact List.mem_append_left _ (hlinks ▸ List.mem_map_of_mem hturn)
    · obtain rfl := List.mem_singleton.mp hturn
      rw [hsearch.brkList, hbrk]
      exact List.mem_append_right _ List.mem_cons_self
  · have hrecovered := recovered_searched hl hbrk hy ha hsearch
    obtain ⟨kmalloc, hrcvp⟩ := genRcvp_recovered (hsearch.brkList ▸ hl : BrkOrdered n₁.brkList) ip
    rw [hrecovered] at hrcvp
    have hturns : (turns ++ [(⟨y, n₁, some (.genRcvp ip)⟩ : Turn)]).filterMap Turn.recovery =
        (a.filter (recoverable n)).map (search n.cfg.gMeshIp) ++ [Recovery.genRcvp ip] := by
      rw [List.filterMap_append, hcalls]
      rfl
    have hothers := others_iff hl hbrk hrec hy ha
    have hcalls' : (((turns ++ [(⟨y, n₁, some (.genRcvp ip)⟩ : Turn)]).filterMap Turn.recovery).filter
        fun r ↦ r != Recovery.genRcvp ip) = (a.filter (recoverable n)).map (search n.cfg.gMeshIp) := by
      rw [hturns, List.filter_append, filter_searches]
      simp
    refine ⟨fun h ↦ ⟨?_, fun x hx hxrec hip ↦ ?_⟩, fun h ↦ ⟨?_, fun x hx hxrec hip ↦ ?_⟩⟩
    · exact hothers.mp (hcalls'.symm.trans h.others)
    · have hgone := (h.own x hx hxrec hip).2.1
      rw [hrcvp] at hgone
      simpa [hsearch.brkList, hx] using hgone
    · exact hcalls'.trans (hothers.mpr h.last)
    · have hmem := h.memory x hx hxrec hip
      refine ⟨?_, ?_, ?_⟩
      · rw [hturns]
        exact List.mem_append_right _ (List.mem_singleton.mpr rfl)
      · rw [hrcvp]
        simp [hmem]
      · obtain ⟨u, v, huv⟩ := List.append_of_mem hmem
        obtain ⟨said, hsaid⟩ := hsearch.sent
        refine ⟨said ++ u.flatMap (rcvpPosts n₁), v.flatMap (rcvpPosts n₁), ?_⟩
        rw [hrcvp, huv, List.flatMap_append, List.flatMap_cons, hsearch.rcvpPosts, hsaid]
        simp only [List.append_assoc]

end Scan

section Meeting

theorem Meets.linked (hr : WellFormed n.cfg n.routing) (hmeet : Meets t n n₁) :
    n₁.cfg = n.cfg ∧ n₁.brkList = n.brkList ∧ n₁.localDstId.isSome = true ∧
      ∃ dstId lifetime, n₁.routing.table = insertBy (fun e ↦ e.dstIp < t.srcIp)
        (neighEntry n.cfg n.routing.heap t.srcIp dstId lifetime) n.routing.table := by
  obtain ⟨hcalm, hrouting⟩ := takeNeigh2h_calm t.srcIp n
  have hops : Ops n t (n.takeNeigh2h t.srcIp).2.2 n₁ := ops_createAodvNeigh hmeet.created
  have hframe := hops.frame
  have hlate : givesUpEarly t.srcIp (n.takeNeigh2h t.srcIp).2.2 = false := by
    by_contra hearly
    exact absurd (createAodvNeigh_early (eq_true_of_ne_false hearly) hmeet.created).1 (by simp)
  obtain ⟨dstId, lifetime, hdstId, hlocal, htable⟩ := createAodvNeigh_linked
    (by rwa [hcalm.cfg, hrouting]) hlate hmeet.created
  rw [hrouting, hcalm.cfg] at htable
  refine ⟨hframe.1.trans hcalm.cfg, ?_, ?_, dstId, lifetime, htable⟩
  · rw [hframe.2, takeNeigh2h]
    split
    · exact SideOps.brkList (sideOps_deleteAodvNeigh2h _)
    · rfl
  · obtain ⟨v, hv, hptr⟩ := (localDstId_isSome _).mp (Option.isSome_of_eq_some hdstId)
    rw [hrouting] at hv
    refine (localDstId_isSome _).mpr ⟨v, ?_, by rw [hptr, hlocal]⟩
    obtain ⟨e, he, rfl⟩ := List.mem_map.mp hv
    exact List.mem_map_of_mem (htable ▸ mem_insertBy.mpr (.inr he))

theorem recvHello_meets (hmeet : Meets t n n₁) (m : Hello) :
    n.recvHello t m = (recoverLinks t.srcIp n₁.brkList n₁).map (greeted t m n) := by
  have hwelcome : ¬ n.cfg.aodvBlacklistIp.contains t.srcIp = true := by rw [hmeet.welcome]; simp
  rw [recvHello, if_neg hwelcome, hmeet.new]
  simp only [newHelloNeigh, hmeet.created, Option.bind_eq_bind, Option.bind_some, Bool.not_true,
    Bool.false_eq_true, if_false]
  cases recoverLinks t.srcIp n₁.brkList n₁ with
  | none => rfl
  | some n₂ => rfl

/-- For every list of broken links and every table: the scan for a new neighbour
ends and reads no link that has been removed, and it recovers all the links
exactly when none to a destination beyond the neighbour waits and the memory
lasts. -/
theorem recovery_scan_complete_iff (hr : WellFormed n.cfg n.routing) (hl : BrkOrdered n.brkList)
    (hmeet : Meets t n n₁) (m : Hello) :
    ∃ turns n₂, scanTurns t.srcIp n₁.brkList n₁ = some (turns, n₂) ∧
      n.recvHello t m = some (greeted t m n n₂) ∧
      (∀ turn ∈ turns, turn.link ∈ turn.node.brkList) ∧
      (Complete t.srcIp n₁ n₂ turns ↔ Undisturbed t.srcIp n₁) := by
  obtain ⟨-, hbrk, hlocal, -⟩ := hmeet.linked hr
  have hl₁ : BrkOrdered n₁.brkList := hbrk ▸ hl
  have hscan : ∃ turns n₂, scanTurns t.srcIp n₁.brkList n₁ = some (turns, n₂) ∧
      (∀ turn ∈ turns, turn.link ∈ turn.node.brkList) ∧
      (Complete t.srcIp n₁ n₂ turns ↔ Undisturbed t.srcIp n₁) := by
    cases hfind : n₁.brkList.find? fun x ↦ recoverable n₁ x && x.dstIp == t.srcIp with
    | none =>
      refine scan_without hlocal fun x hx hrec ↦ ?_
      simpa [hrec] using List.find?_eq_none.mp hfind x hx
    | some y =>
      obtain ⟨hy, a, b, hab, ha⟩ := List.find?_eq_some_iff_append.mp hfind
      obtain ⟨hrec, hip⟩ : recoverable n₁ y = true ∧ y.dstIp = t.srcIp := by simpa using hy
      refine scan_with hl₁ hlocal hab hrec hip fun x hx hrec ↦ ?_
      simpa [hrec] using ha x hx
  obtain ⟨turns, n₂, hscan, hreads, hiff⟩ := hscan
  refine ⟨turns, n₂, hscan, ?_, hreads, hiff⟩
  rw [recvHello_meets hmeet, ← scanTurns_node, hscan]
  rfl

/-- A HELLO from 192.168.1.5. -/
def greeting : Task := { createTask .recvHello 0 with srcIp := 0x0501a8c0 }

/-- A broken link of the flow from `srcIp` to `dstIp`. -/
def brokenLink (srcIp dstIp : Ip) : BrkLink := ⟨10000, 0x0701a8c0, dstIp, srcIp, .active, 0⟩

/-- A station that lost the routes to 192.168.1.5 and 192.168.1.6. -/
def lostStation : Node :=
  { station with brkList := [brokenLink 0x0801a8c0 0x0501a8c0, brokenLink 0x0801a8c0 0x0601a8c0] }

theorem station_wellFormed : WellFormed station.cfg station.routing := by
  have hstation : Reachable station := .init trivial
  exact reach_wellFormed hstation

/-- The station meets 192.168.1.7, the last hop of all the flows. -/
def meetLastHop : List Event :=
  [.input (packetAt 0x0701a8c0 0x0101a8c0 1 (.hello ⟨0, 0, 1, []⟩)), .thread]

/-- A station that lost the routes of one flow to 192.168.1.3, which is no
longer to be recovered, of one to 192.168.1.4, and of two to 192.168.1.5. -/
def waitingStation : Node :=
  { (runs meetLastHop station).getD station with
    brkList := [{ brokenLink 0x0801a8c0 0x0301a8c0 with state := .invalid }, brokenLink 0x0801a8c0 0x0401a8c0,
      brokenLink 0x0801a8c0 0x0501a8c0, brokenLink 0x0901a8c0 0x0501a8c0] }

theorem waitingStation_wellFormed : WellFormed waitingStation.cfg waitingStation.routing := by
  have hstation : Reachable station := .init trivial
  have hmet : Reachable ((runs meetLastHop station).getD station) :=
    hstation.getD_runs (by decide +kernel) station
  exact reach_wellFormed (n := (runs meetLastHop station).getD station) hmet

/-- When 192.168.1.5 comes back, 192.168.1.4 is looked for, and both flows to
192.168.1.5 are told. -/
theorem recovery_scan_complete_iff_waiting : ∃ n₁ turns n₂, Meets greeting waitingStation n₁ ∧
    scanTurns greeting.srcIp n₁.brkList n₁ = some (turns, n₂) ∧ Complete greeting.srcIp n₁ n₂ turns ∧
    turns.filterMap Turn.recovery = [.genRreq 0x0101a8c0 0x0401a8c0 2, .genRcvp 0x0501a8c0] ∧
    n₂.brkList.map BrkLink.dstIp = [0x0301a8c0, 0x0401a8c0] ∧
    n₂.sent.tail = [.unicast 0x0701a8c0 10 (.rcvp ⟨0, 0x0501a8c0, 0x0801a8c0, 0⟩),
      .unicast 0x0701a8c0 10 (.rcvp ⟨0, 0x0501a8c0, 0x0901a8c0, 0⟩)] := by
  have hrun : ((waitingStation.takeNeigh2h greeting.srcIp).2.2.createAodvNeigh greeting.srcIp).map (fun p ↦
      p.1 && (scanTurns greeting.srcIp p.2.brkList p.2).all fun s ↦
        s.1.filterMap Turn.recovery == [.genRreq 0x0101a8c0 0x0401a8c0 2, .genRcvp 0x0501a8c0] &&
        s.2.brkList.map BrkLink.dstIp == [0x0301a8c0, 0x0401a8c0] &&
        s.2.sent.tail == [.unicast 0x0701a8c0 10 (.rcvp ⟨0, 0x0501a8c0, 0x0801a8c0, 0⟩),
          .unicast 0x0701a8c0 10 (.rcvp ⟨0, 0x0501a8c0, 0x0901a8c0, 0⟩)]) = some true := by
    decide +kernel
  have hwait : ((waitingStation.takeNeigh2h greeting.srcIp).2.2.createAodvNeigh greeting.srcIp).map (fun p ↦
      decide (∀ x ∈ p.2.brkList, recoverable p.2 x = true → x.dstIp = greeting.srcIp →
        (∀ y ∈ p.2.brkList, recoverable p.2 y = true → y.dstIp ≤ greeting.srcIp) ∧
        x ∈ served p.2.cfg.gMeshIp (memoryAtRcvp greeting.srcIp p.2)
          (p.2.brkList.filter fun x ↦ x.dstIp = greeting.srcIp))) = some true := by
    decide +kernel
  obtain ⟨⟨ok, n₁⟩, hcreate, hfacts⟩ := Option.map_eq_some_iff.mp hrun
  obtain ⟨rfl, hfacts⟩ := Bool.and_eq_true_iff.mp hfacts
  rw [hcreate, Option.map_some, Option.some.injEq, decide_eq_true_eq] at hwait
  have hundisturbed : Undisturbed greeting.srcIp n₁ :=
    ⟨fun x hx hrec hip ↦ (hwait x hx hrec hip).1, fun x hx hrec hip ↦ (hwait x hx hrec hip).2⟩
  have hmeet : Meets greeting waitingStation n₁ := ⟨by decide +kernel, by decide +kernel, hcreate⟩
  have hsorted : (waitingStation.brkList.map brkKey).Pairwise (· ≤ ·) := by decide
  have hordered : BrkOrdered waitingStation.brkList := ⟨List.pairwise_map.mp hsorted, by decide⟩
  obtain ⟨turns, n₂, hscan, -, -, hiff⟩ :=
    recovery_scan_complete_iff waitingStation_wellFormed hordered hmeet ⟨0, 0, 0, []⟩
  rw [hscan] at hfacts
  simp only [Option.all_some, Bool.and_eq_true, beq_iff_eq] at hfacts
  obtain ⟨⟨hcalls, hlinks⟩, hsent⟩ := hfacts
  exact ⟨n₁, turns, n₂, hmeet, hscan, hiff.mpr hundisturbed, hcalls, hlinks, hsent⟩

/-- The link to 192.168.1.6 is not looked for when 192.168.1.5 comes back. -/
theorem lostStation_scan_incomplete : ¬ ∀ (n n₁ : Node) (t : Task), WellFormed n.cfg n.routing →
    BrkOrdered n.brkList → Meets t n n₁ → ∃ turns n₂,
      scanTurns t.srcIp n₁.brkList n₁ = some (turns, n₂) ∧ Complete t.srcIp n₁ n₂ turns := by
  intro h
  have hrun : ((lostStation.takeNeigh2h greeting.srcIp).2.2.createAodvNeigh greeting.srcIp).map (fun p ↦
      p.1 && (scanTurns greeting.srcIp p.2.brkList p.2).map (fun s ↦ s.1.filterMap Turn.recovery) ==
        some [.genRcvp greeting.srcIp] && (p.2.brkList.filter fun x ↦
          recoverable p.2 x && x.dstIp != greeting.srcIp) != []) = some true := by
    decide +kernel
  obtain ⟨⟨ok, n₁⟩, hcreate, hp⟩ := Option.map_eq_some_iff.mp hrun
  simp only [Bool.and_eq_true, beq_iff_eq, bne_iff_ne] at hp
  obtain ⟨⟨rfl, hcalls⟩, hother⟩ := hp
  have hordered : BrkOrdered lostStation.brkList := ⟨List.pairwise_pair.mpr (by decide), by decide⟩
  obtain ⟨turns, n₂, hscan, hcomplete⟩ := h lostStation n₁ greeting station_wellFormed hordered
    ⟨by decide, by decide, hcreate⟩
  rw [hscan, Option.map_some, Option.some.injEq] at hcalls
  have hothers := hcomplete.others
  rw [hcalls] at hothers
  exact hother (List.map_eq_nil_iff.mp (hothers.symm.trans (by decide)))

end Meeting

section Redirection

/-- The walk that keeps its calls is the walk of `recv_hello`. -/
theorem redirectCalls_node (l : List AodvRoute) (n : Node) :
    (redirectCalls l n).2 = redirectRoutes l n := by
  induction l generalizing n with
  | nil => rfl
  | cons e l ih =>
    unfold redirectCalls redirectRoutes
    split
    · rfl
    · by_cases htransit : e.srcIp ≠ e.dstIp ∧ e.srcIp ≠ n.cfg.gMeshIp
      · simp only [if_pos htransit]
        exact ih _
      · simp only [if_neg htransit]
        exact ih _

theorem genRrdp_cfg (srcIp dstIp lastHop : Ip) (tos : UInt8) (n : Node) :
    (n.genRrdp srcIp dstIp lastHop tos).cfg = n.cfg := by
  unfold genRrdp
  dsimp only
  split
  · rfl
  · rcases sendMessage_cases lastHop netDiameter (.rrdp ⟨0, dstIp, srcIp, tos⟩) n.alloc.2 with h | h
    · rw [h]
      rfl
    · rw [h]
      rfl

/-- The walk calls `gen_rrdp` for the transit routes before the first route that
is `INVALID`. -/
theorem redirectCalls_eq (l : List AodvRoute) (n : Node) :
    (redirectCalls l n).1 = ((l.takeWhile fun e ↦ e.state != .invalid).filter
      (isTransit n.cfg.gMeshIp)).map rrdpCall := by
  have hdtn : ∀ {c : Prop} [Decidable c] {a b d e : UInt32} {p : UInt16} (n₁ : Node),
      (if c then n₁.send2dtn p a b d e else n₁).cfg = n₁.cfg := by
    intro c _ a b d e p n₁
    split
    · rfl
    · rfl
  induction l generalizing n with
  | nil => rfl
  | cons e l ih =>
    unfold redirectCalls
    by_cases hstate : e.state = .invalid
    · rw [if_pos hstate, List.takeWhile_cons_of_neg (by simp [hstate])]
      rfl
    · rw [if_neg hstate, List.takeWhile_cons_of_pos (by simpa using hstate)]
      by_cases htransit : e.srcIp ≠ e.dstIp ∧ e.srcIp ≠ n.cfg.gMeshIp
      · simp only [if_pos htransit]
        rw [ih, hdtn, genRrdp_cfg, List.filter_cons_of_pos (by simpa [isTransit, hstate] using htransit)]
        rfl
      · simp only [if_neg htransit]
        rw [ih, hdtn, List.filter_cons_of_neg (by simpa [isTransit, hstate] using htransit)]
        rfl

theorem recoverLinks_routes {l : List BrkLink} (h : recoverLinks ip l n = some n') :
    n'.cfg = n.cfg ∧ n'.routing.table.map routeView = n.routing.table.map routeView := by
  induction l generalizing n with
  | nil => exact Option.some.inj h ▸ ⟨rfl, rfl⟩
  | cons x l ih =>
    unfold recoverLinks at h
    split at h
    · split at h
      · rw [← Option.some.inj h, (genRcvpLoop_frame ip _ n).2.symm]
        exact ⟨(steady_genRcvp ip n).quiet.cfg, rfl⟩
      · obtain ⟨n₁, hgen, h⟩ := Option.bind_eq_some_iff.mp h
        have hsearch := searched_genRreq hgen
        exact ⟨(ih h).1.trans hsearch.cfg, (ih h).2.trans hsearch.routes⟩
    · exact ih h

/-- The walk up to the first `INVALID` route misses no transit route exactly when
none stands after an `INVALID` one. -/
theorem takeWhile_transit_iff (gMeshIp : Ip) (l : List AodvRoute) :
    ((l.takeWhile fun e ↦ e.state != .invalid).filter (isTransit gMeshIp)).map rrdpCall =
        (l.filter (isTransit gMeshIp)).map rrdpCall ↔
      l.Pairwise fun e e' ↦ e.state = .invalid → isTransit gMeshIp e' = false := by
  induction l with
  | nil => simp
  | cons e l ih =>
    rw [List.pairwise_cons]
    by_cases hstate : e.state = .invalid
    · rw [List.takeWhile_cons_of_neg (by simp [hstate]),
        List.filter_cons_of_neg (by simp [isTransit, hstate]), eq_comm, List.filter_nil, List.map_nil,
        List.map_eq_nil_iff, List.filter_eq_nil_iff]
      simp only [Bool.not_eq_true, hstate, forall_const]
      refine ⟨fun h ↦ ⟨h, ?_⟩, And.left⟩
      exact List.pairwise_of_forall_mem_list fun _ _ e' he' _ ↦ h e' he'
    · have hvacuous : ∀ e' ∈ l, e.state = .invalid → isTransit gMeshIp e' = false :=
        fun _ _ h ↦ absurd h hstate
      rw [List.takeWhile_cons_of_pos (by simpa using hstate), and_iff_right hvacuous, ← ih]
      cases htransit : isTransit gMeshIp e with
      | true =>
        rw [List.filter_cons_of_pos htransit, List.filter_cons_of_pos htransit, List.map_cons, List.map_cons,
          List.cons_inj_right]
      | false =>
        rw [List.filter_cons_of_neg (by simp [htransit]), List.filter_cons_of_neg (by simp [htransit])]

theorem pairwise_insertBy_iff {α : Type} {r : α → α → Prop} {past : α → Bool} {x : α} (l : List α)
    (hleft : ∀ y, r y x) (hright : ∀ y, r x y) : (insertBy past x l).Pairwise r ↔ l.Pairwise r := by
  have hsplit : l.Pairwise r ↔ (l.takeWhile past ++ l.dropWhile past).Pairwise r := by
    rw [List.takeWhile_append_dropWhile]
  rw [insertBy_eq, hsplit, List.pairwise_append, List.pairwise_append, List.pairwise_cons]
  simp [hleft, hright]

/-- What the walk calls is a matter of what it sees. -/
theorem redirectCalls_congr (h : n₂.routing.table.map routeView = n₁.routing.table.map routeView)
    (hcfg : n₂.cfg = n₁.cfg) :
    (redirectCalls n₂.routing.table n₂).1 = (redirectCalls n₁.routing.table n₁).1 := by
  have hviews : ∀ n : Node, (redirectCalls n.routing.table n).1 =
      (((n.routing.table.map routeView).takeWhile fun v ↦ v.2.1 != .invalid).filter fun v ↦
        v.2.1 != .invalid && v.2.2.srcIp != v.2.2.dstIp && v.2.2.srcIp != n.cfg.gMeshIp).map
          fun v ↦ v.2.2 := by
    intro n
    rw [redirectCalls_eq, List.takeWhile_map, List.filter_map, List.map_map]
    rfl
  rw [hviews, hviews, h, hcfg]

/-- For every table: a HELLO from a new neighbour calls `gen_rrdp` once for each
usable route of another node's flow exactly when no such route stands after an
`INVALID` one. -/
theorem redirection_reaches_all_iff (hr : WellFormed n.cfg n.routing) (hmeet : Meets t n n₁)
    (hscan : recoverLinks t.srcIp n₁.brkList n₁ = some n₂) (m : Hello) :
    n.recvHello t m = some (greeted t m n n₂) ∧
      (redirectCalls n₂.routing.table n₂).2 = redirectRoutes n₂.routing.table n₂ ∧
      ((redirectCalls n₂.routing.table n₂).1 =
          (n.routing.table.filter (isTransit n.cfg.gMeshIp)).map rrdpCall ↔
        n.routing.table.Pairwise fun e e' ↦
          e.state = .invalid → isTransit n.cfg.gMeshIp e' = false) := by
  obtain ⟨hcfg, -, -, dstId, lifetime, htable⟩ := hmeet.linked hr
  obtain ⟨hcfg₂, hroutes⟩ := recoverLinks_routes hscan
  refine ⟨by rw [recvHello_meets hmeet, hscan]; rfl, redirectCalls_node _ _, ?_⟩
  have hnew : isTransit n.cfg.gMeshIp (neighEntry n.cfg n.routing.heap t.srcIp dstId lifetime) = false := by
    simp [isTransit, neighEntry, freshEntry]
  have hfilter : n₁.routing.table.filter (isTransit n.cfg.gMeshIp) =
      n.routing.table.filter (isTransit n.cfg.gMeshIp) := by
    rw [htable, filter_insertBy_of_neg hnew]
  rw [redirectCalls_congr hroutes hcfg₂, redirectCalls_eq, hcfg, ← hfilter, takeWhile_transit_iff, htable]
  exact pairwise_insertBy_iff _ (fun _ _ ↦ hnew) fun _ h ↦ nomatch h

/-- A route of 192.168.1.8 at the address `ptr`. -/
def flowEntry (ptr : ℕ) (dstIp : Ip) (state : RouteState) : AodvRoute :=
  { freshEntry ptr 0x0801a8c0 dstIp 0 1 10000 with state := state, lastHop := 0x0701a8c0 }

/-- A station with two routes of another node. -/
def busyStation (state : RouteState) : Node :=
  { station with routing := { station.routing with
      table := flowEntry 1 0x0001a8c0 state :: station.routing.table ++ [flowEntry 2 0x0901a8c0 .active]
      heap := 3 } }

theorem busyStation_wellFormed (state : RouteState) :
    WellFormed (busyStation state).cfg (busyStation state).routing where
  fresh := by cases state <;> decide
  distinct := by cases state <;> decide
  sorted := by
    have hsorted : ((busyStation state).routing.table.map dstKey).Pairwise (· ≤ ·) := by
      cases state <;> decide
    exact List.pairwise_map.mp hsorted
  localFresh := by cases state <;> decide
  localEntry := by
    have hlocal : ∀ e ∈ (busyStation state).routing.table, e.ptr = (busyStation state).routing.localRoute →
        e.srcIp = (busyStation state).cfg.gMeshIp ∧ e.dstIp = (busyStation state).cfg.gMeshIp := by
      cases state <;> decide
    exact hlocal
  neighRoute := by cases state <;> decide

theorem redirection_reaches_all_iff_busy : ∃ n₁ n₂, Meets greeting (busyStation .active) n₁ ∧
    recoverLinks greeting.srcIp n₁.brkList n₁ = some n₂ ∧
    (redirectCalls n₂.routing.table n₂).1 = [rrdpCall (flowEntry 1 0x0001a8c0 .active),
      rrdpCall (flowEntry 2 0x0901a8c0 .active)] := by
  have hrun : (((busyStation .active).takeNeigh2h greeting.srcIp).2.2.createAodvNeigh greeting.srcIp).map
      (fun p ↦ p.1 && (recoverLinks greeting.srcIp p.2.brkList p.2).isSome) = some true := by
    decide +kernel
  obtain ⟨⟨ok, n₁⟩, hcreate, hp⟩ := Option.map_eq_some_iff.mp hrun
  obtain ⟨rfl, hscan⟩ : ok = true ∧ (recoverLinks greeting.srcIp n₁.brkList n₁).isSome := by simpa using hp
  obtain ⟨n₂, hscan⟩ := Option.isSome_iff_exists.mp hscan
  have hmeet : Meets greeting (busyStation .active) n₁ := ⟨by decide, by decide, hcreate⟩
  have hcalls := (redirection_reaches_all_iff (busyStation_wellFormed .active) hmeet hscan
    ⟨0, 0, 0, []⟩).2.2.mpr (by decide)
  exact ⟨n₁, n₂, hmeet, hscan, hcalls⟩

/-- After the first `INVALID` route no flow is redirected. -/
theorem busyStation_not_redirected : ¬ ∀ (n n₁ n₂ : Node) (t : Task), WellFormed n.cfg n.routing →
    Meets t n n₁ → recoverLinks t.srcIp n₁.brkList n₁ = some n₂ →
    (redirectCalls n₂.routing.table n₂).1 =
      (n.routing.table.filter (isTransit n.cfg.gMeshIp)).map rrdpCall := by
  intro h
  have hrun : (((busyStation .invalid).takeNeigh2h greeting.srcIp).2.2.createAodvNeigh greeting.srcIp).map
      (fun p ↦ p.1 && (recoverLinks greeting.srcIp p.2.brkList p.2).map (fun n₂ ↦
        (redirectCalls n₂.routing.table n₂).1) == some []) = some true := by
    decide +kernel
  obtain ⟨⟨ok, n₁⟩, hcreate, hp⟩ := Option.map_eq_some_iff.mp hrun
  simp only [Bool.and_eq_true, beq_iff_eq] at hp
  obtain ⟨rfl, hp⟩ := hp
  obtain ⟨n₂, hscan, hcalls⟩ := Option.map_eq_some_iff.mp hp
  have hall := h (busyStation .invalid) n₁ n₂ greeting (busyStation_wellFormed .invalid)
    ⟨by decide, by decide, hcreate⟩ hscan
  rw [hcalls] at hall
  exact absurd hall (by decide)

end Redirection

end Fbaodv.Proofs.HelloScans
