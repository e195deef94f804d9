import Fbaodv.Proofs.NodeRun

namespace Fbaodv.Proofs.NodeOps

open Fbaodv.Model Fbaodv.Model.Node Fbaodv.Foundation
open Fbaodv.Proofs.RouteEffects (useEstimation_cases)
open Fbaodv.Proofs.RouteFrame Fbaodv.Proofs.RoutingInvariant Fbaodv.Proofs.HandlerSpecs
open Fbaodv.Proofs.NodeRun Relation

/-- A transmission that is neither an RREQ nor about a broken or recovered route. -/
def isSide : Sent → Prop
  | .broadcast _ m | .unicast _ _ m =>
    match m with
    | .rreq _ | .rerr _ | .rcvp _ => False
    | _ => True
  | .toDtn .. => True

/-- Routes, broken links, timers, tasks, packets and transmissions stay as they are. -/
structure Still (n n' : Node) : Prop where
  cfg : n'.cfg = n.cfg
  routing : n'.routing = n.routing
  brkList : n'.brkList = n.brkList
  timers : n'.timers = n.timers
  tasks : n'.tasks = n.tasks
  packets : n'.packets = n.packets
  sent : n'.sent = n.sent

/-- The entries are at different addresses, and so is the next one. -/
structure Addressed (r : Routing) : Prop where
  fresh : ∀ e ∈ r.table, e.ptr < r.heap
  distinct : (r.table.map AodvRoute.ptr).Nodup

/-- The tasks by which a node looks for a route. -/
def isDiscoveryType (type : TaskType) : Bool := type == .resendRreq || type == .genRreq

/-- An operation of a handler that touches neither routes nor broken links. -/
inductive SideOp : Node → Node → Prop
  | still {n n' : Node} (h : Still n n') : SideOp n n'
  | insertTimer {n : Node} (type : TaskType) (delay : ℕ) (ip : Ip) (h : isDiscoveryType type = false) :
      SideOp n (n.insertTimer type delay ip)
  | answerTimer {n : Node} (srcIp dstIp : Ip) (tos : UInt8) :
      SideOp n (n.insertTimerDir .sendRrep rrepTimer 0 srcIp dstIp tos)
  | removeTimer {n : Node} (srcIp dstIp : Ip) (tos : UInt8) (type : TaskType) :
      SideOp n (n.removeTimer srcIp dstIp tos type)
  | updateTimers {n : Node} : SideOp n n.updateTimers
  | send {n : Node} (s : Sent) (h : isSide s) : SideOp n { n with sent := n.sent ++ [s] }

/-- The destinations that the scan of the broken links looks for. -/
def recoveryDsts (ip : Ip) (n : Node) : List BrkLink → List Ip
  | [] => []
  | x :: l =>
    if x.state ≠ .invalid ∧ !n.isOverlappedWithRoute x then
      if x.dstIp = ip then [] else x.dstIp :: recoveryDsts ip n l
    else recoveryDsts ip n l

/-- Why the task `t`, which found the node as `n₀`, floods an RREQ for the flow. -/
inductive FloodsFor (n₀ : Node) (t : Task) : Ip → Ip → UInt8 → Prop
  | scheduled (htype : t.type = .genRreq) : FloodsFor n₀ t t.srcIp t.dstIp t.tos
  | dtnHello (htype : t.type = .dtnHello) : FloodsFor n₀ t n₀.cfg.gMeshIp n₀.cfg.dtnHelloIp t.tos
  | recovery {n₁ : Node} {dstIp : Ip} (htype : t.type = .recvHello)
      (hnew : isNewNeigh n₀ t.srcIp = true)
      (hcreate : (n₀.takeNeigh2h t.srcIp).2.2.createAodvNeigh t.srcIp = some (true, n₁))
      (hdst : dstIp ∈ recoveryDsts t.srcIp n₁ n₁.brkList) :
      FloodsFor n₀ t n₀.cfg.gMeshIp dstIp recoveryTos

/-- An operation of a handler that reports no broken or recovered route. -/
inductive Op (n₀ : Node) (t : Task) : Node → Node → Prop
  | side {n n' : Node} (h : SideOp n n') : Op n₀ t n n'
  | routing {n : Node} (r : Routing) (h : Addressed n.routing → Addressed r) :
      Op n₀ t n { n with routing := r }
  | sendPackets {n : Node} (srcIp dstIp : Ip) (tos : UInt8) :
      Op n₀ t n { n with packets := n.packets.ipqSendIp srcIp dstIp tos }
  | forward {n : Node} {m : Rreq} (ttl : UInt8) (htype : t.type = .recvRreq)
      (hsource : n₀.cfg.gMeshIp ≠ m.srcIp) :
      Op n₀ t n { n with sent := n.sent ++ [.broadcast ttl (.rreq m)] }
  | flood {n n' : Node} {srcIp dstIp : Ip} {tos : UInt8} (h : FloodsFor n₀ t srcIp dstIp tos)
      (h' : n.genRreq srcIp dstIp tos = some n') : Op n₀ t n n'
  | resend {n n' : Node} (htype : t.type = .resendRreq) (h : n.resendRreq t = some n') : Op n₀ t n n'

def SideOps : Node → Node → Prop := ReflTransGen SideOp

def Ops (n₀ : Node) (t : Task) : Node → Node → Prop := ReflTransGen (Op n₀ t)

/-- A handler with the one place in which it may report a broken or recovered
route. -/
inductive Handling (n : Node) (t : Task) (n' : Node) : Prop
  | plain (h : Ops n t n n')
  | genRerr {n₁ n₂ : Node} {ip : Ip} (h₁ : SideOps n n₁) (h : n₁.genRerr ip = some n₂)
      (h₂ : SideOps n₂ n')
  | recvRerr {m : Rerr} (h : n.recvRerr t m = some n')
  | genRcvp {n₁ : Node} {ip : Ip} (h₁ : Ops n t n n₁) (h₂ : Ops n t (n₁.genRcvp ip) n')
  | recvRcvp {m : Rcvp} (h : n' = n.recvRcvp m)

section Side

variable {n n' n'' : Node}

theorem still_of_eq (hcfg : n'.cfg = n.cfg) (hrouting : n'.routing = n.routing)
    (hbrk : n'.brkList = n.brkList) (htimers : n'.timers = n.timers) (htasks : n'.tasks = n.tasks)
    (hpackets : n'.packets = n.packets) (hsent : n'.sent = n.sent) : SideOps n n' :=
  .single (.still ⟨hcfg, hrouting, hbrk, htimers, htasks, hpackets, hsent⟩)

theorem SideOps.trans (h : SideOps n n') (h' : SideOps n' n'') : SideOps n n'' :=
  ReflTransGen.trans h h'

theorem SideOps.ops {n₀ : Node} {t : Task} (h : SideOps n n') : Ops n₀ t n n' := by
  induction h with
  | refl => exact .refl
  | tail _ h ih => exact ih.tail (.side h)

theorem sideOps_modifyNeigh (ip : Ip) (f : AodvNeigh → AodvNeigh) : SideOps n (n.modifyNeigh ip f) :=
  still_of_eq rfl rfl rfl rfl rfl rfl rfl

theorem sideOps_modifyNeigh2h (ip : Ip) (f : AodvNeigh2h → AodvNeigh2h) :
    SideOps n (n.modifyNeigh2h ip f) :=
  still_of_eq rfl rfl rfl rfl rfl rfl rfl

theorem sideOps_alloc : SideOps n n.alloc.2 := still_of_eq rfl rfl rfl rfl rfl rfl rfl

theorem sideOps_getRandom : SideOps n n.getRandom.2 := still_of_eq rfl rfl rfl rfl rfl rfl rfl

theorem sideOps_insertTimer (type : TaskType) {delay : ℕ} {ip : Ip}
    (h : isDiscoveryType type = false) : SideOps n (n.insertTimer type delay ip).updateTimers :=
  .head (.insertTimer type delay ip h) (.single .updateTimers)

theorem sideOps_localBroadcast {ttl : UInt8} {m : Message} (h : isSide (.broadcast ttl m)) :
    SideOps n (n.localBroadcast ttl m) := by
  unfold localBroadcast
  split
  · exact .refl
  · exact .single (.send _ h)

theorem sideOps_sendMessage {ip : Ip} {ttl : UInt8} {m : Message} (h : isSide (.unicast ip ttl m)) :
    SideOps n (n.sendMessage ip ttl m) := by
  unfold sendMessage
  split
  · exact .refl
  split
  · exact .refl
  · exact .single (.send _ h)

theorem sideOps_send2dtn {port : UInt16} {a b c d : UInt32} : SideOps n (n.send2dtn port a b c d) :=
  .single (.send _ trivial)

theorem sideOps_ite {c : Prop} [Decidable c] {m m' : Node} (h : SideOps n m) (h' : SideOps n m') :
    SideOps n (if c then m else m') := by
  split
  · exact h
  · exact h'

theorem sideOps_updateNeighLifetime (ip : Ip) : SideOps n (n.updateNeighLifetime ip) :=
  .trans (.head (.removeTimer ip ip noTos .neighbor)
    (sideOps_insertTimer (n := n.removeTimer ip ip noTos .neighbor) .neighbor rfl))
    (sideOps_modifyNeigh ip _)

theorem sideOps_createAodvNeigh2h (ip : Ip) : SideOps n (n.createAodvNeigh2h ip).2 := by
  unfold createAodvNeigh2h
  dsimp only
  split
  · exact sideOps_alloc
  split
  · exact sideOps_alloc
  · have hlist : ∀ l, SideOps n { n.alloc.2 with aodvNeighList2h := l } :=
      fun _ ↦ still_of_eq rfl rfl rfl rfl rfl rfl rfl
    exact (hlist _).trans (sideOps_insertTimer .neighbor2h rfl)

theorem sideOps_deleteAodvNeigh2h (ip : Ip) : SideOps n (n.deleteAodvNeigh2h ip) := by
  have hlist : ∀ l, SideOps n { n with aodvNeighList2h := l } :=
    fun _ ↦ still_of_eq rfl rfl rfl rfl rfl rfl rfl
  unfold deleteAodvNeigh2h
  split
  · exact (hlist _).tail .updateTimers
  · exact .refl

theorem sideOps_refreshNeigh2h (ip : Ip) : SideOps n (n.refreshNeigh2h ip) := by
  unfold refreshNeigh2h
  split
  · exact sideOps_createAodvNeigh2h ip
  · exact .trans (.head (.removeTimer ip ip noTos .neighbor2h)
      (sideOps_insertTimer (n := n.removeTimer ip ip noTos .neighbor2h) .neighbor2h rfl))
      (sideOps_modifyNeigh2h ip _)

theorem sideOps_recvHelloExtensions (orig : Ip) (m : Hello) (l : List HelloExtension) :
    SideOps n (recvHelloExtensions orig m l n) := by
  induction l generalizing n with
  | nil => exact .refl
  | cons ext l ih =>
    unfold recvHelloExtensions
    split
    · dsimp only
      split
      · exact sideOps_modifyNeigh _ _
      · exact (sideOps_modifyNeigh _ _).trans ih
    · refine SideOps.trans ?_ ih
      split
      · unfold recvHelloExtension
        refine SideOps.trans ?_ (sideOps_modifyNeigh _ _)
        split
        · exact sideOps_modifyNeigh _ _
        · exact (sideOps_refreshNeigh2h _).trans (sideOps_modifyNeigh2h _ _)
      · exact .refl

theorem sideOps_helloFromNeigh (ip : Ip) (m : Hello) : SideOps n (n.helloFromNeigh ip m) := by
  unfold helloFromNeigh
  refine (sideOps_updateNeighLifetime ip).trans ?_
  dsimp only
  split
  · exact .refl
  · generalize hn₁ : (n.updateNeighLifetime ip).modifyNeigh ip _ = n₁
    have h₁ : SideOps (n.updateNeighLifetime ip) n₁ := hn₁ ▸ sideOps_modifyNeigh _ _
    refine h₁.trans (SideOps.trans ?_ (sideOps_recvHelloExtensions ip m m.ext))
    split
    · exact sideOps_modifyNeigh _ _
    · exact .refl

theorem sideOps_redirectRoutes (l : List AodvRoute) : SideOps n (redirectRoutes l n) := by
  have hrrdp : ∀ (srcIp dstIp lastHop : Ip) (tos : UInt8) (n₁ : Node),
      SideOps n₁ (n₁.genRrdp srcIp dstIp lastHop tos) := by
    intro srcIp dstIp lastHop tos n₁
    unfold genRrdp
    dsimp only
    split
    · exact sideOps_alloc
    · exact sideOps_alloc.trans (sideOps_sendMessage trivial)
  induction l generalizing n with
  | nil => exact .refl
  | cons e l ih =>
    unfold redirectRoutes
    split
    · exact .refl
    · dsimp only
      generalize hm : (if e.srcIp ≠ e.dstIp ∧ e.srcIp ≠ n.cfg.gMeshIp then _ else n) = m
      have hq : SideOps n m := hm ▸ sideOps_ite (hrrdp _ _ _ _ _) .refl
      exact (hq.trans (sideOps_ite sideOps_send2dtn .refl)).trans ih

theorem sideOps_sendEttInfo (ip : Ip) (myRate : UInt16) (fixed : UInt8) :
    SideOps n (n.sendEttInfo ip myRate fixed) := by
  unfold sendEttInfo
  dsimp only
  split
  · exact sideOps_alloc
  split
  · exact sideOps_alloc
  · exact sideOps_alloc.trans (sideOps_sendMessage trivial)

theorem sideOps_reloadEttCleanup (ip : Ip) : SideOps n (n.reloadEttCleanup ip) :=
  .head (.removeTimer ip ip noTos .ettCleanup)
    (sideOps_insertTimer (n := n.removeTimer ip ip noTos .ettCleanup) .ettCleanup rfl)

theorem sideOps_unlinkNeigh (ip : Ip) : SideOps n (n.unlinkNeigh ip) := by
  have hlist : ∀ l, SideOps n { n with aodvNeighList := l } :=
    fun _ ↦ still_of_eq rfl rfl rfl rfl rfl rfl rfl
  unfold unlinkNeigh
  dsimp only
  split
  · exact ((hlist _).tail (.removeTimer ip ip noTos .sendEtt)).trans
      (.head (.removeTimer ip ip noTos .ettCleanup) (.single .updateTimers))
  · exact hlist _

theorem sideOps_sendProbe (ip : Ip) : SideOps n (n.sendProbe ip) := by
  have hpair : ∀ (ip : Ip) (s : SProbe) (l : LProbe) (n₁ : Node),
      SideOps n₁ (n₁.sendEttProbe ip s l) := by
    intro ip s l n₁
    unfold sendEttProbe
    split
    · exact .refl
    · have hs : SideOp n₁ { n₁ with sent := n₁.sent ++ [.unicast ip 1 (.sprobe s)] } := .send _ trivial
      have hl : SideOp { n₁ with sent := n₁.sent ++ [.unicast ip 1 (.sprobe s)] }
          { n₁ with sent := n₁.sent ++ [.unicast ip 1 (.sprobe s)] ++ [.unicast ip 1 (.lprobe l)] } :=
        .send _ trivial
      rw [List.append_assoc] at hl
      exact .head hs (.single hl)
  have hrate : ∀ (x : AodvNeigh) (n₁ : Node), SideOps n₁ (n₁.sendRateProbe x).2 := by
    intro x n₁
    unfold sendRateProbe
    split
    · exact sideOps_sendEttInfo _ _ _
    dsimp only
    split
    · exact sideOps_alloc
    split
    · exact sideOps_alloc.trans sideOps_alloc
    · exact (sideOps_alloc.trans sideOps_alloc).trans (hpair _ _ _ _)
  unfold sendProbe
  split
  · exact .refl
  next x _ =>
  have hcount : SideOps n { n with countSend := n.nextCountSend } :=
    still_of_eq rfl rfl rfl rfl rfl rfl rfl
  dsimp only
  split
  · exact (hcount.trans (hrate x _)).trans (sideOps_insertTimer .sendEtt rfl)
  · exact hcount.trans (hrate x _)

theorem sideOps_genHello : SideOps n n.genHello := by
  have hext : ∀ (l : List AodvNeigh) (ext : List HelloExtension) (n₁ : Node),
      SideOps n₁ (helloExtensions l ext n₁).2 := by
    intro l
    induction l with
    | nil => exact fun _ _ ↦ .refl
    | cons x l ih =>
      intro ext n₁
      unfold helloExtensions
      dsimp only
      split
      · exact sideOps_alloc
      · exact sideOps_alloc.trans (ih _ _)
  have hsend : ∀ (ext : List HelloExtension) (n₁ : Node), SideOps n₁ (n₁.sendHello ext) := by
    intro ext n₁
    unfold sendHello
    dsimp only
    split
    · exact sideOps_alloc
    generalize hn₂ : n₁.alloc.2.localBroadcast 1 (.hello (n₁.alloc.2.helloOf ext)) = n₂
    have h₂ : SideOps n₁ n₂ := hn₂ ▸ sideOps_alloc.trans (sideOps_localBroadcast trivial)
    generalize hn₃ : (n₂.getRandom.2.insertTimer .hello _ _).updateTimers = n₃
    have h₃ : SideOps n₁ n₃ :=
      hn₃ ▸ (h₂.trans sideOps_getRandom).trans (sideOps_insertTimer .hello rfl)
    have hcount : ∀ c, SideOps n₁ { n₃ with count := c } :=
      fun c ↦ h₃.trans (still_of_eq rfl rfl rfl rfl rfl rfl rfl)
    split
    · split
      · exact (hcount 0).trans (still_of_eq rfl rfl rfl rfl rfl rfl rfl)
      · exact hcount 0
    · exact hcount _
  unfold genHello
  split
  · have h₁ := hext n.aodvNeighList [] n
    split
    · next n₁ heq =>
      rw [heq] at h₁
      exact h₁
    · next ext n₁ heq =>
      rw [heq] at h₁
      exact h₁.trans (hsend ext n₁)
  · exact hsend [] n

theorem sideOps_recvRrdp (t : Task) (m : Rrdp) : SideOps n (n.recvRrdp t m).2 := by
  unfold recvRrdp
  split
  · exact .refl
  split
  · exact .refl
  split
  · split
    · dsimp only
      exact sideOps_sendMessage trivial
    · exact .refl
  · exact sideOps_ite sideOps_send2dtn .refl

theorem sideOps_recvSprobe (t : Task) (m : SProbe) : SideOps n (n.recvSprobe t m) := by
  unfold recvSprobe
  split
  · exact .refl
  · exact sideOps_modifyNeigh _ _

theorem sideOps_recvRreqSt (t : Task) (m : RreqSt) : SideOps n (n.recvRreqSt t m) := by
  rcases recvRreqSt_cases t m n with heq | ⟨x, gwList, kmalloc, -, hlast⟩
  · rw [heq]
    exact .refl
  have hgw : SideOps n { n.updateNeighLifetime x.ip with gwList := gwList, kmalloc := kmalloc } :=
    (sideOps_updateNeighLifetime x.ip).trans (still_of_eq rfl rfl rfl rfl rfl rfl rfl)
  rcases hlast with heq | ⟨m', heq⟩
  · rw [heq]
    exact hgw
  · rw [heq]
    exact hgw.trans (sideOps_localBroadcast trivial)

end Side

section Routes

variable {cfg : Config} {r r' : Routing}

theorem Addressed.entries (hr : Addressed r) (hheap : r'.heap = r.heap)
    (h : r'.table.map AodvRoute.ptr = r.table.map AodvRoute.ptr) : Addressed r' where
  fresh := by
    intro e' he'
    have : e'.ptr ∈ r.table.map AodvRoute.ptr := h ▸ List.mem_map_of_mem he'
    obtain ⟨e, he, hptr⟩ := List.mem_map.mp this
    rw [hheap, ← hptr]
    exact hr.fresh e he
  distinct := h ▸ hr.distinct

theorem Addressed.table (hr : Addressed r) (hheap : r'.heap = r.heap) (h : r'.table = r.table) :
    Addressed r' := hr.entries hheap (by rw [h])

theorem Addressed.modifyAt (hr : Addressed r) (ptr : ℕ) {f : AodvRoute → AodvRoute}
    (hf : ∀ e, (f e).ptr = e.ptr) : Addressed (r.modifyAt ptr f) := by
  refine hr.entries rfl ?_
  simp only [Routing.modifyAt, List.map_map]
  refine List.map_congr_left fun e _ ↦ ?_
  simp only [Function.comp_apply]
  split
  · exact hf e
  · rfl

theorem Addressed.touches (hr : Addressed r) (h : Touches cfg r r') : Addressed r' :=
  hr.entries h.heap (Pointwise.map_eq h.entries fun htouch ↦ htouch.ptr)

theorem Addressed.inserts (hr : Addressed r) {new : AodvRoute} (h : Inserts new r r') : Addressed r' where
  fresh := by
    intro e he
    rw [h.heap]
    rcases h.mem.mp he with rfl | he
    · rw [h.ptr]
      exact Nat.lt_succ_self _
    · exact Nat.lt_succ_of_lt (hr.fresh e he)
  distinct := by
    have hperm := (OrderedList.insertBy_perm (fun e ↦ e.dstIp < new.dstIp) new r.table).map AodvRoute.ptr
    rw [h.table]
    refine hperm.nodup_iff.mpr (List.nodup_cons.mpr ⟨fun hmem ↦ ?_, hr.distinct⟩)
    obtain ⟨e, he, hptr⟩ := List.mem_map.mp hmem
    have hlt := hr.fresh e he
    rw [hptr, h.ptr] at hlt
    exact Nat.lt_irrefl _ hlt

theorem Addressed.createAodvRoute (hr : Addressed r) {srcIp dstIp : Ip} {tos : UInt8} {dstId : UInt32}
    {o : Option AodvRoute} (h : r.createAodvRoute srcIp dstIp tos dstId = (o, r')) : Addressed r' := by
  unfold Routing.createAodvRoute at h
  split at h
  · exact (Prod.mk.inj h).2 ▸ hr.table rfl rfl
  · next hmem =>
    obtain ⟨-, rfl⟩ := Prod.mk.inj h
    exact hr.inserts ⟨by simpa using hmem, rfl, rfl, rfl, rfl, rfl, rfl, rfl, rfl, rfl⟩

theorem Addressed.sublist (hr : Addressed r) (hheap : r'.heap = r.heap)
    (h : r'.table.Sublist r.table) : Addressed r' where
  fresh := fun e he ↦ hheap ▸ hr.fresh e (h.subset he)
  distinct := hr.distinct.sublist (h.map _)

theorem Addressed.srcOnly (hr : Addressed r) (h : SrcOnly r r') : Addressed r' :=
  hr.table h.heap h.table

theorem Addressed.newRoute (hr : Addressed r) {byRrep ok : Bool} {srcIp : Ip} {k : KernelRoute}
    (h : r.newRoute cfg byRrep srcIp k = (ok, r')) : Addressed r' :=
  hr.table (newRoute_table h).2.1 (newRoute_table h).1

theorem Addressed.delRoute (hr : Addressed r) {ok : Bool} {srcIp : Ip} {k : KernelRoute}
    (h : r.delRoute cfg srcIp k = (ok, r')) : Addressed r' :=
  hr.table (delRoute_table h).2.1 (delRoute_table h).1

theorem Addressed.rreqEntry (hr : Addressed r) {srcIp dstIp : Ip} {tos : UInt8}
    {dstId pathMetric : UInt32} {o : Option (AodvRoute × RouteState)}
    (h : r.rreqEntry cfg srcIp dstIp tos dstId pathMetric = (o, r')) : Addressed r' := by
  have hspec := rreqEntry_spec cfg srcIp dstIp tos dstId pathMetric r
  rw [h] at hspec
  cases hspec with
  | full _ htouch => exact hr.touches htouch
  | unlisted _ _ hins hsrc => exact (hr.inserts hins).srcOnly hsrc
  | created _ _ hins hsrc => exact (hr.inserts hins).srcOnly hsrc
  | rejected => exact hr
  | refused _ hdel => exact hr.delRoute hdel
  | invalid => exact hr
  | withdrawn _ _ _ hdel => exact hr.delRoute hdel

theorem Addressed.rreqAodvRoute (hr : Addressed r) {now : ℕ} {srcIp dstIp : Ip} {tos : UInt8}
    {nextHop : Ip} {sendRate : UInt16} {hops : UInt8} {dstId pathMetric : UInt32} {ok : Bool}
    (h : r.rreqAodvRoute cfg now srcIp dstIp tos nextHop sendRate hops dstId pathMetric =
      some (ok, r')) : Addressed r' := by
  rcases rreqAodvRoute_cases h with ⟨-, heq, -⟩ | ⟨-, e, st, r₁, heq, -, htouch⟩
  · exact hr.rreqEntry heq
  · refine Addressed.touches ((hr.rreqEntry heq).modifyAt e.ptr ?_) htouch
    exact fun _ ↦ rfl

theorem Addressed.rrepAodvRoute (hr : Addressed r) {now ptr : ℕ} {o : Option AodvRoute}
    (h : r.rrepAodvRoute cfg now ptr = some (o, r')) : Addressed r' := by
  obtain ⟨e, -, ⟨-, -, rfl⟩ | ⟨hnew, -⟩ | ⟨r₁, -, hnew, -, rfl⟩⟩ := rrepAodvRoute_cases h
  · exact hr
  · exact hr.newRoute hnew
  · exact (hr.newRoute hnew).modifyAt ptr fun _ ↦ rfl

theorem Addressed.flushAodvRouteTable (hr : Addressed r) (now : ℕ) :
    Addressed (r.flushAodvRouteTable cfg now) := by
  refine flushAodvRouteTable_induct hr (fun r₁ e hr₁ ↦ ?_) fun r₁ hr₁ ↦
    hr₁.touches (touches_updateMyLoad cfg r₁)
  have hspec := flushEntry_spec cfg now r₁ e
  generalize r₁.flushEntry cfg now e = r₂ at hspec
  cases hspec with
  | kept => exact hr₁
  | expired => exact hr₁.touches (touches_expireAodvRoute cfg now e.ptr r₁)
  | forgotten => exact hr₁.sublist rfl List.filter_sublist
  | @removed r₃ r₄ r₅ _ _ _ _ h₃ h₄ h₅ =>
    have hr₄ : Addressed r₄ := by
      rw [h₄]
      split
      · exact hr₁.srcOnly h₃
      · exact (hr₁.srcOnly h₃).delRoute rfl
    exact (hr₄.srcOnly h₅).sublist rfl List.filter_sublist

end Routes

section Handlers

variable {n₀ n n' : Node} {t : Task}

theorem ops_routing {r : Routing} (h : Addressed n.routing → Addressed r) :
    Ops n₀ t n { n with routing := r } := .single (.routing r h)

theorem ops_setLastHop (ptr : ℕ) (ip : Ip) : Ops n₀ t n (n.setLastHop ptr ip) :=
  ops_routing fun hr ↦ hr.modifyAt ptr fun _ ↦ rfl

theorem ops_setNextHop (ptr : ℕ) (ip : Ip) : Ops n₀ t n (n.setNextHop ptr ip) :=
  ops_routing fun hr ↦ hr.modifyAt ptr fun _ ↦ rfl

theorem ops_bumpLocalDstId : Ops n₀ t n n.bumpLocalDstId :=
  ops_routing fun hr ↦ hr.modifyAt n.routing.localRoute fun _ ↦ rfl

theorem ops_createRoute {srcIp dstIp : Ip} {tos : UInt8} {dstId : UInt32} {o : Option AodvRoute}
    (h : n.createRoute srcIp dstIp tos dstId = (o, n')) : Ops n₀ t n n' := by
  obtain ⟨-, rfl⟩ := Prod.mk.inj h
  exact ops_routing fun hr ↦ hr.createAodvRoute rfl

theorem ops_rreqRoute {srcIp dstIp : Ip} {tos : UInt8} {x : AodvNeigh} {hops : UInt8}
    {dstId pathMetric : UInt32} {ok : Bool}
    (h : n.rreqRoute srcIp dstIp tos x hops dstId pathMetric = some (ok, n')) : Ops n₀ t n n' := by
  obtain ⟨⟨ok', r⟩, hroute, h⟩ := Option.bind_eq_some_iff.mp h
  obtain ⟨-, rfl⟩ := Prod.mk.inj (Option.some.inj h)
  exact ops_routing fun hr ↦ hr.rreqAodvRoute hroute

theorem ops_rrepRoute {ptr : ℕ} (h : n.rrepRoute ptr = some n') : Ops n₀ t n n' := by
  obtain ⟨⟨o, r⟩, hroute, h⟩ := Option.bind_eq_some_iff.mp h
  have hops : Ops n₀ t n { n with routing := r } := ops_routing fun hr ↦ hr.rrepAodvRoute hroute
  cases o with
  | none => exact Option.some.inj h ▸ hops
  | some e =>
    obtain rfl := Option.some.inj h
    exact hops.tail (.sendPackets (n := { n with routing := r }) e.srcIp e.dstIp e.tos)

theorem ops_recvRreq {m : Rreq} (htype : t.type = .recvRreq) (h : n₀.recvRreq t m = some n') :
    Ops n₀ t n₀ n' := by
  unfold recvRreq at h
  split at h
  · exact Option.some.inj h ▸ .refl
  split at h
  · exact Option.some.inj h ▸ .refl
  next x _ =>
  refine (sideOps_updateNeighLifetime x.ip).ops.trans ?_
  dsimp only at h
  split at h
  · exact Option.some.inj h ▸ .refl
  next hsource =>
  split at h
  · exact Option.some.inj h ▸ .refl
  obtain ⟨pathMetric, -, h⟩ := Option.bind_eq_some_iff.mp h
  cases pathMetric with
  | none => exact Option.some.inj h ▸ .refl
  | some pathMetric =>
    obtain ⟨⟨ok, n₁⟩, hroute, h⟩ := Option.bind_eq_some_iff.mp h
    refine (ops_rreqRoute hroute).trans ?_
    obtain rfl := Option.some.inj h
    cases ok with
    | false => exact .refl
    | true =>
      simp only [if_true]
      unfold acceptRreq
      split
      · split
        · exact .refl
        · exact .head (.side (.answerTimer _ _ _)) (.single (.side .updateTimers))
      · dsimp only
        generalize hn₂ : (if (n₁.dtnRegister && decide (m.dttl ≥ 1)) = true then _ else n₁) = n₂
        have h₂ : SideOps n₁ n₂ := hn₂ ▸ sideOps_ite sideOps_send2dtn .refl
        refine h₂.ops.trans ?_
        unfold localBroadcast
        split
        · exact .refl
        · refine .single (.forward _ htype ?_)
          exact hsource

theorem ops_rrepRouteEntry {src : AodvRoute} {srcIp dstIp : Ip} {tos : UInt8} {o : Option AodvRoute}
    (h : n.rrepRouteEntry src srcIp dstIp tos = some (o, n')) : Ops n₀ t n n' := by
  unfold rrepRouteEntry at h
  split at h
  · obtain ⟨dstId, -, h⟩ := Option.bind_eq_some_iff.mp h
    refine ops_bumpLocalDstId.trans ?_
    split at h
    · next hcreate =>
      simp only [Option.some.injEq, Prod.mk.injEq] at h
      exact h.2 ▸ ops_createRoute hcreate
    · next hcreate =>
      simp only [Option.some.injEq, Prod.mk.injEq] at h
      refine (ops_createRoute hcreate).trans ?_
      exact h.2 ▸ (ops_setNextHop _ _).trans (ops_setLastHop _ _)
  · simp only [Option.some.injEq, Prod.mk.injEq] at h
    exact h.2 ▸ .refl

theorem ops_answerRrep {ptr : ℕ} {tos dttl : UInt8} (h : n.answerRrep ptr tos dttl = some n') :
    Ops n₀ t n n' := by
  obtain ⟨dstId, -, h⟩ := Option.bind_eq_some_iff.mp h
  obtain ⟨src, -, h⟩ := Option.bind_eq_some_iff.mp h
  obtain ⟨n₁, hroute, h⟩ := Option.bind_eq_some_iff.mp h
  have hjunk : SideOps n.bumpLocalDstId
      { n.bumpLocalDstId with junk := n.bumpLocalDstId.junk.tail } :=
    still_of_eq rfl rfl rfl rfl rfl rfl rfl
  refine ops_bumpLocalDstId.trans (hjunk.ops.trans ((ops_rrepRoute hroute).trans ?_))
  obtain rfl := Option.some.inj h
  exact (ops_setLastHop ptr src.srcIp).trans (sideOps_sendMessage (m := .rrep _) trivial).ops

theorem ops_genRrep {srcIp dstIp : Ip} {tos : UInt8} (h : n.genRrep srcIp dstIp tos = some n') :
    Ops n₀ t n n' := by
  unfold genRrep at h
  dsimp only at h
  split at h
  · exact Option.some.inj h ▸ sideOps_alloc.ops
  refine sideOps_alloc.ops.trans ?_
  split at h
  · exact Option.some.inj h ▸ .refl
  refine sideOps_alloc.ops.trans ?_
  split at h
  · exact Option.some.inj h ▸ .refl
  obtain ⟨⟨o, n₁⟩, hentry, h⟩ := Option.bind_eq_some_iff.mp h
  refine (ops_rrepRouteEntry hentry).trans ?_
  cases o with
  | none => exact Option.some.inj h ▸ .refl
  | some src => exact ops_answerRrep h

theorem ops_rrepRecvRoute {m m' : Rrep} {o : Option AodvRoute}
    (h : n.rrepRecvRoute m = some (o, m', n')) : Ops n₀ t n n' := by
  unfold rrepRecvRoute at h
  dsimp only at h
  split at h
  · split at h
    · simp only [Option.some.injEq, Prod.mk.injEq] at h
      exact h.2.2 ▸ .refl
    · split at h
      · cases h
      · next hcreate =>
        simp only [Option.some.injEq, Prod.mk.injEq] at h
        refine (ops_createRoute hcreate).trans ?_
        exact h.2.2 ▸ (ops_setLastHop _ _).trans (ops_setNextHop _ _)
  · simp only [Option.some.injEq, Prod.mk.injEq] at h
    exact h.2.2 ▸ .refl

theorem ops_recvRrepForward {m : Rrep} {x : AodvNeigh} (h : n.recvRrepForward m x = some n') :
    Ops n₀ t n n' := by
  obtain ⟨⟨o, m', n₁⟩, hrecv, h⟩ := Option.bind_eq_some_iff.mp h
  refine (ops_rrepRecvRoute hrecv).trans ?_
  cases o with
  | none => exact Option.some.inj h ▸ .refl
  | some recv =>
    obtain ⟨⟨ok, n₂⟩, hroute, h⟩ := Option.bind_eq_some_iff.mp h
    refine (ops_rreqRoute hroute).trans ?_
    dsimp only at h
    split at h
    · exact Option.some.inj h ▸ .refl
    obtain ⟨n₃, hn₃, h⟩ := Option.bind_eq_some_iff.mp h
    obtain ⟨n₄, hn₄, h⟩ := Option.bind_eq_some_iff.mp h
    obtain ⟨recv', -, h⟩ := Option.bind_eq_some_iff.mp h
    obtain ⟨send', -, h⟩ := Option.bind_eq_some_iff.mp h
    refine (ops_rrepRoute hn₃).trans ((ops_rrepRoute hn₄).trans ?_)
    obtain rfl := Option.some.inj h
    exact ((ops_setLastHop _ _).trans (ops_setLastHop _ _)).trans
      (sideOps_sendMessage (m := .rrep _) trivial).ops

/-- The source of a flow cancels the next RREQ, and the last thing it does with
an RREP is to report the recovered links. -/
theorem ops_recvRrepSource (n₀ : Node) (t : Task) {m : Rrep} {x : AodvNeigh}
    (h : n.recvRrepSource m x = some n') :
    ∃ n₁ n₂, Ops n₀ t n n₁ ∧ Ops n₀ t (n₁.removeTimer m.srcIp m.dstIp m.tos .resendRreq) n₂ ∧
      (n' = n₂ ∨ n' = n₂.genRcvp m.dstIp) := by
  obtain ⟨⟨ok, n₁⟩, hroute, h⟩ := Option.bind_eq_some_iff.mp h
  refine ⟨n₁, ?_⟩
  have h₁ : Ops n₀ t n n₁ := .head (.side .updateTimers) (ops_rreqRoute hroute)
  dsimp only at h
  split at h
  · exact ⟨_, h₁, .refl, .inl (Option.some.inj h).symm⟩
  next e _ =>
  obtain ⟨n₃, hn₃, h⟩ := Option.bind_eq_some_iff.mp h
  have hrep : Ops n₀ t _ n₃ := ops_rrepRoute hn₃
  have h₃ := hrep.trans (ops_setLastHop e.ptr n₃.cfg.gMeshIp)
  generalize n₃.setLastHop e.ptr n₃.cfg.gMeshIp = n₃' at h h₃
  generalize hn₄ : (if m.dttl > 0 then _ else n₃') = n₄ at h
  have h₄ : Ops n₀ t (n₁.removeTimer m.srcIp m.dstIp m.tos .resendRreq) n₄ :=
    hn₄ ▸ h₃.trans (sideOps_ite sideOps_send2dtn .refl).ops
  split at h
  · exact ⟨n₄, h₁, h₄, .inr (Option.some.inj h).symm⟩
  · exact ⟨n₄, h₁, h₄, .inl (Option.some.inj h).symm⟩

theorem handling_recvRrep {m : Rrep} (h : n₀.recvRrep t m = some n') : Handling n₀ t n' := by
  unfold recvRrep at h
  split at h
  · exact Option.some.inj h ▸ .plain .refl
  next x _ =>
  have hneigh : Ops n₀ t n₀ (n₀.updateNeighLifetime x.ip) := (sideOps_updateNeighLifetime x.ip).ops
  dsimp only at h
  split at h
  · obtain ⟨n₁, n₂, h₁, h₂, hn'⟩ := ops_recvRrepSource n₀ t h
    have hall := ((hneigh.trans h₁).tail (.side (.removeTimer _ _ _ _))).trans h₂
    rcases hn' with hn' | hn'
    · exact hn' ▸ .plain hall
    · exact hn' ▸ .genRcvp hall .refl
  · exact .plain (hneigh.trans (ops_recvRrepForward h))

theorem ops_genStRreq (h : n.genStRreq = some n') : Ops n₀ t n n' := by
  unfold genStRreq at h
  split at h
  · exact Option.some.inj h ▸ .refl
  dsimp only at h
  split at h
  · exact Option.some.inj h ▸ sideOps_alloc.ops
  split at h
  · exact Option.some.inj h ▸ sideOps_alloc.ops
  · next e _ =>
    refine sideOps_alloc.ops.trans ?_
    have hbump : Ops n₀ t n.alloc.2 { n.alloc.2 with
        routing := n.alloc.2.routing.modifyAt e.ptr fun e ↦ { e with dstId := e.dstId + 1 } } :=
      ops_routing fun hr ↦ hr.modifyAt e.ptr fun _ ↦ rfl
    obtain rfl := Option.some.inj h
    exact hbump.trans ((sideOps_localBroadcast (m := .strreq _) trivial).trans
      (sideOps_insertTimer .st rfl)).ops

theorem ops_routeAodvNeigh {ip : Ip} {ok : Bool} (h : n.routeAodvNeigh ip = some (ok, n')) :
    Ops n₀ t n n' := by
  obtain ⟨dstId, -, h⟩ := Option.bind_eq_some_iff.mp h
  split at h
  · next hcreate =>
    simp only [Option.some.injEq, Prod.mk.injEq] at h
    exact h.2 ▸ ops_routing fun hr ↦ hr.createAodvRoute hcreate
  next e r hcreate =>
  refine (ops_routing fun hr ↦ hr.createAodvRoute hcreate).trans ?_
  dsimp only at h
  refine ReflTransGen.trans (b := { n with routing := r.modifyAt e.ptr fun e ↦
    { e with numHops := 1, pathMetric := 1, state := .active, neighRoute := true, selfRoute := true } })
    ?_ ?_
  · exact ops_routing fun hr ↦ hr.modifyAt e.ptr fun _ ↦ rfl
  split at h
  · simp only [Option.some.injEq, Prod.mk.injEq] at h
    exact h.2 ▸ .refl
  split at h
  · simp only [Option.some.injEq, Prod.mk.injEq] at h
    exact h.2 ▸ ops_routing fun hr ↦ hr.newRoute rfl
  · simp only [Option.some.injEq, Prod.mk.injEq] at h
    exact h.2 ▸ ops_routing fun hr ↦ (hr.newRoute rfl).table rfl rfl

theorem ops_createAodvNeigh {ip : Ip} {ok : Bool} (h : n.createAodvNeigh ip = some (ok, n')) :
    Ops n₀ t n n' := by
  have hlink : ∀ n₁ : Node, SideOps n₁ (linkNeigh ip n₁) :=
    fun _ ↦ still_of_eq rfl rfl rfl rfl rfl rfl rfl
  cases createAodvNeigh_inv h with
  | refused => exact sideOps_alloc.ops
  | noRoute _ _ hroute => exact sideOps_alloc.ops.trans (ops_routeAodvNeigh hroute)
  | linked _ _ hroute => exact (sideOps_alloc.ops.trans (ops_routeAodvNeigh hroute)).trans (hlink _).ops
  | @probed n₁ _ _ hroute =>
    have hprobe := (SideOps.trans (hlink n₁) sideOps_getRandom).tail
      (.insertTimer .sendEtt (ettJitterDelay (linkNeigh ip n₁).getRandom.1 ip) ip rfl)
    exact (sideOps_alloc.ops.trans (ops_routeAodvNeigh hroute)).trans
      (SideOps.trans hprobe (sideOps_insertTimer .ettCleanup rfl)).ops

/-- The RREQ of a flow goes out and its timer is armed. -/
structure Flooded (n : Node) (srcIp dstIp : Ip) (tos retries : UInt8) (m : Rreq) (n' : Node) : Prop where
  cfg : n'.cfg = n.cfg
  routing : n'.routing = n.bumpLocalDstId.routing
  brkList : n'.brkList = n.brkList
  tasks : n'.tasks = n.tasks
  packets : n'.packets = n.packets
  sent : n'.sent = n.sent ++ [.broadcast netDiameter (.rreq m)]
  flow : m.srcIp = srcIp ∧ m.dstIp = dstIp ∧ m.tos = tos
  timers : n'.timers =
    (n.insertTimerDir .resendRreq 0 retries srcIp dstIp tos).updateTimers.timers
  fresh : m.numHops = 0 ∧ m.pathMetric = 0

theorem genRreq_cases {srcIp dstIp : Ip} {tos : UInt8} (h : n.genRreq srcIp dstIp tos = some n') :
    (n.kmalloc.next = false ∧ n' = n.alloc.2) ∨ ∃ m, Flooded n srcIp dstIp tos rreqRetries m n' := by
  unfold genRreq at h
  dsimp only at h
  split at h
  · next hmem => exact .inl ⟨by simpa [alloc] using hmem, (Option.some.inj h).symm⟩
  · obtain ⟨dstId, -, h⟩ := Option.bind_eq_some_iff.mp h
    obtain rfl := Option.some.inj h
    exact .inr ⟨_, rfl, rfl, rfl, rfl, rfl, rfl, ⟨rfl, rfl, rfl⟩, rfl, rfl, rfl⟩

theorem resendRreq_cases (h : n.resendRreq t = some n') :
    t.retries ≤ 0 ∧ n' = { n with packets := n.packets.ipqDropIp t.srcIp t.dstIp t.tos } ∨
      ¬t.retries ≤ 0 ∧ (n.kmalloc.next = false ∧ n' = n.alloc.2 ∨
        ∃ m, Flooded n t.srcIp t.dstIp t.tos (t.retries - 1).toUInt8 m n') := by
  unfold resendRreq at h
  split at h
  · next hret => exact .inl ⟨hret, (Option.some.inj h).symm⟩
  · next hret =>
    refine .inr ⟨hret, ?_⟩
    dsimp only at h
    split at h
    · next hmem => exact .inl ⟨by simpa [alloc] using hmem, (Option.some.inj h).symm⟩
    · obtain ⟨dstId, -, h⟩ := Option.bind_eq_some_iff.mp h
      obtain rfl := Option.some.inj h
      exact .inr ⟨_, rfl, rfl, rfl, rfl, rfl, rfl, ⟨rfl, rfl, rfl⟩, rfl, rfl, rfl⟩

theorem Op.frame (h : Op n₀ t n n') : n'.cfg = n.cfg ∧ n'.brkList = n.brkList := by
  cases h with
  | side h =>
    cases h with
    | still h => exact ⟨h.cfg, h.brkList⟩
    | _ => exact ⟨rfl, rfl⟩
  | routing | sendPackets | forward => exact ⟨rfl, rfl⟩
  | flood _ h =>
    rcases genRreq_cases h with ⟨-, rfl⟩ | ⟨m, h⟩
    · exact ⟨rfl, rfl⟩
    · exact ⟨h.cfg, h.brkList⟩
  | resend _ h =>
    rcases resendRreq_cases h with ⟨-, rfl⟩ | ⟨-, ⟨-, rfl⟩ | ⟨m, h⟩⟩
    · exact ⟨rfl, rfl⟩
    · exact ⟨rfl, rfl⟩
    · exact ⟨h.cfg, h.brkList⟩

theorem Ops.frame (h : Ops n₀ t n n') : n'.cfg = n.cfg ∧ n'.brkList = n.brkList := by
  induction h with
  | refl => exact ⟨rfl, rfl⟩
  | tail _ h ih => exact ⟨h.frame.1.trans ih.1, h.frame.2.trans ih.2⟩

/-- Only the destinations and sources of the table matter. -/
theorem isOverlapped_congr (x : BrkLink)
    (h : n'.routing.table.map (fun e ↦ (e.dstIp, e.srcIp)) =
      n.routing.table.map fun e ↦ (e.dstIp, e.srcIp)) :
    n'.isOverlappedWithRoute x = n.isOverlappedWithRoute x := by
  have hpairs : ∀ n₁ : Node, n₁.isOverlappedWithRoute x =
      (OrderedList.findRun (fun e : Ip × Ip ↦ e.1 < x.lastAvailIp) (fun e ↦ e.1 == x.lastAvailIp)
        (fun e ↦ e.2 == x.srcIp) (n₁.routing.table.map fun e ↦ (e.dstIp, e.srcIp))).isSome := by
    intro n₁
    rw [← OrderedList.findRun_map, Option.isSome_map]
    rfl
  rw [hpairs, hpairs, h]

/-- A new neighbour lets the node look for the destinations of its broken
links, until one of them is the neighbour itself. -/
theorem ops_recoverLinks {n₁ : Node} {l : List BrkLink} (htype : t.type = .recvHello)
    (hnew : isNewNeigh n₀ t.srcIp = true)
    (hcreate : (n₀.takeNeigh2h t.srcIp).2.2.createAodvNeigh t.srcIp = some (true, n₁))
    (hl : recoveryDsts t.srcIp n₁ l ⊆ recoveryDsts t.srcIp n₁ n₁.brkList) (hcfg : n.cfg = n₀.cfg)
    (hover : ∀ x, n.isOverlappedWithRoute x = n₁.isOverlappedWithRoute x)
    (h : recoverLinks t.srcIp l n = some n') :
    Ops n₀ t n n' ∨ ∃ n₂, Ops n₀ t n n₂ ∧ n' = n₂.genRcvp t.srcIp := by
  induction l generalizing n with
  | nil => exact .inl (Option.some.inj h ▸ .refl)
  | cons x l ih =>
    unfold recoverLinks at h
    rw [hover x] at h
    rw [recoveryDsts] at hl
    split at h
    · next hvalid =>
      rw [if_pos hvalid] at hl
      split at h
      · exact .inr ⟨n, .refl, (Option.some.inj h).symm⟩
      · next hip =>
        rw [if_neg hip] at hl
        obtain ⟨hdst, hl⟩ := List.cons_subset.mp hl
        obtain ⟨n₂, hgen, h⟩ := Option.bind_eq_some_iff.mp h
        have hflood : Op n₀ t n n₂ := .flood (.recovery htype hnew hcreate hdst) (hcfg ▸ hgen)
        have hover₂ : ∀ y, n₂.isOverlappedWithRoute y = n₁.isOverlappedWithRoute y := by
          intro y
          rw [← hover y]
          rcases genRreq_cases hgen with ⟨-, rfl⟩ | ⟨m, hm⟩
          · rfl
          · refine isOverlapped_congr y ?_
            rw [hm.routing]
            simp only [bumpLocalDstId, Routing.modifyAt, List.map_map]
            refine List.map_congr_left fun e _ ↦ ?_
            simp only [Function.comp_apply]
            split <;> rfl
        rcases ih hl (hflood.frame.1.trans hcfg) hover₂ h with h₃ | ⟨n₃, h₃, hn'⟩
        · exact .inl (.head hflood h₃)
        · exact .inr ⟨n₃, .head hflood h₃, hn'⟩
    · next hinvalid =>
      rw [if_neg hinvalid] at hl
      exact ih hl hcfg hover h

theorem handling_recvHello {m : Hello} (htype : t.type = .recvHello) (h : n₀.recvHello t m = some n') :
    Handling n₀ t n' := by
  unfold recvHello at h
  split at h
  · exact Option.some.inj h ▸ .plain .refl
  next hblack =>
  split at h
  · exact Option.some.inj h ▸ .plain (sideOps_helloFromNeigh _ _).ops
  next hnone =>
  obtain ⟨⟨ok, n₁⟩, hhello, h⟩ := Option.bind_eq_some_iff.mp h
  obtain ⟨⟨ok₂, n₂⟩, hcreate, hhello⟩ := Option.bind_eq_some_iff.mp hhello
  have htake : SideOps n₀ (n₀.takeNeigh2h t.srcIp).2.2 := by
    unfold takeNeigh2h
    split
    · exact sideOps_deleteAodvNeigh2h _
    · exact .refl
  have h₂ : Ops n₀ t n₀ n₂ := htake.ops.trans (ops_createAodvNeigh hcreate)
  cases ok₂ with
  | false =>
    simp only [Bool.not_false, if_true, Option.some.injEq, Prod.mk.injEq] at hhello
    obtain ⟨rfl, rfl⟩ := hhello
    exact Option.some.inj h ▸ .plain h₂
  | true =>
    obtain ⟨n₃, hrecover, hhello⟩ := Option.bind_eq_some_iff.mp hhello
    simp only [Option.some.injEq, Prod.mk.injEq] at hhello
    obtain ⟨rfl, rfl⟩ := hhello
    have hload := (sideOps_redirectRoutes (n := n₃) n₃.routing.table).trans
      (sideOps_modifyNeigh t.srcIp fun x ↦ { x with loadMetric := { x.loadMetric with
        load := (n₀.takeNeigh2h t.srcIp).1, loadSeq := (n₀.takeNeigh2h t.srcIp).2.1 } })
    have hrest : Ops n₀ t n₃ _ := (hload.trans (sideOps_helloFromNeigh t.srcIp m)).ops
    have hnew : isNewNeigh n₀ t.srcIp = true := by simpa [isNewNeigh, hnone] using hblack
    obtain rfl := Option.some.inj h
    rcases ops_recoverLinks htype hnew hcreate (List.Subset.refl _) h₂.frame.1 (fun _ ↦ rfl)
      hrecover with h₃ | ⟨n₄, h₄, rfl⟩
    · exact .plain ((h₂.trans h₃).trans hrest)
    · exact .genRcvp (h₂.trans h₄) hrest

theorem resetEtt_genRerr {ip : Ip} (h : n.resetEtt ip = some n') :
    ∃ n₁, SideOps n n₁ ∧ n₁.genRerr ip = some n' := by
  refine ⟨_, ?_, h⟩
  have hreset : SideOps n ((n.removeTimer ip ip noTos .sendEtt).modifyNeigh ip resetEttNeigh) :=
    .head (.removeTimer ip ip noTos .sendEtt) (sideOps_modifyNeigh ip resetEttNeigh)
  generalize (n.removeTimer ip ip noTos .sendEtt).modifyNeigh ip resetEttNeigh = n₁ at hreset ⊢
  have hprobe := (hreset.trans sideOps_getRandom).tail
    (.insertTimer .sendEtt (ettJitterDelay n₁.getRandom.1 ip) ip rfl)
  exact SideOps.trans hprobe (sideOps_insertTimer .ettCleanup rfl)

theorem useEstimation_genRerr {ip : Ip} {ett : EttParams} {recvDelay : UInt32}
    (h : n.useEstimation ip ett recvDelay = some n') :
    SideOps n n' ∨ ∃ n₁ n₂, SideOps n n₁ ∧ n₁.genRerr ip = some n₂ ∧ SideOps n₂ n' := by
  cases useEstimation_cases h with
  | again _ _ _ hreset =>
    obtain ⟨n₁, h₁, hgen⟩ := resetEtt_genRerr hreset
    exact .inr ⟨n₁, _, h₁, hgen, sideOps_sendEttInfo _ _ _⟩
  | secondRound => exact .inl ((sideOps_modifyNeigh _ _).trans (sideOps_sendEttInfo _ _ _))
  | widen => exact .inl (sideOps_modifyNeigh _ _)
  | unusable _ _ hreset =>
    obtain ⟨n₁, h₁, hgen⟩ := resetEtt_genRerr hreset
    exact .inr ⟨n₁, n', h₁, hgen, .refl⟩
  | rated =>
    exact .inl (((sideOps_modifyNeigh _ _).trans (sideOps_modifyNeigh _ _)).trans (sideOps_sendEttInfo _ _ _))

theorem computeEstimation_genRerr {ip : Ip} (h : n.computeEstimation ip = some n') :
    SideOps n n' ∨ ∃ n₁ n₂, SideOps n n₁ ∧ n₁.genRerr ip = some n₂ ∧ SideOps n₂ n' := by
  obtain ⟨x, -, h⟩ := Option.bind_eq_some_iff.mp h
  dsimp only at h
  have hcount := sideOps_modifyNeigh (n := n) ip
    (updateEtt fun _ ↦ { x.ett with countRcv := x.ett.countRcv + 1 })
  split at h
  · exact .inl (Option.some.inj h ▸ hcount)
  have hdelay := hcount.trans (sideOps_modifyNeigh ip
    (updateEtt fun _ ↦ (computeDelay { x.ett with countRcv := x.ett.countRcv + 1 }).2))
  rcases useEstimation_genRerr h with h | ⟨n₁, n₂, h₁, hgen, h₂⟩
  · exact .inl (hdelay.trans h)
  · exact .inr ⟨n₁, n₂, hdelay.trans h₁, hgen, h₂⟩

/-- The work on a probe, with at most one report of a broken link. -/
def Probing (n n' : Node) : Prop :=
  SideOps n n' ∨ ∃ ip n₁ n₂, SideOps n n₁ ∧ n₁.genRerr ip = some n₂ ∧ SideOps n₂ n'

theorem Probing.handling (h : Probing n₀ n') : Handling n₀ t n' := by
  rcases h with h | ⟨ip, n₁, n₂, h₁, hgen, h₂⟩
  · exact .plain h.ops
  · exact .genRerr h₁ hgen h₂

theorem recvLprobe_probing {m : LProbe} (h : n₀.recvLprobe t m = some n') : Probing n₀ n' := by
  unfold recvLprobe at h
  split at h
  · exact Option.some.inj h ▸ .inl .refl
  have hneigh := sideOps_updateNeighLifetime (n := n₀) t.srcIp
  dsimp only at h
  split at h
  · exact Option.some.inj h ▸ .inl hneigh
  obtain ⟨n₁, hn₁, rfl⟩ := Option.map_eq_some_iff.mp h
  have h₂ := (hneigh.trans (sideOps_reloadEttCleanup t.srcIp)).trans (sideOps_modifyNeigh t.srcIp
    fun x ↦ { x with ett := { x.ett with measDelay := probeDelay x.ett m }, recvRate := m.myRate })
  split at hn₁
  · have h₃ := h₂.trans (sideOps_modifyNeigh t.srcIp (updateEtt (delayVectorAdd m.lastMeasDelay)))
    rcases computeEstimation_genRerr hn₁ with h₄ | ⟨n₄, n₅, h₄, hgen, h₅⟩
    · exact .inl ((h₃.trans h₄).trans (sideOps_modifyNeigh _ _))
    · exact .inr ⟨_, n₄, n₅, h₃.trans h₄, hgen, h₅.trans (sideOps_modifyNeigh _ _)⟩
  · exact Option.some.inj hn₁ ▸ .inl (h₂.trans (sideOps_modifyNeigh _ _))

theorem recvEttInfo_probing {m : EttInfo} (h : n₀.recvEttInfo t m = some n') : Probing n₀ n' := by
  unfold recvEttInfo at h
  split at h
  · exact Option.some.inj h ▸ .inl .refl
  obtain ⟨n₁, hn₁, rfl⟩ := Option.map_eq_some_iff.mp h
  have h₂ := (sideOps_updateNeighLifetime (n := n₀) t.srcIp).trans
    (sideOps_modifyNeigh t.srcIp fun x ↦ { x with recvRate := m.myRate })
  dsimp only at hn₁
  split at hn₁
  · have h₃ := ((h₂.trans (sideOps_modifyNeigh t.srcIp (updateEtt fun e ↦ { e with fixedRate := 1 }))).trans
      (sideOps_reloadEttCleanup t.srcIp)).trans
        (sideOps_modifyNeigh t.srcIp (updateEtt (delayVectorAdd m.lastMeasDelay)))
    split at hn₁
    · rcases computeEstimation_genRerr hn₁ with h₄ | ⟨n₄, n₅, h₄, hgen, h₅⟩
      · exact .inl ((h₃.trans h₄).trans (sideOps_modifyNeigh _ _))
      · exact .inr ⟨_, n₄, n₅, h₃.trans h₄, hgen, h₅.trans (sideOps_modifyNeigh _ _)⟩
    · exact Option.some.inj hn₁ ▸ .inl (h₃.trans (sideOps_modifyNeigh _ _))
  · exact Option.some.inj hn₁ ▸ .inl (h₂.trans (sideOps_modifyNeigh _ _))

theorem ops_flushRoutes : Ops n₀ t n n.flushRoutes :=
  (ops_routing fun hr ↦ hr.flushAodvRouteTable n.now).trans
    (sideOps_insertTimer (n := { n with routing := n.routing.flushAodvRouteTable n.cfg n.now })
      .cleanup rfl).ops

/-- Every task is handled by such operations, with at most one report of broken
or recovered routes. -/
theorem handle_ops (h : n.handle t = some n') : Handling n t n' := by
  unfold handle at h
  split at h
  · next htype => exact .plain (.single (.flood (.dtnHello htype) h))
  · exact handling_recvRrep h
  · exact .recvRerr h
  · next htype _ => exact handling_recvHello htype h
  · exact .recvRcvp (Option.some.inj h).symm
  · exact Option.some.inj h ▸ .plain (sideOps_recvRrdp _ _).ops
  · exact Option.some.inj h ▸ .plain ops_flushRoutes
  · exact Option.some.inj h ▸ .plain sideOps_genHello.ops
  · exact .plain (ops_genStRreq h)
  · have hgw : SideOps n n.updateGwLifetimes := still_of_eq rfl rfl rfl rfl rfl rfl rfl
    exact Option.some.inj h ▸ .plain (hgw.trans (sideOps_insertTimer .gwCleanup rfl)).ops
  · unfold deleteAodvNeigh at h
    split at h
    · exact .genRerr (sideOps_unlinkNeigh _) h .refl
    · exact Option.some.inj h ▸ .plain .refl
  · exact Option.some.inj h ▸ .plain ops_flushRoutes
  · exact Option.some.inj h ▸ .plain (sideOps_sendProbe _).ops
  · exact Option.some.inj h ▸ .plain (sideOps_recvSprobe _ _).ops
  · exact (recvLprobe_probing h).handling
  · obtain ⟨x, -, h⟩ := Option.bind_eq_some_iff.mp h
    obtain ⟨n₁, h₁, hgen⟩ := resetEtt_genRerr h
    exact .genRerr h₁ hgen .refl
  · exact Option.some.inj h ▸ .plain (sideOps_deleteAodvNeigh2h _).ops
  · next htype _ => exact .plain (ops_recvRreq htype h)
  · next htype => exact .plain (.single (.resend htype h))
  · exact (recvEttInfo_probing h).handling
  · exact .plain (ops_genRrep h)
  · exact Option.some.inj h ▸ .plain (sideOps_recvRreqSt _ _).ops
  · exact Option.some.inj h ▸ .plain (ops_routing fun hr ↦ hr.touches (touches_updateMyLoad n.cfg _))
  · next htype => exact .plain (.single (.flood (.scheduled htype) h))
  · exact Option.some.inj h ▸ .plain .refl

end Handlers

section Reports

/-- An operation by which a node reports broken or recovered routes. -/
inductive ReportOp : Node → Node → Prop
  | side {n n' : Node} (h : SideOp n n') : ReportOp n n'
  | routing {n : Node} {r : Routing} (h : Touches n.cfg n.routing r) (h' : Soft n.routing r) :
      ReportOp n { n with routing := r }
  | links {n : Node} (l : List BrkLink) : ReportOp n { n with brkList := l }
  | rerr {n : Node} (ip : Ip) (m : Rerr) : ReportOp n (n.sendMessage ip netDiameter (.rerr m))
  | rcvp {n : Node} (ip : Ip) (m : Rcvp) : ReportOp n (n.sendMessage ip netDiameter (.rcvp m))

def ReportOps : Node → Node → Prop := ReflTransGen ReportOp

variable {n n' : Node}

theorem SideOps.reportOps (h : SideOps n n') : ReportOps n n' := by
  induction h with
  | refl => exact .refl
  | tail _ h ih => exact ih.tail (.side h)

theorem reportOps_dtn {c : Prop} [Decidable c] {port : UInt16} {x y z w : UInt32} :
    ReportOps n (if c then n.send2dtn port x y z w else n) :=
  (sideOps_ite sideOps_send2dtn .refl).reportOps

theorem reportOps_recordBrkLink {srcIp dstIp lastHop lastAvail : Ip}
    (h : n.recordBrkLink srcIp dstIp lastHop lastAvail = some n') : ReportOps n n' := by
  have hflush : ∀ {m m' : Node}, m.flushBrkList = some m' → ReportOps m m' := by
    intro m m' hm
    obtain ⟨l, -, hl⟩ := Option.bind_eq_some_iff.mp hm
    exact Option.some.inj hl ▸ .single (.links l)
  unfold recordBrkLink at h
  split at h
  · exact .head (.links _) (hflush h)
  · refine ReflTransGen.trans ?_ (hflush h)
    unfold createBrkLink
    dsimp only
    split
    · exact sideOps_alloc.reportOps
    · exact sideOps_alloc.reportOps.tail (.links _)

theorem reportOps_genRerrRoute {e : AodvRoute} {go : Bool} (h : n.genRerrRoute e = some (go, n')) :
    ReportOps n n' := by
  unfold genRerrRoute at h
  split at h
  · split at h
    · dsimp only at h
      split at h
      · simp only [Option.some.injEq, Prod.mk.injEq] at h
        exact h.2 ▸ sideOps_alloc.reportOps
      · obtain ⟨n₁, hrecord, h⟩ := Option.bind_eq_some_iff.mp h
        simp only [Option.some.injEq, Prod.mk.injEq] at h
        obtain ⟨-, rfl⟩ := h
        refine ReflTransGen.trans ?_ (reportOps_recordBrkLink hrecord)
        refine ReflTransGen.tail ?_ (.rerr e.lastHop _)
        exact sideOps_alloc.reportOps.trans reportOps_dtn
    · simp only [Option.some.injEq, Prod.mk.injEq] at h
      exact h.2 ▸ .refl
  · obtain ⟨n₁, hrecord, h⟩ := Option.bind_eq_some_iff.mp h
    simp only [Option.some.injEq, Prod.mk.injEq] at h
    obtain ⟨-, rfl⟩ := h
    exact reportOps_dtn.trans (reportOps_recordBrkLink hrecord)

theorem reportOps_genRerr {ip : Ip} (h : n.genRerr ip = some n') : ReportOps n n' := by
  have hloop : ∀ (l : List AodvRoute) (k : ℕ) (k' : Option ℕ) (n₁ n₂ : Node),
      genRerrLoop ip l k n₁ = some (k', n₂) → ReportOps n₁ n₂ := by
    intro l
    induction l with
    | nil =>
      intro k k' n₁ n₂ h
      simp only [genRerrLoop, Option.some.injEq, Prod.mk.injEq] at h
      exact h.2 ▸ .refl
    | cons e l ih =>
      intro k k' n₁ n₂ h
      unfold genRerrLoop at h
      split at h
      · obtain ⟨⟨go, n₃⟩, hroute, h⟩ := Option.bind_eq_some_iff.mp h
        refine (reportOps_genRerrRoute hroute).trans ?_
        dsimp only at h
        split at h
        · simp only [Option.some.injEq, Prod.mk.injEq] at h
          exact h.2 ▸ .refl
        split at h
        · exact .head (.routing (touches_expireAodvRoute _ _ _ _) (soft_expireAodvRoute _ _ _)) (ih _ _ _ _ h)
        · exact ih _ _ _ _ h
      · exact ih _ _ _ _ h
  obtain ⟨⟨k, n₁⟩, h₁, h⟩ := Option.bind_eq_some_iff.mp h
  refine (hloop _ _ _ _ _ h₁).trans ?_
  dsimp only at h
  split at h
  · exact Option.some.inj h ▸ .refl
  split at h
  · exact Option.some.inj h ▸ .single (.routing (touches_updateMyLoad _ _) (soft_updateMyLoad _))
  · exact Option.some.inj h ▸ .refl

theorem Probing.reportOps (h : Probing n n') : ReportOps n n' := by
  rcases h with h | ⟨ip, n₁, n₂, h₁, hgen, h₂⟩
  · exact h.reportOps
  · exact (h₁.reportOps.trans (reportOps_genRerr hgen)).trans h₂.reportOps

theorem reportOps_recvRerr {t : Task} {m : Rerr} (h : n.recvRerr t m = some n') :
    ReportOps n n' := by
  unfold recvRerr at h
  dsimp only at h
  generalize hn₁ : (if n.dtnRegister = true then _ else n) = n₁ at h
  have h₁ : ReportOps n n₁ := hn₁ ▸ reportOps_dtn
  refine h₁.trans ?_
  split at h
  · exact Option.some.inj h ▸ .refl
  split at h
  · exact Option.some.inj h ▸ .refl
  next e _ _ =>
  obtain ⟨n₂, hroute, h⟩ := Option.bind_eq_some_iff.mp h
  have h₂ : ReportOps n₁ n₂ := by
    unfold recvRerrRoute at hroute
    split at hroute
    · split at hroute
      · exact .head (.rerr e.lastHop _) (reportOps_recordBrkLink hroute)
      · exact Option.some.inj hroute ▸ .refl
    · exact reportOps_recordBrkLink hroute
  refine h₂.trans ?_
  split at h
  · rw [← Option.some.inj h]
    have hexpire : ReportOps n₂ (n₂.expireRoute e.ptr) :=
      .single (.routing (touches_expireAodvRoute _ _ _ _) (soft_expireAodvRoute _ _ _))
    split
    · exact hexpire.tail (.routing (touches_updateMyLoad _ _) (soft_updateMyLoad _))
    · exact hexpire
  · exact Option.some.inj h ▸ .refl

theorem reportOps_genRcvp (dstIp : Ip) (n : Node) : ReportOps n (n.genRcvp dstIp) := by
  have hloop : ∀ (l : List BrkLink) (n₁ : Node), ReportOps n₁ (genRcvpLoop dstIp l n₁) := by
    intro l
    induction l with
    | nil => exact fun _ ↦ .refl
    | cons x l ih =>
      intro n₁
      unfold genRcvpLoop
      split
      · exact .refl
      split
      · dsimp only
        split
        · exact sideOps_alloc.reportOps
        · refine ReflTransGen.trans ?_ (ih _)
          refine (ReflTransGen.tail ?_ (.rcvp x.lastHop _)).tail (.links _)
          exact sideOps_alloc.reportOps.trans reportOps_dtn
      · exact (reportOps_dtn.tail (.links _)).trans (ih _)
  exact hloop _ _

theorem reportOps_recvRcvp (m : Rcvp) (n : Node) : ReportOps n (n.recvRcvp m) := by
  unfold recvRcvp
  dsimp only
  generalize hn₁ : (if n.dtnRegister = true then _ else n) = n₁
  have h₁ : ReportOps n n₁ := hn₁ ▸ reportOps_dtn
  refine h₁.trans ?_
  split
  · exact .refl
  next x _ =>
  split
  · exact .single (.links _)
  split
  · exact sideOps_alloc.reportOps
  · exact (sideOps_alloc.reportOps.tail (.rcvp x.lastHop _)).tail (.links _)

theorem sideOps_routing (h : SideOps n n') : n'.routing = n.routing := by
  induction h with
  | refl => rfl
  | tail _ h ih =>
    refine Eq.trans ?_ ih
    cases h with
    | still h => exact h.routing
    | _ => rfl

theorem sendMessage_cases (ip : Ip) (ttl : UInt8) (m : Message) (n : Node) :
    n.sendMessage ip ttl m = n ∨
      n.sendMessage ip ttl m = { n with sent := n.sent ++ [.unicast ip ttl m] } := by
  unfold sendMessage
  split
  · exact .inl rfl
  split
  · exact .inl rfl
  · exact .inr rfl

theorem sendMessage_frame (ip : Ip) (ttl : UInt8) (m : Message) (n : Node) :
    (n.sendMessage ip ttl m).timers = n.timers ∧ (n.sendMessage ip ttl m).routing = n.routing := by
  rcases sendMessage_cases ip ttl m n with h | h
  · rw [h]
    exact ⟨rfl, rfl⟩
  · rw [h]
    exact ⟨rfl, rfl⟩

theorem reportOps_soft (h : ReportOps n n') : Soft n.routing n'.routing := by
  induction h with
  | refl => exact .refl _
  | tail _ h ih =>
    refine ih.trans ?_
    cases h with
    | side h => exact sideOps_routing (.single h) ▸ .refl _
    | routing _ h => exact h
    | links => exact .refl _
    | rerr | rcvp => exact (sendMessage_frame _ _ _ _).2 ▸ .refl _

theorem reportOps_discovery (h : ReportOps n n') {t : Task} (ht : t ∈ n'.timers.queue)
    (htype : isDiscoveryType t.type = true) : t ∈ n.timers.queue := by
  have hinsert : ∀ {q : TimerQueue} {new : Task}, isDiscoveryType new.type = false →
      t ∈ (q.insert new).queue → t ∈ q.queue := by
    intro q new hnew ht
    unfold TimerQueue.insert at ht
    split at ht
    · rcases OrderedList.mem_insertBy.mp ht with rfl | ht
      · rw [hnew] at htype
        cases htype
      · exact ht
    · exact ht
  induction h with
  | refl => exact ht
  | tail _ h ih =>
    refine ih ?_
    cases h with
    | side h =>
      cases h with
      | still h => exact h.timers ▸ ht
      | insertTimer type delay ip hnew => exact hinsert hnew ht
      | answerTimer => exact hinsert rfl ht
      | removeTimer => exact List.mem_of_mem_eraseP ht
      | updateTimers => rwa [updateTimers, updateTimerQueue_queue] at ht
      | send => exact ht
    | routing | links => exact ht
    | rerr | rcvp => rwa [(sendMessage_frame _ _ _ _).1] at ht

end Reports

section Hooks

variable {n n' : Node}

/-- An operation of the kernel's hooks and timers between two tasks, in the
event `e` that found the node as `n₀`. -/
inductive HookOp (n₀ : Node) (e : Event) : Node → Node → Prop
  | side {n n' : Node} (h : SideOp n n') : HookOp n₀ e n n'
  | routing {n : Node} (r : Routing) (h : Addressed n.routing → Addressed r) :
      HookOp n₀ e n { n with routing := r }
  | arrival {n : Node} (t : Task) (h : isDiscoveryType t.type = false) :
      HookOp n₀ e n (n.queueTask t)
  | miss {n n₁ : Node} (skb : Skb) (he : e = .output skb)
      (h : n₀.outputHandler skb = some (.queue, n₁)) :
      HookOp n₀ e n (n.queueTaskAtFront
        { createTask .genRreq n.now with
          srcIp := n₀.flowAddr skb.saddr, dstIp := n₀.flowAddr skb.daddr, tos := skb.tos })
  | enqueue {n : Node} (skb : Skb) :
      HookOp n₀ e n { n with packets := (n.packets.ipqEnqueue skb).2 }
  | signal {n : Node} : HookOp n₀ e n n.signal

def HookOps (n₀ : Node) (e : Event) : Node → Node → Prop := ReflTransGen (HookOp n₀ e)

variable {n₀ : Node} {e : Event}

theorem SideOps.hookOps (h : SideOps n n') : HookOps n₀ e n n' := by
  induction h with
  | refl => exact .refl
  | tail _ h ih => exact ih.tail (.side h)

theorem sideOps_dtnInput (p : Packet) : SideOps n (n.dtnInput p) := by
  have hstill : ∀ (n₁ : Node) (b : Bool) (x y : UInt32),
      SideOps n₁ { n₁ with dtnRegister := b, longitude := x, latitude := y } :=
    fun _ _ _ _ ↦ still_of_eq rfl rfl rfl rfl rfl rfl rfl
  unfold dtnInput
  dsimp only
  generalize hn₁ : (if (!n.dtnRegister && p.udpDest == dtnRegisterPort) = true then _ else n) = n₁
  have h₁ : SideOps n n₁ := by
    rw [← hn₁]
    split
    · exact hstill n true n.longitude n.latitude
    · exact .refl
  generalize hn₂ : (if (n₁.dtnRegister && p.udpDest == getDtnHello) = true then _ else n₁) = n₂
  have h₂ : SideOps n₁ n₂ := by
    rw [← hn₂]
    split
    · exact sideOps_insertTimer .dtnHello rfl
    · exact .refl
  refine (h₁.trans h₂).trans ?_
  split
  · exact (hstill n₂ n₂.dtnRegister _ _).trans (.head (.answerTimer _ _ _) (.single .updateTimers))
  · exact .refl

theorem hookOps_inputHandler (p : Packet) : HookOps n₀ e n (n.inputHandler p).2 := by
  have hdtn : HookOps n₀ e n (n.dtnInput p) := (sideOps_dtnInput p).hookOps
  have hinsert : ∀ (m : Message) (n₁ : Node), HookOps n₀ e n₁ (n₁.insertTask p m) := by
    intro m n₁
    unfold insertTask
    dsimp only
    split
    · exact sideOps_alloc.hookOps
    split
    · exact (sideOps_alloc.trans sideOps_alloc).hookOps
    · refine (sideOps_alloc.trans sideOps_alloc).hookOps.tail (.arrival _ ?_)
      cases m
      all_goals rfl
  unfold inputHandler
  dsimp only
  split
  · exact hdtn
  split
  · unfold packetIn
    split
    · exact hdtn
    split
    · exact hdtn
    · exact hdtn.trans (hinsert _ _)
  · exact hdtn

theorem hookOps_outputHandler {skb : Skb} {v : Verdict} (h : n.outputHandler skb = some (v, n')) :
    HookOps n (.output skb) n n' := by
  have hqueue : v = .queue → n.outputHandler skb = some (.queue, n') := fun hv ↦ hv ▸ h
  have hsame : ∀ {w : Verdict}, some (w, n) = some (v, n') → HookOps n (.output skb) n n' := by
    intro w heq
    simp only [Option.some.injEq, Prod.mk.injEq] at heq
    exact heq.2 ▸ .refl
  unfold outputHandler at h
  split at h
  · exact hsame h
  dsimp only at h
  split at h
  · exact hsame h
  split at h
  · split at h
    · split at h
      · cases h
      · simp only [Option.some.injEq, Prod.mk.injEq] at h
        exact h.2 ▸ sideOps_alloc.hookOps.tail (.miss skb rfl (hqueue h.1.symm))
    · split at h
      · exact hsame h
      · exact hsame h
  · next e _ =>
    have hlifetime : ∀ n₁ : Node, HookOps n (.output skb) n₁ { n₁ with
        routing := n₁.routing.modifyAt e.ptr fun e ↦
          { e with lifetime := n.now + activeRouteTimeout } } :=
      fun n₁ ↦ .single (.routing _ fun hr ↦ hr.modifyAt e.ptr fun _ ↦ rfl)
    have hactive : HookOps n (.output skb) n { n with
        routing := n.routing.modifyAt e.ptr fun e ↦ { e with state := .active } } :=
      .single (.routing _ fun hr ↦ hr.modifyAt e.ptr fun _ ↦ rfl)
    simp only [Option.some.injEq, Prod.mk.injEq] at h
    obtain ⟨-, rfl⟩ := h
    split
    · split
      · exact (hactive.tail (.side (.insertTimer .updateLoad 1 _ rfl))).trans (hlifetime _)
      · exact hactive.trans (hlifetime _)
    · exact hlifetime _

theorem mem_of_due {hz now : ℕ} {q : TimerQueue} {t : Task}
    (h : t ∈ (timerQueueSignal hz now { q with aodvTimer := none }).1) : t ∈ q.queue := by
  unfold timerQueueSignal at h
  rw [drainTimers_eq] at h
  exact (List.takeWhile_sublist _).subset h

theorem mem_of_rest {hz now : ℕ} {q : TimerQueue} {t : Task}
    (h : t ∈ (timerQueueSignal hz now { q with aodvTimer := none }).2.queue) : t ∈ q.queue := by
  unfold timerQueueSignal at h
  rw [updateTimerQueue_queue, drainTimers_eq] at h
  exact (List.dropWhile_sublist _).subset h

theorem step_ops (h : n.step e = some n') :
    HookOps n e n n' ∨ ∃ t tasks, e = .thread ∧ n.tasks.pop = (some t, tasks) ∧
      Handling { n with tasks := tasks } t n' := by
  cases e with
  | wait ms =>
    have hwait : SideOps n { n with now := n.now + ms } := still_of_eq rfl rfl rfl rfl rfl rfl rfl
    exact .inl (Option.some.inj h ▸ hwait.hookOps)
  | input p => exact .inl (Option.some.inj h ▸ hookOps_inputHandler p)
  | output skb =>
    obtain ⟨⟨v, n₁⟩, hsend, rfl⟩ := Option.map_eq_some_iff.mp h
    obtain ⟨⟨w, n₂⟩, hout, hsend⟩ := Option.bind_eq_some_iff.mp hsend
    have hops := hookOps_outputHandler hout
    dsimp only at hsend
    split at hsend
    · simp only [Option.some.injEq, Prod.mk.injEq] at hsend
      exact .inl (hsend.2 ▸ hops.tail (.enqueue skb))
    · simp only [Option.some.injEq, Prod.mk.injEq] at hsend
      exact .inl (hsend.2 ▸ hops)
  | signal => exact .inl (Option.some.inj h ▸ .single .signal)
  | thread =>
    simp only [step, threadStep] at h
    split at h
    · exact .inl (Option.some.inj h ▸ .refl)
    · next t tasks hpop => exact .inr ⟨t, tasks, rfl, hpop, handle_ops h⟩

end Hooks

end Fbaodv.Proofs.NodeOps
