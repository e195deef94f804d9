import Fbaodv.Proofs.RouteFrame
import Mathlib.Logic.Relation

namespace Fbaodv.Proofs.Background

open Fbaodv.Model Fbaodv.Model.Node Fbaodv.Foundation Fbaodv.Proofs.RouteFrame

/-- The timers that keep neighbours alive and that answer RREQs. -/
def isWatched (t : Task) : Bool :=
  t.type == .neighbor || t.type == .neighbor2h || t.type == .ettCleanup || t.type == .sendRrep

/-- A transmission that spreads no route and no load. -/
def isPlain : Sent → Prop
  | .broadcast _ m | .unicast _ _ m =>
    match m with
    | .rreq _ | .rrep _ | .hello _ | .strreq _ => False
    | _ => True
  | .toDtn .. => True

structure NeighTouch (x x' : AodvNeigh) : Prop where
  ip : x'.ip = x.ip
  lifetime : x'.lifetime = x.lifetime
  loadMetric : x'.loadMetric = x.loadMetric
  etxMetric : x.etxMetric ≤ 100 → x'.etxMetric ≤ 100

theorem NeighTouch.refl (x : AodvNeigh) : NeighTouch x x := ⟨rfl, rfl, rfl, id⟩

theorem NeighTouch.trans {x x' x'' : AodvNeigh} (h : NeighTouch x x') (h' : NeighTouch x' x'') :
    NeighTouch x x'' :=
  ⟨h'.ip.trans h.ip, h'.lifetime.trans h.lifetime, h'.loadMetric.trans h.loadMetric,
    h'.etxMetric ∘ h.etxMetric⟩

/-- What the background work of a handler leaves alone. It may send what `P`
allows. -/
structure Quiet (P : Sent → Prop) (n n' : Node) : Prop where
  cfg : n'.cfg = n.cfg
  now : n'.now = n.now
  tasks : n'.tasks = n.tasks
  dtnRegister : n'.dtnRegister = n.dtnRegister
  gwList : n'.gwList = n.gwList
  gDefaultGw : n'.gDefaultGw = n.gDefaultGw
  neigh : List.Forall₂ NeighTouch n.aodvNeighList n'.aodvNeighList
  neigh2h : n'.aodvNeighList2h = n.aodvNeighList2h
  routing : Touches n.cfg n.routing n'.routing
  timers : n'.timers.queue.filter isWatched = n.timers.queue.filter isWatched
  sent : ∃ l, n'.sent = n.sent ++ l ∧ ∀ s ∈ l, P s

section Quiet

variable {P : Sent → Prop} {n n' n'' : Node}

theorem Quiet.refl (P : Sent → Prop) (n : Node) : Quiet P n n :=
  ⟨rfl, rfl, rfl, rfl, rfl, rfl, List.forall₂_same.mpr fun x _ ↦ .refl x, rfl, .refl _ _, rfl,
    [], by simp, by simp⟩

theorem sent_trans {s s' s'' : List Sent} (h : ∃ l, s' = s ++ l ∧ ∀ x ∈ l, P x)
    (h' : ∃ l, s'' = s' ++ l ∧ ∀ x ∈ l, P x) : ∃ l, s'' = s ++ l ∧ ∀ x ∈ l, P x := by
  obtain ⟨l, rfl, hP⟩ := h
  obtain ⟨l', rfl, hP'⟩ := h'
  refine ⟨l ++ l', by rw [List.append_assoc], fun x hx ↦ ?_⟩
  rcases List.mem_append.mp hx with hx | hx
  · exact hP x hx
  · exact hP' x hx

theorem Quiet.trans (h : Quiet P n n') (h' : Quiet P n' n'') : Quiet P n n'' where
  cfg := h'.cfg.trans h.cfg
  now := h'.now.trans h.now
  tasks := h'.tasks.trans h.tasks
  dtnRegister := h'.dtnRegister.trans h.dtnRegister
  gwList := h'.gwList.trans h.gwList
  gDefaultGw := h'.gDefaultGw.trans h.gDefaultGw
  neigh := Pointwise.forall₂_trans NeighTouch.trans h.neigh h'.neigh
  neigh2h := h'.neigh2h.trans h.neigh2h
  routing := h.routing.trans (h.cfg ▸ h'.routing)
  timers := h'.timers.trans h.timers
  sent := sent_trans h.sent h'.sent

theorem Quiet.mono {Q : Sent → Prop} (h : Quiet P n n') (hPQ : ∀ s, P s → Q s) : Quiet Q n n' where
  __ := h
  sent := by
    obtain ⟨l, hl, hP⟩ := h.sent
    exact ⟨l, hl, fun s hs ↦ hPQ s (hP s hs)⟩

theorem quiet_routing {r : Routing} (h : Touches n.cfg n.routing r) :
    Quiet P n { n with routing := r } :=
  { Quiet.refl P n with routing := h }

theorem quiet_alloc : Quiet P n n.alloc.2 := { Quiet.refl P n with }

theorem quiet_brkList (l : List BrkLink) : Quiet P n { n with brkList := l } :=
  { Quiet.refl P n with }

theorem quiet_sent {s : Sent} (hs : P s) : Quiet P n { n with sent := n.sent ++ [s] } :=
  { Quiet.refl P n with sent := ⟨[s], rfl, by simpa using hs⟩ }

theorem quiet_localBroadcast {ttl : UInt8} {m : Message} (h : P (.broadcast ttl m)) :
    Quiet P n (n.localBroadcast ttl m) := by
  unfold localBroadcast
  split
  · exact .refl P n
  · exact quiet_sent h

theorem quiet_updateTimers : Quiet P n n.updateTimers :=
  { Quiet.refl P n with timers := by simp [updateTimers] }

theorem filter_insert_of_neg {p : Task → Bool} {t : TimerQueue} {new : Task} (h : p new = false) :
    (t.insert new).queue.filter p = t.queue.filter p := by
  unfold TimerQueue.insert
  split
  · exact OrderedList.filter_insertBy_of_neg h _
  · rfl

theorem quiet_insertTimerDir (type : TaskType) {delay : ℕ} {retries : UInt8} {srcIp dstIp : Ip}
    {tos : UInt8} (h : isWatched (createTask type 0) = false) :
    Quiet P n (n.insertTimerDir type delay retries srcIp dstIp tos) := by
  refine { Quiet.refl P n with timers := filter_insert_of_neg ?_ }
  split
  · exact h
  split
  · exact h
  · exact h

end Quiet

section Steady

variable {P : Sent → Prop} {n n' n'' : Node}

/-- `Quiet`, and neither a neighbour nor a timer changes. -/
structure Steady (P : Sent → Prop) (n n' : Node) : Prop extends quiet : Quiet P n n' where
  neighs : n'.aodvNeighList = n.aodvNeighList
  queue : n'.timers = n.timers

theorem Steady.refl (P : Sent → Prop) (n : Node) : Steady P n n := ⟨.refl P n, rfl, rfl⟩

theorem Steady.trans (h : Steady P n n') (h' : Steady P n' n'') : Steady P n n'' :=
  ⟨h.quiet.trans h'.quiet, h'.neighs.trans h.neighs, h'.queue.trans h.queue⟩

theorem steady_routing {r : Routing} (h : Touches n.cfg n.routing r) :
    Steady P n { n with routing := r } := ⟨quiet_routing h, rfl, rfl⟩

theorem steady_alloc : Steady P n n.alloc.2 := ⟨quiet_alloc, rfl, rfl⟩

theorem steady_brkList (l : List BrkLink) : Steady P n { n with brkList := l } :=
  ⟨quiet_brkList l, rfl, rfl⟩

theorem steady_sent {s : Sent} (hs : P s) : Steady P n { n with sent := n.sent ++ [s] } :=
  ⟨quiet_sent hs, rfl, rfl⟩

theorem steady_sendMessage {ip : Ip} {ttl : UInt8} {m : Message} (h : P (.unicast ip ttl m)) :
    Steady P n (n.sendMessage ip ttl m) := by
  unfold sendMessage
  split
  · exact .refl P n
  split
  · exact .refl P n
  · exact steady_sent h

end Steady

section Handlers

variable {n n' : Node}

theorem steady_recordBrkLink {srcIp dstIp lastHop lastAvail : Ip}
    (h : n.recordBrkLink srcIp dstIp lastHop lastAvail = some n') : Steady isPlain n n' := by
  have hflush : ∀ {m m' : Node}, m.flushBrkList = some m' → Steady isPlain m m' := fun hm ↦ by
    obtain ⟨l, -, hl⟩ := Option.bind_eq_some_iff.mp hm
    obtain rfl := Option.some.inj hl
    exact steady_brkList l
  have hcreate : Steady isPlain n (n.createBrkLink srcIp dstIp lastHop lastAvail) := by
    unfold createBrkLink
    dsimp only
    split
    · exact steady_alloc
    · exact steady_alloc.trans (steady_brkList _)
  unfold recordBrkLink at h
  split at h
  · exact (steady_brkList _).trans (hflush h)
  · exact hcreate.trans (hflush h)

theorem steady_send2dtn {port : UInt16} {a b c d : UInt32} :
    Steady isPlain n (n.send2dtn port a b c d) := steady_sent trivial

theorem steady_ite {c : Prop} [Decidable c] {P : Sent → Prop} {m m' : Node} (h : Steady P n m)
    (h' : Steady P n m') : Steady P n (if c then m else m') := by
  split
  · exact h
  · exact h'

theorem steady_genRerrRoute {e : AodvRoute} {go : Bool} (h : n.genRerrRoute e = some (go, n')) :
    Steady isPlain n n' := by
  unfold genRerrRoute at h
  split at h
  · split at h
    · dsimp only at h
      split at h
      · simp only [Option.some.injEq, Prod.mk.injEq] at h
        exact h.2 ▸ steady_alloc
      · simp only [Option.bind_eq_bind, Option.bind_eq_some_iff] at h
        obtain ⟨m, hm, h⟩ := h
        simp only [Option.some.injEq, Prod.mk.injEq] at h
        rw [← h.2]
        refine steady_alloc.trans (.trans ?_ ((steady_sendMessage trivial).trans (steady_recordBrkLink hm)))
        exact steady_ite steady_send2dtn (.refl _ _)
    · simp only [Option.some.injEq, Prod.mk.injEq] at h
      exact h.2 ▸ .refl _ _
  · simp only [Option.bind_eq_bind, Option.bind_eq_some_iff] at h
    obtain ⟨m, hm, h⟩ := h
    simp only [Option.some.injEq, Prod.mk.injEq] at h
    rw [← h.2]
    exact (steady_ite steady_send2dtn (.refl _ _)).trans (steady_recordBrkLink hm)

theorem steady_expireRoute (ptr : ℕ) (n : Node) : Steady isPlain n (n.expireRoute ptr) :=
  steady_routing (touches_expireAodvRoute _ _ _ _)

theorem steady_genRerrLoop {ip : Ip} {l : List AodvRoute} {k : ℕ} {k' : Option ℕ}
    (h : genRerrLoop ip l k n = some (k', n')) : Steady isPlain n n' := by
  induction l generalizing k n with
  | nil =>
    simp only [genRerrLoop, Option.some.injEq, Prod.mk.injEq] at h
    exact h.2 ▸ .refl _ _
  | cons e l ih =>
    simp only [genRerrLoop] at h
    split at h
    · simp only [Option.bind_eq_bind, Option.bind_eq_some_iff] at h
      obtain ⟨⟨go, m⟩, hm, h⟩ := h
      refine (steady_genRerrRoute hm).trans ?_
      dsimp only at h
      split at h
      · simp only [Option.some.injEq, Prod.mk.injEq] at h
        exact h.2 ▸ .refl _ _
      split at h
      · exact (steady_expireRoute _ _).trans (ih h)
      · exact ih h
    · exact ih h

theorem steady_updateMyLoad (n : Node) :
    Steady isPlain n { n with routing := n.routing.updateMyLoad } :=
  steady_routing (touches_updateMyLoad _ _)

theorem steady_genRerr {ip : Ip} (h : n.genRerr ip = some n') : Steady isPlain n n' := by
  simp only [genRerr, Option.bind_eq_bind, Option.bind_eq_some_iff] at h
  obtain ⟨⟨k, m⟩, hm, h⟩ := h
  refine (steady_genRerrLoop hm).trans ?_
  dsimp only at h
  split at h
  · exact Option.some.inj h ▸ .refl _ _
  split at h
  · exact Option.some.inj h ▸ steady_updateMyLoad m
  · exact Option.some.inj h ▸ .refl _ _

theorem steady_recvRerrRoute {m : Rerr} {firstDtn : Bool} {e : AodvRoute}
    (h : n.recvRerrRoute m firstDtn e = some n') : Steady isPlain n n' := by
  unfold recvRerrRoute at h
  split at h
  · split at h
    · exact (steady_sendMessage trivial).trans (steady_recordBrkLink h)
    · exact Option.some.inj h ▸ .refl _ _
  · exact steady_recordBrkLink h

theorem steady_recvRerr {t : Task} {m : Rerr} (h : n.recvRerr t m = some n') :
    Steady isPlain n n' := by
  unfold recvRerr at h
  dsimp only at h
  generalize hn₁ : (if n.dtnRegister = true then _ else n) = n₁ at h
  have hq : Steady isPlain n n₁ := hn₁ ▸ steady_ite steady_send2dtn (.refl _ _)
  refine hq.trans ?_
  split at h
  · exact Option.some.inj h ▸ .refl _ _
  split at h
  · exact Option.some.inj h ▸ .refl _ _
  obtain ⟨n₂, hn₂, h⟩ := Option.bind_eq_some_iff.mp h
  refine (steady_recvRerrRoute hn₂).trans ?_
  split at h
  · obtain rfl := Option.some.inj h
    exact (steady_expireRoute _ _).trans (steady_ite (steady_updateMyLoad _) (.refl _ _))
  · exact Option.some.inj h ▸ .refl _ _

theorem steady_genRcvpLoop {dstIp : Ip} (l : List BrkLink) (n : Node) :
    Steady isPlain n (genRcvpLoop dstIp l n) := by
  induction l generalizing n with
  | nil => exact .refl _ _
  | cons x l ih =>
    unfold genRcvpLoop
    split
    · exact .refl _ _
    split
    · dsimp only
      split
      · exact steady_alloc
      · refine (steady_alloc.trans (.trans ?_ (steady_sendMessage trivial))).trans
          ((steady_brkList _).trans (ih _))
        exact steady_ite steady_send2dtn (.refl _ _)
    · exact (steady_ite steady_send2dtn (.refl _ _)).trans ((steady_brkList _).trans (ih _))

theorem steady_genRcvp (dstIp : Ip) (n : Node) : Steady isPlain n (n.genRcvp dstIp) :=
  steady_genRcvpLoop _ _

theorem steady_recvRcvp (m : Rcvp) (n : Node) : Steady isPlain n (n.recvRcvp m) := by
  unfold recvRcvp
  dsimp only
  generalize hn₁ : (if n.dtnRegister = true then _ else n) = n₁
  have hq : Steady isPlain n n₁ := hn₁ ▸ steady_ite steady_send2dtn (.refl _ _)
  refine hq.trans ?_
  split
  · exact .refl _ _
  split
  · exact steady_brkList _
  split
  · exact steady_alloc
  · exact (steady_alloc.trans (steady_sendMessage trivial)).trans (steady_brkList _)

theorem steady_genRrdp (srcIp dstIp lastHop : Ip) (tos : UInt8) (n : Node) :
    Steady isPlain n (n.genRrdp srcIp dstIp lastHop tos) := by
  unfold genRrdp
  dsimp only
  split
  · exact steady_alloc
  · exact steady_alloc.trans (steady_sendMessage trivial)

theorem steady_recvRrdp (t : Task) (m : Rrdp) (n : Node) : Steady isPlain n (n.recvRrdp t m).2 := by
  unfold recvRrdp
  split
  · exact .refl _ _
  split
  · exact .refl _ _
  split
  · split
    · dsimp only
      exact steady_sendMessage trivial
    · exact .refl _ _
  · exact steady_ite steady_send2dtn (.refl _ _)

theorem steady_redirectRoutes (l : List AodvRoute) (n : Node) :
    Steady isPlain n (redirectRoutes l n) := by
  induction l generalizing n with
  | nil => exact .refl _ _
  | cons e l ih =>
    unfold redirectRoutes
    split
    · exact .refl _ _
    · dsimp only
      generalize hm : (if e.srcIp ≠ e.dstIp ∧ e.srcIp ≠ n.cfg.gMeshIp then _ else n) = m
      have hq : Steady isPlain n m := hm ▸ steady_ite (steady_genRrdp _ _ _ _ _) (.refl _ _)
      exact (hq.trans (steady_ite steady_send2dtn (.refl _ _))).trans (ih _)

theorem quiet_bumpLocalDstId {P : Sent → Prop} (hn : LocalEntry n.cfg n.routing) :
    Quiet P n n.bumpLocalDstId :=
  quiet_routing (touches_setDstId hn)

theorem localDstId_bumpLocalDstId (n : Node) :
    n.bumpLocalDstId.localDstId = n.localDstId.map (· + 1) := by
  have h := entryAt_modifyAt n.routing.localRoute
    (f := fun e ↦ { e with dstId := e.dstId + 1 }) (fun _ ↦ rfl) n.routing
  have hlocal : (n.routing.modifyAt n.routing.localRoute fun e ↦
      { e with dstId := e.dstId + 1 }).localRoute = n.routing.localRoute := rfl
  simp only [localDstId, bumpLocalDstId, hlocal, h, Option.map_map]
  rfl

/-- Either nothing but background work, or a flood of one RREQ under the next
sequence number. -/
def Floods (srcIp : Ip) (n n' : Node) : Prop :=
  Quiet isPlain n n' ∨
    ∃ dstIp tos dttl dstId, n.localDstId = some dstId ∧ n'.localDstId = some (dstId + 1) ∧
      Quiet (· = .broadcast netDiameter (.rreq (n.newRreq srcIp dstIp tos dttl (dstId + 1)))) n n'

/-- The part that `gen_rreq` and `resend_rreq` have in common. -/
theorem floods_of_send {srcIp dstIp : Ip} {tos dttl retries : UInt8} (hn : LocalEntry n.cfg n.routing)
    (h : (n.alloc.2.bumpLocalDstId.localDstId.bind fun dstId ↦
      some ((n.alloc.2.bumpLocalDstId.localBroadcast netDiameter
        (.rreq (n.alloc.2.bumpLocalDstId.newRreq srcIp dstIp tos dttl dstId))).insertTimerDir
          .resendRreq 0 retries srcIp dstIp tos).updateTimers) = some n') : Floods srcIp n n' := by
  obtain ⟨dstId', hd, h⟩ := Option.bind_eq_some_iff.mp h
  obtain rfl := Option.some.inj h
  have hbump := hd
  rw [localDstId_bumpLocalDstId] at hbump
  obtain ⟨dstId, hdstId, rfl⟩ := Option.map_eq_some_iff.mp hbump
  refine .inr ⟨dstIp, tos, dttl, dstId, hdstId, hd, ?_⟩
  refine ((quiet_alloc.trans (quiet_bumpLocalDstId hn)).trans ?_).trans
    ((quiet_insertTimerDir .resendRreq rfl).trans quiet_updateTimers)
  exact quiet_localBroadcast rfl

theorem genRreq_floods {srcIp dstIp : Ip} {tos : UInt8} (hn : LocalEntry n.cfg n.routing)
    (h : n.genRreq srcIp dstIp tos = some n') : Floods srcIp n n' := by
  unfold genRreq at h
  dsimp only at h
  split at h
  · exact .inl (Option.some.inj h ▸ quiet_alloc)
  · exact floods_of_send hn h

theorem resendRreq_floods {t : Task} (hn : LocalEntry n.cfg n.routing)
    (h : n.resendRreq t = some n') : Floods t.srcIp n n' := by
  unfold resendRreq at h
  split at h
  · obtain rfl := Option.some.inj h
    exact .inl { Quiet.refl isPlain n with }
  dsimp only at h
  split at h
  · exact .inl (Option.some.inj h ▸ quiet_alloc)
  · exact floods_of_send hn h

def isNotHello : Sent → Prop
  | .broadcast _ (.hello _) | .unicast _ _ (.hello _) => False
  | _ => True

theorem isNotHello_of_isPlain (s : Sent) (h : isPlain s) : isNotHello s := by
  cases s with
  | broadcast ttl m => cases m <;> trivial
  | unicast ip ttl m => cases m <;> trivial
  | toDtn => trivial

theorem Floods.quiet {srcIp : Ip} (h : Floods srcIp n n') : Quiet isNotHello n n' := by
  rcases h with h | ⟨dstIp, tos, dttl, dstId, -, -, h⟩
  · exact h.mono isNotHello_of_isPlain
  · exact h.mono fun s hs ↦ hs ▸ trivial

/-- The recovery of broken links only floods RREQs of the node itself. -/
theorem recoverLinks_floods {ip : Ip} {l : List BrkLink} (hn : LocalEntry n.cfg n.routing)
    (h : recoverLinks ip l n = some n') :
    Relation.ReflTransGen (Floods n.cfg.gMeshIp) n n' := by
  induction l generalizing n with
  | nil => exact Option.some.inj h ▸ .refl
  | cons x l ih =>
    unfold recoverLinks at h
    split at h
    · split at h
      · exact Option.some.inj h ▸ .single (.inl ((steady_genRcvp _ _).quiet))
      · obtain ⟨m, hm, h⟩ := Option.bind_eq_some_iff.mp h
        have hf := genRreq_floods hn hm
        have hq := hf.quiet
        have := ih (hq.cfg ▸ hq.routing.localEntry hn) h
        rw [hq.cfg] at this
        exact .head hf this
    · exact ih hn h

theorem quiet_of_floods {srcIp : Ip} (h : Relation.ReflTransGen (Floods srcIp) n n') :
    Quiet isNotHello n n' := by
  induction h with
  | refl => exact .refl _ _
  | tail _ hf ih => exact ih.trans hf.quiet

end Handlers

end Fbaodv.Proofs.Background
