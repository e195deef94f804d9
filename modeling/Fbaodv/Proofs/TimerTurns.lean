import Fbaodv.Proofs.NodeOps
import Fbaodv.Proofs.Upkeep

namespace Fbaodv.Proofs.TimerTurns

open Fbaodv.Model Fbaodv.Model.Node Fbaodv.Foundation
open Fbaodv.Proofs.RouteEffects (useEstimation_cases)
open Fbaodv.Proofs.HandlerSpecs (linkNeigh createAodvNeigh_inv)
open Fbaodv.Proofs.Background Fbaodv.Proofs.NodeRun Fbaodv.Proofs.NodeOps Fbaodv.Proofs.Upkeep Relation

/-- The longest delay that the code gives a timer. -/
abbrev horizon : ℕ := ettCleanupDelay

/-- The RREQs that are still to be sent again are at most as many as at first. -/
def RetriesLeft (t : Task) : Prop := t.type = .resendRreq → t.retries ≤ rreqRetries.toUInt16

/-- A call that changes the timer queue and does not program the kernel timer. -/
inductive Edit (now : ℕ) (q : TimerQueue) : TimerQueue → Prop
  | simple (type : TaskType) {delay : ℕ} (ip : Ip) (h : delay ≤ horizon) :
      Edit now q (insertTimerSimple now type delay ip q)
  | answer (srcIp dstIp : Ip) (tos : UInt8) :
      Edit now q (insertTimerDirectional now .sendRrep rrepTimer 0 srcIp dstIp tos q)
  | resend {retries : UInt8} (srcIp dstIp : Ip) (tos : UInt8) (h : retries ≤ rreqRetries) :
      Edit now q (insertTimerDirectional now .resendRreq 0 retries srcIp dstIp tos q)
  | delete (srcIp dstIp : Ip) (tos : UInt8) (type : TaskType) :
      Edit now q (deleteTimer srcIp dstIp tos type q)

def Edits (now : ℕ) : TimerQueue → TimerQueue → Prop := ReflTransGen (Edit now)

/-- A timer is given up, or the kernel timer is programmed after any changes. -/
inductive Turn (hz now : ℕ) (q : TimerQueue) : TimerQueue → Prop
  | delete (srcIp dstIp : Ip) (tos : UInt8) (type : TaskType) :
      Turn hz now q (deleteTimer srcIp dstIp tos type q)
  | program {q' : TimerQueue} (h : Edits now q q') : Turn hz now q (updateTimerQueue hz now q')

def Turns (hz now : ℕ) : TimerQueue → TimerQueue → Prop := ReflTransGen (Turn hz now)

/-- What a part of a handler does to the timers; the tasks that it adds are
none of the timers'. -/
structure Does (R : ℕ → ℕ → TimerQueue → TimerQueue → Prop) (n n' : Node) : Prop where
  cfg : n'.cfg = n.cfg
  now : n'.now = n.now
  tasks : ∀ t ∈ n'.tasks.elems, t ∈ n.tasks.elems ∨ RetriesLeft t
  timers : R n.cfg.hz n.now n.timers n'.timers

/-- Every change of the timers is followed by programming the kernel timer. -/
abbrev Tends : Node → Node → Prop := Does Turns

/-- The kernel timer is still to be programmed. -/
abbrev Alters : Node → Node → Prop := Does fun _ now ↦ Edits now

section Parts

variable {R : ℕ → ℕ → TimerQueue → TimerQueue → Prop} {n n' n'' : Node}

theorem Does.trans (hR : ∀ {hz now} {q q' q'' : TimerQueue}, R hz now q q' → R hz now q' q'' → R hz now q q'')
    (h : Does R n n') (h' : Does R n' n'') : Does R n n'' where
  cfg := h'.cfg.trans h.cfg
  now := h'.now.trans h.now
  tasks := by
    intro t ht
    rcases h'.tasks t ht with ht | ht
    · exact h.tasks t ht
    · exact .inr ht
  timers := hR h.timers (by have h' := h'.timers; rwa [h.cfg, h.now] at h')

theorem Tends.trans (h : Tends n n') (h' : Tends n' n'') : Tends n n'' := Does.trans ReflTransGen.trans h h'

theorem Alters.trans (h : Alters n n') (h' : Alters n' n'') : Alters n n'' :=
  Does.trans ReflTransGen.trans h h'

theorem does_of_eq (hR : ∀ {hz now q}, R hz now q q) (hcfg : n'.cfg = n.cfg) (hnow : n'.now = n.now)
    (htasks : n'.tasks = n.tasks) (htimers : n'.timers = n.timers) : Does R n n' :=
  ⟨hcfg, hnow, fun _ ht ↦ .inl (htasks ▸ ht), htimers ▸ hR⟩

theorem tends_of_eq (hcfg : n'.cfg = n.cfg) (hnow : n'.now = n.now) (htasks : n'.tasks = n.tasks)
    (htimers : n'.timers = n.timers) : Tends n n' := does_of_eq .refl hcfg hnow htasks htimers

theorem alters_of_eq (hcfg : n'.cfg = n.cfg) (hnow : n'.now = n.now) (htasks : n'.tasks = n.tasks)
    (htimers : n'.timers = n.timers) : Alters n n' := does_of_eq .refl hcfg hnow htasks htimers

theorem Tends.refl (n : Node) : Tends n n := tends_of_eq rfl rfl rfl rfl

theorem Alters.refl (n : Node) : Alters n n := alters_of_eq rfl rfl rfl rfl

theorem alters_of_edit {q : TimerQueue} (h : Edit n.now n.timers q) : Alters n { n with timers := q } :=
  ⟨rfl, rfl, fun _ ht ↦ .inl ht, .single h⟩

theorem alters_insertTimer (type : TaskType) {delay : ℕ} (ip : Ip) (h : delay ≤ horizon) :
    Alters n (n.insertTimer type delay ip) := alters_of_edit (.simple type ip h)

theorem alters_removeTimer (srcIp dstIp : Ip) (tos : UInt8) (type : TaskType) :
    Alters n (n.removeTimer srcIp dstIp tos type) := alters_of_edit (.delete srcIp dstIp tos type)

theorem Alters.update (h : Alters n n') : Tends n n'.updateTimers where
  cfg := h.cfg
  now := h.now
  tasks := h.tasks
  timers := by
    have hprogram : Turn n.cfg.hz n.now n.timers (updateTimerQueue n.cfg.hz n.now n'.timers) :=
      .program h.timers
    rw [← h.cfg, ← h.now] at hprogram ⊢
    exact .single hprogram

theorem tends_updateTimers : Tends n n.updateTimers := (Alters.refl n).update

theorem tends_insertTimer (type : TaskType) {delay : ℕ} (ip : Ip) (h : delay ≤ horizon) :
    Tends n (n.insertTimer type delay ip).updateTimers := (alters_insertTimer type ip h).update

theorem tends_removeTimer (srcIp dstIp : Ip) (tos : UInt8) (type : TaskType) :
    Tends n (n.removeTimer srcIp dstIp tos type) :=
  ⟨rfl, rfl, fun _ ht ↦ .inl ht, .single (.delete srcIp dstIp tos type)⟩

theorem tends_of_steady {P : Sent → Prop} (h : Steady P n n') : Tends n n' :=
  tends_of_eq h.quiet.cfg h.quiet.now h.quiet.tasks h.queue

theorem tends_ite {c : Prop} [Decidable c] {m m' : Node} (h : Tends n m) (h' : Tends n m') :
    Tends n (if c then m else m') := by
  split
  · exact h
  · exact h'

theorem tends_localBroadcast (ttl : UInt8) (m : Message) : Tends n (n.localBroadcast ttl m) := by
  unfold localBroadcast
  split
  · exact .refl n
  · exact tends_of_eq rfl rfl rfl rfl

theorem tends_sendMessage (ip : Ip) (ttl : UInt8) (m : Message) : Tends n (n.sendMessage ip ttl m) :=
  tends_of_steady (P := fun _ ↦ True) (steady_sendMessage trivial)

theorem tends_send2dtn {port : UInt16} {a b c d : UInt32} : Tends n (n.send2dtn port a b c d) :=
  tends_of_eq rfl rfl rfl rfl

theorem tends_rreqRoute {srcIp dstIp : Ip} {tos : UInt8} {x : AodvNeigh} {hops : UInt8}
    {dstId pathMetric : UInt32} {ok : Bool}
    (h : n.rreqRoute srcIp dstIp tos x hops dstId pathMetric = some (ok, n')) : Tends n n' := by
  obtain ⟨⟨ok', r⟩, -, h⟩ := Option.bind_eq_some_iff.mp h
  obtain ⟨-, rfl⟩ := Prod.mk.inj (Option.some.inj h)
  exact tends_of_eq rfl rfl rfl rfl

theorem tends_rrepRoute {ptr : ℕ} (h : n.rrepRoute ptr = some n') : Tends n n' := by
  obtain ⟨⟨o, r⟩, -, h⟩ := Option.bind_eq_some_iff.mp h
  cases o with
  | none => exact Option.some.inj h ▸ tends_of_eq rfl rfl rfl rfl
  | some e => exact Option.some.inj h ▸ tends_of_eq rfl rfl rfl rfl

theorem tends_createRoute {srcIp dstIp : Ip} {tos : UInt8} {dstId : UInt32} {o : Option AodvRoute}
    (h : n.createRoute srcIp dstIp tos dstId = (o, n')) : Tends n n' := by
  obtain ⟨-, rfl⟩ := Prod.mk.inj h
  exact tends_of_eq rfl rfl rfl rfl

end Parts

section Neighbours

variable {n n' : Node}

theorem neighborDelay_le : helloInterval * (1 + allowedHelloLoss) + 100 ≤ horizon := by decide

theorem neighbor2hDelay_le : neighbor2hTimeout + 100 ≤ horizon := by decide

theorem tends_updateNeighLifetime (ip : Ip) : Tends n (n.updateNeighLifetime ip) := by
  have hset : Alters n ((n.removeTimer ip ip noTos .neighbor).insertTimer .neighbor _ ip) :=
    (alters_removeTimer ip ip noTos .neighbor).trans (alters_insertTimer .neighbor ip neighborDelay_le)
  exact hset.update.trans (tends_of_eq rfl rfl rfl rfl)

theorem tends_createAodvNeigh2h (ip : Ip) : Tends n (n.createAodvNeigh2h ip).2 := by
  unfold createAodvNeigh2h
  dsimp only
  split
  · exact tends_of_eq rfl rfl rfl rfl
  split
  · exact tends_of_eq rfl rfl rfl rfl
  · have hlist : ∀ l, Tends n { n.alloc.2 with aodvNeighList2h := l } := fun _ ↦ tends_of_eq rfl rfl rfl rfl
    exact (hlist _).trans (tends_insertTimer .neighbor2h ip neighbor2hDelay_le)

theorem tends_deleteAodvNeigh2h (ip : Ip) : Tends n (n.deleteAodvNeigh2h ip) := by
  have hlist : ∀ l, Tends n { n with aodvNeighList2h := l } := fun _ ↦ tends_of_eq rfl rfl rfl rfl
  unfold deleteAodvNeigh2h
  split
  · exact (hlist _).trans tends_updateTimers
  · exact .refl n

theorem tends_refreshNeigh2h (ip : Ip) : Tends n (n.refreshNeigh2h ip) := by
  unfold refreshNeigh2h
  split
  · exact tends_createAodvNeigh2h ip
  · have hset : Alters n ((n.removeTimer ip ip noTos .neighbor2h).insertTimer .neighbor2h _ ip) :=
      (alters_removeTimer ip ip noTos .neighbor2h).trans (alters_insertTimer .neighbor2h ip neighbor2hDelay_le)
    exact hset.update.trans (tends_of_eq rfl rfl rfl rfl)

theorem tends_takeNeigh2h (ip : Ip) : Tends n (n.takeNeigh2h ip).2.2 := by
  unfold takeNeigh2h
  split
  · exact tends_deleteAodvNeigh2h _
  · exact .refl n

theorem tends_unlinkNeigh (ip : Ip) : Tends n (n.unlinkNeigh ip) := by
  have hlist : ∀ l, Alters n { n with aodvNeighList := l } := fun _ ↦ alters_of_eq rfl rfl rfl rfl
  unfold unlinkNeigh
  dsimp only
  split
  · apply Alters.update
    apply Alters.trans ((hlist _).trans (alters_removeTimer ip ip noTos .sendEtt))
    exact alters_removeTimer ip ip noTos .ettCleanup
  · exact tends_of_eq rfl rfl rfl rfl

theorem tends_deleteAodvNeigh {ip : Ip} (h : n.deleteAodvNeigh ip = some n') : Tends n n' := by
  unfold deleteAodvNeigh at h
  split at h
  · exact (tends_unlinkNeigh ip).trans (tends_of_steady (steady_genRerr h))
  · exact Option.some.inj h ▸ .refl n

theorem tends_routeAodvNeigh {ip : Ip} {ok : Bool} (h : n.routeAodvNeigh ip = some (ok, n')) :
    Tends n n' := by
  obtain ⟨r, rfl⟩ := neighSame_routeAodvNeigh h
  exact tends_of_eq rfl rfl rfl rfl

theorem ettJitterDelay_le (rand : UInt32) (ip : Ip) : ettJitterDelay rand ip ≤ horizon := by
  have hmod : (rand * ip % 2000).toNat < 2000 := by
    rw [UInt32.toNat_mod]
    exact Nat.mod_lt _ (by decide)
  have hhorizon : horizon = 180100 := by decide
  unfold ettJitterDelay
  omega

theorem tends_createAodvNeigh {ip : Ip} {ok : Bool} (h : n.createAodvNeigh ip = some (ok, n')) :
    Tends n n' := by
  have halloc : Tends n n.alloc.2 := tends_of_eq rfl rfl rfl rfl
  cases createAodvNeigh_inv h with
  | refused => exact halloc
  | noRoute _ _ hroute => exact halloc.trans (tends_routeAodvNeigh hroute)
  | linked _ _ hroute =>
    exact (halloc.trans (tends_routeAodvNeigh hroute)).trans (tends_of_eq rfl rfl rfl rfl)
  | @probed n₁ _ _ hroute =>
    have hlist : Alters n₁ (linkNeigh ip n₁).getRandom.2 := alters_of_eq rfl rfl rfl rfl
    have hprobe := hlist.trans
      (alters_insertTimer .sendEtt ip (ettJitterDelay_le (linkNeigh ip n₁).getRandom.1 ip))
    exact (halloc.trans (tends_routeAodvNeigh hroute)).trans
      (hprobe.trans (alters_insertTimer .ettCleanup ip (Nat.le_refl _))).update

end Neighbours

section Discovery

variable {n n' : Node} {t : Task}

theorem tends_flooded {srcIp dstIp : Ip} {tos retries : UInt8} {m : Rreq}
    (hretries : retries ≤ rreqRetries) (hnow : n'.now = n.now)
    (h : Flooded n srcIp dstIp tos retries m n') : Tends n n' := by
  have hset : Alters n (n.insertTimerDir .resendRreq 0 retries srcIp dstIp tos) :=
    alters_of_edit (.resend srcIp dstIp tos hretries)
  refine ⟨h.cfg, hnow, fun _ ht ↦ .inl (h.tasks ▸ ht), ?_⟩
  rw [h.timers]
  exact hset.update.timers

theorem tends_genRreq {srcIp dstIp : Ip} {tos : UInt8} (h : n.genRreq srcIp dstIp tos = some n') :
    Tends n n' := by
  have hnow := (neighSame_genRreq h).now
  rcases genRreq_cases h with ⟨-, rfl⟩ | ⟨m, hm⟩
  · exact tends_of_eq rfl rfl rfl rfl
  · exact tends_flooded (UInt8.le_refl _) hnow hm

theorem retries_pred_le {retries : UInt16} (h : retries ≤ rreqRetries.toUInt16) (hsome : ¬ retries ≤ 0) :
    (retries - 1).toUInt8 ≤ rreqRetries := by
  have hle : retries.toNat ≤ 2 := h
  have hpos : 1 ≤ retries.toNat := by
    have hne := mt UInt16.le_iff_toNat_le.mpr hsome
    exact Nat.one_le_iff_ne_zero.mpr fun heq ↦ hne (Nat.le_of_eq heq)
  have hsub : (retries - 1).toNat = retries.toNat - 1 :=
    UInt16.toNat_sub_of_le _ _ (UInt16.le_iff_toNat_le.mpr hpos)
  have htwo : rreqRetries.toNat = 2 := rfl
  rw [UInt8.le_iff_toNat_le, UInt16.toNat_toUInt8, hsub]
  omega

theorem tends_resendRreq (ht : t.retries ≤ rreqRetries.toUInt16) (h : n.resendRreq t = some n') :
    Tends n n' := by
  have hnow := (neighSame_resendRreq h).now
  rcases resendRreq_cases h with ⟨-, rfl⟩ | ⟨hsome, ⟨-, rfl⟩ | ⟨m, hm⟩⟩
  · exact tends_of_eq rfl rfl rfl rfl
  · exact tends_of_eq rfl rfl rfl rfl
  · exact tends_flooded (retries_pred_le ht hsome) hnow hm

theorem tends_recoverLinks {ip : Ip} {l : List BrkLink} (h : recoverLinks ip l n = some n') :
    Tends n n' := by
  induction l generalizing n with
  | nil => exact Option.some.inj h ▸ .refl n
  | cons x l ih =>
    unfold recoverLinks at h
    split at h
    · split at h
      · exact Option.some.inj h ▸ tends_of_steady (steady_genRcvp _ _)
      · obtain ⟨n₁, hgen, h⟩ := Option.bind_eq_some_iff.mp h
        exact (tends_genRreq hgen).trans (ih h)
    · exact ih h

theorem tends_acceptRreq (t : Task) (m : Rreq) (n : Node) : Tends n (n.acceptRreq t m) := by
  unfold acceptRreq
  split
  · split
    · exact .refl n
    · exact (alters_of_edit (.answer m.srcIp m.dstIp m.tos)).update
  · dsimp only
    exact (tends_ite tends_send2dtn (.refl n)).trans (tends_localBroadcast _ _)

theorem tends_recvRreq {m : Rreq} (h : n.recvRreq t m = some n') : Tends n n' := by
  unfold recvRreq at h
  split at h
  · exact Option.some.inj h ▸ .refl n
  split at h
  · exact Option.some.inj h ▸ .refl n
  next x _ =>
  refine (tends_updateNeighLifetime x.ip).trans ?_
  dsimp only at h
  split at h
  · exact Option.some.inj h ▸ .refl _
  split at h
  · exact Option.some.inj h ▸ .refl _
  obtain ⟨pathMetric, -, h⟩ := Option.bind_eq_some_iff.mp h
  cases pathMetric with
  | none => exact Option.some.inj h ▸ .refl _
  | some pathMetric =>
    obtain ⟨⟨ok, n₁⟩, hroute, h⟩ := Option.bind_eq_some_iff.mp h
    refine (tends_rreqRoute hroute).trans ?_
    exact Option.some.inj h ▸ tends_ite (tends_acceptRreq _ _ _) (.refl n₁)

theorem tends_genRrep {srcIp dstIp : Ip} {tos : UInt8} (h : n.genRrep srcIp dstIp tos = some n') :
    Tends n n' := by
  have halloc : Tends n n.alloc.2.alloc.2 := tends_of_eq rfl rfl rfl rfl
  unfold genRrep at h
  dsimp only at h
  split at h
  · exact Option.some.inj h ▸ tends_of_eq rfl rfl rfl rfl
  split at h
  · exact Option.some.inj h ▸ tends_of_eq rfl rfl rfl rfl
  split at h
  · exact Option.some.inj h ▸ halloc
  obtain ⟨⟨o, n₁⟩, hentry, h⟩ := Option.bind_eq_some_iff.mp h
  have hbump : ∀ n₂ : Node, Tends n₂ n₂.bumpLocalDstId := fun _ ↦ tends_of_eq rfl rfl rfl rfl
  have h₁ : Tends n.alloc.2.alloc.2 n₁ := by
    unfold rrepRouteEntry at hentry
    split at hentry
    · obtain ⟨dstId, -, hentry⟩ := Option.bind_eq_some_iff.mp hentry
      refine (hbump _).trans ?_
      split at hentry
      · next hcreate =>
        simp only [Option.some.injEq, Prod.mk.injEq] at hentry
        exact hentry.2 ▸ tends_createRoute hcreate
      · next hcreate =>
        simp only [Option.some.injEq, Prod.mk.injEq] at hentry
        exact hentry.2 ▸ (tends_createRoute hcreate).trans (tends_of_eq rfl rfl rfl rfl)
    · simp only [Option.some.injEq, Prod.mk.injEq] at hentry
      exact hentry.2 ▸ .refl _
  refine halloc.trans (h₁.trans ?_)
  cases o with
  | none => exact Option.some.inj h ▸ .refl _
  | some src =>
    obtain ⟨dstId, -, h⟩ := Option.bind_eq_some_iff.mp h
    obtain ⟨e, -, h⟩ := Option.bind_eq_some_iff.mp h
    obtain ⟨n₂, hrep, h⟩ := Option.bind_eq_some_iff.mp h
    have hjunk : Tends n₁.bumpLocalDstId { n₁.bumpLocalDstId with junk := n₁.bumpLocalDstId.junk.tail } :=
      tends_of_eq rfl rfl rfl rfl
    refine (hbump n₁).trans (hjunk.trans ((tends_rrepRoute hrep).trans ?_))
    have hhop : Tends n₂ (n₂.setLastHop src.ptr e.srcIp) := tends_of_eq rfl rfl rfl rfl
    exact Option.some.inj h ▸ hhop.trans (tends_sendMessage _ _ _)

theorem tends_recvRrepSource {m : Rrep} {x : AodvNeigh} (h : n.recvRrepSource m x = some n') :
    Tends n n' := by
  obtain ⟨⟨ok, n₁⟩, hroute, h⟩ := Option.bind_eq_some_iff.mp h
  have hcancel : Tends n (n₁.removeTimer m.srcIp m.dstIp m.tos .resendRreq) :=
    (tends_updateTimers.trans (tends_rreqRoute hroute)).trans (tends_removeTimer _ _ _ _)
  refine hcancel.trans ?_
  dsimp only at h
  split at h
  · exact Option.some.inj h ▸ .refl _
  next e _ =>
  obtain ⟨n₂, hrep, h⟩ := Option.bind_eq_some_iff.mp h
  have hhop : Tends n₂ (n₂.setLastHop e.ptr n₂.cfg.gMeshIp) := tends_of_eq rfl rfl rfl rfl
  refine (tends_rrepRoute hrep).trans (hhop.trans ?_)
  generalize n₂.setLastHop e.ptr n₂.cfg.gMeshIp = n₃ at h ⊢
  generalize hn₄ : (if m.dttl > 0 then _ else n₃) = n₄ at h
  have hdtn : Tends n₃ n₄ := hn₄ ▸ tends_ite tends_send2dtn (.refl n₃)
  obtain rfl := Option.some.inj h
  exact hdtn.trans (tends_ite (tends_of_steady (steady_genRcvp _ _)) (.refl n₄))

theorem tends_recvRrepForward {m : Rrep} {x : AodvNeigh} (h : n.recvRrepForward m x = some n') :
    Tends n n' := by
  obtain ⟨⟨o, m', n₁⟩, hrecv, h⟩ := Option.bind_eq_some_iff.mp h
  have h₁ : Tends n n₁ := by
    unfold rrepRecvRoute at hrecv
    dsimp only at hrecv
    split at hrecv
    · split at hrecv
      · simp only [Option.some.injEq, Prod.mk.injEq] at hrecv
        exact hrecv.2.2 ▸ .refl n
      split at hrecv
      · cases hrecv
      · next hcreate =>
        simp only [Option.some.injEq, Prod.mk.injEq] at hrecv
        exact hrecv.2.2 ▸ (tends_createRoute hcreate).trans (tends_of_eq rfl rfl rfl rfl)
    · simp only [Option.some.injEq, Prod.mk.injEq] at hrecv
      exact hrecv.2.2 ▸ .refl n
  refine h₁.trans ?_
  cases o with
  | none => exact Option.some.inj h ▸ .refl n₁
  | some recv =>
    obtain ⟨⟨ok, n₂⟩, hroute, h⟩ := Option.bind_eq_some_iff.mp h
    refine (tends_rreqRoute hroute).trans ?_
    dsimp only at h
    split at h
    · exact Option.some.inj h ▸ .refl n₂
    obtain ⟨n₃, hn₃, h⟩ := Option.bind_eq_some_iff.mp h
    obtain ⟨n₄, hn₄, h⟩ := Option.bind_eq_some_iff.mp h
    obtain ⟨recv', -, h⟩ := Option.bind_eq_some_iff.mp h
    obtain ⟨send', -, h⟩ := Option.bind_eq_some_iff.mp h
    refine (tends_rrepRoute hn₃).trans ((tends_rrepRoute hn₄).trans ?_)
    have hhops : ∀ ptr ptr' ip ip', Tends n₄ ((n₄.setLastHop ptr ip).setLastHop ptr' ip') :=
      fun _ _ _ _ ↦ tends_of_eq rfl rfl rfl rfl
    exact Option.some.inj h ▸ (hhops _ _ _ _).trans (tends_sendMessage _ _ _)

theorem tends_recvRrep {m : Rrep} (h : n.recvRrep t m = some n') : Tends n n' := by
  unfold recvRrep at h
  split at h
  · exact Option.some.inj h ▸ .refl n
  next x _ =>
  refine (tends_updateNeighLifetime x.ip).trans ?_
  dsimp only at h
  split at h
  · exact tends_recvRrepSource h
  · exact tends_recvRrepForward h

end Discovery

section Upkeep

variable {n n' : Node} {t : Task}

theorem tends_genStRreq (h : n.genStRreq = some n') : Tends n n' := by
  have halloc : Tends n n.alloc.2 := tends_of_eq rfl rfl rfl rfl
  unfold genStRreq at h
  split at h
  · exact Option.some.inj h ▸ .refl n
  dsimp only at h
  split at h
  · exact Option.some.inj h ▸ halloc
  split at h
  · exact Option.some.inj h ▸ halloc
  next e _ =>
  have hbump : Tends n { n.alloc.2 with
      routing := n.routing.modifyAt e.ptr fun e ↦ { e with dstId := e.dstId + 1 } } :=
    tends_of_eq rfl rfl rfl rfl
  refine hbump.trans ?_
  exact Option.some.inj h ▸ (tends_localBroadcast _ _).trans (tends_insertTimer .st _ (by decide))

theorem tends_recvRreqSt (t : Task) (m : RreqSt) : Tends n (n.recvRreqSt t m) := by
  rcases recvRreqSt_cases t m n with heq | ⟨x, gwList, kmalloc, -, hlast⟩
  · rw [heq]
    exact .refl n
  have hgw : Tends n { n.updateNeighLifetime x.ip with gwList := gwList, kmalloc := kmalloc } :=
    (tends_updateNeighLifetime x.ip).trans (tends_of_eq rfl rfl rfl rfl)
  rcases hlast with heq | ⟨m', heq⟩
  · rw [heq]
    exact hgw
  · rw [heq]
    exact hgw.trans (tends_localBroadcast _ _)

theorem helloDelay_le (rand : UInt32) : helloDelay rand ≤ horizon := by
  have hlt : rand.toInt32.toInt.tmod nodeTraversalTime < nodeTraversalTime :=
    Int.tmod_lt_of_pos _ (by decide)
  have htravel : (nodeTraversalTime : ℤ) = 40 := rfl
  have hhello : (helloInterval : ℤ) = 1000 := rfl
  have hhorizon : horizon = 180100 := by decide
  unfold helloDelay
  omega

theorem tends_helloExtensions (l : List AodvNeigh) (ext : List HelloExtension) (n : Node) :
    Tends n (helloExtensions l ext n).2 := by
  induction l generalizing ext n with
  | nil => exact .refl n
  | cons x l ih =>
    have halloc : Tends n n.alloc.2 := tends_of_eq rfl rfl rfl rfl
    unfold helloExtensions
    dsimp only
    split
    · exact halloc
    · exact halloc.trans (ih _ _)

theorem tends_sendHello (ext : List HelloExtension) (n : Node) : Tends n (n.sendHello ext) := by
  have halloc : Tends n n.alloc.2 := tends_of_eq rfl rfl rfl rfl
  unfold sendHello
  dsimp only
  split
  · exact halloc
  generalize hn₁ : n.alloc.2.localBroadcast 1 (.hello (n.alloc.2.helloOf ext)) = n₁
  have h₁ : Tends n n₁ := hn₁ ▸ halloc.trans (tends_localBroadcast _ _)
  have hrandom : Tends n₁ n₁.getRandom.2 := tends_of_eq rfl rfl rfl rfl
  generalize hn₂ : (n₁.getRandom.2.insertTimer .hello _ _).updateTimers = n₂
  have h₂ : Tends n n₂ :=
    hn₂ ▸ (h₁.trans hrandom).trans (tends_insertTimer .hello _ (helloDelay_le n₁.getRandom.1))
  split
  · split
    · exact h₂.trans (tends_of_eq rfl rfl rfl rfl)
    · exact h₂.trans (tends_of_eq rfl rfl rfl rfl)
  · exact h₂.trans (tends_of_eq rfl rfl rfl rfl)

theorem tends_genHello (n : Node) : Tends n n.genHello := by
  unfold genHello
  split
  · have hext := tends_helloExtensions n.aodvNeighList [] n
    split
    · next n₁ heq =>
      rw [heq] at hext
      exact hext
    · next ext n₁ heq =>
      rw [heq] at hext
      exact hext.trans (tends_sendHello ext n₁)
  · exact tends_sendHello [] n

theorem tends_modifyNeigh (ip : Ip) (f : AodvNeigh → AodvNeigh) : Tends n (n.modifyNeigh ip f) :=
  tends_of_eq rfl rfl rfl rfl

theorem tends_recvHelloExtensions (orig : Ip) (m : Hello) (l : List HelloExtension) (n : Node) :
    Tends n (recvHelloExtensions orig m l n) := by
  induction l generalizing n with
  | nil => exact .refl n
  | cons ext l ih =>
    unfold recvHelloExtensions
    split
    · dsimp only
      split
      · exact tends_modifyNeigh _ _
      · exact (tends_modifyNeigh _ _).trans (ih _)
    · refine Tends.trans ?_ (ih _)
      split
      · unfold recvHelloExtension
        refine Tends.trans ?_ (tends_modifyNeigh _ _)
        split
        · exact tends_modifyNeigh _ _
        · exact (tends_refreshNeigh2h _).trans (tends_of_eq rfl rfl rfl rfl)
      · exact .refl n

theorem tends_helloFromNeigh (ip : Ip) (m : Hello) (n : Node) : Tends n (n.helloFromNeigh ip m) := by
  unfold helloFromNeigh
  refine (tends_updateNeighLifetime ip).trans ?_
  dsimp only
  split
  · exact .refl _
  · generalize hn₁ : (n.updateNeighLifetime ip).modifyNeigh ip _ = n₁
    have h₁ : Tends (n.updateNeighLifetime ip) n₁ := hn₁ ▸ tends_modifyNeigh _ _
    refine h₁.trans (Tends.trans ?_ (tends_recvHelloExtensions ip m m.ext _))
    exact tends_ite (tends_modifyNeigh _ _) (.refl n₁)

theorem tends_recvHello {m : Hello} (h : n.recvHello t m = some n') : Tends n n' := by
  unfold recvHello at h
  split at h
  · exact Option.some.inj h ▸ .refl n
  split at h
  · exact Option.some.inj h ▸ tends_helloFromNeigh _ _ _
  obtain ⟨⟨ok, n₁⟩, hhello, h⟩ := Option.bind_eq_some_iff.mp h
  have h₁ : Tends n n₁ := by
    obtain ⟨⟨ok₂, n₂⟩, hcreate, hhello⟩ := Option.bind_eq_some_iff.mp hhello
    have h₂ := (tends_takeNeigh2h t.srcIp).trans (tends_createAodvNeigh hcreate)
    refine h₂.trans ?_
    dsimp only at hhello
    split at hhello
    · simp only [Option.some.injEq, Prod.mk.injEq] at hhello
      exact hhello.2 ▸ .refl n₂
    · obtain ⟨n₃, hrecover, hhello⟩ := Option.bind_eq_some_iff.mp hhello
      simp only [Option.some.injEq, Prod.mk.injEq] at hhello
      have hredirect : Tends n₃ (redirectRoutes n₃.routing.table n₃) :=
        tends_of_steady (steady_redirectRoutes _ _)
      exact hhello.2 ▸ ((tends_recoverLinks hrecover).trans hredirect).trans (tends_modifyNeigh _ _)
  refine h₁.trans ?_
  exact Option.some.inj h ▸ tends_ite (tends_helloFromNeigh _ _ _) (.refl n₁)

end Upkeep

section Probes

variable {n n' : Node} {t : Task}

theorem tends_sendEttInfo (ip : Ip) (myRate : UInt16) (fixed : UInt8) :
    Tends n (n.sendEttInfo ip myRate fixed) := by
  have halloc : Tends n n.alloc.2 := tends_of_eq rfl rfl rfl rfl
  unfold sendEttInfo
  dsimp only
  split
  · exact halloc
  split
  · exact halloc
  · exact halloc.trans (tends_sendMessage _ _ _)

theorem tends_reloadEttCleanup (ip : Ip) : Tends n (n.reloadEttCleanup ip) := by
  apply Alters.update
  apply Alters.trans (alters_removeTimer ip ip noTos .ettCleanup)
  exact alters_insertTimer .ettCleanup ip (Nat.le_refl _)

theorem tends_resetEtt {ip : Ip} (h : n.resetEtt ip = some n') : Tends n n' := by
  refine Tends.trans ?_ (tends_of_steady (steady_genRerr h))
  apply Alters.update
  have hclear : Alters n ((n.removeTimer ip ip noTos .sendEtt).modifyNeigh ip resetEttNeigh).getRandom.2 :=
    (alters_removeTimer ip ip noTos .sendEtt).trans (alters_of_eq rfl rfl rfl rfl)
  have hprobe := hclear.trans (alters_insertTimer .sendEtt ip (ettJitterDelay_le (n.rand.headD 0) ip))
  exact hprobe.trans (alters_insertTimer .ettCleanup ip (Nat.le_refl _))

theorem tends_useEstimation {ip : Ip} {ett : EttParams} {recvDelay : UInt32}
    (h : n.useEstimation ip ett recvDelay = some n') : Tends n n' := by
  cases useEstimation_cases h with
  | again _ _ _ hreset => exact (tends_resetEtt hreset).trans (tends_sendEttInfo _ _ _)
  | secondRound => exact (tends_modifyNeigh _ _).trans (tends_sendEttInfo _ _ _)
  | widen => exact tends_modifyNeigh _ _
  | unusable _ _ hreset => exact tends_resetEtt hreset
  | rated => exact ((tends_modifyNeigh _ _).trans (tends_modifyNeigh _ _)).trans (tends_sendEttInfo _ _ _)

theorem tends_computeEstimation {ip : Ip} (h : n.computeEstimation ip = some n') : Tends n n' := by
  obtain ⟨x, -, h⟩ := Option.bind_eq_some_iff.mp h
  dsimp only at h
  split at h
  · exact Option.some.inj h ▸ tends_modifyNeigh _ _
  · exact ((tends_modifyNeigh _ _).trans (tends_modifyNeigh _ _)).trans (tends_useEstimation h)

theorem tends_recvLprobe {m : LProbe} (h : n.recvLprobe t m = some n') : Tends n n' := by
  unfold recvLprobe at h
  split at h
  · exact Option.some.inj h ▸ .refl n
  refine (tends_updateNeighLifetime t.srcIp).trans ?_
  dsimp only at h
  split at h
  · exact Option.some.inj h ▸ .refl _
  obtain ⟨n₁, hn₁, rfl⟩ := Option.map_eq_some_iff.mp h
  refine Tends.trans ?_ (tends_modifyNeigh _ _)
  generalize hn₂ : ((n.updateNeighLifetime t.srcIp).reloadEttCleanup t.srcIp).modifyNeigh t.srcIp _ = n₂ at hn₁
  have h₂ : Tends (n.updateNeighLifetime t.srcIp) n₂ :=
    hn₂ ▸ (tends_reloadEttCleanup t.srcIp).trans (tends_modifyNeigh _ _)
  refine h₂.trans ?_
  split at hn₁
  · exact (tends_modifyNeigh _ _).trans (tends_computeEstimation hn₁)
  · exact Option.some.inj hn₁ ▸ .refl n₂

theorem tends_recvEttInfo {m : EttInfo} (h : n.recvEttInfo t m = some n') : Tends n n' := by
  unfold recvEttInfo at h
  split at h
  · exact Option.some.inj h ▸ .refl n
  refine (tends_updateNeighLifetime t.srcIp).trans ?_
  dsimp only at h
  obtain ⟨n₁, hn₁, rfl⟩ := Option.map_eq_some_iff.mp h
  refine Tends.trans ?_ (tends_modifyNeigh _ _)
  generalize hn₂ : (n.updateNeighLifetime t.srcIp).modifyNeigh t.srcIp _ = n₂ at hn₁
  have h₂ : Tends (n.updateNeighLifetime t.srcIp) n₂ := hn₂ ▸ tends_modifyNeigh _ _
  refine h₂.trans ?_
  split at hn₁
  · have hadd : Tends n₂ (((n₂.modifyNeigh t.srcIp (updateEtt fun e ↦ { e with fixedRate := 1 })).reloadEttCleanup
        t.srcIp).modifyNeigh t.srcIp (updateEtt (delayVectorAdd m.lastMeasDelay))) :=
      ((tends_modifyNeigh _ _).trans (tends_reloadEttCleanup t.srcIp)).trans (tends_modifyNeigh _ _)
    refine hadd.trans ?_
    split at hn₁
    · exact tends_computeEstimation hn₁
    · exact Option.some.inj hn₁ ▸ .refl _
  · exact Option.some.inj hn₁ ▸ .refl _

theorem tends_sendRateProbe (x : AodvNeigh) : Tends n (n.sendRateProbe x).2 := by
  unfold sendRateProbe
  split
  · exact tends_sendEttInfo _ _ _
  dsimp only
  split
  · exact tends_of_eq rfl rfl rfl rfl
  split
  · exact tends_of_eq rfl rfl rfl rfl
  · have halloc : Tends n n.alloc.2.alloc.2 := tends_of_eq rfl rfl rfl rfl
    refine halloc.trans ?_
    unfold sendEttProbe
    split
    · exact .refl _
    · exact tends_of_eq rfl rfl rfl rfl

theorem interval_le (interval : UInt16) : interval.toNat ≤ horizon := by
  have hlt := interval.toNat_lt
  have hhorizon : horizon = 180100 := by decide
  omega

theorem tends_sendProbe (ip : Ip) : Tends n (n.sendProbe ip) := by
  unfold sendProbe
  split
  · exact .refl n
  next x _ =>
  have hcount : Tends n { n with countSend := n.nextCountSend } := tends_of_eq rfl rfl rfl rfl
  have hrate := hcount.trans (tends_sendRateProbe x)
  dsimp only
  split
  · exact hrate.trans (tends_insertTimer .sendEtt ip (interval_le _))
  · exact hrate

theorem tends_recvSprobe (t : Task) (m : SProbe) : Tends n (n.recvSprobe t m) := by
  unfold recvSprobe
  split
  · exact .refl n
  · exact tends_modifyNeigh _ _

end Probes

section Events

variable {n n' : Node} {t : Task}

theorem tends_flushRoutes (n : Node) : Tends n n.flushRoutes := by
  have hflush : Tends n { n with routing := n.routing.flushAodvRouteTable n.cfg n.now } :=
    tends_of_eq rfl rfl rfl rfl
  exact hflush.trans (tends_insertTimer .cleanup _ (by decide))

/-- Every handler programs the kernel timer after it has set a timer. -/
theorem tends_handle (ht : RetriesLeft t) (h : n.handle t = some n') : Tends n n' := by
  unfold handle at h
  split at h
  · exact tends_genRreq h
  · exact tends_recvRrep h
  · exact tends_of_steady (steady_recvRerr h)
  · exact tends_recvHello h
  · exact Option.some.inj h ▸ tends_of_steady (steady_recvRcvp _ _)
  · exact Option.some.inj h ▸ tends_of_steady (steady_recvRrdp _ _ _)
  · exact Option.some.inj h ▸ tends_flushRoutes n
  · exact Option.some.inj h ▸ tends_genHello n
  · exact tends_genStRreq h
  · have hgw : Tends n n.updateGwLifetimes := tends_of_eq rfl rfl rfl rfl
    exact Option.some.inj h ▸ hgw.trans (tends_insertTimer .gwCleanup _ (by decide))
  · exact tends_deleteAodvNeigh h
  · exact Option.some.inj h ▸ tends_flushRoutes n
  · exact Option.some.inj h ▸ tends_sendProbe _
  · exact Option.some.inj h ▸ tends_recvSprobe _ _
  · exact tends_recvLprobe h
  · obtain ⟨x, -, h⟩ := Option.bind_eq_some_iff.mp h
    exact tends_resetEtt h
  · exact Option.some.inj h ▸ tends_deleteAodvNeigh2h _
  · exact tends_recvRreq h
  · next htype => exact tends_resendRreq (ht htype) h
  · exact tends_recvEttInfo h
  · exact tends_genRrep h
  · exact Option.some.inj h ▸ tends_recvRreqSt _ _
  · exact Option.some.inj h ▸ tends_of_steady (steady_updateMyLoad n)
  · exact tends_genRreq h
  · exact Option.some.inj h ▸ .refl n

theorem tends_queueTask {t : Task} (ht : t.type ≠ .resendRreq) : Tends n (n.queueTask t) := by
  refine ⟨rfl, rfl, fun t' ht' ↦ ?_, .refl⟩
  rcases List.mem_cons.mp ((ClassQueue.pushBack_perm _ _ _).mem_iff.mp ht') with rfl | ht'
  · exact .inr fun htype ↦ absurd htype ht
  · exact .inl ht'

theorem tends_insertTask (p : Packet) (m : Message) : Tends n (n.insertTask p m) := by
  have halloc : Tends n n.alloc.2.alloc.2 := tends_of_eq rfl rfl rfl rfl
  unfold insertTask
  dsimp only
  split
  · exact tends_of_eq rfl rfl rfl rfl
  split
  · exact halloc
  · exact halloc.trans (tends_queueTask (by cases m <;> exact nofun))

theorem tends_dtnInput (p : Packet) : Tends n (n.dtnInput p) := by
  unfold dtnInput
  dsimp only
  generalize hn₁ : (if (!n.dtnRegister && p.udpDest == dtnRegisterPort) = true then _ else n) = n₁
  have h₁ : Tends n n₁ := hn₁ ▸ tends_ite (tends_of_eq rfl rfl rfl rfl) (.refl n)
  generalize hn₂ : (if (n₁.dtnRegister && p.udpDest == getDtnHello) = true then _ else n₁) = n₂
  have h₂ : Tends n₁ n₂ := hn₂ ▸ tends_ite (tends_insertTimer .dtnHello _ (Nat.zero_le _)) (.refl n₁)
  refine (h₁.trans h₂).trans (tends_ite ?_ (.refl n₂))
  have hplace : ∀ x y, Alters n₂ { n₂ with longitude := x, latitude := y } :=
    fun _ _ ↦ alters_of_eq rfl rfl rfl rfl
  exact ((hplace _ _).trans (alters_of_edit (.answer _ _ _))).update

theorem tends_inputHandler (p : Packet) : Tends n (n.inputHandler p).2 := by
  have hdtn : Tends n (n.dtnInput p) := tends_dtnInput p
  unfold inputHandler
  dsimp only
  split
  · exact hdtn
  split
  · unfold packetIn
    split
    · exact hdtn
    split
    · exact hdtn
    · exact hdtn.trans (tends_insertTask _ _)
  · exact hdtn

end Events

end Fbaodv.Proofs.TimerTurns
