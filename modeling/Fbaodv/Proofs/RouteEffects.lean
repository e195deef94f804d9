import Fbaodv.Proofs.Background
import Fbaodv.Proofs.RoutingInvariant

namespace Fbaodv.Proofs.RouteEffects

open Fbaodv.Model Fbaodv.Model.Node Fbaodv.Foundation
open Fbaodv.Proofs.RouteFrame Fbaodv.Proofs.RoutingInvariant Fbaodv.Proofs.Background

/-- What everything leaves alone that neither finds a route nor moves a task.
It may send what `P` allows. -/
structure Calm (P : Sent → Prop) (n n' : Node) : Prop where
  cfg : n'.cfg = n.cfg
  now : n'.now = n.now
  tasks : n'.tasks = n.tasks
  dtnRegister : n'.dtnRegister = n.dtnRegister
  gwList : n'.gwList = n.gwList
  gDefaultGw : n'.gDefaultGw = n.gDefaultGw
  routing : Touches n.cfg n.routing n'.routing
  answers : n'.timers.queue.filter (fun t ↦ t.type == .sendRrep) =
    n.timers.queue.filter (fun t ↦ t.type == .sendRrep)
  sent : ∃ l, n'.sent = n.sent ++ l ∧ ∀ s ∈ l, P s

section Calm

variable {P : Sent → Prop} {n n' n'' : Node}

theorem Calm.refl (P : Sent → Prop) (n : Node) : Calm P n n :=
  ⟨rfl, rfl, rfl, rfl, rfl, rfl, .refl _ _, rfl, [], by simp, by simp⟩

theorem Calm.trans (h : Calm P n n') (h' : Calm P n' n'') : Calm P n n'' where
  cfg := h'.cfg.trans h.cfg
  now := h'.now.trans h.now
  tasks := h'.tasks.trans h.tasks
  dtnRegister := h'.dtnRegister.trans h.dtnRegister
  gwList := h'.gwList.trans h.gwList
  gDefaultGw := h'.gDefaultGw.trans h.gDefaultGw
  routing := h.routing.trans (h.cfg ▸ h'.routing)
  answers := h'.answers.trans h.answers
  sent := sent_trans h.sent h'.sent

theorem Calm.mono {Q : Sent → Prop} (h : Calm P n n') (hPQ : ∀ s, P s → Q s) : Calm Q n n' where
  __ := h
  sent := by
    obtain ⟨l, hl, hP⟩ := h.sent
    exact ⟨l, hl, fun s hs ↦ hPQ s (hP s hs)⟩

theorem Calm.withRouting (h : Calm P n n') (r : Routing) :
    Calm P { n with routing := r } { n' with routing := r } where
  cfg := h.cfg
  now := h.now
  tasks := h.tasks
  dtnRegister := h.dtnRegister
  gwList := h.gwList
  gDefaultGw := h.gDefaultGw
  routing := .refl _ _
  answers := h.answers
  sent := h.sent

theorem calm_of_quiet (h : Quiet P n n') : Calm P n n' where
  __ := h
  answers := by
    have hsub : (fun t : Task ↦ t.type == .sendRrep) =
        fun t ↦ (t.type == .sendRrep) && isWatched t := by
      funext t
      cases ht : t.type == .sendRrep <;> simp [isWatched, ht]
    rw [hsub, ← List.filter_filter, ← List.filter_filter, h.timers]

theorem calm_alloc : Calm P n n.alloc.2 := { Calm.refl P n with }

theorem calm_modifyNeigh (ip : Ip) (f : AodvNeigh → AodvNeigh) (n : Node) :
    Calm P n (n.modifyNeigh ip f) := { Calm.refl P n with }

theorem calm_modifyNeigh2h (ip : Ip) (f : AodvNeigh2h → AodvNeigh2h) (n : Node) :
    Calm P n (n.modifyNeigh2h ip f) := { Calm.refl P n with }

theorem calm_updateTimers (n : Node) : Calm P n n.updateTimers :=
  { Calm.refl P n with answers := by simp [updateTimers] }

theorem calm_insertTimer (type : TaskType) (delay : ℕ) (ip : Ip) (n : Node)
    (h : (type == .sendRrep) = false) : Calm P n (n.insertTimer type delay ip) := by
  refine { Calm.refl P n with answers := ?_ }
  simp only [insertTimer, insertTimerSimple, TimerQueue.insert]
  split
  · exact OrderedList.filter_insertBy_of_neg (q := fun t : Task ↦ t.type == .sendRrep) h _
  · rfl

theorem calm_removeTimer (type : TaskType) (srcIp dstIp : Ip) (tos : UInt8) (n : Node)
    (h : (type == .sendRrep) = false) : Calm P n (n.removeTimer srcIp dstIp tos type) := by
  refine { Calm.refl P n with answers := OrderedList.filter_eraseP_of_neg (fun t ht ↦ ?_) _ }
  simp only [Task.matches, Bool.and_eq_true, beq_iff_eq] at ht
  rw [ht.2]
  exact h

theorem calm_updateNeighLifetime (ip : Ip) (n : Node) :
    Calm P n (n.updateNeighLifetime ip) :=
  (calm_removeTimer .neighbor ip ip noTos n rfl).trans <|
    (calm_insertTimer .neighbor _ ip _ rfl).trans <|
      (calm_updateTimers _).trans (calm_modifyNeigh ip _ _)

theorem calm_createAodvNeigh2h (ip : Ip) (n : Node) :
    Calm P n (n.createAodvNeigh2h ip).2 := by
  unfold createAodvNeigh2h
  dsimp only
  split
  · exact calm_alloc
  split
  · exact calm_alloc
  · have hlist : ∀ l, Calm P n { n.alloc.2 with aodvNeighList2h := l } :=
      fun _ ↦ { Calm.refl P n with }
    exact (hlist _).trans
      ((calm_insertTimer .neighbor2h _ ip _ rfl).trans (calm_updateTimers _))

theorem calm_deleteAodvNeigh2h (ip : Ip) (n : Node) :
    Calm P n (n.deleteAodvNeigh2h ip) := by
  have hlist : ∀ l, Calm P n { n with aodvNeighList2h := l } :=
    fun _ ↦ { Calm.refl P n with }
  unfold deleteAodvNeigh2h
  split
  · exact (hlist _).trans (calm_updateTimers _)
  · exact .refl P n

theorem calm_refreshNeigh2h (ip : Ip) (n : Node) : Calm P n (n.refreshNeigh2h ip) := by
  unfold refreshNeigh2h
  split
  · exact calm_createAodvNeigh2h ip n
  · exact (calm_removeTimer .neighbor2h ip ip noTos n rfl).trans <|
      (calm_insertTimer .neighbor2h _ ip _ rfl).trans <|
        (calm_updateTimers _).trans (calm_modifyNeigh2h ip _ _)

theorem calm_recvHelloExtension (orig : Ip) (m : Hello) (ext : HelloExtension) (n : Node) :
    Calm P n (n.recvHelloExtension orig m ext) := by
  unfold recvHelloExtension
  split
  · exact (calm_modifyNeigh _ _ _).trans (calm_modifyNeigh _ _ _)
  · exact ((calm_refreshNeigh2h _ _).trans (calm_modifyNeigh2h _ _ _)).trans
      (calm_modifyNeigh _ _ _)

theorem calm_recvHelloExtensions (orig : Ip) (m : Hello) (l : List HelloExtension)
    (n : Node) : Calm P n (recvHelloExtensions orig m l n) := by
  induction l generalizing n with
  | nil => exact .refl P n
  | cons ext l ih =>
    unfold recvHelloExtensions
    split
    · dsimp only
      split
      · exact calm_modifyNeigh _ _ _
      · exact (calm_modifyNeigh _ _ _).trans (ih _)
    · split
      · exact (calm_recvHelloExtension orig m ext n).trans (ih _)
      · exact ih _

theorem calm_helloFromNeigh (ip : Ip) (m : Hello) (n : Node) :
    Calm P n (n.helloFromNeigh ip m) := by
  unfold helloFromNeigh
  refine (calm_updateNeighLifetime ip n).trans ?_
  dsimp only
  split
  · exact .refl P _
  · generalize hn₁ : (n.updateNeighLifetime ip).modifyNeigh ip _ = n₁
    have h₁ : Calm P (n.updateNeighLifetime ip) n₁ := hn₁ ▸ calm_modifyNeigh _ _ _
    generalize hn₂ : (if n₁.cfg.gRoutingMetric = .wcim then _ else n₁) = n₂
    have h₂ : Calm P n₁ n₂ := by
      rw [← hn₂]
      split
      · exact calm_modifyNeigh _ _ _
      · exact .refl P _
    exact (h₁.trans h₂).trans (calm_recvHelloExtensions ip m m.ext n₂)

theorem calm_getRandom : Calm P n n.getRandom.2 := { Calm.refl P n with }

theorem calm_unlinkNeigh (ip : Ip) (n : Node) : Calm P n (n.unlinkNeigh ip) := by
  have hlist : ∀ l, Calm P n { n with aodvNeighList := l } := fun _ ↦ { Calm.refl P n with }
  unfold unlinkNeigh
  dsimp only
  split
  · exact (hlist _).trans <| (calm_removeTimer .sendEtt ip ip noTos _ rfl).trans <|
      (calm_removeTimer .ettCleanup ip ip noTos _ rfl).trans (calm_updateTimers _)
  · exact hlist _

theorem calm_deleteAodvNeigh {ip : Ip} (h : n.deleteAodvNeigh ip = some n') : Calm isPlain n n' := by
  unfold deleteAodvNeigh at h
  split at h
  · exact (calm_unlinkNeigh ip n).trans (calm_of_quiet (steady_genRerr h).quiet)
  · exact Option.some.inj h ▸ .refl _ _

theorem calm_sendEttInfo (ip : Ip) (myRate : UInt16) (fixed : UInt8) (n : Node) :
    Calm isPlain n (n.sendEttInfo ip myRate fixed) := by
  unfold sendEttInfo
  dsimp only
  split
  · exact calm_alloc
  split
  · exact calm_alloc
  · exact calm_alloc.trans (calm_of_quiet (steady_sendMessage trivial).quiet)

theorem calm_resetEtt {ip : Ip} (h : n.resetEtt ip = some n') : Calm isPlain n n' := by
  refine Calm.trans ?_ (calm_of_quiet (steady_genRerr h).quiet)
  exact (calm_removeTimer .sendEtt ip ip noTos n rfl).trans <|
    (calm_modifyNeigh ip resetEttNeigh _).trans <| calm_getRandom.trans <|
      (calm_insertTimer .sendEtt _ ip _ rfl).trans <|
        (calm_insertTimer .ettCleanup _ ip _ rfl).trans (calm_updateTimers _)

/-- A measurement that begins anew with the smallest window. -/
def renewEtt (reset : UInt8) (e : EttParams) : EttParams :=
  { e with
    recvDelays := delayVectorInit
    countRcv := 0
    ettWindow := UInt8.ofNat ettProbesMin
    reset := reset }

def widenEtt (e : EttParams) : EttParams :=
  { e with
    ettWindow :=
      if e.ettWindow + 2 > UInt8.ofNat ettProbesMax then UInt8.ofNat ettProbesMax
      else e.ettWindow + 2 }

/-- What the delay of a full window leads to. -/
inductive Estimates (ip : Ip) (ett : EttParams) (recvDelay : UInt32) (n : Node) : Node → Prop
  | again {n₁ : Node} {rate : UInt16} (hzero : recvDelay = 0) (hlast : ett.ettWindow = UInt8.ofNat ettProbesMax)
      (hreset : ett.reset ≠ 0) (h : n.resetEtt ip = some n₁) :
      Estimates ip ett recvDelay n (n₁.sendEttInfo ip rate 0)
  | secondRound {rate : UInt16} :
      Estimates ip ett recvDelay n ((n.modifyNeigh ip (updateEtt (renewEtt 1))).sendEttInfo ip rate 0)
  | widen (hroom : ett.ettWindow ≠ UInt8.ofNat ettProbesMax) :
      Estimates ip ett recvDelay n (n.modifyNeigh ip (updateEtt widenEtt))
  | unusable {n' : Node} (hzero : recvDelay ≠ 0) (hdefault : recvDelay = defaultEttMetric)
      (h : n.resetEtt ip = some n') : Estimates ip ett recvDelay n n'
  | rated {rate : UInt16} :
      Estimates ip ett recvDelay n (((n.modifyNeigh ip (updateEtt (renewEtt 0))).modifyNeigh ip
        fun x ↦ { x with sendRate := rate }).sendEttInfo ip rate 0)

theorem useEstimation_cases {ip : Ip} {ett : EttParams} {recvDelay : UInt32}
    (h : n.useEstimation ip ett recvDelay = some n') : Estimates ip ett recvDelay n n' := by
  unfold useEstimation at h
  split at h
  · next hlast =>
    obtain ⟨n₁, hretry, h⟩ := Option.bind_eq_some_iff.mp h
    obtain ⟨x, -, h⟩ := Option.bind_eq_some_iff.mp h
    obtain rfl := Option.some.inj h
    unfold retryEstimation at hretry
    split at hretry
    · next hreset => exact .again hlast.1 hlast.2 hreset hretry
    · obtain rfl := Option.some.inj hretry
      exact .secondRound
  next hlast =>
  split at h
  · next hzero =>
    obtain rfl := Option.some.inj h
    exact .widen fun hmax ↦ hlast ⟨hzero, hmax⟩
  next hzero =>
  split at h
  · next hdefault => exact .unusable hzero hdefault h
  · obtain ⟨rate, -, h⟩ := Option.bind_eq_some_iff.mp h
    obtain rfl := Option.some.inj h
    exact .rated

theorem calm_useEstimation {ip : Ip} {ett : EttParams} {recvDelay : UInt32}
    (h : n.useEstimation ip ett recvDelay = some n') : Calm isPlain n n' := by
  cases useEstimation_cases h with
  | again _ _ _ hreset => exact (calm_resetEtt hreset).trans (calm_sendEttInfo _ _ _ _)
  | secondRound => exact (calm_modifyNeigh _ _ _).trans (calm_sendEttInfo _ _ _ _)
  | widen => exact calm_modifyNeigh _ _ _
  | unusable _ _ hreset => exact calm_resetEtt hreset
  | rated =>
    exact ((calm_modifyNeigh _ _ _).trans (calm_modifyNeigh _ _ _)).trans (calm_sendEttInfo _ _ _ _)

theorem calm_computeEstimation {ip : Ip} (h : n.computeEstimation ip = some n') :
    Calm isPlain n n' := by
  obtain ⟨x, -, h⟩ := Option.bind_eq_some_iff.mp h
  dsimp only at h
  split at h
  · exact Option.some.inj h ▸ calm_modifyNeigh _ _ _
  · exact ((calm_modifyNeigh _ _ _).trans (calm_modifyNeigh _ _ _)).trans (calm_useEstimation h)

theorem calm_reloadEttCleanup (ip : Ip) (n : Node) : Calm P n (n.reloadEttCleanup ip) :=
  (calm_removeTimer .ettCleanup ip ip noTos n rfl).trans <|
    (calm_insertTimer .ettCleanup _ ip _ rfl).trans (calm_updateTimers _)

theorem calm_recvLprobe {t : Task} {m : LProbe} (h : n.recvLprobe t m = some n') :
    Calm isPlain n n' := by
  unfold recvLprobe at h
  split at h
  · exact Option.some.inj h ▸ .refl _ _
  dsimp only at h
  refine .trans (calm_updateNeighLifetime t.srcIp n) ?_
  split at h
  · exact Option.some.inj h ▸ .refl _ _
  obtain ⟨n₁, hn₁, rfl⟩ := Option.map_eq_some_iff.mp h
  refine Calm.trans ?_ (calm_modifyNeigh _ _ _)
  split at hn₁
  · exact ((calm_reloadEttCleanup _ _).trans (calm_modifyNeigh _ _ _)).trans
      ((calm_modifyNeigh _ _ _).trans (calm_computeEstimation hn₁))
  · exact Option.some.inj hn₁ ▸ (calm_reloadEttCleanup _ _).trans (calm_modifyNeigh _ _ _)

theorem calm_recvEttInfo {t : Task} {m : EttInfo} (h : n.recvEttInfo t m = some n') :
    Calm isPlain n n' := by
  unfold recvEttInfo at h
  split at h
  · exact Option.some.inj h ▸ .refl _ _
  refine .trans (calm_updateNeighLifetime t.srcIp n) ?_
  obtain ⟨n₁, hn₁, rfl⟩ := Option.map_eq_some_iff.mp h
  refine Calm.trans ?_ (calm_modifyNeigh _ _ _)
  dsimp only at hn₁
  split at hn₁
  · split at hn₁
    · exact (((calm_modifyNeigh _ _ _).trans (calm_modifyNeigh _ _ _)).trans
        ((calm_reloadEttCleanup _ _).trans (calm_modifyNeigh _ _ _))).trans
          (calm_computeEstimation hn₁)
    · exact Option.some.inj hn₁ ▸ ((calm_modifyNeigh _ _ _).trans (calm_modifyNeigh _ _ _)).trans
        ((calm_reloadEttCleanup _ _).trans (calm_modifyNeigh _ _ _))
  · exact Option.some.inj hn₁ ▸ calm_modifyNeigh _ _ _

theorem calm_recvSprobe (t : Task) (m : SProbe) (n : Node) : Calm P n (n.recvSprobe t m) := by
  unfold recvSprobe
  split
  · exact .refl P n
  · exact calm_modifyNeigh _ _ _

theorem calm_sendProbe (ip : Ip) (n : Node) : Calm isPlain n (n.sendProbe ip) := by
  have hcount : ∀ c, Calm isPlain n { n with countSend := c } :=
    fun _ ↦ { Calm.refl isPlain n with }
  have hrate : ∀ (x : AodvNeigh) (n₁ : Node), Calm isPlain n₁ (n₁.sendRateProbe x).2 := by
    intro x n₁
    unfold sendRateProbe
    split
    · exact calm_sendEttInfo _ _ _ _
    dsimp only
    split
    · exact calm_alloc
    split
    · exact calm_alloc.trans calm_alloc
    · refine (calm_alloc.trans calm_alloc).trans ?_
      unfold sendEttProbe
      split
      · exact .refl _ _
      · exact { Calm.refl isPlain _ with sent := ⟨_, rfl, by simp [isPlain]⟩ }
  unfold sendProbe
  split
  · exact .refl _ n
  dsimp only
  split
  · exact ((hcount _).trans (hrate _ _)).trans
      ((calm_insertTimer .sendEtt _ ip _ rfl).trans (calm_updateTimers _))
  · exact (hcount _).trans (hrate _ _)

/-- A HELLO that carries the load of the node. -/
def isHelloOf (n : Node) (s : Sent) : Prop := ∃ ext, s = .broadcast 1 (.hello (n.helloOf ext))

theorem calm_sendHello (ext : List HelloExtension) (n : Node) :
    Calm (isHelloOf n) n (n.sendHello ext) := by
  have hcount : ∀ (n₁ : Node) (c : ℕ), Calm (isHelloOf n) n₁ { n₁ with count := c } :=
    fun n₁ _ ↦ { Calm.refl _ n₁ with }
  have hetx : ∀ n₁ : Node, Calm (isHelloOf n) n₁ n₁.computeEtx :=
    fun n₁ ↦ { Calm.refl _ n₁ with }
  have hsend : Calm (isHelloOf n) n.alloc.2
      (n.alloc.2.localBroadcast 1 (.hello (n.alloc.2.helloOf ext))) :=
    calm_of_quiet (quiet_localBroadcast ⟨ext, rfl⟩)
  unfold sendHello
  dsimp only
  split
  · exact calm_alloc
  have hall := ((calm_alloc.trans hsend).trans calm_getRandom).trans
    ((calm_insertTimer .hello (helloDelay
      (n.alloc.2.localBroadcast 1 (.hello (n.alloc.2.helloOf ext))).getRandom.1) n.cfg.gMeshIp _ rfl).trans
      (calm_updateTimers _))
  split
  · split
    · exact (hall.trans (hcount _ _)).trans (hetx _)
    · exact hall.trans (hcount _ _)
  · exact hall.trans (hcount _ _)

theorem calm_helloExtensions {l : List AodvNeigh} {ext : List HelloExtension} {n : Node} :
    Calm P n (helloExtensions l ext n).2 := by
  induction l generalizing ext n with
  | nil => exact .refl P n
  | cons x l ih =>
    unfold helloExtensions
    dsimp only
    split
    · exact calm_alloc
    · exact calm_alloc.trans ih

theorem helloExtensions_routing (l : List AodvNeigh) (ext : List HelloExtension) (n : Node) :
    (helloExtensions l ext n).2.routing = n.routing := by
  induction l generalizing ext n with
  | nil => rfl
  | cons x l ih =>
    unfold helloExtensions
    dsimp only
    split
    · rfl
    · exact ih _ _

theorem calm_genHello (n : Node) : Calm (isHelloOf n) n n.genHello := by
  unfold genHello
  split
  · have hcalm : Calm (isHelloOf n) n (helloExtensions n.aodvNeighList [] n).2 := calm_helloExtensions
    have hrouting := helloExtensions_routing n.aodvNeighList [] n
    rcases he : helloExtensions n.aodvNeighList [] n with ⟨_ | ext, n₁⟩
    · rw [he] at hcalm
      exact hcalm
    · rw [he] at hcalm hrouting
      refine hcalm.trans ((calm_sendHello ext n₁).mono fun s ⟨ext', hs⟩ ↦ ⟨ext', ?_⟩)
      have hr : n₁.routing = n.routing := hrouting
      simp only [hs, helloOf, hr]
  · exact calm_sendHello [] n

end Calm

end Fbaodv.Proofs.RouteEffects
