import Fbaodv.Proofs.DelayWindow
import Fbaodv.Proofs.NetRuns
import Fbaodv.Proofs.Pending

namespace Fbaodv.Proofs.ProbeChains

open Fbaodv.Model Fbaodv.Model.Node Fbaodv.Foundation
open Fbaodv.Proofs.RouteEffects (useEstimation_cases)
open Fbaodv.Proofs.NodeRun Fbaodv.Proofs.Upkeep Fbaodv.Proofs.NeighActs Fbaodv.Proofs.Pending
open Fbaodv.Proofs.DelayWindow Fbaodv.Proofs.PacketDiscovery Fbaodv.Proofs.NeighLoss
open Fbaodv.Proofs.NetRuns Relation

/-- `compute_estimation` gives up the estimation of a neighbour with these
parameters, and resets it. -/
def estimationResets (ett : EttParams) : Bool :=
  let ett := { ett with countRcv := ett.countRcv + 1 }
  let (recvDelay, ett') := computeDelay ett
  ett.countRcv == ett.ettWindow &&
    if recvDelay = 0 then ett'.ettWindow == UInt8.ofNat ettProbesMax && ett'.reset != 0
    else recvDelay == defaultEttMetric

/-- The task is a pair of probes, or a fixed rate, that reloads the
`TASK_ETT_CLEANUP` of its neighbour. -/
def reloads (t : Task) (n : Node) : Bool :=
  match t.type, t.data, n.findAodvNeigh t.srcIp with
  | .recvLEtt, some (.lprobe m), some x => m.nProbe == x.ett.lastCount
  | .ettInfo, some (.ettInfo m), some _ => m.fixedRate == 1
  | _, _, _ => false

/-- The estimation that such a task goes on with is reset. -/
def resets (t : Task) (n : Node) : Bool :=
  match t.type, t.data, n.findAodvNeigh t.srcIp with
  | .recvLEtt, some (.lprobe m), some x =>
    n.cfg.gFixedRate == 0 &&
      estimationResets (delayVectorAdd m.lastMeasDelay { x.ett with measDelay := probeDelay x.ett m })
  | .ettInfo, some (.ettInfo m), some x =>
    n.cfg.gFixedRate == 0 && estimationResets (delayVectorAdd m.lastMeasDelay { x.ett with fixedRate := 1 })
  | _, _, _ => false

/-- The task is the HELLO of a new neighbour that is to be probed. -/
def meets (t : Task) (n : Node) : Bool :=
  t.type == .recvHello && n.cfg.gRoutingMetric != .hops && !n.cfg.aodvBlacklistIp.contains t.srcIp &&
    (n.findAodvNeigh t.srcIp).isNone

/-- The task sets no timer of a probe chain while one is left that it cannot
cancel: a task of the chain that has already fired, a timer that the same task
has set, or one of a neighbour that is gone. -/
def OrderlyTask (t : Task) (tasks : ClassQueue Task) (n : Node) : Prop :=
  (t.type = .ettCleanup → tasks.elems.countP (isOf .sendEtt t.srcIp) = 0) ∧
    (reloads t n = true → tasks.elems.countP (isOf .ettCleanup t.srcIp) = 0 ∧ resets t n = false) ∧
    (meets t n = true → pending (isOf .sendEtt t.srcIp) n = 0 ∧ pending (isOf .ettCleanup t.srcIp) n = 0)

instance (t : Task) (tasks : ClassQueue Task) (n : Node) : Decidable (OrderlyTask t tasks n) :=
  inferInstanceAs (Decidable (_ ∧ _ ∧ _))

/-- Every address has at most one chain. -/
def OneChain (n : Node) : Prop := ∀ type ip, isEttType type = true → pending (isOf type ip) n ≤ 1

section Handlers

variable {ip : Ip} {n n' : Node} {t : Task} {x : AodvNeigh}

/-- The timers of other addresses stay, and the tasks that have fired. -/
def Aside (ip : Ip) (n n' : Node) : Prop :=
  ∀ type ip', isEttType type = true → ip' ≠ ip → Keeps (isOf type ip') n n'

theorem Aside.trans {n'' : Node} (h : Aside ip n n') (h' : Aside ip n' n'') : Aside ip n n'' :=
  fun type ip' htype hne ↦ (h type ip' htype hne).trans (h' type ip' htype hne)

theorem aside_of_same (h : NeighSame n n') : Aside ip n n' := fun _ _ htype _ ↦ keeps_isOf_same htype h

theorem aside_set (type : TaskType) {delay : ℕ} : Aside ip n (n.insertTimer type delay ip) :=
  fun _ _ _ hne ↦ keeps_set (.inr hne)

theorem aside_cancel (type : TaskType) : Aside ip n (n.removeTimer ip ip noTos type) :=
  fun _ _ _ hne ↦ keeps_cancel (.inr hne)

/-- `reset_ett` sets both timers, of which it has cancelled one before. -/
theorem resetEtt_counts (hn : UpkeepAddressed n) (h : n.resetEtt ip = some n') : Aside ip n n' ∧
    n'.tasks = n.tasks ∧
    n'.timers.queue.countP (isOf .sendEtt ip) ≤ n.timers.queue.countP (isOf .sendEtt ip) - 1 + 1 ∧
    n'.timers.queue.countP (isOf .ettCleanup ip) ≤ n.timers.queue.countP (isOf .ettCleanup ip) + 1 := by
  obtain ⟨n₁, delay, h₁, h₂⟩ := resetEtt_renews h
  refine ⟨?_, ?_, ?_, ?_⟩
  · exact (((aside_cancel .sendEtt).trans (aside_of_same h₁)).trans (aside_set .sendEtt)).trans
      ((aside_set .ettCleanup).trans (aside_of_same h₂))
  · rw [h₂.tasks]
    exact h₁.tasks
  · have hlast : Keeps (isOf .sendEtt ip) (n₁.insertTimer .sendEtt delay ip) n' :=
      (keeps_set (.inl (by decide))).trans (keeps_isOf_same rfl h₂)
    rw [hlast.count]
    refine (countP_set _ _).trans (Nat.add_le_add_right (le_of_eq ?_) 1)
    rw [(keeps_isOf_same rfl h₁).count, countP_cancel hn rfl]
  · rw [(keeps_isOf_same rfl h₂).count]
    refine (countP_set _ _).trans (Nat.add_le_add_right (le_of_eq ?_) 1)
    have hfirst : Keeps (isOf .ettCleanup ip) n (n₁.insertTimer .sendEtt delay ip) :=
      ((keeps_cancel (.inl (by decide))).trans (keeps_isOf_same rfl h₁)).trans (keeps_set (.inl (by decide)))
    exact hfirst.count

theorem reload_counts (ip : Ip) (hn : UpkeepAddressed n) : Aside ip n (n.reloadEttCleanup ip) ∧
    (n.reloadEttCleanup ip).tasks = n.tasks ∧ Keeps (isOf .sendEtt ip) n (n.reloadEttCleanup ip) ∧
    (n.reloadEttCleanup ip).timers.queue.countP (isOf .ettCleanup ip) ≤
      n.timers.queue.countP (isOf .ettCleanup ip) - 1 + 1 := by
  have hupdate : ∀ k : Node, NeighSame k k.updateTimers := fun _ ↦ neighSame_updateTimers
  refine ⟨?_, rfl, ?_, ?_⟩
  · exact ((aside_cancel .ettCleanup).trans (aside_set .ettCleanup)).trans (aside_of_same (hupdate _))
  · exact ((keeps_cancel (.inl (by decide))).trans (keeps_set (.inl (by decide)))).trans
      (keeps_isOf_same rfl (hupdate _))
  · unfold reloadEttCleanup
    rw [(keeps_isOf_same rfl (hupdate _)).count]
    refine (countP_set _ _).trans (Nat.add_le_add_right (le_of_eq ?_) 1)
    exact countP_cancel hn rfl

theorem useEstimation_same {ett : EttParams} {recvDelay : UInt32}
    (hreset : (if recvDelay = 0 then ett.ettWindow == UInt8.ofNat ettProbesMax && ett.reset != 0
      else recvDelay == defaultEttMetric) = false)
    (h : n.useEstimation ip ett recvDelay = some n') : NeighSame n n' := by
  cases useEstimation_cases h with
  | again hzero hlast hagain =>
    rw [if_pos hzero] at hreset
    simp [hlast, hagain] at hreset
  | secondRound => exact (neighSame_updateEtt _).trans (neighSame_sendEttInfo _ _ _)
  | widen => exact neighSame_updateEtt _
  | unusable hzero hdefault =>
    rw [if_neg hzero, hdefault] at hreset
    cases hreset
  | @rated rate =>
    have hrate : ∀ k : Node, NeighSame k (k.modifyNeigh ip fun x ↦ { x with sendRate := rate }) :=
      fun _ ↦ neighSame_modifyNeigh fun _ ↦ ⟨rfl, rfl, rfl, id⟩
    exact ((neighSame_updateEtt _).trans (hrate _)).trans (neighSame_sendEttInfo _ _ _)

theorem computeEstimation_same (hx : n.findAodvNeigh ip = some x) (hreset : estimationResets x.ett = false)
    (h : n.computeEstimation ip = some n') : NeighSame n n' := by
  obtain ⟨y, hy, h⟩ := Option.bind_eq_some_iff.mp h
  obtain rfl : x = y := Option.some.inj (hx.symm.trans hy)
  dsimp only at h
  split at h
  · exact Option.some.inj h ▸ neighSame_updateEtt _
  next hfull =>
  have hfull : (x.ett.countRcv + 1 == x.ett.ettWindow) = true := by simpa using hfull
  simp only [estimationResets, hfull, Bool.true_and] at hreset
  exact ((neighSame_updateEtt _).trans (neighSame_updateEtt _)).trans (useEstimation_same hreset h)

/-- What a message about the estimation does to the chain of its neighbour as
long as nothing is reset. -/
structure Reloads (ip : Ip) (reloaded : Bool) (n n' : Node) : Prop where
  aside : Aside ip n n'
  tasks : n'.tasks = n.tasks
  send : n'.timers.queue.countP (isOf .sendEtt ip) = n.timers.queue.countP (isOf .sendEtt ip)
  cleanup : n'.timers.queue.countP (isOf .ettCleanup ip) ≤
    if reloaded then n.timers.queue.countP (isOf .ettCleanup ip) - 1 + 1
    else n.timers.queue.countP (isOf .ettCleanup ip)

theorem reloads_refresh (ip' : Ip) : Reloads ip false n (n.updateNeighLifetime ip') := by
  have hkeep : ∀ type ip, isEttType type = true → Keeps (isOf type ip) n (n.updateNeighLifetime ip') := by
    intro type ip htype
    refine keeps_isOf ?_ htype (ops_updateNeighLifetime ip')
    cases type
    all_goals first | rfl | cases htype
  exact ⟨fun type ip' htype _ ↦ hkeep type ip' htype, rfl, (hkeep .sendEtt ip rfl).count,
    (hkeep .ettCleanup ip rfl).count.le⟩

/-- The timer is reloaded after the neighbour was refreshed, and nothing else
follows. -/
theorem Reloads.reload {reloaded : Node} (h : Reloads ip false n reloaded)
    (hops : UpkeepAddressed reloaded) (hsame : NeighSame (reloaded.reloadEttCleanup ip) n') :
    Reloads ip true n n' := by
  obtain ⟨haside, htasks, hsend, hcleanup⟩ := reload_counts ip hops
  refine ⟨(h.aside.trans haside).trans (aside_of_same hsame), ?_, ?_, ?_⟩
  · rw [hsame.tasks, htasks, h.tasks]
  · rw [(keeps_isOf_same rfl hsame).count, hsend.count, h.send]
  · rw [(keeps_isOf_same rfl hsame).count]
    have hle : reloaded.timers.queue.countP (isOf .ettCleanup ip) ≤ n.timers.queue.countP (isOf .ettCleanup ip) :=
      h.cleanup
    exact hcleanup.trans (Nat.add_le_add_right (Nat.sub_le_sub_right hle 1) 1)

theorem Reloads.same {reloaded : Bool} {n'' : Node} (h : Reloads ip reloaded n n') (hsame : NeighSame n' n'') :
    Reloads ip reloaded n n'' := by
  refine ⟨h.aside.trans (aside_of_same hsame), hsame.tasks.trans h.tasks, ?_, ?_⟩
  · rw [(keeps_isOf_same rfl hsame).count, h.send]
  · rw [(keeps_isOf_same rfl hsame).count]
    exact h.cleanup

theorem recvLprobe_reloads {m : LProbe} (hn : UpkeepAddressed n) (htype : t.type = .recvLEtt)
    (hdata : t.data = some (.lprobe m)) (hreset : reloads t n = true → resets t n = false)
    (h : n.recvLprobe t m = some n') : Reloads t.srcIp (reloads t n) n n' := by
  have hrefreshed : Reloads t.srcIp false n (n.updateNeighLifetime t.srcIp) := reloads_refresh _
  have haddressed : UpkeepAddressed (n.updateNeighLifetime t.srcIp) := hn.ops (ops_updateNeighLifetime _)
  unfold recvLprobe at h
  split at h
  · next hx =>
    have hreloads : reloads t n = false := by simp [reloads, htype, hdata, hx]
    obtain rfl := Option.some.inj h
    rw [hreloads]
    exact ⟨aside_of_same (.refl n), rfl, rfl, le_rfl⟩
  next x hx =>
  have hreloads : reloads t n = (m.nProbe == x.ett.lastCount) := by simp [reloads, htype, hdata, hx]
  have hresets : resets t n = (n.cfg.gFixedRate == 0 &&
      estimationResets (delayVectorAdd m.lastMeasDelay { x.ett with measDelay := probeDelay x.ett m })) := by
    simp [resets, htype, hdata, hx]
  obtain ⟨x₁, hx₁, hett⟩ := becomes_updateNeighLifetime hx
  dsimp only at h
  split at h
  · next hpair =>
    obtain rfl := Option.some.inj h
    rw [hreloads, beq_eq_false_iff_ne.mpr hpair]
    exact hrefreshed
  next hpair =>
  have hpair : (m.nProbe == x.ett.lastCount) = true := by simpa using hpair
  rw [hreloads, hpair] at hreset ⊢
  have hreset := hresets.symm.trans (hreset rfl)
  obtain ⟨n₁, hn₁, rfl⟩ := Option.map_eq_some_iff.mp h
  have hreloaded : Becomes t.srcIp n x₁ ((n.updateNeighLifetime t.srcIp).reloadEttCleanup t.srcIp) :=
    hx₁.same rfl
  have hmeasured := hreloaded.modify
    (f := fun x ↦ { x with ett := { x.ett with measDelay := probeDelay x.ett m }, recvRate := m.myRate })
    fun _ ↦ rfl
  refine hrefreshed.reload haddressed
    (NeighSame.trans (?_ : NeighSame _ n₁) (neighSame_modifyNeigh fun _ ↦ ⟨rfl, rfl, rfl, id⟩))
  have hmeasure : ∀ k : Node, NeighSame k (k.modifyNeigh t.srcIp fun x ↦
      { x with ett := { x.ett with measDelay := probeDelay x.ett m }, recvRate := m.myRate }) :=
    fun _ ↦ neighSame_modifyNeigh fun _ ↦ ⟨rfl, rfl, rfl, id⟩
  refine (hmeasure _).trans ?_
  split at hn₁
  · next hfixed =>
    have hadded := hmeasured.modify (f := updateEtt (delayVectorAdd m.lastMeasDelay)) fun _ ↦ rfl
    have hfixed : (n.cfg.gFixedRate == 0) = true := beq_iff_eq.mpr hfixed
    rw [hfixed, Bool.true_and, ← hett] at hreset
    exact (neighSame_updateEtt _).trans (computeEstimation_same hadded.found hreset hn₁)
  · exact Option.some.inj hn₁ ▸ .refl _

theorem recvEttInfo_reloads {m : EttInfo} (hn : UpkeepAddressed n) (htype : t.type = .ettInfo)
    (hdata : t.data = some (.ettInfo m)) (hreset : reloads t n = true → resets t n = false)
    (h : n.recvEttInfo t m = some n') : Reloads t.srcIp (reloads t n) n n' := by
  have hrefreshed : Reloads t.srcIp false n (n.updateNeighLifetime t.srcIp) := reloads_refresh _
  have haddressed : UpkeepAddressed (n.updateNeighLifetime t.srcIp) := hn.ops (ops_updateNeighLifetime _)
  unfold recvEttInfo at h
  split at h
  · next hx =>
    have hreloads : reloads t n = false := by simp [reloads, htype, hdata, hx]
    obtain rfl := Option.some.inj h
    rw [hreloads]
    exact ⟨aside_of_same (.refl n), rfl, rfl, le_rfl⟩
  next x hx =>
  have hreloads : reloads t n = (m.fixedRate == 1) := by simp [reloads, htype, hdata, hx]
  have hresets : resets t n = (n.cfg.gFixedRate == 0 &&
      estimationResets (delayVectorAdd m.lastMeasDelay { x.ett with fixedRate := 1 })) := by
    simp [resets, htype, hdata, hx]
  obtain ⟨x₁, hx₁, hett⟩ := becomes_updateNeighLifetime hx
  obtain ⟨n₁, hn₁, rfl⟩ := Option.map_eq_some_iff.mp h
  have hrated := hx₁.modify (f := fun x ↦ { x with recvRate := m.myRate }) fun _ ↦ rfl
  have hrate : ∀ k : Node, NeighSame k (k.modifyNeigh t.srcIp fun x ↦ { x with recvRate := m.myRate }) :=
    fun _ ↦ neighSame_modifyNeigh fun _ ↦ ⟨rfl, rfl, rfl, id⟩
  dsimp only at hn₁
  split at hn₁
  · next hone =>
    have hone : (m.fixedRate == 1) = true := by simpa using hone
    rw [hreloads, hone] at hreset ⊢
    have hreset := hresets.symm.trans (hreset rfl)
    have hfixed := hrated.modify (f := updateEtt fun e ↦ { e with fixedRate := 1 }) fun _ ↦ rfl
    have hmark : ∀ k : Node, NeighSame k (k.modifyNeigh t.srcIp (updateEtt fun e ↦ { e with fixedRate := 1 })) :=
      fun _ ↦ neighSame_updateEtt _
    have hprepared := (hrefreshed.same (hrate _)).same (hmark _)
    have haddressed' := haddressed.ops (S := isNeighType)
      ((ops_of_same (hrate _)).trans (ops_of_same (hmark _)))
    generalize hn₂ : Node.modifyNeigh t.srcIp (updateEtt fun e ↦ { e with fixedRate := 1 }) _ = n₂
      at hfixed hprepared haddressed' hn₁
    have hcfg : n₂.cfg = n.cfg := hn₂ ▸ rfl
    have hreloaded : Becomes t.srcIp n _ (n₂.reloadEttCleanup t.srcIp) := hfixed.same rfl
    have hadded := hreloaded.modify (f := updateEtt (delayVectorAdd m.lastMeasDelay)) fun _ ↦ rfl
    refine hprepared.reload haddressed'
      (NeighSame.trans (?_ : NeighSame _ n₁) (neighSame_modifyNeigh fun _ ↦ ⟨rfl, rfl, rfl, id⟩))
    have hadd : ∀ k : Node, NeighSame k (k.modifyNeigh t.srcIp (updateEtt (delayVectorAdd m.lastMeasDelay))) :=
      fun _ ↦ neighSame_updateEtt _
    refine (hadd _).trans ?_
    split at hn₁
    · next hrate =>
      have hrate : (n.cfg.gFixedRate == 0) = true := by
        rw [beq_iff_eq, ← hcfg]
        exact hrate
      rw [hrate, Bool.true_and, ← hett] at hreset
      exact computeEstimation_same hadded.found hreset hn₁
    · exact Option.some.inj hn₁ ▸ .refl _
  · next hone =>
    rw [hreloads, beq_eq_false_iff_ne.mpr hone]
    have hrated := hrefreshed.same (hrate _)
    rw [Option.some.inj hn₁] at hrated
    exact hrated.same (neighSame_modifyNeigh fun _ ↦ ⟨rfl, rfl, rfl, id⟩)

end Handlers

section Steps

variable {type : TaskType} {ip : Ip} {n₀ n n' : Node} {t : Task} {tasks : ClassQueue Task}

theorem touches_of_not_probe (hprobe : isProbeType t.type = false) (htype : isEttType type = true) :
    touches t.type type = false := by
  simp only [isEttType, Bool.or_eq_true, beq_iff_eq] at htype
  rcases htype with rfl | rfl
  all_goals
    simp only [touches, hprobe, isNeighType]
    cases t.type
    all_goals rfl

/-- A task of another kind starts a chain only for a neighbour that has none. -/
theorem OneChain.acts (hprobe : isProbeType t.type = false) (hone : OneChain n₀)
    (hmeets : meets t n₀ = true → ∀ type, isEttType type = true → pending (isOf type t.srcIp) n₀ = 0)
    (h : Acts n₀ t n₀ n') : OneChain n' := by
  induction h with
  | refl => exact hone
  | tail _ hact ih =>
    intro type ip htype
    rcases ops_of_act hact with hops | ⟨-, -, rfl⟩ | ⟨rfl, hhello, hblack, hnone, ok, hcreate⟩
    · rw [(keeps_isOf (touches_of_not_probe hprobe htype) htype hops).pending]
      exact ih type ip htype
    · exact (pending_unlinkNeigh _ _ _).trans (ih type ip htype)
    · have htake : ∀ k : Node, Keeps (isOf type ip) k (k.takeNeigh2h t.srcIp).2.2 :=
        fun _ ↦ keeps_isOf (S := fun _ ↦ false) rfl htype (ops_takeNeigh2h t.srcIp)
      refine (pending_createAodvNeigh htype hcreate).trans ?_
      rw [(htake _).pending, (htake _).cfg]
      split
      · next hnew =>
        obtain ⟨hmetric, rfl⟩ := hnew
        rw [hmeets (by simpa [meets, hhello, hmetric, hnone] using hblack) type htype]
      · exact ih type ip htype

theorem OneChain.aside (hone : OneChain n) (h : Aside ip n n') (hsend : pending (isOf .sendEtt ip) n' ≤ 1)
    (hcleanup : pending (isOf .ettCleanup ip) n' ≤ 1) : OneChain n' := by
  intro type ip' htype
  by_cases hip : ip' = ip
  · subst hip
    simp only [isEttType, Bool.or_eq_true, beq_iff_eq] at htype
    rcases htype with rfl | rfl
    · exact hsend
    · exact hcleanup
  · rw [(h type ip' htype hip).pending]
    exact hone type ip' htype

theorem OneChain.pop (hone : OneChain n) (hpop : n.tasks.pop = (some t, tasks)) :
    OneChain { n with tasks := tasks } := by
  intro type ip htype
  have hcount : pending (isOf type ip) n = _ := pending_pop hpop
  have hle := hone type ip htype
  omega

/-- The popped task was the only one of its chain. -/
theorem OneChain.popped (hone : OneChain n) (hpop : n.tasks.pop = (some t, tasks))
    (htype : isEttType t.type = true) : pending (isOf t.type t.srcIp) { n with tasks := tasks } = 0 := by
  have hcount : pending (isOf t.type t.srcIp) n = _ := pending_pop hpop
  have hle := hone t.type t.srcIp htype
  rw [if_pos (by simp [isOf])] at hcount
  omega

theorem OneChain.sendProbe (hone : OneChain n) (h : pending (isOf .sendEtt ip) n = 0) :
    OneChain (n.sendProbe ip) := by
  rcases sendProbe_renews (n := n) ip with hsame | ⟨n₁, delay, h₁, h₂⟩
  · intro type ip' htype
    rw [(keeps_isOf_same htype hsame).pending]
    exact hone type ip' htype
  · refine hone.aside (((aside_of_same h₁).trans (aside_set .sendEtt)).trans (aside_of_same h₂)) ?_ ?_
    · have hfirst : Keeps (isOf .sendEtt ip) n n₁ := keeps_isOf_same rfl h₁
      have hlast : Keeps (isOf .sendEtt ip) (n₁.insertTimer .sendEtt delay ip) _ := keeps_isOf_same rfl h₂
      rw [hlast.pending]
      rw [← hfirst.pending] at h
      unfold pending at h ⊢
      have hset : (n₁.insertTimer .sendEtt delay ip).timers.queue.countP (isOf .sendEtt ip) ≤ _ := countP_set _ _
      have htasks : (n₁.insertTimer .sendEtt delay ip).tasks = n₁.tasks := rfl
      rw [htasks]
      omega
    · have hkeep : Keeps (isOf .ettCleanup ip) n _ :=
        ((keeps_isOf_same rfl h₁).trans (keeps_set (.inl (by decide)))).trans (keeps_isOf_same rfl h₂)
      rw [hkeep.pending]
      exact hone .ettCleanup ip rfl

theorem OneChain.resetEtt (hn : UpkeepAddressed n) (hone : OneChain n)
    (hsend : n.tasks.elems.countP (isOf .sendEtt ip) = 0) (hcleanup : pending (isOf .ettCleanup ip) n = 0)
    (h : n.resetEtt ip = some n') : OneChain n' := by
  obtain ⟨haside, htasks, hsend', hcleanup'⟩ := resetEtt_counts hn h
  have hle := hone .sendEtt ip rfl
  refine hone.aside haside ?_ ?_
  · unfold pending at hle ⊢
    rw [htasks]
    omega
  · unfold pending at hcleanup ⊢
    rw [htasks]
    omega

theorem OneChain.reloads {reloaded : Bool} (hone : OneChain n)
    (hcleanup : reloaded = true → n.tasks.elems.countP (isOf .ettCleanup ip) = 0)
    (h : Reloads ip reloaded n n') : OneChain n' := by
  refine hone.aside h.aside ?_ ?_
  · have hle := hone .sendEtt ip rfl
    unfold pending at hle ⊢
    rw [h.tasks, h.send]
    exact hle
  · have hle := hone .ettCleanup ip rfl
    have hcount := h.cleanup
    unfold pending at hle ⊢
    rw [h.tasks]
    cases reloaded with
    | false =>
      rw [if_neg Bool.false_ne_true] at hcount
      omega
    | true =>
      have hnone := hcleanup rfl
      rw [if_pos rfl] at hcount
      omega

theorem handle_recvLprobe (htype : t.type = .recvLEtt) (h : n.handle t = some n') :
    n' = n ∨ ∃ m, t.data = some (.lprobe m) ∧ n.recvLprobe t m = some n' := by
  unfold handle at h
  rw [htype] at h
  split at h
  all_goals first
    | contradiction
    | exact .inl (Option.some.inj h).symm
    | (next hdata => exact .inr ⟨_, hdata, h⟩)

theorem handle_recvEttInfo (htype : t.type = .ettInfo) (h : n.handle t = some n') :
    n' = n ∨ ∃ m, t.data = some (.ettInfo m) ∧ n.recvEttInfo t m = some n' := by
  unfold handle at h
  rw [htype] at h
  split at h
  all_goals first
    | contradiction
    | exact .inl (Option.some.inj h).symm
    | (next hdata => exact .inr ⟨_, hdata, h⟩)

theorem oneChain_thread (hn : UpkeepAddressed n) (hone : OneChain n) (horderly : AtTask OrderlyTask n .thread)
    (hpop : n.tasks.pop = (some t, tasks)) (h : { n with tasks := tasks }.handle t = some n') :
    OneChain n' := by
  obtain ⟨hfired, hreload, hmeets⟩ := horderly t tasks rfl hpop
  have hrest : OneChain { n with tasks := tasks } := hone.pop hpop
  have haddressed : UpkeepAddressed { n with tasks := tasks } := hn.pop hpop
  by_cases hprobe : isProbeType t.type = true
  · simp only [isProbeType, Bool.or_eq_true, beq_iff_eq] at hprobe
    rcases hprobe with ((hsend | hcleanup) | hlprobe) | hinfo
    · have hown : ForAddress t := by
        refine hn t (.inr (ClassQueue.pop_mem hpop)) ?_
        simp [isUpkeep, hsend]
      have hnone := hone.popped hpop (by simp [isEttType, hsend])
      rw [hsend] at hnone
      simp only [handle, hsend, hown.1, Option.some.injEq] at h
      exact h ▸ hrest.sendProbe hnone
    · have hnone := hone.popped hpop (by simp [isEttType, hcleanup])
      rw [hcleanup] at hnone
      simp only [handle, hcleanup, Option.bind_eq_some_iff] at h
      obtain ⟨x, hx, h⟩ := h
      rw [(hasNeigh_of_find hx).2] at h
      exact hrest.resetEtt haddressed (hfired hcleanup) hnone h
    · rcases handle_recvLprobe hlprobe h with rfl | ⟨m, hdata, h⟩
      · exact hrest
      · exact hrest.reloads (fun hr ↦ (hreload hr).1)
          (recvLprobe_reloads haddressed hlprobe hdata (fun hr ↦ (hreload hr).2) h)
    · rcases handle_recvEttInfo hinfo h with rfl | ⟨m, hdata, h⟩
      · exact hrest
      · exact hrest.reloads (fun hr ↦ (hreload hr).1)
          (recvEttInfo_reloads haddressed hinfo hdata (fun hr ↦ (hreload hr).2) h)
  · refine hrest.acts (by simpa using hprobe) (fun hm type htype ↦ ?_) (handle_acts h)
    have hnone : pending (isOf type t.srcIp) n = 0 := by
      simp only [isEttType, Bool.or_eq_true, beq_iff_eq] at htype
      rcases htype with rfl | rfl
      · exact (hmeets hm).1
      · exact (hmeets hm).2
    have hcount : pending (isOf type t.srcIp) n = _ := pending_pop hpop
    omega

theorem OneChain.step {e : Event} (hn : UpkeepAddressed n) (hone : OneChain n) (horderly : AtTask OrderlyTask n e)
    (hs : n.step e = some n') : OneChain n' := by
  by_cases he : e = .thread
  · subst he
    simp only [Node.step, threadStep] at hs
    split at hs
    · exact Option.some.inj hs ▸ hone
    · next t tasks hpop => exact oneChain_thread hn hone horderly hpop hs
  · intro type ip htype
    cases step_neigh hs with
    | wait => exact hone type ip htype
    | idle h =>
      rw [pending_idle (fun _ ↦ isUpkeep_of_isOf htype) h]
      exact hone type ip htype
    | signal =>
      rw [pending_signal]
      exact hone type ip htype
    | thread => exact absurd rfl he

theorem oneChain_init (cfg : Config) (env : Environment) : OneChain (Node.init cfg env) := by
  intro type ip htype
  have hnone : pending (isOf type ip) (Node.init cfg env) = 0 := by
    refine pending_init cfg env (fun _ ↦ isUpkeep_of_isOf htype) fun t ht ↦ isOf_of_ne fun heq ↦ ?_
    rw [heq] at ht
    simp only [isEttType, Bool.or_eq_true, beq_iff_eq] at htype
    rcases htype with rfl | rfl
    all_goals cases ht
  rw [hnone]
  exact Nat.zero_le 1

end Steps

/-- Every address has at most one pending `TASK_SEND_ETT` and at most one pending
`TASK_ETT_CLEANUP`, as long as no step sets such a timer beside one that it
cannot cancel. -/
theorem one_probe_chain {n : Node} (h : Reach (fun _ _ ↦ True) (AtTask OrderlyTask) n) (ip : Ip) :
    pending (isOf .sendEtt ip) n ≤ 1 ∧ pending (isOf .ettCleanup ip) n ≤ 1 := by
  have hone : UpkeepAddressed n ∧ OneChain n := by
    apply Reach.induct ?_ ?_ h
    · intro cfg env _
      exact ⟨upkeepAddressed_init cfg env, oneChain_init cfg env⟩
    · intro n e n' hn horderly hs
      exact ⟨hn.1.step hs, hn.2.step hn.1 horderly hs⟩
  exact ⟨hone.2 .sendEtt ip rfl, hone.2 .ettCleanup ip rfl⟩

/-- A station that chooses its links by their transmission times. -/
def ettStation : Node := Node.init { station.cfg with gRoutingMetric := .ett } plainEnvironment

/-- The first pair of probes of a new neighbour falls due. -/
def firstProbe : List Event := meetNeigh ++ [.wait 1001, .signal, .thread, .thread]

theorem one_probe_chain_of_firstProbe : ∃ n, runs firstProbe ettStation = some n ∧ n.sent.length = 3 ∧
    pending (isOf .sendEtt 0x0201a8c0) n ≤ 1 ∧ pending (isOf .ettCleanup 0x0201a8c0) n ≤ 1 := by
  have horderly : Lockstep.Along Node.step (AtTask OrderlyTask) firstProbe ettStation := by decide +kernel
  have hrun : (runs firstProbe ettStation).map (fun n ↦ n.sent.length) = some 3 := by decide +kernel
  obtain ⟨n, hn, hsent⟩ := Option.map_eq_some_iff.mp hrun
  have hinit : Reach (fun _ _ ↦ True) (AtTask OrderlyTask) ettStation := .init trivial
  exact ⟨n, hn, hsent, one_probe_chain (hinit.of_along horderly hn) 0x0201a8c0⟩

/-- A message that 192.168.1.2 sends to the station alone. -/
def told (m : Message) : List Event :=
  [.input { heard 0x0201a8c0 m with daddr := 0x0101a8c0, ttl := 1 }, .thread]

/-- A pair of probes from a neighbour that has no delay of the station's own
probes yet. -/
def probePair (i : UInt8) : List Event :=
  told (.sprobe ⟨i, 0x0101a8c0, 0x0201a8c0, 0, 0⟩) ++
    told (.lprobe ⟨i, 0, 0x0101a8c0, 0x0201a8c0, 0, 0, defaultEttMetric⟩)

/-- The fourth pair reloads `TASK_ETT_CLEANUP`, and the estimation, which is
`DEFAULT_ETT_METRIC`, is reset with a second one. -/
theorem cleanup_beside_reload : ∃ n, Reachable n ∧ n.cfg.gRoutingMetric = .ett ∧
    pending (isOf .ettCleanup 0x0201a8c0) n = 2 := by
  have hrun : (runs (meetNeigh ++ probePair 1 ++ probePair 2 ++ probePair 3 ++ probePair 4) ettStation).map
      (fun n ↦ (n.cfg.gRoutingMetric, pending (isOf .ettCleanup 0x0201a8c0) n)) = some (.ett, 2) := by
    decide +kernel
  obtain ⟨n, hn, hfacts⟩ := Option.map_eq_some_iff.mp hrun
  obtain ⟨hmetric, hpending⟩ := Prod.mk.inj hfacts
  have hinit : Reachable ettStation := .init trivial
  exact ⟨n, hinit.of_runs hn, hmetric, hpending⟩

end Fbaodv.Proofs.ProbeChains
