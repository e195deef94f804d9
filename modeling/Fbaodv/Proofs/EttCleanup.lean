import Fbaodv.Proofs.NeighTables
import Fbaodv.Proofs.ProbeChains

namespace Fbaodv.Proofs.EttCleanup

open Fbaodv.Model Fbaodv.Model.Node Fbaodv.Foundation
open Fbaodv.Proofs.NodeRun Fbaodv.Proofs.Upkeep Fbaodv.Proofs.NeighActs Fbaodv.Proofs.Pending
open Fbaodv.Proofs.NeighTables Fbaodv.Proofs.PacketDiscovery Fbaodv.Proofs.NeighLoss
open Fbaodv.Proofs.ProbeChains

/-- `delete_aodv_neigh` cancels every `TASK_ETT_CLEANUP` of the address: the
first in the timer queue, and that only when the metric is not `HOPS`. -/
def LosesCleanup (t : Task) (tasks : ClassQueue Task) (n : Node) : Prop :=
  t.type = .neighbor → tasks.elems.countP (isOf .ettCleanup t.srcIp) = 0 ∧
    n.timers.queue.countP (isOf .ettCleanup t.srcIp) ≤ if n.cfg.gRoutingMetric = .hops then 0 else 1

instance (t : Task) (tasks : ClassQueue Task) (n : Node) : Decidable (LosesCleanup t tasks n) :=
  inferInstanceAs (Decidable (_ → _))

/-- A `TASK_ETT_CLEANUP` is pending only for a neighbour. -/
def CleanupsOfNeighs (n : Node) : Prop := ∀ ip, pending (isOf .ettCleanup ip) n ≠ 0 → HasNeigh ip n

section Acts

variable {ip : Ip} {n₀ n n' : Node} {t : Task} {tasks : ClassQueue Task}

theorem hasNeigh_unlinkNeigh {ip' : Ip} (hne : ip ≠ ip') (h : HasNeigh ip n) :
    HasNeigh ip (n.unlinkNeigh ip') := by
  obtain ⟨x, hx, rfl⟩ := h
  have hlist := (unlinkNeigh_frame ip' n).2.1
  exact ⟨x, hlist ▸ (List.mem_eraseP_of_neg (by simpa using hne)).mpr hx, rfl⟩

/-- A neighbour goes only with its `TASK_NEIGHBOR`. -/
theorem hasNeigh_act (h : NeighAct n₀ t n n') (hn : HasNeigh ip n) : HasNeigh ip n' ∨
    n = n₀ ∧ t.type = .neighbor ∧ ip = t.srcIp ∧ n' = n.unlinkNeigh t.srcIp := by
  have hlist : ∀ n' : Node, n'.aodvNeighList = n.aodvNeighList → HasNeigh ip n' := by
    intro n' heq
    unfold HasNeigh
    rwa [heq]
  cases h with
  | same h => exact .inl (h.hasNeigh hn)
  | refresh => exact .inl (hasNeigh_updateNeighLifetime _ hn)
  | arm | rearm | stop | probe | renew => exact .inl hn
  | meet _ _ _ h =>
    have htaken : HasNeigh ip (n₀.takeNeigh2h t.srcIp).2.2 := hlist _ (takeNeigh2h_frame _ _).2
    rcases createAodvNeigh_spec h with ⟨-, hsame⟩ | ⟨-, hmeets⟩
    · exact .inl (hsame.hasNeigh htaken)
    · obtain ⟨x, hx, hip⟩ := htaken
      exact .inl ⟨x, hmeets.neigh ▸ OrderedList.mem_insertBy.mpr (.inr hx), hip⟩
  | lose htype =>
    by_cases hip : ip = t.srcIp
    · exact .inr ⟨rfl, htype, hip, rfl⟩
    · exact .inl (hasNeigh_unlinkNeigh hip hn)
  | lose2h => exact .inl (hlist _ (deleteAodvNeigh2h_frame _ _).2)
  | refresh2h => exact .inl (hlist _ (refreshNeigh2h_frame _ _).2)
  | extLoad2h => exact .inl hn
  | takeLoad => exact .inl (hasNeigh_modifyNeigh (fun _ ↦ rfl) hn)
  | ownLoad | extLoad => exact .inl (hasNeigh_modifyNeigh (updateNeighLoad_ip _ _) hn)
  | neightx => exact .inl (hasNeigh_modifyNeigh (updateNeightx_ip _) hn)

/-- Every place that sets the timer has found its neighbour. -/
theorem pending_act (ip : Ip) (h : NeighAct n₀ t n n') :
    pending (isOf .ettCleanup ip) n' ≤ pending (isOf .ettCleanup ip) n ∨ HasNeigh ip n' := by
  have hset : ∀ n₁ : Node, (ip ≠ t.srcIp → Keeps (isOf .ettCleanup ip) n n₁) → HasNeigh t.srcIp n₁ →
      pending (isOf .ettCleanup ip) n₁ ≤ pending (isOf .ettCleanup ip) n ∨ HasNeigh ip n₁ := by
    intro n₁ hkeep hhas
    by_cases hip : ip = t.srcIp
    · exact .inr (hip ▸ hhas)
    · exact .inl (hkeep hip).pending.le
  have hops : ∀ {S : TaskType → Bool} {n₁ : Node}, S .ettCleanup = false → TimerOps S n n₁ →
      pending (isOf .ettCleanup ip) n₁ ≤ pending (isOf .ettCleanup ip) n :=
    fun hS h ↦ (keeps_isOf hS rfl h).pending.le
  cases h with
  | same h => exact .inl (hops (S := isNeighType) rfl (ops_of_same h))
  | refresh => exact .inl (hops rfl (ops_updateNeighLifetime _))
  | arm _ h => exact hset _ (fun hip ↦ keeps_set (.inr hip)) h
  | rearm _ h =>
    have hupdate : ∀ k : Node, Keeps (isOf .ettCleanup ip) k k.updateTimers := fun _ ↦ keeps_updateTimers
    exact hset _ (fun hip ↦ ((keeps_cancel (.inr hip)).trans (keeps_set (.inr hip))).trans (hupdate _)) h
  | stop => exact .inl (keeps_cancel (.inl (by decide))).pending.le
  | probe => exact .inl (keeps_set (.inl (by decide))).pending.le
  | renew htype =>
    refine .inl (keeps_set (.inl fun heq ↦ ?_)).pending.le
    rw [← heq] at htype
    cases hty : t.type
    all_goals
      rw [hty] at htype
      cases htype
  | meet _ _ _ h =>
    have htaken : pending (isOf .ettCleanup ip) (n₀.takeNeigh2h t.srcIp).2.2 ≤ pending (isOf .ettCleanup ip) n₀ :=
      hops (S := isNeighType) rfl (ops_takeNeigh2h _)
    rcases createAodvNeigh_spec h with ⟨-, hsame⟩ | ⟨rfl, -⟩
    · rw [(keeps_isOf_same rfl hsame).pending]
      exact .inl htaken
    · by_cases hip : ip = t.srcIp
      · exact .inr (hip ▸ hasNeigh_createAodvNeigh h)
      · have hle : pending (isOf .ettCleanup ip) n' ≤ _ := pending_createAodvNeigh rfl h
        rw [if_neg fun hboth ↦ hip hboth.2] at hle
        exact .inl (hle.trans htaken)
  | lose => exact .inl (pending_unlinkNeigh _ _ _)
  | lose2h => exact .inl (hops (S := isNeighType) rfl (ops_deleteAodvNeigh2h _))
  | refresh2h => exact .inl (hops rfl (ops_refreshNeigh2h _))
  | takeLoad | ownLoad | extLoad | extLoad2h | neightx =>
    exact .inl (hops (S := isNeighType) rfl (ops_of_timers rfl rfl rfl))

theorem pending_unlinkNeigh_eq_zero (hn : UpkeepAddressed n)
    (htasks : n.tasks.elems.countP (isOf .ettCleanup ip) = 0)
    (htimers : n.timers.queue.countP (isOf .ettCleanup ip) ≤ if n.cfg.gRoutingMetric = .hops then 0 else 1) :
    pending (isOf .ettCleanup ip) (n.unlinkNeigh ip) = 0 := by
  unfold unlinkNeigh
  dsimp only
  split
  · next hmetric =>
    rw [if_neg hmetric] at htimers
    have hrest : ∀ k : Node, Keeps (isOf .ettCleanup ip) k k.updateTimers := fun _ ↦ keeps_updateTimers
    generalize hn₁ : ({ n with aodvNeighList := _ } : Node) = n₁
    have hsame : n₁.timers = n.timers ∧ n₁.tasks = n.tasks := by
      subst hn₁
      exact ⟨rfl, rfl⟩
    have hsend : Keeps (isOf .ettCleanup ip) n₁ (n₁.removeTimer ip ip noTos .sendEtt) :=
      keeps_cancel (.inl (by decide))
    have haddressed : UpkeepAddressed (n₁.removeTimer ip ip noTos .sendEtt) := by
      refine hn.of_subset (fun t ht _ ↦ .inl ?_) fun t ht _ ↦ .inr ?_
      · exact hsame.1 ▸ List.mem_of_mem_eraseP ht
      · exact hsame.2 ▸ ht
    rw [(hrest _).pending]
    unfold pending
    rw [countP_cancel haddressed rfl, hsend.count, hsame.1]
    have htasks' : ((n₁.removeTimer ip ip noTos .sendEtt).removeTimer ip ip noTos .ettCleanup).tasks = n.tasks :=
      hsame.2
    rw [htasks', htasks]
    omega
  · next hmetric =>
    rw [if_pos (by simpa using hmetric)] at htimers
    unfold pending
    rw [htasks]
    exact Nat.le_zero.mp htimers

/-- What a task finds and keeps, unless it gives up a neighbour. -/
theorem CleanupsOfNeighs.acts (hn : CleanupsOfNeighs n₀)
    (hlose : t.type = .neighbor → pending (isOf .ettCleanup t.srcIp) (n₀.unlinkNeigh t.srcIp) = 0)
    (h : Acts n₀ t n₀ n') : CleanupsOfNeighs n' := by
  induction h with
  | refl => exact hn
  | tail _ hact ih =>
    intro ip hpending
    rcases pending_act ip hact with hle | hhas
    · have hhas : HasNeigh ip _ := ih ip (by omega)
      rcases hasNeigh_act hact hhas with hhas | ⟨rfl, htype, rfl, rfl⟩
      · exact hhas
      · exact absurd (hlose htype) hpending
    · exact hhas

theorem CleanupsOfNeighs.step {e : Event} (haddressed : UpkeepAddressed n) (hn : CleanupsOfNeighs n)
    (hcond : AtTask LosesCleanup n e) (hs : n.step e = some n') : CleanupsOfNeighs n' := by
  have hlist : ∀ {n₁ : Node}, n₁.aodvNeighList = n.aodvNeighList →
      (∀ ip, pending (isOf .ettCleanup ip) n₁ ≤ pending (isOf .ettCleanup ip) n) → CleanupsOfNeighs n₁ := by
    intro n₁ heq hle ip hpending
    have hhas : HasNeigh ip n := hn ip (by have := hle ip; omega)
    unfold HasNeigh
    rwa [heq]
  cases step_neigh hs with
  | wait => exact hlist rfl fun _ ↦ le_rfl
  | idle h => exact hlist h.neigh fun _ ↦ (pending_idle (fun _ ↦ isUpkeep_of_isOf rfl) h).le
  | signal => exact hlist (signal_neigh n).2.2.1 fun _ ↦ (pending_signal _ n).le
  | @thread t tasks _ hpop h =>
    have hle : ∀ ip, pending (isOf .ettCleanup ip) { n with tasks := tasks } ≤ pending (isOf .ettCleanup ip) n := by
      intro ip
      rw [pending_pop hpop]
      exact Nat.le_add_right _ _
    have hrest : CleanupsOfNeighs { n with tasks := tasks } := hlist rfl hle
    refine hrest.acts (fun htype ↦ ?_) h
    obtain ⟨htasks, htimers⟩ := hcond t tasks rfl hpop htype
    exact pending_unlinkNeigh_eq_zero (haddressed.pop hpop) htasks htimers

end Acts

theorem cleanupsOfNeighs_init (cfg : Config) (env : Environment) : CleanupsOfNeighs (Node.init cfg env) := by
  intro ip hpending
  refine absurd (pending_init cfg env (fun _ ↦ isUpkeep_of_isOf rfl) fun t ht ↦ isOf_of_ne fun heq ↦ ?_) hpending
  rw [heq] at ht
  cases ht

/-- As long as neighbours are given up with their `TASK_ETT_CLEANUP`, such a task
is pending only for a neighbour, and the thread finds the neighbour of the one
that it takes. -/
theorem ett_cleanup_has_neigh {n : Node} (h : Reach (fun _ _ ↦ True) (AtTask LosesCleanup) n) :
    (∀ t, t ∈ n.timers.queue ∨ t ∈ n.tasks.elems → t.type = .ettCleanup → ∃ x ∈ n.aodvNeighList, x.ip = t.srcIp) ∧
      ∀ t tasks, n.tasks.pop = (some t, tasks) → t.type = .ettCleanup →
        ∃ x, { n with tasks := tasks }.findAodvNeigh t.srcIp = some x := by
  have htables := reach_tablesOrdered h
  have hcleanups : UpkeepAddressed n ∧ CleanupsOfNeighs n := by
    apply Reach.induct ?_ ?_ h
    · intro cfg env _
      exact ⟨upkeepAddressed_init cfg env, cleanupsOfNeighs_init cfg env⟩
    · intro n e n' hn hcond hs
      exact ⟨hn.1.step hs, hn.2.step hn.1 hcond hs⟩
  have hhas : ∀ t, t ∈ n.timers.queue ∨ t ∈ n.tasks.elems → t.type = .ettCleanup → HasNeigh t.srcIp n := by
    intro t ht htype
    refine hcleanups.2 t.srcIp fun hzero ↦ ?_
    obtain ⟨htimers, htasks⟩ := Nat.add_eq_zero_iff.mp hzero
    have hof : isOf .ettCleanup t.srcIp t = true := by simp [isOf, htype]
    rcases ht with ht | ht
    · exact List.countP_eq_zero.mp htimers t ht hof
    · exact List.countP_eq_zero.mp htasks t ht hof
  refine ⟨hhas, fun t tasks hpop htype ↦ ?_⟩
  obtain ⟨x, hx, hip⟩ := hhas t (.inr (ClassQueue.pop_mem hpop)) htype
  exact ⟨x, htables.find_iff.mpr ⟨hx, hip⟩⟩

/-- Three minutes after the station has met 192.168.1.2, which still says HELLO,
`TASK_ETT_CLEANUP` is due. -/
def cleanupDue : List Event :=
  meetNeigh ++ [.wait 180101] ++ meetNeigh ++ [.signal, .thread, .thread, .thread]

theorem ett_cleanup_has_neigh_due : ∃ n t tasks, runs cleanupDue ettStation = some n ∧
    n.tasks.pop = (some t, tasks) ∧ t.type = .ettCleanup ∧
    ∃ x, { n with tasks := tasks }.findAodvNeigh t.srcIp = some x := by
  have hcond : Lockstep.Along Node.step (AtTask LosesCleanup) cleanupDue ettStation := by decide +kernel
  have hrun : (runs cleanupDue ettStation).map (fun n ↦ n.tasks.pop.1.map Task.type) =
      some (some .ettCleanup) := by
    decide +kernel
  obtain ⟨n, hn, hnext⟩ := Option.map_eq_some_iff.mp hrun
  obtain ⟨t, hpop, htype⟩ := Option.map_eq_some_iff.mp hnext
  have hinit : Reach (fun _ _ ↦ True) (AtTask LosesCleanup) ettStation := .init trivial
  have hpop : n.tasks.pop = (some t, n.tasks.pop.2) := Prod.ext hpop rfl
  exact ⟨n, t, _, hn, hpop, htype, (ett_cleanup_has_neigh (hinit.of_along hcond hn)).2 t _ hpop htype⟩

/-- 192.168.1.2 tells the station, whose metric is `HOPS`, its fixed rate, and
then is silent. -/
def fixedRateThenSilent : List Event :=
  meetNeigh ++ told (.ettInfo ⟨1, 60, 100⟩) ++ [.wait 4101, .signal, .thread, .thread, .thread, .thread] ++
    [.wait 176000, .signal, .thread, .thread, .thread]

/-- `delete_aodv_neigh` leaves `TASK_ETT_CLEANUP` behind, and the thread takes it
without a neighbour to reset. -/
theorem ett_cleanup_without_neigh : ∃ n t tasks, Reachable n ∧ n.tasks.pop = (some t, tasks) ∧
    t.type = .ettCleanup ∧ n.findAodvNeigh t.srcIp = none ∧ n.step .thread = none := by
  have hrun : (runs fixedRateThenSilent station).map (fun n ↦ (n.step .thread).isNone &&
      n.tasks.pop.1.any fun t ↦ t.type == .ettCleanup && (n.findAodvNeigh t.srcIp).isNone) = some true := by
    decide +kernel
  obtain ⟨n, hn, hfacts⟩ := Option.map_eq_some_iff.mp hrun
  simp only [Bool.and_eq_true, Option.isNone_iff_eq_none, Option.any_eq_true, beq_iff_eq] at hfacts
  obtain ⟨hfault, t, hpop, htype, hnone⟩ := hfacts
  have hinit : Reachable station := .init trivial
  exact ⟨n, t, n.tasks.pop.2, hinit.of_runs hn, Prod.ext hpop rfl, htype, hnone, hfault⟩

end Fbaodv.Proofs.EttCleanup
