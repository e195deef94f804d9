import Fbaodv.Proofs.NetRuns
import Fbaodv.Proofs.Pending

namespace Fbaodv.Proofs.PeriodicWork

open Fbaodv.Model Fbaodv.Model.Node Fbaodv.Foundation
open Fbaodv.Proofs.RoutingInvariant Fbaodv.Proofs.NodeRun Fbaodv.Proofs.Upkeep
open Fbaodv.Proofs.NeighActs Fbaodv.Proofs.Pending Fbaodv.Proofs.NetRuns
open Fbaodv.Proofs.PacketDiscovery

/-- How many tasks of a type are to be pending. -/
def required (cfg : Config) : TaskType → ℕ
  | .hello | .cleanup | .gwCleanup => 1
  | .st => if cfg.gAodvGateway then 1 else 0
  | _ => 0

def ofType (type : TaskType) (t : Task) : Bool := t.type == type

/-- All work of the node is pending, and pending once. -/
structure Working (n : Node) : Prop where
  count : ∀ type, isPeriodicType type = true → pending (ofType type) n = required n.cfg type
  ready : TimersReady n

/-- There is memory for the message of a task that sends a HELLO or an ST-RREQ. -/
def MessageGranted (n : Node) (e : Event) : Prop :=
  ∀ t tasks, e = .thread → n.tasks.pop = (some t, tasks) →
    (t.type = .hello → hasHelloMemory n = true) ∧ (t.type = .st → n.kmalloc.next = true)

section Counts

variable {type type' : TaskType} {n n' : Node} {t : Task}

theorem isUpkeep_of_ofType (htype : isPeriodicType type = true) (ht : ofType type t = true) :
    isUpkeep t = true := by
  have ht : t.type = type := by simpa [ofType] using ht
  simp only [isPeriodicType, Bool.or_eq_true, beq_iff_eq] at htype
  unfold isUpkeep
  rcases htype with (((h | h) | h) | h) | h
  all_goals rw [ht, h]

theorem ofType_of_ne (h : t.type ≠ type) : ofType type t = false := by simpa [ofType] using h

theorem pending_renews {ip : Ip} (htype : isPeriodicType type' = true) (hready : TimersReady n)
    (h : Renews type ip n n') : n'.cfg = n.cfg ∧ TimersReady n' ∧
      pending (ofType type') n' = pending (ofType type') n + if type = type' then 1 else 0 := by
  obtain ⟨n₁, delay, h₁, h₂⟩ := h
  have hkeep₁ : Keeps (ofType type') n n₁ := keeps_same (fun _ ↦ isUpkeep_of_ofType htype) h₁
  have hkeep₂ : Keeps (ofType type') (n₁.insertTimer type delay ip) n' :=
    keeps_same (fun _ ↦ isUpkeep_of_ofType htype) h₂
  have hready₁ : TimersReady n₁ := hready.of_suffix hkeep₁.memory
  have hinsert : TimersReady (n₁.insertTimer type delay ip) :=
    hready₁.of_suffix (insert_memory n₁.timers (timerTask type delay ip n₁))
  refine ⟨hkeep₂.cfg.trans hkeep₁.cfg, hinsert.of_suffix hkeep₂.memory, ?_⟩
  rw [hkeep₂.pending, ← hkeep₁.pending]
  split
  · next heq => exact pending_insertTimer hready₁ (by simp [ofType, timerTask, createTask, heq])
  · next hne => exact (keeps_insertTimer (ofType_of_ne (by simpa [timerTask, createTask] using hne))).pending

/-- A task that is not periodic leaves the periodic work alone. -/
theorem keeps_of_acts {n₀ : Node} (htype : isPeriodicType type = true) (ht : renewedBy t.type = none)
    (h : Acts n₀ t n n') : Keeps (ofType type) n n' := by
  have hup : ∀ t : Task, ofType type t = true → isUpkeep t = true := fun _ ↦ isUpkeep_of_ofType htype
  have hother : ∀ {k k' : Node} (S : TaskType → Bool), S type = false → TimerOps S k k' →
      Keeps (ofType type) k k' := by
    intro k k' S hS
    refine keeps_of_ops hup fun t' ht' ↦ ofType_of_ne fun heq ↦ ?_
    rw [heq, hS] at ht'
    cases ht'
  have hneigh : isNeighType type = false := by
    cases type
    all_goals first | rfl | cases htype
  have hett : isEttType type = false := by
    cases type
    all_goals first | rfl | cases htype
  have htouched : touches t.type type = false := by simp [touches, hneigh, hett, ht]
  induction h with
  | refl => exact .refl _ _
  | tail _ hact ih =>
    refine ih.trans ?_
    rcases ops_of_act hact with hops | ⟨-, -, rfl⟩ | ⟨-, -, -, -, ok, hcreate⟩
    · exact hother _ htouched hops
    · exact hother _ hett (ops_unlinkNeigh t.srcIp)
    · exact hother _ hett ((ops_takeNeigh2h t.srcIp).trans (ops_createAodvNeigh hcreate))

end Counts

section Runs

variable {n n' : Node} {t : Task} {a : Ip}

theorem findOwnRoute (hn : Placed a n) :
    n.routing.findAodvRoute n.cfg.gMeshIp n.cfg.gMeshIp 0 ≠ none := by
  obtain ⟨e, he, hptr, -, htos⟩ := hn.hasLocal
  obtain ⟨hsrc, hdst⟩ := hn.routes.localEntry e he hptr
  rw [hn.routes.findAodvRoute_eq]
  intro hnone
  have hmiss := List.find?_eq_none.mp hnone e he
  simp [hsrc, hdst, htos, noTos] at hmiss

theorem handle_renews (hn : Placed a n) (htype : isPeriodicType t.type = true)
    (hroute : t.type ≠ .routeCleanup) (hhello : t.type = .hello → hasHelloMemory n = true)
    (hst : t.type = .st → n.cfg.gAodvGateway = true ∧ n.kmalloc.next = true)
    (h : n.handle t = some n') : ∃ ip, Renews t.type ip n n' := by
  simp only [isPeriodicType, Bool.or_eq_true, beq_iff_eq] at htype
  rcases htype with (((htype | htype) | htype) | htype) | htype
  · rw [handle, htype] at h
    rw [htype]
    rcases genHello_renews n with ⟨-, hlack⟩ | hrenews
    · rw [hhello htype] at hlack
      cases hlack
    · exact Option.some.inj h ▸ hrenews
  · rw [handle, htype] at h
    rw [htype]
    exact ⟨_, Option.some.inj h ▸ flushRoutes_renews n⟩
  · exact absurd htype hroute
  · rw [handle, htype] at h
    rw [htype]
    exact ⟨_, Option.some.inj h ▸ gwCleanup_renews n⟩
  · obtain ⟨hgateway, hmemory⟩ := hst htype
    rw [handle, htype] at h
    rw [htype]
    rcases genStRreq_renews h with ⟨-, hfailed⟩ | hrenews
    · exact absurd ⟨hgateway, hmemory, findOwnRoute hn⟩ hfailed
    · exact ⟨_, hrenews⟩

theorem renewedBy_eq_none (h : isPeriodicType t.type = false) : renewedBy t.type = none := by
  cases htype : t.type
  all_goals first | rfl | rw [htype] at h; cases h

theorem Working.of_counts (hn : Working n) (hcfg : n'.cfg = n.cfg) (hready : TimersReady n')
    (h : ∀ type, isPeriodicType type = true → pending (ofType type) n' = pending (ofType type) n) :
    Working n' :=
  ⟨fun type htype ↦ by rw [h type htype, hn.count type htype, hcfg], hready⟩

theorem Working.thread {tasks : ClassQueue Task} (hplaced : Placed a n) (hn : Working n)
    (hpop : n.tasks.pop = (some t, tasks)) (hhello : t.type = .hello → hasHelloMemory n = true)
    (hst : t.type = .st → n.kmalloc.next = true) (h : { n with tasks := tasks }.handle t = some n') :
    Working n' := by
  have hcfg : n'.cfg = n.cfg := (handle_routing (n := { n with tasks := tasks }) hplaced.routes h).cfg
  cases htype : isPeriodicType t.type with
  | false =>
    have hacts := handle_acts h
    have hkeep : ∀ type, isPeriodicType type = true → Keeps (ofType type) { n with tasks := tasks } n' :=
      fun type h ↦ keeps_of_acts h (renewedBy_eq_none htype) hacts
    refine hn.of_counts hcfg (hn.ready.of_suffix (hkeep .hello rfl).memory) fun type hperiodic ↦ ?_
    have hne : ofType type t = false := ofType_of_ne fun heq ↦ by
      rw [heq, hperiodic] at htype
      cases htype
    rw [(hkeep type hperiodic).pending, pending_pop (p := ofType type) hpop, if_neg (by simp [hne]), Nat.add_zero]
  | true =>
    -- the task was pending, so that it is a required one
    have hpositive : 1 ≤ required n.cfg t.type := by
      rw [← hn.count t.type htype, pending_pop (p := ofType t.type) hpop, if_pos (by simp [ofType])]
      exact Nat.le_add_left _ _
    have hroute : t.type ≠ .routeCleanup := by
      intro h
      rw [h] at hpositive
      cases hpositive
    have hgateway : t.type = .st → n.cfg.gAodvGateway = true := by
      intro h
      rw [h, required] at hpositive
      split at hpositive
      · assumption
      · cases hpositive
    have hplaced₀ : Placed a { n with tasks := tasks } :=
      ⟨hplaced.address, hplaced.routes, hplaced.bare, hplaced.hasLocal⟩
    obtain ⟨ip, hrenews⟩ := handle_renews hplaced₀ htype hroute hhello
      (fun h ↦ ⟨hgateway h, hst h⟩) h
    have hready₀ : TimersReady { n with tasks := tasks } := hn.ready
    have hhello : isPeriodicType .hello = true := rfl
    refine hn.of_counts hcfg (pending_renews hhello hready₀ hrenews).2.1
      fun type hperiodic ↦ ?_
    rw [(pending_renews hperiodic hready₀ hrenews).2.2, pending_pop (p := ofType type) hpop]
    simp [ofType]

theorem Working.step {e : Event} (hplaced : Placed a n) (hn : Working n) (hgranted : MessageGranted n e)
    (hs : n.step e = some n') : Working n' := by
  have hup : ∀ {type : TaskType}, isPeriodicType type = true →
      ∀ t, ofType type t = true → isUpkeep t = true := fun htype _ ↦ isUpkeep_of_ofType htype
  by_cases he : e = .thread
  · subst he
    simp only [Node.step, threadStep] at hs
    split at hs
    · exact Option.some.inj hs ▸ hn
    · next t tasks hpop =>
      obtain ⟨hhello, hst⟩ := hgranted t tasks rfl hpop
      exact hn.thread hplaced hpop hhello hst hs
  · cases step_neigh hs with
    | wait => exact ⟨hn.count, hn.ready⟩
    | idle h =>
      exact hn.of_counts h.cfg (hn.ready.of_suffix h.timers.memory) fun _ htype ↦ pending_idle (hup htype) h
    | signal =>
      obtain ⟨hcfg, -⟩ := signal_neigh n
      exact hn.of_counts hcfg (hn.ready.of_suffix (signal_memory n)) fun _ _ ↦ pending_signal _ n
    | thread => exact absurd rfl he

/-- A node's timers are ready and it has so many tasks of each type pending. -/
def Counts (n : Node) (count : TaskType → ℕ) : Prop :=
  TimersReady n ∧ ∀ type, pending (ofType type) n = count type

theorem Counts.insertTimer {count : TaskType → ℕ} (hn : Counts n count) (type : TaskType) (delay : ℕ) (ip : Ip) :
    Counts (n.insertTimer type delay ip) fun type' ↦ count type' + if type = type' then 1 else 0 := by
  obtain ⟨hready, hcount⟩ := hn
  refine ⟨hready.of_suffix (insert_memory n.timers (timerTask type delay ip n)), fun type' ↦ ?_⟩
  dsimp only
  rw [← hcount type']
  split
  · next heq => exact pending_insertTimer hready (by simp [ofType, timerTask, createTask, heq])
  · next hne => exact (keeps_insertTimer (ofType_of_ne (by simpa [timerTask, createTask] using hne))).pending

theorem Counts.updateTimers {count : TaskType → ℕ} (hn : Counts n count) : Counts n.updateTimers count := by
  have hkeep : ∀ type, Keeps (ofType type) n n.updateTimers := fun _ ↦ keeps_updateTimers
  exact ⟨hn.1.of_suffix (hkeep .hello).memory, fun type ↦ (hkeep type).pending.trans (hn.2 type)⟩

theorem working_init {cfg : Config} {env : Environment} (henv : ∀ b ∈ env.timerMemory, b = true) :
    Working (Node.init cfg env) := by
  have hcfg : (Node.init cfg env).cfg = cfg := (init_frame cfg env).1
  suffices hcounts : ∃ count, Counts (Node.init cfg env) count ∧
      ∀ type, isPeriodicType type = true → count type = required cfg type by
    obtain ⟨count, ⟨hready, hcount⟩, hrequired⟩ := hcounts
    exact ⟨fun type htype ↦ by rw [hcount, hrequired type htype, hcfg], hready⟩
  unfold Node.init
  dsimp only
  generalize hempty : (Node.mk _ _ _ _ _ _ _ _ _ _ _ _ _ _ _ _ _ _ _ _) = n₀
  have hn₀ : Counts n₀ fun _ ↦ 0 := by
    subst hempty
    exact ⟨henv, fun _ ↦ rfl⟩
  have hst : Counts (if cfg.gAodvGateway = true then n₀.insertTimer .st helloInterval cfg.gMeshIp else n₀)
      fun type ↦ if cfg.gAodvGateway = true ∧ .st = type then 1 else 0 := by
    split
    · next hgateway => simpa [hgateway] using hn₀.insertTimer .st helloInterval cfg.gMeshIp
    · next hgateway => simpa [hgateway] using hn₀
  have hall := ((hst.insertTimer .hello helloInterval cfg.gMeshIp).insertTimer
    .gwCleanup activeGwrouteTimeout cfg.gMeshIp).insertTimer
    .cleanup (helloInterval + helloInterval / 2) cfg.gMeshIp
  refine ⟨_, hall.updateTimers, fun type _ ↦ ?_⟩
  cases type
  all_goals simp [required]

/-- The runs in which every timer gets its memory. -/
abbrev TimedReach (C : Node → Event → Prop) (n : Node) : Prop :=
  Reach (fun _ env ↦ ∀ b ∈ env.timerMemory, b = true) C n

/-- As long as the messages of the periodic tasks get their memory, each of
these tasks is pending exactly once. -/
theorem periodic_work_pending_once (h : TimedReach MessageGranted n) :
    pending (ofType .hello) n = 1 ∧ pending (ofType .cleanup) n = 1 ∧ pending (ofType .gwCleanup) n = 1 ∧
      (n.cfg.gAodvGateway = true → pending (ofType .st) n = 1) := by
  have hboth : (∃ a, Placed a n) ∧ Working n := by
    apply Reach.induct ?_ ?_ h
    · intro cfg env henv
      exact ⟨⟨_, placed_init cfg env⟩, working_init henv⟩
    · rintro n e n' ⟨⟨a, hplaced⟩, hworking⟩ hgranted hs
      exact ⟨⟨a, hplaced.step hs⟩, hworking.step hplaced hgranted hs⟩
  obtain ⟨-, hworking⟩ := hboth
  refine ⟨hworking.count .hello rfl, hworking.count .cleanup rfl, hworking.count .gwCleanup rfl, fun hgateway ↦ ?_⟩
  rw [hworking.count .st rfl, required, if_pos hgateway]

end Runs

/-- The HELLO of a node that has been loaded for a second is due. -/
def helloDue : List Event := [.wait 1001, .signal]

theorem granted_of_ne {n : Node} {e : Event} (h : e ≠ .thread) : MessageGranted n e :=
  fun _ _ he _ ↦ absurd he h

theorem helloDue_granted {cfg : Config} {env : Environment} {n : Node}
    (henv : ∀ b ∈ env.timerMemory, b = true) (h : runs helloDue (Node.init cfg env) = some n) : TimedReach MessageGranted n := by
  obtain ⟨n₁, hwait, h⟩ := Option.bind_eq_some_iff.mp h
  obtain ⟨n₂, hsignal, h⟩ := Option.bind_eq_some_iff.mp h
  obtain rfl : n₂ = n := Option.some.inj h
  have hgranted : MessageGranted (Node.init cfg env) (.wait 1001) := granted_of_ne fun heq ↦ (by cases heq)
  have hgranted₁ : MessageGranted n₁ .signal := granted_of_ne fun heq ↦ (by cases heq)
  exact .step (.step (.init henv) hgranted hwait) hgranted₁ hsignal

theorem periodic_work_of_station : ∃ n n', runs helloDue station = some n ∧ n.step .thread = some n' ∧
    n'.sent.length = 1 ∧ pending (ofType .hello) n' = 1 ∧ pending (ofType .cleanup) n' = 1 ∧
    pending (ofType .gwCleanup) n' = 1 ∧ (n'.cfg.gAodvGateway = true → pending (ofType .st) n' = 1) := by
  have hrun : (runs helloDue station).map (fun n ↦
      (n.tasks.pop.1.map Task.type == some .hello && hasHelloMemory n,
        (n.step .thread).map fun n ↦ n.sent.length)) = some (true, some 1) := by
    decide +kernel
  obtain ⟨n, hn, hfacts⟩ := Option.map_eq_some_iff.mp hrun
  simp only [Prod.mk.injEq, Bool.and_eq_true, beq_iff_eq] at hfacts
  obtain ⟨⟨htask, hmemory⟩, hstep⟩ := hfacts
  obtain ⟨n', hn', hsent⟩ := Option.map_eq_some_iff.mp hstep
  have hgranted : MessageGranted n .thread := by
    intro t tasks _ hpop
    rw [hpop] at htask
    have htype : t.type = .hello := Option.some.inj htask
    exact ⟨fun _ ↦ hmemory, fun h ↦ by cases htype.symm.trans h⟩
  have hreach : TimedReach MessageGranted n' :=
    (helloDue_granted (fun _ ↦ List.not_mem_nil.elim) hn).step hgranted hn'
  exact ⟨n, n', hn, hn', hsent, periodic_work_pending_once hreach⟩

/-- A station without memory for its first HELLO. -/
def poorStation : Node :=
  Node.init station.cfg
    { now := 0
      routeMemory := []
      netlink := []
      routeJunk := []
      timerMemory := []
      packetMemory := []
      maxlen := 100
      memory := [false]
      rand := []
      junk := [] }

/-- `gen_hello` gives up, and nothing sends a HELLO ever after. -/
theorem hello_lost : ∃ n n', TimedReach (fun _ _ ↦ True) n ∧ n.step .thread = some n' ∧
    pending (ofType .hello) n = 1 ∧ pending (ofType .hello) n' = 0 := by
  have hrun : (runs helloDue poorStation).map (fun n ↦
      (pending (ofType .hello) n, (n.step .thread).map (pending (ofType .hello)))) = some (1, some 0) := by
    decide +kernel
  obtain ⟨n, hn, hfacts⟩ := Option.map_eq_some_iff.mp hrun
  simp only [Prod.mk.injEq] at hfacts
  obtain ⟨hbefore, hstep⟩ := hfacts
  obtain ⟨n', hn', hafter⟩ := Option.map_eq_some_iff.mp hstep
  have hpoor : TimedReach (fun _ _ ↦ True) poorStation := .init fun _ ↦ List.not_mem_nil.elim
  exact ⟨n, n', hpoor.of_runs hn, hn', hbefore, hafter⟩

end Fbaodv.Proofs.PeriodicWork
