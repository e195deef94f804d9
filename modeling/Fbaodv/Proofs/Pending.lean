import Fbaodv.Proofs.NeighActs

namespace Fbaodv.Proofs.Pending

open Fbaodv.Model Fbaodv.Model.Node Fbaodv.Foundation
open Fbaodv.Proofs.NodeRun Fbaodv.Proofs.Upkeep Fbaodv.Proofs.NeighActs Relation

/-- How many tasks of a kind wait for their time or for the thread. -/
def pending (p : Task → Bool) (n : Node) : ℕ := n.timers.queue.countP p + n.tasks.elems.countP p

/-- Every timer that will be set gets its memory. -/
def TimersReady (n : Node) : Prop := ∀ b ∈ n.timers.kmalloc, b = true

/-- As many tasks of a kind are pending after as before. -/
structure Keeps (p : Task → Bool) (n n' : Node) : Prop where
  cfg : n'.cfg = n.cfg
  tasks : n'.tasks = n.tasks
  count : n'.timers.queue.countP p = n.timers.queue.countP p
  memory : n'.timers.kmalloc <:+ n.timers.kmalloc

section Counts

variable {p : Task → Bool} {n n' n'' : Node}

theorem TimersReady.next (hn : TimersReady n) : n.timers.kmalloc.next = true := by
  unfold Outcomes.next
  cases hmem : n.timers.kmalloc with
  | nil => rfl
  | cons b o => exact hn b (by rw [hmem]; exact List.mem_cons_self)

theorem TimersReady.of_suffix (hn : TimersReady n) (h : n'.timers.kmalloc <:+ n.timers.kmalloc) :
    TimersReady n' := fun b hb ↦ hn b (h.subset hb)

theorem Keeps.refl (p : Task → Bool) (n : Node) : Keeps p n n := ⟨rfl, rfl, rfl, List.suffix_refl _⟩

theorem Keeps.trans (h : Keeps p n n') (h' : Keeps p n' n'') : Keeps p n n'' :=
  ⟨h'.cfg.trans h.cfg, h'.tasks.trans h.tasks, h'.count.trans h.count, h'.memory.trans h.memory⟩

theorem Keeps.pending (h : Keeps p n n') : pending p n' = pending p n := by
  rw [Pending.pending, h.count, h.tasks]
  rfl

theorem countP_of_filter {q : Task → Bool} (hpq : ∀ t, p t = true → q t = true) {l l' : List Task}
    (h : l'.filter q = l.filter q) : l'.countP p = l.countP p := by
  have hboth : ∀ l : List Task, l.countP p = (l.filter q).countP p := by
    intro l
    rw [List.countP_filter]
    refine List.countP_congr fun t _ ↦ ?_
    rw [Bool.and_eq_true]
    exact ⟨fun ht ↦ ⟨ht, hpq t ht⟩, And.left⟩
  rw [hboth l', hboth l, h]

theorem keeps_same (hp : ∀ t, p t = true → isUpkeep t = true) (h : NeighSame n n') : Keeps p n n' :=
  ⟨h.cfg, h.tasks, countP_of_filter hp h.timers.queue, h.timers.memory⟩

theorem keeps_updateTimers : Keeps p n n.updateTimers :=
  ⟨rfl, rfl, by rw [updateTimers, updateTimerQueue_queue], (timersSame_update _ _ _).memory⟩

theorem insert_memory (q : TimerQueue) (new : Task) : (q.insert new).kmalloc <:+ q.kmalloc := by
  unfold TimerQueue.insert
  split
  · exact List.tail_suffix _
  · exact List.tail_suffix _

theorem countP_insert (q : TimerQueue) (new : Task) : (q.insert new).queue.countP p =
    q.queue.countP p + if p new = true ∧ q.kmalloc.next = true then 1 else 0 := by
  unfold TimerQueue.insert
  split
  · next hmem =>
    rw [queueTimer, (OrderedList.insertBy_perm _ _ _).countP_eq, List.countP_cons]
    simp [hmem]
  · next hmem => simp [hmem]

/-- The task of a timer that is set for an address. -/
def timerTask (type : TaskType) (delay : ℕ) (ip : Ip) (n : Node) : Task :=
  { createTask type n.now with srcIp := ip, dstIp := ip, tos := noTos, time := n.now + delay }

theorem keeps_insertTimer {type : TaskType} {delay : ℕ} {ip : Ip}
    (h : p (timerTask type delay ip n) = false) : Keeps p n (n.insertTimer type delay ip) := by
  refine ⟨rfl, rfl, (countP_insert n.timers (timerTask type delay ip n)).trans ?_, insert_memory _ _⟩
  simp [h]

theorem pending_insertTimer {type : TaskType} {delay : ℕ} {ip : Ip} (hready : TimersReady n)
    (h : p (timerTask type delay ip n) = true) :
    pending p (n.insertTimer type delay ip) = pending p n + 1 := by
  have hcount : (n.insertTimer type delay ip).timers.queue.countP p = n.timers.queue.countP p + 1 :=
    (countP_insert n.timers (timerTask type delay ip n)).trans (by simp [h, hready.next])
  unfold pending
  rw [hcount]
  exact Nat.add_right_comm _ _ _

theorem keeps_removeTimer {srcIp dstIp : Ip} {tos : UInt8} {type : TaskType}
    (h : ∀ t, t.type = type → p t = false) : Keeps p n (n.removeTimer srcIp dstIp tos type) := by
  refine ⟨rfl, rfl, ?_, List.suffix_refl _⟩
  rw [List.countP_eq_length_filter, List.countP_eq_length_filter]
  refine congrArg List.length (OrderedList.filter_eraseP_of_neg (fun t ht ↦ ?_) _)
  simp only [Task.matches, Bool.and_eq_true, beq_iff_eq] at ht
  exact h t ht.2

/-- The signal only moves tasks from one queue to the other. -/
theorem pending_signal (p : Task → Bool) (n : Node) : pending p n.signal = pending p n := by
  obtain ⟨-, -, -, -, hqueue, hperm⟩ := signal_neigh n
  unfold pending
  rw [hqueue, hperm.countP_eq, List.countP_append]
  have hsplit := List.takeWhile_append_dropWhile (p := fun t : Task ↦ timeBefore t.time n.now)
    (l := n.timers.queue)
  have hcount := congrArg (List.countP p) hsplit
  rw [List.countP_append] at hcount
  omega

theorem signal_memory (n : Node) : n.signal.timers.kmalloc <:+ n.timers.kmalloc := by
  obtain ⟨tasks, heq, -⟩ := signal_eq n
  rw [heq]
  exact (timersSame_update n.cfg.hz n.now { n.timers with queue := _, aodvTimer := none }).memory

theorem pending_idle (hp : ∀ t, p t = true → isUpkeep t = true) (h : NeighIdle n n') :
    pending p n' = pending p n := by
  unfold pending
  rw [countP_of_filter hp h.timers.queue, countP_of_filter hp h.tasks]

theorem pending_pop {t : Task} {tasks : ClassQueue Task} (h : n.tasks.pop = (some t, tasks)) :
    pending p n = pending p { n with tasks := tasks } + if p t = true then 1 else 0 := by
  have hperm := ClassQueue.pop_perm n.tasks
  rw [h] at hperm
  have hcount := hperm.countP_eq p
  rw [List.countP_append] at hcount
  unfold pending
  rw [← hcount]
  simp only [Option.toList_some, List.countP_singleton]
  omega

end Counts

section Ops

variable {S : TaskType → Bool} {p : Task → Bool} {n₀ n n' n'' : Node} {t : Task}

/-- An operation on the timers of upkeep that concerns only the types in `S`. -/
inductive TimerOp (S : TaskType → Bool) (n : Node) : Node → Prop
  | same {n' : Node} (hcfg : n'.cfg = n.cfg) (htasks : n'.tasks = n.tasks)
      (htimers : TimersSame n.timers n'.timers) : TimerOp S n n'
  | insert {type : TaskType} (delay : ℕ) (ip : Ip) (htype : S type = true) :
      TimerOp S n (n.insertTimer type delay ip)
  | remove {type : TaskType} (ip : Ip) (htype : S type = true) :
      TimerOp S n (n.removeTimer ip ip noTos type)

def TimerOps (S : TaskType → Bool) : Node → Node → Prop := ReflTransGen (TimerOp S)

theorem keeps_of_ops (hp : ∀ t, p t = true → isUpkeep t = true) (hS : ∀ t, S t.type = true → p t = false)
    (h : TimerOps S n n') : Keeps p n n' := by
  induction h with
  | refl => exact .refl p n
  | tail _ hop ih =>
    refine ih.trans ?_
    cases hop with
    | same hcfg htasks htimers => exact ⟨hcfg, htasks, countP_of_filter hp htimers.queue, htimers.memory⟩
    | insert _ _ htype => exact keeps_insertTimer (hS _ htype)
    | remove _ htype => exact keeps_removeTimer fun t ht ↦ hS t (by rw [ht, htype])

theorem ops_of_same (h : NeighSame n n') : TimerOps S n n' := .single (.same h.cfg h.tasks h.timers)

theorem ops_of_timers (hcfg : n'.cfg = n.cfg) (htasks : n'.tasks = n.tasks) (htimers : n'.timers = n.timers) :
    TimerOps S n n' := .single (.same hcfg htasks (htimers ▸ .refl _))

theorem ops_updateTimers : TimerOps S n n.updateTimers := ops_of_same neighSame_updateTimers

theorem ops_insertTimer {type : TaskType} {delay : ℕ} {ip : Ip} (htype : S type = true) :
    TimerOps S n (n.insertTimer type delay ip) := .single (.insert delay ip htype)

theorem ops_removeTimer {type : TaskType} {ip : Ip} (htype : S type = true) :
    TimerOps S n (n.removeTimer ip ip noTos type) := .single (.remove ip htype)

theorem TimerOps.trans (h : TimerOps S n n') (h' : TimerOps S n' n'') : TimerOps S n n'' :=
  ReflTransGen.trans h h'

theorem TimerOps.mono {S' : TaskType → Bool} (hS : ∀ type, S type = true → S' type = true)
    (h : TimerOps S n n') : TimerOps S' n n' := by
  refine ReflTransGen.mono (fun m m' hop ↦ ?_) _ _ h
  cases hop with
  | same hcfg htasks htimers => exact .same hcfg htasks htimers
  | insert delay ip htype => exact .insert delay ip (hS _ htype)
  | remove ip htype => exact .remove ip (hS _ htype)

/-- The work that a node does again and again. -/
def isPeriodicType (type : TaskType) : Bool :=
  type == .hello || type == .cleanup || type == .routeCleanup || type == .gwCleanup || type == .st

/-- The timers by which the neighbour tables are kept. -/
def isNeighType (type : TaskType) : Bool := type == .neighbor || type == .neighbor2h

/-- The timers by which the transmission time of a link is kept. -/
def isEttType (type : TaskType) : Bool := type == .sendEtt || type == .ettCleanup

theorem ops_neighbor (ip : Ip) : TimerOps (· == .neighbor) n (n.updateNeighLifetime ip) :=
  ((ops_removeTimer rfl).trans (ops_insertTimer rfl)).trans (ops_updateTimers.trans (ops_of_timers rfl rfl rfl))

theorem ops_updateNeighLifetime (ip : Ip) : TimerOps isNeighType n (n.updateNeighLifetime ip) :=
  (ops_neighbor ip).mono fun type htype ↦ by rw [beq_iff_eq.mp htype]; rfl

theorem ops_neighbor2h (ip : Ip) : TimerOps (· == .neighbor2h) n (n.refreshNeigh2h ip) := by
  have hset : ∀ n₁ : Node,
      TimerOps (· == .neighbor2h) n₁ (n₁.insertTimer .neighbor2h (neighbor2hTimeout + 100) ip).updateTimers :=
    fun n₁ ↦ (ops_insertTimer rfl).trans ops_updateTimers
  unfold refreshNeigh2h
  split
  · unfold createAodvNeigh2h
    dsimp only
    split
    · exact ops_of_timers rfl rfl rfl
    split
    · exact ops_of_timers rfl rfl rfl
    · have hlist : ∀ l, TimerOps (· == .neighbor2h) n { n.alloc.2 with aodvNeighList2h := l } :=
        fun _ ↦ ops_of_timers rfl rfl rfl
      exact (hlist _).trans (hset _)
  · exact ((ops_removeTimer rfl).trans (hset _)).trans (ops_of_timers rfl rfl rfl)

theorem ops_refreshNeigh2h (ip : Ip) : TimerOps isNeighType n (n.refreshNeigh2h ip) :=
  (ops_neighbor2h ip).mono fun type htype ↦ by rw [beq_iff_eq.mp htype]; rfl

theorem ops_deleteAodvNeigh2h (ip : Ip) : TimerOps S n (n.deleteAodvNeigh2h ip) := by
  unfold deleteAodvNeigh2h
  split
  · have hlist : TimerOps S n { n with
        aodvNeighList2h := n.aodvNeighList2h.eraseP fun y ↦ y.ip == ip } := ops_of_timers rfl rfl rfl
    exact hlist.trans ops_updateTimers
  · exact .refl

theorem ops_takeNeigh2h (ip : Ip) : TimerOps S n (n.takeNeigh2h ip).2.2 := by
  unfold takeNeigh2h
  split
  · exact ops_deleteAodvNeigh2h _
  · exact .refl

theorem ops_unlinkNeigh (ip : Ip) : TimerOps isEttType n (n.unlinkNeigh ip) := by
  have hlist : TimerOps isEttType n { n with aodvNeighList := n.aodvNeighList.eraseP fun x ↦ x.ip == ip } :=
    ops_of_timers rfl rfl rfl
  unfold unlinkNeigh
  dsimp only
  split
  · exact hlist.trans (((ops_removeTimer rfl).trans (ops_removeTimer rfl)).trans ops_updateTimers)
  · exact hlist

theorem ops_createAodvNeigh {ip : Ip} {ok : Bool} (h : n.createAodvNeigh ip = some (ok, n')) :
    TimerOps isEttType n n' := by
  rcases createAodvNeigh_spec h with ⟨-, hsame⟩ | ⟨-, hmeets⟩
  · exact ops_of_same hsame
  rcases hmeets.timers with ⟨-, htimers⟩ | ⟨-, n₁, delay, h₁, htimers⟩
  · exact .single (.same hmeets.cfg hmeets.tasks htimers)
  · have hset : TimerOps isEttType n ((n₁.insertTimer .sendEtt delay ip).insertTimer .ettCleanup ettCleanupDelay ip) :=
      ((ops_of_same h₁).trans (ops_insertTimer rfl)).trans (ops_insertTimer rfl)
    exact hset.tail (.same (hmeets.cfg.trans h₁.cfg.symm) (hmeets.tasks.trans h₁.tasks.symm) htimers)

/-- The timers that a task of the type may set or give up, unless it meets or
loses a neighbour. -/
def touches (type type' : TaskType) : Bool :=
  isNeighType type' || isProbeType type && isEttType type' || renewedBy type == some type'

theorem ops_of_act (h : NeighAct n₀ t n n') : TimerOps (touches t.type) n n' ∨
    (n = n₀ ∧ t.type = .neighbor ∧ n' = n.unlinkNeigh t.srcIp) ∨
      n = n₀ ∧ t.type = .recvHello ∧ n.cfg.aodvBlacklistIp.contains t.srcIp = false ∧
        n.findAodvNeigh t.srcIp = none ∧
        ∃ ok, (n.takeNeigh2h t.srcIp).2.2.createAodvNeigh t.srcIp = some (ok, n') := by
  have hneigh : ∀ type, isNeighType type = true → touches t.type type = true := by
    intro type htype
    simp [touches, htype]
  have hprobe : isProbeType t.type = true → ∀ type, isEttType type = true → touches t.type type = true := by
    intro hprobe type htype
    simp [touches, hprobe, htype]
  cases h with
  | same h => exact .inl (ops_of_same h)
  | refresh => exact .inl ((ops_updateNeighLifetime _).mono hneigh)
  | arm htype | probe htype => exact .inl (ops_insertTimer (hprobe htype _ rfl))
  | stop htype => exact .inl (ops_removeTimer (hprobe htype _ rfl))
  | rearm htype =>
    exact .inl (((ops_removeTimer (hprobe htype _ rfl)).trans (ops_insertTimer (hprobe htype _ rfl))).trans
      ops_updateTimers)
  | renew htype => exact .inl (ops_insertTimer (by simp [touches, htype]))
  | meet htype hblack hnone h => exact .inr (.inr ⟨rfl, htype, hblack, hnone, _, h⟩)
  | lose htype => exact .inr (.inl ⟨rfl, htype, rfl⟩)
  | lose2h => exact .inl (ops_deleteAodvNeigh2h _)
  | refresh2h => exact .inl ((ops_refreshNeigh2h _).mono hneigh)
  | takeLoad | ownLoad | extLoad | extLoad2h | neightx => exact .inl (ops_of_timers rfl rfl rfl)

end Ops

/-- The task is about one address, as `insert_timer_simple` makes it. -/
def ForAddress (t : Task) : Prop := t.dstIp = t.srcIp ∧ t.tos = noTos

/-- Every pending task of upkeep is about one address. -/
def UpkeepAddressed (n : Node) : Prop :=
  ∀ t, t ∈ n.timers.queue ∨ t ∈ n.tasks.elems → isUpkeep t = true → ForAddress t

/-- The pending tasks of a type for an address. -/
def isOf (type : TaskType) (ip : Ip) (t : Task) : Bool := t.type == type && t.srcIp == ip

section Addresses

variable {S : TaskType → Bool} {n₀ n n' : Node} {t : Task} {type : TaskType} {ip : Ip}

theorem UpkeepAddressed.of_subset (hn : UpkeepAddressed n)
    (htimers : ∀ t ∈ n'.timers.queue, isUpkeep t = true → t ∈ n.timers.queue ∨ t ∈ n.tasks.elems ∨ ForAddress t)
    (htasks : ∀ t ∈ n'.tasks.elems, isUpkeep t = true → t ∈ n.timers.queue ∨ t ∈ n.tasks.elems) :
    UpkeepAddressed n' := by
  rintro t (ht | ht) hup
  · rcases htimers t ht hup with ht | ht | haddress
    · exact hn t (.inl ht) hup
    · exact hn t (.inr ht) hup
    · exact haddress
  · exact hn t (htasks t ht hup) hup

theorem mem_of_filter {l l' : List Task} (h : l'.filter isUpkeep = l.filter isUpkeep) (ht : t ∈ l')
    (hup : isUpkeep t = true) : t ∈ l := by
  have hmem : t ∈ l'.filter isUpkeep := List.mem_filter.mpr ⟨ht, hup⟩
  rw [h] at hmem
  exact (List.mem_filter.mp hmem).1

theorem UpkeepAddressed.ops (hn : UpkeepAddressed n) (h : TimerOps S n n') : UpkeepAddressed n' := by
  induction h with
  | refl => exact hn
  | tail _ hop ih =>
    cases hop with
    | same _ htasks htimers =>
      refine ih.of_subset (fun t ht hup ↦ .inl (mem_of_filter htimers.queue ht hup)) fun t ht _ ↦ .inr ?_
      rwa [htasks] at ht
    | insert =>
      refine ih.of_subset (fun t ht _ ↦ ?_) fun t ht _ ↦ .inr ht
      rcases mem_insert ht with rfl | ht
      · exact .inr (.inr ⟨rfl, rfl⟩)
      · exact .inl ht
    | remove =>
      exact ih.of_subset (fun t ht _ ↦ .inl (List.mem_of_mem_eraseP ht)) fun t ht _ ↦ .inr ht

theorem UpkeepAddressed.acts (hn : UpkeepAddressed n) (h : Acts n₀ t n n') : UpkeepAddressed n' := by
  induction h with
  | refl => exact hn
  | tail _ hact ih =>
    rcases ops_of_act hact with hops | ⟨-, -, rfl⟩ | ⟨-, -, -, -, ok, hcreate⟩
    · exact ih.ops hops
    · exact ih.ops (ops_unlinkNeigh t.srcIp)
    · exact (ih.ops (ops_takeNeigh2h (S := isEttType) t.srcIp)).ops (ops_createAodvNeigh hcreate)

theorem UpkeepAddressed.pop {tasks : ClassQueue Task} (hn : UpkeepAddressed n)
    (hpop : n.tasks.pop = (some t, tasks)) : UpkeepAddressed { n with tasks := tasks } :=
  hn.of_subset (fun _ ht _ ↦ .inl ht) fun _ ht _ ↦ .inr (ClassQueue.pop_subset hpop ht)

theorem UpkeepAddressed.step {e : Event} (hn : UpkeepAddressed n) (hs : n.step e = some n') :
    UpkeepAddressed n' := by
  cases step_neigh hs with
  | wait => exact hn
  | idle h =>
    exact hn.of_subset (fun t ht hup ↦ .inl (mem_of_filter h.timers.queue ht hup))
      fun t ht hup ↦ .inr (mem_of_filter h.tasks ht hup)
  | signal =>
    obtain ⟨-, -, -, -, hqueue, hperm⟩ := signal_neigh n
    refine hn.of_subset (fun t ht _ ↦ ?_) fun t ht _ ↦ ?_
    · rw [hqueue] at ht
      exact .inl ((List.dropWhile_sublist _).subset ht)
    · rcases List.mem_append.mp (hperm.mem_iff.mp ht) with ht | ht
      · exact .inl ((List.takeWhile_sublist _).subset ht)
      · exact .inr ht
  | thread hpop h => exact (hn.pop hpop).acts h

theorem init_ops (cfg : Config) (env : Environment) : ∃ n : Node, n.timers.queue = [] ∧ n.tasks.elems = [] ∧
    TimerOps isPeriodicType n (Node.init cfg env) := by
  unfold Node.init
  dsimp only
  generalize hempty : (Node.mk _ _ _ _ _ _ _ _ _ _ _ _ _ _ _ _ _ _ _ _) = n
  refine ⟨n, hempty ▸ rfl, hempty ▸ rfl, ?_⟩
  have hst : TimerOps isPeriodicType n
      (if cfg.gAodvGateway = true then n.insertTimer .st helloInterval cfg.gMeshIp else n) := by
    split
    · exact ops_insertTimer rfl
    · exact .refl
  exact ((hst.trans (ops_insertTimer rfl)).trans (ops_insertTimer rfl)).trans
    ((ops_insertTimer rfl).trans ops_updateTimers)

theorem upkeepAddressed_init (cfg : Config) (env : Environment) : UpkeepAddressed (Node.init cfg env) := by
  obtain ⟨n, htimers, htasks, hops⟩ := init_ops cfg env
  have hempty : UpkeepAddressed n := by
    rintro t (ht | ht)
    · rw [htimers] at ht
      exact absurd ht List.not_mem_nil
    · rw [htasks] at ht
      exact absurd ht List.not_mem_nil
  exact hempty.ops hops

theorem pending_init {p : Task → Bool} (cfg : Config) (env : Environment)
    (hp : ∀ t, p t = true → isUpkeep t = true) (hother : ∀ t, isPeriodicType t.type = true → p t = false) :
    pending p (Node.init cfg env) = 0 := by
  obtain ⟨n, htimers, htasks, hops⟩ := init_ops cfg env
  rw [(keeps_of_ops hp hother hops).pending, pending, htimers, htasks]
  rfl

end Addresses

section Timers

variable {S : TaskType → Bool} {type type' : TaskType} {ip ip' : Ip} {n n' : Node} {t : Task}

theorem isUpkeep_of_isOf (htype : isEttType type = true) (ht : isOf type ip t = true) : isUpkeep t = true := by
  simp only [isOf, Bool.and_eq_true, beq_iff_eq] at ht
  simp only [isEttType, Bool.or_eq_true, beq_iff_eq] at htype
  unfold isUpkeep
  rcases htype with h | h
  all_goals rw [ht.1, h]

theorem isOf_of_ne (h : t.type ≠ type) : isOf type ip t = false := by simp [isOf, h]

theorem keeps_set {delay : ℕ} (h : type' ≠ type ∨ ip' ≠ ip) :
    Keeps (isOf type' ip') n (n.insertTimer type delay ip) := by
  refine keeps_insertTimer ?_
  rcases h with h | h
  · simp [isOf, timerTask, createTask, h.symm]
  · simp [isOf, timerTask, h.symm]

theorem countP_set (type' : TaskType) (ip' : Ip) {delay : ℕ} :
    (n.insertTimer type delay ip).timers.queue.countP (isOf type' ip') ≤
      n.timers.queue.countP (isOf type' ip') + 1 := by
  have hcount : (n.insertTimer type delay ip).timers.queue.countP (isOf type' ip') = _ :=
    countP_insert n.timers (timerTask type delay ip n)
  rw [hcount]
  split
  · exact le_rfl
  · exact Nat.le_succ _

theorem matches_of_forAddress (ht : ForAddress t) : t.matches ip ip noTos type = isOf type ip t := by
  unfold Task.matches isOf
  rw [ht.1, ht.2, Bool.eq_iff_iff]
  simp only [Bool.and_eq_true, beq_iff_eq, and_true, beq_self_eq_true, and_self]
  exact and_comm

theorem queue_cancel (hn : UpkeepAddressed n) (hup : ∀ t : Task, t.type = type → isUpkeep t = true) :
    (n.removeTimer ip ip noTos type).timers.queue = n.timers.queue.eraseP (isOf type ip) := by
  refine OrderedList.eraseP_congr fun t ht ↦ ?_
  by_cases heq : t.type = type
  · exact matches_of_forAddress (hn t (.inl ht) (hup t heq))
  · rw [isOf_of_ne heq]
    simp [Task.matches, heq]

theorem countP_cancel (hn : UpkeepAddressed n) (htype : isEttType type = true) :
    (n.removeTimer ip ip noTos type).timers.queue.countP (isOf type ip) =
      n.timers.queue.countP (isOf type ip) - 1 := by
  have hup : ∀ t : Task, t.type = type → isUpkeep t = true := by
    intro t ht
    have hof : isOf type t.srcIp t = true := by simp [isOf, ht]
    exact isUpkeep_of_isOf htype hof
  rw [queue_cancel hn hup, OrderedList.countP_eraseP]

theorem keeps_cancel (h : type' ≠ type ∨ ip' ≠ ip) :
    Keeps (isOf type' ip') n (n.removeTimer ip ip noTos type) := by
  refine ⟨rfl, rfl, ?_, List.suffix_refl _⟩
  rw [List.countP_eq_length_filter, List.countP_eq_length_filter]
  refine congrArg List.length (OrderedList.filter_eraseP_of_neg (fun t ht ↦ ?_) _)
  simp only [Task.matches, Bool.and_eq_true, beq_iff_eq] at ht
  rcases h with h | h
  · simp [isOf, ht.2, h.symm]
  · simp [isOf, ht.1.1.1, h.symm]

theorem keeps_isOf (hS : S type = false) (htype : isEttType type = true) (h : TimerOps S n n') :
    Keeps (isOf type ip) n n' := by
  refine keeps_of_ops (fun t ↦ isUpkeep_of_isOf htype) (fun t ht ↦ isOf_of_ne fun heq ↦ ?_) h
  rw [heq, hS] at ht
  cases ht

theorem keeps_isOf_same (htype : isEttType type = true) (h : NeighSame n n') : Keeps (isOf type ip) n n' :=
  keeps_same (fun _ ↦ isUpkeep_of_isOf htype) h

theorem pending_unlinkNeigh (p : Task → Bool) (ip : Ip) (n : Node) :
    pending p (n.unlinkNeigh ip) ≤ pending p n := by
  have hsub : (n.unlinkNeigh ip).timers.queue.Sublist n.timers.queue ∧ (n.unlinkNeigh ip).tasks = n.tasks := by
    unfold unlinkNeigh
    dsimp only
    split
    · rw [updateTimers, updateTimerQueue_queue]
      exact ⟨List.eraseP_sublist.trans List.eraseP_sublist, rfl⟩
    · exact ⟨.refl _, rfl⟩
  unfold pending
  rw [hsub.2]
  exact Nat.add_le_add_right (hsub.1.countP_le) _

theorem pending_createAodvNeigh {ip' : Ip} {ok : Bool} (htype : isEttType type = true)
    (h : n.createAodvNeigh ip' = some (ok, n')) : pending (isOf type ip) n' ≤
      pending (isOf type ip) n + if n.cfg.gRoutingMetric ≠ .hops ∧ ip = ip' then 1 else 0 := by
  have hup : ∀ t, isOf type ip t = true → isUpkeep t = true := fun _ ↦ isUpkeep_of_isOf htype
  rcases createAodvNeigh_spec h with ⟨-, hsame⟩ | ⟨-, hmeets⟩
  · rw [(keeps_isOf_same htype hsame).pending]
    exact Nat.le_add_right _ _
  unfold pending
  rw [hmeets.tasks]
  rcases hmeets.timers with ⟨-, htimers⟩ | ⟨hmetric, n₁, delay, h₁, htimers⟩
  · rw [countP_of_filter hup htimers.queue]
    exact Nat.le_add_right _ _
  · rw [countP_of_filter hup htimers.queue]
    have hfirst : Keeps (isOf type ip) n n₁ := keeps_isOf_same htype h₁
    rw [← hfirst.count, Nat.add_right_comm]
    refine Nat.add_le_add_right ?_ _
    by_cases hip : ip = ip'
    · subst hip
      rw [if_pos ⟨hmetric, rfl⟩]
      simp only [isEttType, Bool.or_eq_true, beq_iff_eq] at htype
      rcases htype with rfl | rfl
      · have hlast : Keeps (isOf .sendEtt ip) (n₁.insertTimer .sendEtt delay ip)
            ((n₁.insertTimer .sendEtt delay ip).insertTimer .ettCleanup ettCleanupDelay ip) :=
          keeps_set (.inl (by decide))
        rw [hlast.count]
        exact countP_set _ _
      · have hset : Keeps (isOf .ettCleanup ip) n₁ (n₁.insertTimer .sendEtt delay ip) :=
          keeps_set (.inl (by decide))
        rw [← hset.count]
        exact countP_set _ _
    · rw [if_neg fun h ↦ hip h.2]
      have hset : Keeps (isOf type ip) n₁
          ((n₁.insertTimer .sendEtt delay ip').insertTimer .ettCleanup ettCleanupDelay ip') :=
        (keeps_set (.inr hip)).trans (keeps_set (.inr hip))
      exact hset.count.le

end Timers

end Fbaodv.Proofs.Pending
