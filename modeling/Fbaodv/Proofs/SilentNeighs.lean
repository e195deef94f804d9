import Fbaodv.Proofs.EttCleanup

namespace Fbaodv.Proofs.SilentNeighs

open Fbaodv.Model Fbaodv.Model.Node Fbaodv.Foundation
open Fbaodv.Proofs.NodeRun Fbaodv.Proofs.Upkeep Fbaodv.Proofs.NeighActs Fbaodv.Proofs.Pending
open Fbaodv.Proofs.NeighTables Fbaodv.Proofs.PacketDiscovery Fbaodv.Proofs.NeighLoss
open Fbaodv.Proofs.EttCleanup Fbaodv.Proofs.ProbeChains Fbaodv.Proofs.NetRuns

/-- The timers of a type that are set for an address. -/
def timersOf (type : TaskType) (ip : Ip) (n : Node) : List Task := n.timers.queue.filter (isOf type ip)

/-- The timers of a 2-hop neighbour that its refresh does not cancel: all but the
first, and all if it is not listed. -/
def left2h (ip : Ip) (n : Node) : List Task :=
  if n.aodvNeighList2h.any fun y ↦ y.ip == ip then (timersOf .neighbor2h ip n).tail
  else timersOf .neighbor2h ip n

/-- No `TASK_NEIGHBOR_2H` of the address waits for the thread, and none that is
left falls due before the new lifetime ends. -/
def InTime2h (ip : Ip) (n : Node) : Prop :=
  n.tasks.elems.countP (isOf .neighbor2h ip) = 0 ∧ ∀ u ∈ left2h ip n, n.now + neighbor2hTimeout < u.time

instance (ip : Ip) (n : Node) : Decidable (InTime2h ip n) := inferInstanceAs (Decidable (_ ∧ _))

/-- The HELLO that is handled makes the address a 2-hop neighbour or refreshes it
as one. -/
def Names2h (t : Task) (ip : Ip) (n : Node) : Prop :=
  n.cfg.gRoutingMetric = .wcim ∧ ip ≠ n.cfg.gMeshIp ∧ ip ≠ t.srcIp ∧ ∀ x ∈ n.aodvNeighList, x.ip ≠ ip

instance (t : Task) (ip : Ip) (n : Node) : Decidable (Names2h t ip n) := inferInstanceAs (Decidable (_ ∧ _))

/-- The addresses that a HELLO carries in its extensions. -/
def extensionIps (t : Task) : List Ip :=
  match t.data with
  | some (.hello m) => m.ext.map HelloExtension.ip
  | _ => []

/-- No neighbour is refreshed whose timer has fired already. -/
def RefreshesInTime (t : Task) (tasks : ClassQueue Task) (n : Node) : Prop :=
  refreshes t n = true → tasks.elems.countP (isOf .neighbor t.srcIp) = 0 ∧
    ∀ ip ∈ extensionIps t, Names2h t ip n → InTime2h ip { n with tasks := tasks }

instance (t : Task) (tasks : ClassQueue Task) (n : Node) : Decidable (RefreshesInTime t tasks n) :=
  have : Decidable (∀ ip ∈ extensionIps t, Names2h t ip n → InTime2h ip { n with tasks := tasks }) :=
    List.decidableBAll _ _
  inferInstanceAs (Decidable (_ → _))

/-- The timers of a type come after the lifetimes that they watch over: `ages`
pairs addresses and lifetimes. A timer that has fired has done so in time. -/
structure Watched (type : TaskType) (ages : List (Ip × ℕ)) (n : Node) : Prop where
  near : ∀ t ∈ n.timers.queue, t.type = type → 0 < t.time ∧ t.time < n.now + 2 ^ 31
  timer : ∀ t ∈ n.timers.queue, t.type = type → ∀ a ∈ ages, a.1 = t.srcIp → a.2 < t.time
  fired : ∀ t ∈ n.tasks.elems, t.type = type → ∀ a ∈ ages, a.1 = t.srcIp → a.2 < n.now

variable {type : TaskType} {ages ages' : List (Ip × ℕ)} {n n' : Node} {ip : Ip} {t : Task}

section Watch

theorem isOf_iff : isOf type ip t = true ↔ t.type = type ∧ t.srcIp = ip := by
  simp [isOf]

theorem mem_timersOf : t ∈ timersOf type ip n ↔ t ∈ n.timers.queue ∧ t.type = type ∧ t.srcIp = ip := by
  rw [timersOf, List.mem_filter, isOf_iff]

theorem none_of_countP {l : List Task} (h : l.countP (isOf type ip) = 0) (ht : t ∈ l) (htype : t.type = type) :
    t.srcIp ≠ ip := fun hip ↦ List.countP_eq_zero.mp h t ht (isOf_iff.mpr ⟨htype, hip⟩)

theorem Watched.mono (h : Watched type ages n) (hages : ages' ⊆ ages) : Watched type ages' n where
  near := h.near
  timer t ht htype a ha := h.timer t ht htype a (hages ha)
  fired t ht htype a ha := h.fired t ht htype a (hages ha)

theorem Watched.of_timers (h : Watched type ages n) (hnow : n.now ≤ n'.now)
    (htimers : ∀ ip, timersOf type ip n' ⊆ timersOf type ip n)
    (htasks : ∀ t ∈ n'.tasks.elems, t.type = type → t ∈ n.tasks.elems) : Watched type ages n' := by
  have hmem : ∀ t ∈ n'.timers.queue, t.type = type → t ∈ n.timers.queue := fun t ht htype ↦
    (mem_timersOf.mp (htimers t.srcIp (mem_timersOf.mpr ⟨ht, htype, rfl⟩))).1
  refine ⟨fun t ht htype ↦ ?_, fun t ht htype ↦ ?_, fun t ht htype a ha hip ↦ ?_⟩
  · obtain ⟨hpos, hnear⟩ := h.near t (hmem t ht htype) htype
    exact ⟨hpos, by omega⟩
  · exact h.timer t (hmem t ht htype) htype
  · exact (h.fired t (htasks t ht htype) htype a ha hip).trans_le hnow

/-- The signal takes only timers whose time has passed. -/
theorem Watched.signal (h : Watched type ages n) : Watched type ages n.signal := by
  obtain ⟨-, hnow, -, -, hqueue, hperm⟩ := signal_neigh n
  have hsub : n.signal.timers.queue.Sublist n.timers.queue := hqueue ▸ List.dropWhile_sublist _
  refine ⟨fun t ht ↦ hnow ▸ h.near t (hsub.subset ht), fun t ht ↦ h.timer t (hsub.subset ht),
    fun t ht htype a ha hip ↦ ?_⟩
  rw [hnow]
  rcases List.mem_append.mp (hperm.subset ht) with ht | ht
  · have hmem := (List.takeWhile_sublist _).subset ht
    have hdue := List.mem_takeWhile_imp ht
    have hnear := (h.near t hmem htype).2
    have hpassed : t.time < n.now := WrapTime.lt_of_before (by unfold ulongSize; omega) hdue
    exact (h.timer t hmem htype a ha hip).trans hpassed
  · exact h.fired t ht htype a ha hip

/-- A timer is set for an address whose new lifetime `life` ends before it and
before the timers that the address has. -/
theorem Watched.set (delay life : ℕ) (h : Watched type ages n) (hfired : n.tasks.elems.countP (isOf type ip) = 0)
    (hleft : ∀ u ∈ timersOf type ip n, life < u.time) (hdelay : 0 < delay ∧ delay < 2 ^ 31)
    (hlife : life < n.now + delay) (hages : ∀ a ∈ ages', a.1 ≠ ip ∧ a ∈ ages ∨ a = (ip, life)) :
    Watched type ages' (n.insertTimer type delay ip) := by
  have hmem : ∀ t ∈ (n.insertTimer type delay ip).timers.queue,
      t = timerTask type delay ip n ∨ t ∈ n.timers.queue := by
    intro t ht
    change t ∈ (n.timers.insert (timerTask type delay ip n)).queue at ht
    unfold TimerQueue.insert at ht
    split at ht
    · exact OrderedList.mem_insertBy.mp ht
    · exact .inr ht
  refine ⟨fun t ht htype ↦ ?_, fun t ht htype a ha hip ↦ ?_, fun t ht htype a ha hip ↦ ?_⟩
  · rcases hmem t ht with rfl | ht
    · dsimp only [timerTask, createTask]
      change _ ∧ _ < n.now + _
      omega
    · exact h.near t ht htype
  · rcases hmem t ht with rfl | ht
    · rcases hages a ha with ⟨hne, -⟩ | rfl
      · exact absurd hip hne
      · exact hlife
    · rcases hages a ha with ⟨-, ha⟩ | rfl
      · exact h.timer t ht htype a ha hip
      · exact hleft t (mem_timersOf.mpr ⟨ht, htype, hip.symm⟩)
  · rcases hages a ha with ⟨-, ha⟩ | rfl
    · exact h.fired t ht htype a ha hip
    · exact absurd hip.symm (none_of_countP hfired ht htype)

theorem timersOf_cancel (hn : UpkeepAddressed n) (hup : ∀ t : Task, t.type = type → isUpkeep t = true)
    (ip : Ip) : timersOf type ip (n.removeTimer ip ip noTos type) = (timersOf type ip n).tail := by
  have hqueue : (n.removeTimer ip ip noTos type).timers.queue = n.timers.queue.eraseP (isOf type ip) :=
    queue_cancel hn hup
  rw [timersOf, hqueue, OrderedList.filter_eraseP]
  rfl

theorem timersOf_cancel_other {ip' : Ip} (h : ip' ≠ ip) :
    timersOf type ip' (n.removeTimer ip ip noTos type) = timersOf type ip' n := by
  refine OrderedList.filter_eraseP_of_neg (fun t ht ↦ ?_) _
  simp only [Task.matches, Bool.and_eq_true, beq_iff_eq] at ht
  simp [isOf, ht.1.1.1, h.symm]

theorem timersOf_set_other {ip' : Ip} {delay : ℕ} (h : ip' ≠ ip) :
    timersOf type ip' (n.insertTimer type delay ip) = timersOf type ip' n := by
  have hnew : isOf type ip' (timerTask type delay ip n) = false := by
    simp [isOf, timerTask, h.symm]
  exact Background.filter_insert_of_neg hnew

end Watch

/-- The lifetimes of the neighbours, and those of the 2-hop neighbours. -/
def neighAges (n : Node) : List (Ip × ℕ) := n.aodvNeighList.map fun x ↦ (x.ip, x.lifetime)

def neigh2hAges (n : Node) : List (Ip × ℕ) := n.aodvNeighList2h.map fun y ↦ (y.ip, y.lifetime)

/-- Nothing of the act is a refresh: the timers of the neighbours stay, a new
neighbour has no lifetime yet, and only the sender may leave a list. -/
structure Resting (t : Task) (n n' : Node) : Prop where
  cfg : n'.cfg = n.cfg
  now : n'.now = n.now
  tasks : n'.tasks = n.tasks
  timers : ∀ type, isNeighType type = true → ∀ ip, timersOf type ip n' = timersOf type ip n
  ages : ∀ a ∈ neighAges n', a ∈ neighAges n ∨ a = (t.srcIp, 0)
  ages2h : neigh2hAges n' ⊆ neigh2hAges n
  listed : ∀ ip, ip ≠ t.srcIp → HasNeigh ip n → HasNeigh ip n'
  listed2h : ∀ y ∈ n.aodvNeighList2h, y.ip ≠ t.srcIp → ∃ y' ∈ n'.aodvNeighList2h, y'.ip = y.ip

section Acts

variable {n₀ : Node}

theorem isUpkeep_of_isNeighType (h : isNeighType t.type = true) : isUpkeep t = true := by
  simp only [isNeighType, Bool.or_eq_true, beq_iff_eq] at h
  unfold isUpkeep
  rcases h with h | h
  · rw [h]
  · rw [h]

theorem timersOf_of_same (type : TaskType) (htype : isNeighType type = true) (h : TimersSame n.timers n'.timers)
    (ip : Ip) : timersOf type ip n' = timersOf type ip n := by
  have hboth : ∀ l : List Task, l.filter (isOf type ip) = (l.filter isUpkeep).filter (isOf type ip) := by
    intro l
    rw [List.filter_filter]
    refine List.filter_congr fun u _ ↦ ?_
    cases hu : isOf type ip u
    · rfl
    · obtain ⟨rfl, -⟩ := isOf_iff.mp hu
      simp [isUpkeep_of_isNeighType htype]
  rw [timersOf, timersOf, hboth, h.queue, ← hboth]

theorem timersOf_of_ops {S : TaskType → Bool} (type : TaskType) (htype : isNeighType type = true) (hS : S type = false)
    (h : TimerOps S n n') : n'.cfg = n.cfg ∧ n'.tasks = n.tasks ∧
      ∀ ip, timersOf type ip n' = timersOf type ip n := by
  have hne : ∀ {type'}, S type' = true → type' ≠ type := by
    rintro _ htype' rfl
    exact absurd htype' (by simp [hS])
  induction h with
  | refl => exact ⟨rfl, rfl, fun _ ↦ rfl⟩
  | tail _ hop ih =>
    obtain ⟨hcfg, htasks, hall⟩ := ih
    cases hop with
    | same hcfg' htasks' htimers =>
      exact ⟨hcfg'.trans hcfg, htasks'.trans htasks,
        fun ip ↦ (timersOf_of_same type htype htimers ip).trans (hall ip)⟩
    | insert delay ip' htype' =>
      refine ⟨hcfg, htasks, fun ip ↦ Eq.trans ?_ (hall ip)⟩
      exact Background.filter_insert_of_neg (isOf_of_ne (hne htype'))
    | remove ip' htype' =>
      refine ⟨hcfg, htasks, fun ip ↦ Eq.trans ?_ (hall ip)⟩
      refine OrderedList.filter_eraseP_of_neg (fun u hu ↦ ?_) _
      simp only [Task.matches, Bool.and_eq_true, beq_iff_eq] at hu
      exact isOf_of_ne (hu.2 ▸ hne htype')

theorem isEttType_of_isNeighType (h : isNeighType type = true) : isEttType type = false := by
  simp only [isNeighType, Bool.or_eq_true, beq_iff_eq] at h
  rcases h with rfl | rfl
  · rfl
  · rfl

/-- An act that leaves the lists alone but for what a neighbour is said to have. -/
theorem resting_of_ops {S : TaskType → Bool} (hS : ∀ type, isNeighType type = true → S type = false)
    (h : TimerOps S n n') (hnow : n'.now = n.now) (hages : neighAges n' = neighAges n)
    (hages2h : neigh2hAges n' = neigh2hAges n) : Resting t n n' := by
  obtain ⟨hcfg, htasks, -⟩ := timersOf_of_ops .neighbor rfl (hS _ rfl) h
  refine ⟨hcfg, hnow, htasks, fun type htype ↦ (timersOf_of_ops type htype (hS type htype) h).2.2,
    fun a ha ↦ .inl (hages ▸ ha), hages2h ▸ List.Subset.refl _, fun ip _ hip ↦ ?_, fun y hy _ ↦ ?_⟩
  · obtain ⟨x, hx, rfl⟩ := hip
    have hmem : (x.ip, x.lifetime) ∈ neighAges n' := hages ▸ List.mem_map_of_mem hx
    obtain ⟨x', hx', heq⟩ := List.mem_map.mp hmem
    exact ⟨x', hx', congrArg Prod.fst heq⟩
  · have hmem : (y.ip, y.lifetime) ∈ neigh2hAges n' := hages2h ▸ List.mem_map_of_mem hy
    obtain ⟨y', hy', heq⟩ := List.mem_map.mp hmem
    exact ⟨y', hy', congrArg Prod.fst heq⟩

theorem Resting.trans {n'' : Node} (h : Resting t n n') (h' : Resting t n' n'') : Resting t n n'' where
  cfg := h'.cfg.trans h.cfg
  now := h'.now.trans h.now
  tasks := h'.tasks.trans h.tasks
  timers type htype ip := (h'.timers type htype ip).trans (h.timers type htype ip)
  ages a ha := (h'.ages a ha).elim (h.ages a) .inr
  ages2h := List.Subset.trans h'.ages2h h.ages2h
  listed ip hip hn := h'.listed ip hip (h.listed ip hip hn)
  listed2h y hy hip := by
    obtain ⟨y', hy', heq⟩ := h.listed2h y hy hip
    obtain ⟨y'', hy'', heq'⟩ := h'.listed2h y' hy' (heq ▸ hip)
    exact ⟨y'', hy'', heq'.trans heq⟩

theorem neighAges_modifyNeigh (ip : Ip) {f : AodvNeigh → AodvNeigh}
    (h : ∀ x, (f x).ip = x.ip ∧ (f x).lifetime = x.lifetime) : neighAges (n.modifyNeigh ip f) = neighAges n :=
  OrderedList.map_modifyFirst (fun x ↦ Prod.ext (h x).1 (h x).2) _ _

theorem neigh2hAges_modifyNeigh2h (ip : Ip) {f : AodvNeigh2h → AodvNeigh2h}
    (h : ∀ y, (f y).ip = y.ip ∧ (f y).lifetime = y.lifetime) :
    neigh2hAges (n.modifyNeigh2h ip f) = neigh2hAges n :=
  OrderedList.map_modifyFirst (fun y ↦ Prod.ext (h y).1 (h y).2) _ _

theorem updateNeighLoad_lifetime (load : UInt8) (loadSeq : UInt16) (x : AodvNeigh) :
    (updateNeighLoad load loadSeq x).lifetime = x.lifetime := by
  unfold updateNeighLoad
  split <;> rfl

theorem updateNeighLoad2h_lifetime (load : UInt8) (loadSeq : UInt16) (y : AodvNeigh2h) :
    (updateNeighLoad2h load loadSeq y).lifetime = y.lifetime := by
  unfold updateNeighLoad2h
  split <;> rfl

theorem updateNeightx_lifetime (neightx : Ip) (x : AodvNeigh) :
    (updateNeightx neightx x).lifetime = x.lifetime := by
  unfold updateNeightx
  dsimp only
  split
  · rfl
  split <;> rfl

theorem resting_modifyNeigh (ip : Ip) {f : AodvNeigh → AodvNeigh}
    (h : ∀ x, (f x).ip = x.ip ∧ (f x).lifetime = x.lifetime) : Resting t n (n.modifyNeigh ip f) :=
  resting_of_ops (S := fun _ ↦ false) (fun _ _ ↦ rfl) (ops_of_timers rfl rfl rfl) rfl (neighAges_modifyNeigh ip h) rfl

theorem resting_same (h : NeighSame n n') : Resting t n n' := by
  refine resting_of_ops (S := fun _ ↦ false) (fun _ _ ↦ rfl) (ops_of_same h) h.now ?_ ?_
  · exact Pointwise.map_eq h.neigh fun htouch ↦ Prod.ext htouch.ip htouch.lifetime
  · rw [neigh2hAges, h.neigh2h]
    rfl

theorem resting_deleteAodvNeigh2h : Resting t n (n.deleteAodvNeigh2h t.srcIp) := by
  obtain ⟨hcfg, hlist⟩ := deleteAodvNeigh2h_frame t.srcIp n
  obtain ⟨hnow, hlist2h⟩ := deleteAodvNeigh2h_list t.srcIp n
  have hops : TimerOps (fun _ ↦ false) n (n.deleteAodvNeigh2h t.srcIp) := ops_deleteAodvNeigh2h t.srcIp
  obtain ⟨-, htasks, -⟩ := timersOf_of_ops .neighbor rfl rfl hops
  refine ⟨hcfg, hnow, htasks, fun type htype ↦ (timersOf_of_ops type htype rfl hops).2.2, fun a ha ↦ .inl ?_, ?_,
    fun ip _ hip ↦ ?_, fun y hy hip ↦ ?_⟩
  · rwa [neighAges, hlist] at ha
  · rw [neigh2hAges, hlist2h]
    exact (List.eraseP_sublist.map _).subset
  · unfold HasNeigh
    rwa [hlist]
  · exact ⟨y, hlist2h ▸ (List.mem_eraseP_of_neg (by simpa using hip)).mpr hy, rfl⟩

theorem resting_takeNeigh2h (htables : TablesOrdered n) : Resting t n (n.takeNeigh2h t.srcIp).2.2 := by
  unfold takeNeigh2h
  split
  · next y hy =>
    rw [(htables.find2h_iff.mp hy).2]
    exact resting_deleteAodvNeigh2h
  · exact resting_same (.refl n)

theorem resting_unlinkNeigh : Resting t n (n.unlinkNeigh t.srcIp) := by
  obtain ⟨hcfg, hlist, hlist2h⟩ := unlinkNeigh_frame t.srcIp n
  have hops := ops_unlinkNeigh (n := n) t.srcIp
  have htimers : ∀ type, isNeighType type = true → ∀ ip, timersOf type ip (n.unlinkNeigh t.srcIp) = timersOf type ip n :=
    fun type htype ↦ (timersOf_of_ops type htype (isEttType_of_isNeighType htype) hops).2.2
  obtain ⟨-, htasks, -⟩ := timersOf_of_ops .neighbor rfl rfl hops
  have hnow : (n.unlinkNeigh t.srcIp).now = n.now := by
    unfold unlinkNeigh
    dsimp only
    split <;> rfl
  refine ⟨hcfg, hnow, htasks, htimers, fun a ha ↦ .inl ?_, ?_, fun ip hne hip ↦ hasNeigh_unlinkNeigh hne hip,
    fun y hy _ ↦ ⟨y, hlist2h ▸ hy, rfl⟩⟩
  · rw [neighAges, hlist] at ha
    exact (List.eraseP_sublist.map _).subset ha
  · rw [neigh2hAges, hlist2h]
    exact List.Subset.refl _

theorem resting_createAodvNeigh {ok : Bool} (h : n.createAodvNeigh t.srcIp = some (ok, n')) : Resting t n n' := by
  rcases createAodvNeigh_spec h with ⟨-, hsame⟩ | ⟨-, hmeets⟩
  · exact resting_same hsame
  have htimers : ∀ type, isNeighType type = true → ∀ ip, timersOf type ip n' = timersOf type ip n :=
    fun type htype ↦ (timersOf_of_ops type htype (isEttType_of_isNeighType htype) (ops_createAodvNeigh h)).2.2
  refine ⟨hmeets.cfg, hmeets.now, hmeets.tasks, htimers, fun a ha ↦ ?_, ?_, fun ip _ hip ↦ ?_,
    fun y hy _ ↦ ⟨y, hmeets.neigh2h ▸ hy, rfl⟩⟩
  · obtain ⟨x, hx, rfl⟩ := List.mem_map.mp ha
    rw [hmeets.neigh] at hx
    rcases OrderedList.mem_insertBy.mp hx with rfl | hx
    · exact .inr rfl
    · exact .inl (List.mem_map_of_mem hx)
  · rw [neigh2hAges, hmeets.neigh2h]
    exact List.Subset.refl _
  · obtain ⟨x, hx, rfl⟩ := hip
    exact ⟨x, hmeets.neigh ▸ OrderedList.mem_insertBy.mpr (.inr hx), rfl⟩

theorem neighAges_refresh (h : TablesOrdered n) (ip : Ip) (life : ℕ) :
    ∀ a ∈ neighAges (n.modifyNeigh ip fun x ↦ { x with lifetime := life }),
      a.1 ≠ ip ∧ a ∈ neighAges n ∨ a = (ip, life) := by
  have hpair : n.aodvNeighList.Pairwise fun x x' ↦ (x.ip == ip) = true → (x'.ip == ip) = false :=
    h.neigh.imp fun hlt hip ↦ beq_false_of_ne fun hip' ↦
      absurd hlt (by simp [neighKey, beq_iff_eq.mp hip, hip'])
  intro a ha
  obtain ⟨x', hx', rfl⟩ := List.mem_map.mp ha
  have hmap : x' ∈ n.aodvNeighList.map fun x ↦ if x.ip == ip then { x with lifetime := life } else x :=
    OrderedList.modifyFirst_eq_map _ hpair ▸ hx'
  obtain ⟨x, hx, rfl⟩ := List.mem_map.mp hmap
  split
  · next hip => exact .inr (Prod.ext (beq_iff_eq.mp hip) rfl)
  · next hip => exact .inl ⟨by simpa using hip, List.mem_map_of_mem hx⟩

theorem neigh2hAges_refresh (h : TablesOrdered n) (ip : Ip) (life : ℕ) :
    ∀ a ∈ neigh2hAges (n.modifyNeigh2h ip fun y ↦ { y with lifetime := life }),
      a.1 ≠ ip ∧ a ∈ neigh2hAges n ∨ a = (ip, life) := by
  have hpair : n.aodvNeighList2h.Pairwise fun y y' ↦ (y.ip == ip) = true → (y'.ip == ip) = false :=
    h.neigh2h.imp fun hlt hip ↦ beq_false_of_ne fun hip' ↦
      absurd hlt (by simp [neigh2hKey, beq_iff_eq.mp hip, hip'])
  intro a ha
  obtain ⟨y', hy', rfl⟩ := List.mem_map.mp ha
  have hmap : y' ∈ n.aodvNeighList2h.map fun y ↦ if y.ip == ip then { y with lifetime := life } else y :=
    OrderedList.modifyFirst_eq_map _ hpair ▸ hy'
  obtain ⟨y, hy, rfl⟩ := List.mem_map.mp hmap
  split
  · next hip => exact .inr (Prod.ext (beq_iff_eq.mp hip) rfl)
  · next hip => exact .inl ⟨by simpa using hip, List.mem_map_of_mem hy⟩

end Acts

/-- What holds of the timers and lifetimes of the neighbours while all refreshes
come in time. -/
structure Silent (n : Node) : Prop where
  tables : TablesOrdered n
  addressed : UpkeepAddressed n
  one : ∀ ip, (timersOf .neighbor ip n).length ≤ 1
  neigh : Watched .neighbor (neighAges n) n
  neigh2h : Watched .neighbor2h (neigh2hAges n) n

/-- The refreshes that the task, which found the node as `n₀`, still has to do
come in time. -/
def Ready (t : Task) (n₀ n : Node) : Prop :=
  refreshes t n₀ = true → n.tasks.elems.countP (isOf .neighbor t.srcIp) = 0 ∧
    ∀ ip ∈ extensionIps t, Names2h t ip n → InTime2h ip n

section Refreshes

variable {n₀ : Node}

theorem Watched.young (h : Watched type ages n) (hfired : n.tasks.elems.countP (isOf type ip) = 0)
    (hages : ∀ a ∈ ages', a ∈ ages ∨ a = (ip, 0)) : Watched type ages' n := by
  refine ⟨h.near, fun t ht htype a ha hip ↦ ?_, fun t ht htype a ha hip ↦ ?_⟩
  · rcases hages a ha with ha | rfl
    · exact h.timer t ht htype a ha hip
    · exact (h.near t ht htype).1
  · rcases hages a ha with ha | rfl
    · exact h.fired t ht htype a ha hip
    · exact absurd hip.symm (none_of_countP hfired ht htype)

theorem Watched.resting (htype : isNeighType type = true) (h : Watched type ages n) (hrest : Resting t n n') :
    Watched type ages n' :=
  h.of_timers hrest.now.ge (fun ip _ ht ↦ hrest.timers type htype ip ▸ ht) fun _ ht _ ↦ hrest.tasks ▸ ht

theorem Silent.resting (h : Silent n) (htables : TablesOrdered n') (haddressed : UpkeepAddressed n')
    (hrest : Resting t n n')
    (hnew : neighAges n' ⊆ neighAges n ∨ n.tasks.elems.countP (isOf .neighbor t.srcIp) = 0) : Silent n' where
  tables := htables
  addressed := haddressed
  one ip := by
    rw [hrest.timers .neighbor rfl]
    exact h.one ip
  neigh := by
    rcases hnew with hages | hfired
    · exact (h.neigh.resting rfl hrest).mono hages
    · exact (h.neigh.resting rfl hrest).young (hrest.tasks ▸ hfired) hrest.ages
  neigh2h := (h.neigh2h.resting rfl hrest).mono hrest.ages2h

theorem left2h_subset (hlisted : (n.aodvNeighList2h.any fun y ↦ y.ip == ip) = true →
      (n'.aodvNeighList2h.any fun y ↦ y.ip == ip) = true)
    (htimers : timersOf .neighbor2h ip n' = timersOf .neighbor2h ip n) : left2h ip n' ⊆ left2h ip n := by
  unfold left2h
  rw [htimers]
  split
  · split
    · exact List.Subset.refl _
    · exact (List.tail_sublist _).subset
  · next hnot =>
    rw [if_neg fun hany ↦ hnot (hlisted hany)]
    exact List.Subset.refl _

theorem InTime2h.mono (h : InTime2h ip n) (hnow : n'.now = n.now) (htasks : n'.tasks = n.tasks)
    (hleft : left2h ip n' ⊆ left2h ip n) : InTime2h ip n' :=
  ⟨htasks ▸ h.1, fun u hu ↦ hnow ▸ h.2 u (hleft hu)⟩

/-- A HELLO names no 2-hop neighbour later on that it did not name before. -/
theorem Names2h.of_listed (h : Names2h t ip n') (hcfg : n'.cfg = n.cfg)
    (hlisted : ip ≠ t.srcIp → HasNeigh ip n → HasNeigh ip n') : Names2h t ip n := by
  obtain ⟨hwcim, hmesh, hne, hnone⟩ := h
  refine ⟨hcfg ▸ hwcim, hcfg ▸ hmesh, hne, fun x hx heq ↦ ?_⟩
  obtain ⟨x', hx', heq'⟩ := hlisted hne ⟨x, hx, heq⟩
  exact hnone x' hx' heq'

theorem Names2h.of_resting (h : Names2h t ip n') (hrest : Resting t n n') : Names2h t ip n :=
  h.of_listed hrest.cfg (hrest.listed ip)

theorem Names2h.of_refresh (h : Names2h t ip (n.updateNeighLifetime t.srcIp)) : Names2h t ip n :=
  h.of_listed rfl fun _ ↦ hasNeigh_updateNeighLifetime t.srcIp

theorem Names2h.of_refresh2h {ip' : Ip} (h : Names2h t ip (n.refreshNeigh2h ip')) : Names2h t ip n := by
  obtain ⟨hcfg, hlist⟩ := refreshNeigh2h_frame ip' n
  refine h.of_listed hcfg fun _ hhas ↦ ?_
  rw [HasNeigh, hlist]
  exact hhas

theorem Ready.resting (h : Ready t n₀ n) (hrest : Resting t n n') : Ready t n₀ n' := by
  intro hrefresh
  obtain ⟨hfired, hnamed⟩ := h hrefresh
  refine ⟨hrest.tasks ▸ hfired, fun ip hip hnames ↦ ?_⟩
  have hne : ip ≠ t.srcIp := hnames.2.2.1
  refine (hnamed ip hip (hnames.of_resting hrest)).mono hrest.now hrest.tasks (left2h_subset (fun hany ↦ ?_) (hrest.timers _ rfl ip))
  obtain ⟨y, hy, heq⟩ := List.any_eq_true.mp hany
  obtain ⟨y', hy', heq'⟩ := hrest.listed2h y hy (beq_iff_eq.mp heq ▸ hne)
  exact List.any_eq_true.mpr ⟨y', hy', by rw [heq', heq]⟩

/-- The timer of a refreshed neighbour comes after its new lifetime. -/
theorem Silent.refresh (h : Silent n) (htables : TablesOrdered (n.updateNeighLifetime ip))
    (haddressed : UpkeepAddressed (n.updateNeighLifetime ip))
    (hfired : n.tasks.elems.countP (isOf .neighbor ip) = 0) : Silent (n.updateNeighLifetime ip) := by
  have hqueue : (n.updateNeighLifetime ip).timers.queue = ((n.removeTimer ip ip noTos .neighbor).insertTimer .neighbor
      (helloInterval * (1 + allowedHelloLoss) + 100) ip).timers.queue := updateTimerQueue_queue _ _ _
  have hcancelled : timersOf .neighbor ip (n.removeTimer ip ip noTos .neighbor) = [] := by
    rw [timersOf_cancel h.addressed (fun t ht ↦ isUpkeep_of_isNeighType (ht ▸ rfl)), ← List.length_eq_zero_iff,
      List.length_tail]
    have := h.one ip
    omega
  have hrest : Watched .neighbor (neighAges n) (n.removeTimer ip ip noTos .neighbor) :=
    h.neigh.of_timers le_rfl (fun _ ↦ (List.eraseP_sublist.filter _).subset) fun _ ht _ ↦ ht
  have hset : Watched .neighbor (neighAges (n.updateNeighLifetime ip)) ((n.removeTimer ip ip noTos .neighbor).insertTimer
      .neighbor (helloInterval * (1 + allowedHelloLoss) + 100) ip) :=
    hrest.set _ (helloInterval * (1 + allowedHelloLoss) + 20 + n.now) hfired (by simp [hcancelled]) (by decide)
      (by change _ < n.now + _; omega) (neighAges_refresh h.tables ip _)
  refine ⟨htables, haddressed, fun ip' ↦ ?_, ?_, ?_⟩
  · rw [timersOf, hqueue]
    by_cases hip : ip' = ip
    · subst hip
      rw [← List.countP_eq_length_filter]
      refine (countP_set _ _).trans ?_
      rw [List.countP_eq_length_filter]
      exact Nat.succ_le_succ (by rw [← timersOf, hcancelled]; exact le_rfl)
    · refine (congrArg List.length (timersOf_set_other hip)).trans_le ?_
      exact (congrArg List.length (timersOf_cancel_other hip)).trans_le (h.one ip')
  · exact hset.of_timers le_rfl (fun ip ↦ by rw [timersOf, hqueue]; exact List.Subset.refl _) fun _ ht _ ↦ ht
  · obtain ⟨-, htasks, htimers⟩ := timersOf_of_ops .neighbor2h rfl rfl (ops_neighbor (n := n) ip)
    exact h.neigh2h.of_timers le_rfl (fun ip _ ht ↦ htimers ip ▸ ht) fun _ ht _ ↦ htasks ▸ ht

theorem Ready.refresh (h : Ready t n₀ n) : Ready t n₀ (n.updateNeighLifetime t.srcIp) := by
  intro hrefresh
  obtain ⟨hfired, hnamed⟩ := h hrefresh
  refine ⟨hfired, fun ip hip hnames ↦ ?_⟩
  obtain ⟨-, -, htimers⟩ := timersOf_of_ops .neighbor2h rfl rfl (ops_neighbor (n := n) t.srcIp)
  exact (hnamed ip hip hnames.of_refresh).mono rfl rfl (left2h_subset id (htimers ip))

/-- A 2-hop neighbour gets a lifetime and a timer; `n₁` is the node before the
timer is set. -/
structure Renews2h (ip : Ip) (n n₁ n' : Node) : Prop where
  now : n₁.now = n.now
  tasks : n₁.tasks = n.tasks
  left : timersOf .neighbor2h ip n₁ = left2h ip n
  fewer : ∀ ip', timersOf .neighbor2h ip' n₁ ⊆ timersOf .neighbor2h ip' n
  other : ∀ ip', ip' ≠ ip → timersOf .neighbor2h ip' n₁ = timersOf .neighbor2h ip' n
  queue : n'.timers.queue = (n₁.insertTimer .neighbor2h (neighbor2hTimeout + 100) ip).timers.queue
  ages : ∀ a ∈ neigh2hAges n', a.1 ≠ ip ∧ a ∈ neigh2hAges n ∨ a = (ip, n.now + neighbor2hTimeout)
  listed : ∀ ip', (n.aodvNeighList2h.any fun y ↦ y.ip == ip') = true →
    (n'.aodvNeighList2h.any fun y ↦ y.ip == ip') = true

theorem refreshNeigh2h_cases (htables : TablesOrdered n) (haddressed : UpkeepAddressed n) (ip : Ip) :
    NeighSame n (n.refreshNeigh2h ip) ∨ ∃ n₁, Renews2h ip n n₁ (n.refreshNeigh2h ip) := by
  unfold refreshNeigh2h
  split
  · next hnone =>
    unfold createAodvNeigh2h
    dsimp only
    split
    · exact .inl (neighSame_alloc n)
    split
    · exact .inl (neighSame_alloc n)
    have habsent : ∀ y ∈ n.aodvNeighList2h, y.ip ≠ ip := fun _ hy ↦ htables.ip_ne_of_find2h hnone hy
    have hleft : left2h ip n = timersOf .neighbor2h ip n := if_neg fun hany ↦ by
      obtain ⟨y, hy, heq⟩ := List.any_eq_true.mp hany
      exact habsent y hy (beq_iff_eq.mp heq)
    refine .inr ⟨{ n.alloc.2 with aodvNeighList2h := _ }, rfl, rfl, hleft.symm, fun _ ↦ List.Subset.refl _,
      fun _ _ ↦ rfl, updateTimerQueue_queue _ _ _, fun a ha ↦ ?_, fun ip' hany ↦ ?_⟩
    · obtain ⟨y, hy, rfl⟩ := List.mem_map.mp ha
      rcases OrderedList.mem_insertBy.mp hy with rfl | hy
      · exact .inr rfl
      · exact .inl ⟨habsent y hy, List.mem_map_of_mem hy⟩
    · obtain ⟨y, hy, heq⟩ := List.any_eq_true.mp hany
      exact List.any_eq_true.mpr ⟨y, OrderedList.mem_insertBy.mpr (.inr hy), heq⟩
  · next y hy =>
    obtain ⟨hmem, hip⟩ := htables.find2h_iff.mp hy
    have hany : (n.aodvNeighList2h.any fun y ↦ y.ip == ip) = true := List.any_eq_true.mpr ⟨y, hmem, beq_iff_eq.mpr hip⟩
    have hleft : left2h ip n = (timersOf .neighbor2h ip n).tail := if_pos hany
    have hcancel : timersOf .neighbor2h ip (n.removeTimer ip ip noTos .neighbor2h) = (timersOf .neighbor2h ip n).tail :=
      timersOf_cancel haddressed (fun t ht ↦ isUpkeep_of_isNeighType (ht ▸ rfl)) ip
    refine .inr ⟨n.removeTimer ip ip noTos .neighbor2h, rfl, rfl, hcancel.trans hleft.symm,
      fun _ ↦ (List.eraseP_sublist.filter _).subset, fun _ hne ↦ timersOf_cancel_other hne,
      updateTimerQueue_queue _ _ _, neigh2hAges_refresh htables ip _, fun ip' hany ↦ ?_⟩
    obtain ⟨y', hy', heq⟩ := List.any_eq_true.mp hany
    have hips : ((n.aodvNeighList2h.map AodvNeigh2h.ip).any fun a ↦ a == ip') = true :=
      List.any_eq_true.mpr ⟨y'.ip, List.mem_map_of_mem hy', heq⟩
    rw [← OrderedList.map_modifyFirst (f := fun y ↦ { y with lifetime := n.now + neighbor2hTimeout })
      (fun _ ↦ rfl) (fun y ↦ y.ip == ip), List.any_map] at hips
    exact hips

theorem timersOf_renewed {n₁ : Node} (h : Renews2h ip n n₁ n') {ip' : Ip} :
    (∀ u ∈ timersOf .neighbor2h ip' n', u ∈ timersOf .neighbor2h ip' n₁ ∨
      ip' = ip ∧ u.time = n.now + neighbor2hTimeout + 100) ∧
    (ip' ≠ ip → timersOf .neighbor2h ip' n' = timersOf .neighbor2h ip' n) := by
  have hqueue : ∀ ip', timersOf .neighbor2h ip' n' =
      timersOf .neighbor2h ip' (n₁.insertTimer .neighbor2h (neighbor2hTimeout + 100) ip) :=
    fun ip' ↦ by rw [timersOf, h.queue, ← timersOf]
  refine ⟨fun u hu ↦ ?_, fun hne ↦ ?_⟩
  · rw [hqueue] at hu
    obtain ⟨hmem, htype, hip⟩ := mem_timersOf.mp hu
    change u ∈ (n₁.timers.insert (timerTask .neighbor2h (neighbor2hTimeout + 100) ip n₁)).queue at hmem
    unfold TimerQueue.insert at hmem
    split at hmem
    · rcases OrderedList.mem_insertBy.mp hmem with rfl | hmem
      · refine .inr ⟨hip.symm, ?_⟩
        rw [Nat.add_assoc, ← h.now]
        rfl
      · exact .inl (mem_timersOf.mpr ⟨hmem, htype, hip⟩)
    · exact .inl (mem_timersOf.mpr ⟨hmem, htype, hip⟩)
  · rw [hqueue, timersOf_set_other hne, h.other ip' hne]

theorem refreshNeigh2h_now (ip : Ip) (n : Node) : (n.refreshNeigh2h ip).now = n.now := by
  unfold refreshNeigh2h createAodvNeigh2h
  split
  · dsimp only
    split
    · rfl
    split <;> rfl
  · rfl

/-- The timers of a refreshed 2-hop neighbour come after its new lifetime. -/
theorem Silent.refresh2h (h : Silent n) (htables : TablesOrdered (n.refreshNeigh2h ip))
    (haddressed : UpkeepAddressed (n.refreshNeigh2h ip)) (htime : InTime2h ip n) :
    Silent (n.refreshNeigh2h ip) := by
  have hnow := refreshNeigh2h_now ip n
  obtain ⟨-, hlist⟩ := refreshNeigh2h_frame ip n
  obtain ⟨-, htasks, htimers⟩ := timersOf_of_ops .neighbor rfl rfl (ops_neighbor2h (n := n) ip)
  refine ⟨htables, haddressed, fun ip' ↦ (htimers ip').symm ▸ h.one ip', ?_, ?_⟩
  · rw [neighAges, hlist]
    exact h.neigh.of_timers hnow.ge (fun ip' _ ht ↦ htimers ip' ▸ ht) fun _ ht _ ↦ htasks ▸ ht
  · rcases refreshNeigh2h_cases h.tables h.addressed ip with hsame | ⟨n₁, hrenew⟩
    · obtain ⟨-, htasks, htimers⟩ := timersOf_of_ops .neighbor2h rfl rfl (ops_of_same (S := fun _ ↦ false) hsame)
      rw [neigh2hAges, hsame.neigh2h]
      exact h.neigh2h.of_timers hnow.ge (fun ip' _ ht ↦ htimers ip' ▸ ht) fun _ ht _ ↦ htasks ▸ ht
    · have hrest : Watched .neighbor2h (neigh2hAges n) n₁ :=
        h.neigh2h.of_timers hrenew.now.ge hrenew.fewer fun _ ht _ ↦ hrenew.tasks ▸ ht
      have hset := hrest.set (neighbor2hTimeout + 100) _ (hrenew.tasks.symm ▸ htime.1)
        (fun u hu ↦ htime.2 u (hrenew.left ▸ hu)) (by decide) (by rw [hrenew.now]; omega) hrenew.ages
      refine hset.of_timers (hnow.trans hrenew.now.symm).ge (fun ip' _ ht ↦ ?_) fun _ ht _ ↦ ?_
      · rwa [timersOf, hrenew.queue] at ht
      · have hsame : (n₁.insertTimer .neighbor2h (neighbor2hTimeout + 100) ip).tasks = n.tasks := hrenew.tasks
        rwa [hsame, ← htasks]

theorem Ready.refresh2h (h : Ready t n₀ n) (htables : TablesOrdered n) (haddressed : UpkeepAddressed n)
    (htime : InTime2h ip n) : Ready t n₀ (n.refreshNeigh2h ip) := by
  rcases refreshNeigh2h_cases htables haddressed ip with hsame | ⟨n₁, hrenew⟩
  · exact h.resting (resting_same hsame)
  have hnow := refreshNeigh2h_now ip n
  obtain ⟨-, htasks, -⟩ := timersOf_of_ops .neighbor rfl rfl (ops_neighbor2h (n := n) ip)
  intro hrefresh
  obtain ⟨hfired, hnamed⟩ := h hrefresh
  refine ⟨htasks.symm ▸ hfired, fun ip' hip' hnames ↦ ?_⟩
  by_cases hip : ip' = ip
  · subst hip
    refine ⟨htasks.symm ▸ htime.1, fun u hu ↦ ?_⟩
    have hmem : u ∈ timersOf .neighbor2h ip' (n.refreshNeigh2h ip') := by
      unfold left2h at hu
      split at hu
      · exact (List.tail_sublist _).subset hu
      · exact hu
    rw [hnow]
    rcases (timersOf_renewed hrenew).1 u hmem with hold | ⟨-, hnew⟩
    · exact htime.2 u (hrenew.left ▸ hold)
    · omega
  · exact (hnamed ip' hip' hnames.of_refresh2h).mono hnow htasks
      (left2h_subset (hrenew.listed ip') ((timersOf_renewed hrenew).2 hip))

theorem isNeighType_of_renewedBy {type' : TaskType} (h : renewedBy type' = some type) :
    isNeighType type = false := by
  cases type' <;> cases h <;> rfl

/-- An act of a handler is a refresh, or the tables rest. -/
theorem act_cases (htables : TablesOrdered n) (h : NeighAct n₀ t n n') :
    Resting t n n' ∧ (neighAges n' ⊆ neighAges n ∨ refreshes t n₀ = true) ∨
      refreshes t n₀ = true ∧ (HasNeigh t.srcIp n ∧ n' = n.updateNeighLifetime t.srcIp ∨
        ∃ ip ∈ extensionIps t, Names2h t ip n ∧ n' = n.refreshNeigh2h ip) := by
  have hmodify : ∀ (ip : Ip) {f : AodvNeigh → AodvNeigh}, (∀ x, (f x).ip = x.ip ∧ (f x).lifetime = x.lifetime) →
      Resting t n (n.modifyNeigh ip f) ∧ (neighAges (n.modifyNeigh ip f) ⊆ neighAges n ∨ refreshes t n₀ = true) :=
    fun ip _ hf ↦ ⟨resting_modifyNeigh ip hf, .inl fun _ ha ↦ neighAges_modifyNeigh ip hf ▸ ha⟩
  have hops : ∀ {S : TaskType → Bool} {n₁ : Node}, (∀ type, isNeighType type = true → S type = false) →
      TimerOps S n n₁ → n₁.now = n.now → n₁.aodvNeighList = n.aodvNeighList →
      n₁.aodvNeighList2h = n.aodvNeighList2h →
      Resting t n n₁ ∧ (neighAges n₁ ⊆ neighAges n ∨ refreshes t n₀ = true) := by
    intro S n₁ hS hop hnow hlist hlist2h
    have hages : neighAges n₁ = neighAges n := by rw [neighAges, hlist]; rfl
    exact ⟨resting_of_ops hS hop hnow hages (by rw [neigh2hAges, hlist2h]; rfl), .inl (hages ▸ List.Subset.refl _)⟩
  have hett : ∀ type, isNeighType type = true → isEttType type = false := fun _ ↦ isEttType_of_isNeighType
  cases h with
  | same h =>
    have hages : neighAges n' = neighAges n :=
      Pointwise.map_eq h.neigh fun htouch ↦ Prod.ext htouch.ip htouch.lifetime
    exact .inl ⟨resting_same h, .inl (hages ▸ List.Subset.refl _)⟩
  | refresh hhas hrefresh => exact .inr ⟨hrefresh, .inl ⟨hhas, rfl⟩⟩
  | arm | probe => exact .inl (hops hett (ops_insertTimer rfl) rfl rfl rfl)
  | rearm =>
    exact .inl (hops hett (((ops_removeTimer rfl).trans (ops_insertTimer rfl)).trans ops_updateTimers) rfl rfl rfl)
  | stop => exact .inl (hops hett (ops_removeTimer rfl) rfl rfl rfl)
  | @renew _ type _ _ htype =>
    refine .inl (hops (S := fun type' ↦ type' == type) (fun type' htype' ↦ beq_false_of_ne fun heq ↦ ?_)
      (ops_insertTimer (beq_self_eq_true _)) rfl rfl rfl)
    rw [heq, isNeighType_of_renewedBy htype] at htype'
    cases htype'
  | meet _ _ _ h hrefresh =>
    exact .inl ⟨(resting_takeNeigh2h htables).trans (resting_createAodvNeigh h), .inr hrefresh⟩
  | lose =>
    refine .inl ⟨resting_unlinkNeigh, .inl ?_⟩
    rw [neighAges, (unlinkNeigh_frame t.srcIp n).2.1]
    exact (List.eraseP_sublist.map _).subset
  | lose2h =>
    refine .inl ⟨resting_deleteAodvNeigh2h, .inl ?_⟩
    rw [neighAges, (deleteAodvNeigh2h_frame t.srcIp n).2]
    exact List.Subset.refl _
  | takeLoad => exact .inl (hmodify _ fun _ ↦ ⟨rfl, rfl⟩)
  | ownLoad | extLoad => exact .inl (hmodify _ fun x ↦ ⟨updateNeighLoad_ip _ _ x, updateNeighLoad_lifetime _ _ x⟩)
  | neightx => exact .inl (hmodify _ fun x ↦ ⟨updateNeightx_ip _ x, updateNeightx_lifetime _ x⟩)
  | extLoad2h =>
    refine .inl ⟨resting_of_ops (S := fun _ ↦ false) (fun _ _ ↦ rfl) (ops_of_timers rfl rfl rfl) rfl rfl
      (neigh2hAges_modifyNeigh2h _ fun y ↦ ⟨updateNeighLoad2h_ip _ _ y, updateNeighLoad2h_lifetime _ _ y⟩), .inl ?_⟩
    exact List.Subset.refl _
  | @refresh2h _ m ext hdata hext hip hnone hrefresh hwcim hhas =>
    obtain ⟨x, hx, hsrc⟩ := hhas
    have hnames : Names2h t ext.ip n :=
      ⟨hwcim, hip, fun heq ↦ htables.ip_ne_of_find hnone hx (hsrc.trans heq.symm),
        fun _ hx ↦ htables.ip_ne_of_find hnone hx⟩
    have hmem : ext.ip ∈ extensionIps t := by
      rw [extensionIps, hdata]
      exact List.mem_map_of_mem hext
    exact .inr ⟨hrefresh, .inr ⟨ext.ip, hmem, hnames, rfl⟩⟩

theorem Silent.act (h : Silent n) (hready : Ready t n₀ n) (hact : NeighAct n₀ t n n') :
    Silent n' ∧ Ready t n₀ n' := by
  have htables := h.tables.act hact
  have haddressed : UpkeepAddressed n' := h.addressed.acts (.single hact)
  rcases act_cases h.tables hact with ⟨hrest, hnew⟩ | ⟨hrefresh, ⟨-, rfl⟩ | ⟨ip, hip, hnames, rfl⟩⟩
  · exact ⟨h.resting htables haddressed hrest (hnew.imp_right fun hr ↦ (hready hr).1), hready.resting hrest⟩
  · exact ⟨h.refresh htables haddressed (hready hrefresh).1, hready.refresh⟩
  · have htime := (hready hrefresh).2 ip hip hnames
    exact ⟨h.refresh2h htables haddressed htime, hready.refresh2h h.tables h.addressed htime⟩

theorem Silent.acts (h : Silent n₀) (hready : Ready t n₀ n₀) (hacts : Acts n₀ t n₀ n') : Silent n' := by
  have hboth : Silent n' ∧ Ready t n₀ n' := by
    induction hacts with
    | refl => exact ⟨h, hready⟩
    | tail _ hact ih => exact ih.1.act ih.2 hact
  exact hboth.1

theorem Silent.of_timers (h : Silent n) (htables : TablesOrdered n') (haddressed : UpkeepAddressed n')
    (hnow : n.now ≤ n'.now) (hlists : n'.aodvNeighList = n.aodvNeighList ∧ n'.aodvNeighList2h = n.aodvNeighList2h)
    (htimers : ∀ type, isNeighType type = true → ∀ ip, timersOf type ip n' = timersOf type ip n)
    (htasks : ∀ t ∈ n'.tasks.elems, isNeighType t.type = true → t ∈ n.tasks.elems) : Silent n' where
  tables := htables
  addressed := haddressed
  one ip := by
    rw [htimers .neighbor rfl]
    exact h.one ip
  neigh := by
    rw [neighAges, hlists.1]
    exact h.neigh.of_timers hnow (fun ip _ ht ↦ htimers .neighbor rfl ip ▸ ht) fun t ht htype ↦
      htasks t ht (htype ▸ rfl)
  neigh2h := by
    rw [neigh2hAges, hlists.2]
    exact h.neigh2h.of_timers hnow (fun ip _ ht ↦ htimers .neighbor2h rfl ip ▸ ht) fun t ht htype ↦
      htasks t ht (htype ▸ rfl)

theorem Silent.step {e : Event} (h : Silent n) (hcond : AtTask RefreshesInTime n e) (hs : n.step e = some n') :
    Silent n' := by
  have htables := step_tablesOrdered h.tables hs
  have haddressed := h.addressed.step hs
  cases step_neigh hs with
  | wait ms =>
    exact h.of_timers htables haddressed (Nat.le_add_right _ _) ⟨rfl, rfl⟩ (fun _ _ _ ↦ rfl) fun _ ht _ ↦ ht
  | idle hidle =>
    refine h.of_timers htables haddressed hidle.now.ge ⟨hidle.neigh, hidle.neigh2h⟩
      (fun type htype ↦ timersOf_of_same type htype hidle.timers) fun t ht htype ↦ ?_
    exact mem_of_filter hidle.tasks ht (isUpkeep_of_isNeighType htype)
  | signal =>
    obtain ⟨-, -, hneigh, hneigh2h, hqueue, -⟩ := signal_neigh n
    refine ⟨htables, haddressed, fun ip ↦ ?_, ?_, ?_⟩
    · have hsub : n.signal.timers.queue.Sublist n.timers.queue := hqueue ▸ List.dropWhile_sublist _
      exact ((hsub.filter _).length_le).trans (h.one ip)
    · rw [neighAges, hneigh]
      exact h.neigh.signal
    · rw [neigh2hAges, hneigh2h]
      exact h.neigh2h.signal
  | @thread t tasks _ hpop hacts =>
    have hrest : Silent { n with tasks := tasks } :=
      h.of_timers (h.tables.lists rfl rfl rfl) (h.addressed.pop hpop) le_rfl ⟨rfl, rfl⟩ (fun _ _ _ ↦ rfl)
        fun _ ht _ ↦ ClassQueue.pop_subset hpop ht
    exact hrest.acts (hcond t tasks rfl hpop) hacts

end Refreshes

theorem silent_init (cfg : Config) (env : Environment) : Silent (Node.init cfg env) := by
  obtain ⟨n, hqueue, hnone, hops⟩ := init_ops cfg env
  have htasks : (Node.init cfg env).tasks.elems = [] := by
    rw [(timersOf_of_ops .neighbor rfl rfl hops).2.1, hnone]
  have htimers : ∀ type, isNeighType type = true → ∀ ip, timersOf type ip (Node.init cfg env) = [] := by
    intro type htype ip
    have hperiodic : isPeriodicType type = false := by
      simp only [isNeighType, Bool.or_eq_true, beq_iff_eq] at htype
      rcases htype with rfl | rfl
      · rfl
      · rfl
    rw [(timersOf_of_ops type htype hperiodic hops).2.2, timersOf, hqueue]
    rfl
  have hwatched : ∀ type, isNeighType type = true → ∀ ages, Watched type ages (Node.init cfg env) := by
    intro type htype ages
    have hno : ∀ t ∈ (Node.init cfg env).timers.queue, t.type ≠ type := by
      intro t ht heq
      have hmem : t ∈ timersOf type t.srcIp (Node.init cfg env) := mem_timersOf.mpr ⟨ht, heq, rfl⟩
      rw [htimers type htype] at hmem
      cases hmem
    refine ⟨fun t ht heq ↦ absurd heq (hno t ht), fun t ht heq ↦ absurd heq (hno t ht), fun t ht ↦ ?_⟩
    rw [htasks] at ht
    cases ht
  refine ⟨init_tablesOrdered cfg env, upkeepAddressed_init cfg env, fun ip ↦ ?_, hwatched _ rfl _, hwatched _ rfl _⟩
  rw [htimers .neighbor rfl]
  exact Nat.zero_le _

/-- As long as no neighbour is refreshed whose timer has fired already, a neighbour
or 2-hop neighbour is given up only when its lifetime has passed. -/
theorem only_silent_neighs_expire {n : Node} {t : Task} {tasks : ClassQueue Task}
    (h : Reach (fun _ _ ↦ True) (AtTask RefreshesInTime) n) (hpop : n.tasks.pop = (some t, tasks)) :
    (t.type = .neighbor → ∀ x ∈ n.aodvNeighList, x.ip = t.srcIp → x.lifetime < n.now) ∧
      (t.type = .neighbor2h → ∀ y ∈ n.aodvNeighList2h, y.ip = t.srcIp → y.lifetime < n.now) := by
  have hsilent : Silent n := h.induct (fun cfg env _ ↦ silent_init cfg env) fun _ _ _ hn hcond hs ↦ hn.step hcond hs
  have hmem : t ∈ n.tasks.elems := ClassQueue.pop_mem hpop
  refine ⟨fun htype x hx hip ↦ ?_, fun htype y hy hip ↦ ?_⟩
  · exact hsilent.neigh.fired t hmem htype (x.ip, x.lifetime) (List.mem_map_of_mem hx) hip
  · exact hsilent.neigh2h.fired t hmem htype (y.ip, y.lifetime) (List.mem_map_of_mem hy) hip

def wcimNode : Node := Node.init { station.cfg with gRoutingMetric := .wcim } plainEnvironment

/-- 192.168.1.2 names 192.168.1.3, and both are silent from then on. -/
def thenSilent : List Event :=
  helloFrom 0x0201a8c0 [0x0301a8c0] ++ [.wait 10101, .signal, .thread, .thread]

theorem only_silent_neighs_expire_both :
    (∃ n t tasks, runs thenSilent wcimNode = some n ∧ n.tasks.pop = (some t, tasks) ∧ t.type = .neighbor ∧
      ∃ x ∈ n.aodvNeighList, x.ip = t.srcIp ∧ x.lifetime < n.now) ∧
    ∃ n t tasks, runs (thenSilent ++ [.thread]) wcimNode = some n ∧ n.tasks.pop = (some t, tasks) ∧
      t.type = .neighbor2h ∧ ∃ y ∈ n.aodvNeighList2h, y.ip = t.srcIp ∧ y.lifetime < n.now := by
  have hinit : Reach (fun _ _ ↦ True) (AtTask RefreshesInTime) wcimNode := .init trivial
  have hcond : Lockstep.Along Node.step (AtTask RefreshesInTime) thenSilent wcimNode := by decide +kernel
  have hcond2h : Lockstep.Along Node.step (AtTask RefreshesInTime) (thenSilent ++ [.thread]) wcimNode := by
    decide +kernel
  have hrun : (runs thenSilent wcimNode).map (fun n ↦ (n.tasks.pop.1.map fun t ↦ (t.type, t.srcIp),
      n.aodvNeighList.map AodvNeigh.ip)) = some (some (.neighbor, 0x0201a8c0), [0x0201a8c0]) := by
    decide +kernel
  have hrun2h : (runs (thenSilent ++ [.thread]) wcimNode).map (fun n ↦ (n.tasks.pop.1.map fun t ↦ (t.type, t.srcIp),
      n.aodvNeighList2h.map AodvNeigh2h.ip)) = some (some (.neighbor2h, 0x0301a8c0), [0x0301a8c0]) := by
    decide +kernel
  constructor
  · obtain ⟨n, hn, hfacts⟩ := Option.map_eq_some_iff.mp hrun
    obtain ⟨htask, hlist⟩ := Prod.mk.inj hfacts
    obtain ⟨t, ht, heq⟩ := Option.map_eq_some_iff.mp htask
    obtain ⟨htype, hsrc⟩ := Prod.mk.inj heq
    obtain ⟨x, hx, hip⟩ := List.mem_map.mp (hlist ▸ List.mem_singleton_self (0x0201a8c0 : Ip))
    have hpop : n.tasks.pop = (some t, n.tasks.pop.2) := Prod.ext ht rfl
    have hexpired := (only_silent_neighs_expire (hinit.of_along hcond hn) hpop).1 htype x hx (hip.trans hsrc.symm)
    exact ⟨n, t, _, hn, hpop, htype, x, hx, hip.trans hsrc.symm, hexpired⟩
  · obtain ⟨n, hn, hfacts⟩ := Option.map_eq_some_iff.mp hrun2h
    obtain ⟨htask, hlist⟩ := Prod.mk.inj hfacts
    obtain ⟨t, ht, heq⟩ := Option.map_eq_some_iff.mp htask
    obtain ⟨htype, hsrc⟩ := Prod.mk.inj heq
    obtain ⟨y, hy, hip⟩ := List.mem_map.mp (hlist ▸ List.mem_singleton_self (0x0301a8c0 : Ip))
    have hpop : n.tasks.pop = (some t, n.tasks.pop.2) := Prod.ext ht rfl
    have hexpired := (only_silent_neighs_expire (hinit.of_along hcond2h hn) hpop).2 htype y hy (hip.trans hsrc.symm)
    exact ⟨n, t, _, hn, hpop, htype, y, hy, hip.trans hsrc.symm, hexpired⟩

/-- The task that the thread takes next takes an address from the list whose
lifetime has not passed. -/
def GivesUpEarly (type : TaskType) (ages : Node → List (Ip × ℕ)) (n : Node) : Prop :=
  ∃ t ∈ n.tasks.pop.1, t.type = type ∧ ∃ a ∈ ages n, a.1 = t.srcIp ∧ n.now < a.2 ∧
    ∃ n' ∈ n.step .thread, ∀ a' ∈ ages n', a'.1 ≠ a.1

instance (type : TaskType) (ages : Node → List (Ip × ℕ)) (n : Node) : Decidable (GivesUpEarly type ages n) :=
  inferInstanceAs (Decidable (∃ t ∈ n.tasks.pop.1, _))

/-- A HELLO of 192.168.1.2 is before its `TASK_NEIGHBOR` in the task queue. -/
def refreshTooLate : List Event :=
  meetNeigh ++ [.wait 4101] ++ (helloFrom 0x0201a8c0 []).dropLast ++ [.signal] ++ List.replicate 3 .thread

/-- 192.168.1.3 is a 2-hop neighbour, then a neighbour, and is lost; the timer from
its first time is still set when it is named again. -/
def namedAgain : List Event :=
  helloFrom 0x0201a8c0 [0x0301a8c0] ++ helloFrom 0x0301a8c0 [] ++ [.wait 4101, .signal] ++
    List.replicate 6 .thread ++ helloFrom 0x0201a8c0 [0x0301a8c0] ++ [.wait 6000, .signal] ++ List.replicate 3 .thread

theorem refreshed_neighs_expire : (∃ n, Reachable n ∧ GivesUpEarly .neighbor neighAges n) ∧
    ∃ n, Reachable n ∧ GivesUpEarly .neighbor2h neigh2hAges n := by
  have hlate : (runs refreshTooLate station).map (fun n ↦ decide (GivesUpEarly .neighbor neighAges n)) = some true := by
    decide +kernel
  have hagain : (runs namedAgain wcimNode).map (fun n ↦ decide (GivesUpEarly .neighbor2h neigh2hAges n)) =
      some true := by
    decide +kernel
  have hinit : Reachable station := .init trivial
  have hinit' : Reachable wcimNode := .init trivial
  constructor
  · obtain ⟨n, hn, hearly⟩ := Option.map_eq_some_iff.mp hlate
    exact ⟨n, hinit.of_runs hn, of_decide_eq_true hearly⟩
  · obtain ⟨n, hn, hearly⟩ := Option.map_eq_some_iff.mp hagain
    exact ⟨n, hinit'.of_runs hn, of_decide_eq_true hearly⟩

end Fbaodv.Proofs.SilentNeighs
