import Fbaodv.Proofs.PeriodicWork
import Fbaodv.Proofs.SilentNeighs

namespace Fbaodv.Proofs.StaleNeighs

open Fbaodv.Model Fbaodv.Model.Node Fbaodv.Foundation
open Fbaodv.Proofs.NodeRun Fbaodv.Proofs.Upkeep Fbaodv.Proofs.NeighActs Fbaodv.Proofs.Pending
open Fbaodv.Proofs.PeriodicWork Fbaodv.Proofs.NeighTables Fbaodv.Proofs.SilentNeighs Relation
open Fbaodv.Proofs.Background (steady_genRerr steady_redirectRoutes)

/-- The addresses in the list that timers of the type watch over. -/
def listedAs (type : TaskType) (n : Node) : List Ip :=
  match type with
  | .neighbor => n.aodvNeighList.map AodvNeigh.ip
  | .neighbor2h => n.aodvNeighList2h.map AodvNeigh2h.ip
  | _ => []

/-- A message of the task refreshes the address in that list or puts it there: the
sender if that is a neighbour or says HELLO, and each address of a HELLO that is
a 2-hop neighbour or becomes one. -/
def Named (type : TaskType) (ip : Ip) (t : Task) (n : Node) : Prop :=
  type = .neighbor ∧ ip = t.srcIp ∧ (t.type = .recvHello ∨ ip ∈ listedAs .neighbor n) ∨
    type = .neighbor2h ∧ ip ∈ extensionIps t ∧ Names2h t ip n

instance (type : TaskType) (ip : Ip) (t : Task) (n : Node) : Decidable (Named type ip t n) :=
  inferInstanceAs (Decidable (_ ∨ _))

/-- How long an address stays listed after it was last refreshed. -/
def grace : TaskType → ℕ
  | .neighbor => helloInterval * (1 + allowedHelloLoss) + 100
  | _ => neighbor2hTimeout + 100

/-- The message that is handled next does not refresh the address. -/
def Unheard (type : TaskType) (ip : Ip) : Node → Event → Prop :=
  AtTask fun t _ n ↦ refreshes t n = true → ¬ Named type ip t n

/-- All due work is done. -/
def CaughtUp (n : Node) : Prop := n.tasks.elems = [] ∧ ∀ u ∈ n.timers.queue, n.now ≤ u.time

variable {type : TaskType} {n₀ n n' : Node} {ip : Ip} {t : Task}

section Acts

theorem pending_eq (type : TaskType) (ip : Ip) (n : Node) : pending (isOf type ip) n =
    (timersOf type ip n).length + n.tasks.elems.countP (isOf type ip) := by
  rw [pending, List.countP_eq_length_filter]
  rfl

/-- What the operations on timers and tables need. -/
structure Fit (n : Node) : Prop where
  tables : TablesOrdered n
  addressed : UpkeepAddressed n
  ready : TimersReady n

theorem Fit.act (h : Fit n) (hact : NeighAct n₀ t n n') : Fit n' := by
  have hops : ∀ {S : TaskType → Bool} {k k' : Node}, TimerOps S k k' → k'.timers.kmalloc <:+ k.timers.kmalloc :=
    fun h ↦ (keeps_of_ops (p := fun _ ↦ false) (fun _ h ↦ absurd h Bool.false_ne_true) (fun _ _ ↦ rfl) h).memory
  refine ⟨h.tables.act hact, h.addressed.acts (.single hact), h.ready.of_suffix ?_⟩
  rcases ops_of_act hact with h | ⟨-, -, rfl⟩ | ⟨rfl, -, -, -, ok, hcreate⟩
  · exact hops h
  · exact hops (ops_unlinkNeigh t.srcIp)
  · exact hops ((ops_takeNeigh2h t.srcIp).trans (ops_createAodvNeigh hcreate))

/-- The address gets a timer for the time that it stays listed. -/
structure Renewed (type : TaskType) (ip : Ip) (n n' : Node) : Prop where
  timer : timersOf type ip n' ≠ []
  times : ∀ u ∈ timersOf type ip n', u ∈ timersOf type ip n ∨ u.time = n.now + grace type

/-- What an act means for an address and the timers of a type. -/
inductive ActOn (type : TaskType) (ip : Ip) (n₀ : Node) (t : Task) (n n' : Node) : Prop
  | rests (htimers : timersOf type ip n' = timersOf type ip n)
      (hlisted : ip ∈ listedAs type n' → ip ∈ listedAs type n)
  | meets (htimers : timersOf type ip n' = timersOf type ip n) (htype : t.type = .recvHello)
      (hip : type = .neighbor ∧ ip = t.srcIp) (hnone : n₀.findAodvNeigh t.srcIp = none)
      (hrefresh : refreshes t n₀ = true)
  | renews (h : Renewed type ip n n') (hnamed : Named type ip t n) (hrefresh : refreshes t n₀ = true)

theorem renewed_set {k : Node} (hready : TimersReady k) (hnow : k.now = n.now)
    (hold : ∀ u ∈ timersOf type ip k, u ∈ timersOf type ip n)
    (hqueue : n'.timers.queue = (k.insertTimer type (grace type) ip).timers.queue) : Renewed type ip n n' := by
  have hset : n'.timers.queue = queueTimer (timerTask type (grace type) ip k) k.timers.queue := by
    rw [hqueue]
    change (k.timers.insert (timerTask type (grace type) ip k)).queue = _
    rw [TimerQueue.insert, if_pos hready.next]
  refine ⟨List.ne_nil_of_mem (a := timerTask type (grace type) ip k) (mem_timersOf.mpr ⟨?_, rfl, rfl⟩),
    fun u hu ↦ ?_⟩
  · rw [hset]
    exact OrderedList.mem_insertBy.mpr (.inl rfl)
  · obtain ⟨hmem, htype, hip⟩ := mem_timersOf.mp hu
    rw [hset] at hmem
    rcases OrderedList.mem_insertBy.mp hmem with rfl | hmem
    · exact .inr (congrArg (· + grace type) hnow)
    · exact .inl (hold u (mem_timersOf.mpr ⟨hmem, htype, hip⟩))

theorem renewed_refresh (hready : TimersReady n) : Renewed .neighbor ip n (n.updateNeighLifetime ip) :=
  renewed_set (k := n.removeTimer ip ip noTos .neighbor) hready rfl
    (fun _ hu ↦ (List.eraseP_sublist.filter _).subset hu) (updateTimerQueue_queue _ _ _)

theorem renewed_refresh2h (hready : TimersReady n) : NeighSame n (n.refreshNeigh2h ip) ∨
    Renewed .neighbor2h ip n (n.refreshNeigh2h ip) := by
  unfold refreshNeigh2h
  split
  · unfold createAodvNeigh2h
    dsimp only
    split
    · exact .inl (neighSame_alloc n)
    split
    · exact .inl (neighSame_alloc n)
    · exact .inr (renewed_set (k := { n.alloc.2 with aodvNeighList2h := _ }) hready rfl (fun _ hu ↦ hu)
        (updateTimerQueue_queue _ _ _))
  · exact .inr (renewed_set (k := n.removeTimer ip ip noTos .neighbor2h) hready rfl
      (fun _ hu ↦ (List.eraseP_sublist.filter _).subset hu) (updateTimerQueue_queue _ _ _))

theorem listedAs_modifyNeigh (ip' : Ip) {f : AodvNeigh → AodvNeigh} (hf : ∀ x, (f x).ip = x.ip) (n : Node) :
    listedAs .neighbor (n.modifyNeigh ip' f) = listedAs .neighbor n :=
  OrderedList.map_modifyFirst hf _ _

theorem listedAs_same (h : NeighSame n n') : listedAs .neighbor n' = listedAs .neighbor n :=
  Pointwise.map_eq h.neigh fun htouch ↦ htouch.ip

theorem listedAs_refresh (ip' : Ip) (n : Node) :
    listedAs .neighbor (n.updateNeighLifetime ip') = listedAs .neighbor n := by
  unfold updateNeighLifetime
  rw [listedAs_modifyNeigh]
  · rfl
  · exact fun _ ↦ rfl

theorem listed_of_hasNeigh (h : HasNeigh ip n) : ip ∈ listedAs .neighbor n := by
  obtain ⟨x, hx, rfl⟩ := h
  exact List.mem_map_of_mem hx

/-- Only the sender of a HELLO becomes a neighbour. -/
theorem listed_act (h : NeighAct n₀ t n n') (hn : ip ∈ listedAs .neighbor n') : ip ∈ listedAs .neighbor n ∨
    t.type = .recvHello ∧ ip = t.srcIp ∧ n₀.findAodvNeigh t.srcIp = none ∧ refreshes t n₀ = true := by
  have hlist : ∀ {k k' : Node}, k'.aodvNeighList = k.aodvNeighList →
      listedAs .neighbor k' = listedAs .neighbor k := fun heq ↦ congrArg (List.map AodvNeigh.ip) heq
  cases h with
  | same h => exact .inl (listedAs_same h ▸ hn)
  | refresh => exact .inl (listedAs_refresh t.srcIp n ▸ hn)
  | arm | rearm | stop | probe | renew => exact .inl hn
  | meet htype _ hnone h hrefresh =>
    have htaken := hlist (takeNeigh2h_frame t.srcIp n₀).2
    rcases createAodvNeigh_spec h with ⟨-, hsame⟩ | ⟨-, hmeets⟩
    · exact .inl (htaken ▸ listedAs_same hsame ▸ hn)
    · obtain ⟨x, hx, rfl⟩ := List.mem_map.mp hn
      rw [hmeets.neigh] at hx
      rcases OrderedList.mem_insertBy.mp hx with rfl | hx
      · exact .inr ⟨htype, rfl, hnone, hrefresh⟩
      · exact .inl (htaken ▸ List.mem_map_of_mem hx)
  | lose =>
    obtain ⟨x, hx, hip⟩ := List.mem_map.mp hn
    rw [(unlinkNeigh_frame t.srcIp n₀).2.1] at hx
    exact .inl (List.mem_map.mpr ⟨x, List.mem_of_mem_eraseP hx, hip⟩)
  | lose2h => exact .inl (hlist (deleteAodvNeigh2h_frame t.srcIp n₀).2 ▸ hn)
  | @refresh2h _ _ ext => exact .inl (hlist (refreshNeigh2h_frame ext.ip n).2 ▸ hn)
  | extLoad2h => exact .inl hn
  | takeLoad =>
    rw [listedAs_modifyNeigh] at hn
    · exact .inl hn
    · exact fun _ ↦ rfl
  | ownLoad | extLoad => exact .inl (listedAs_modifyNeigh _ (updateNeighLoad_ip _ _) n ▸ hn)
  | neightx => exact .inl (listedAs_modifyNeigh _ (updateNeightx_ip _) n ▸ hn)

theorem listedAs_neigh2h (n : Node) : listedAs .neighbor2h n = (neigh2hAges n).map Prod.fst := by
  simp [listedAs, neigh2hAges]

theorem rests_same (htype : isNeighType type = true) (h : NeighSame n n') : ActOn type ip n₀ t n n' := by
  refine .rests (timersOf_of_same type htype h.timers ip) ?_
  simp only [isNeighType, Bool.or_eq_true, beq_iff_eq] at htype
  rcases htype with rfl | rfl
  · rw [listedAs_same h]
    exact id
  · rw [listedAs, h.neigh2h]
    exact id

theorem act_refresh (htype : isNeighType type = true) (hfit : Fit n) (hhas : HasNeigh t.srcIp n)
    (hrefresh : refreshes t n₀ = true) (ip : Ip) : ActOn type ip n₀ t n (n.updateNeighLifetime t.srcIp) := by
  simp only [isNeighType, Bool.or_eq_true, beq_iff_eq] at htype
  rcases htype with rfl | rfl
  · by_cases hip : ip = t.srcIp
    · subst hip
      exact .renews (renewed_refresh hfit.ready) (.inl ⟨rfl, rfl, .inr (listed_of_hasNeigh hhas)⟩) hrefresh
    · refine .rests ?_ fun hn ↦ ?_
      · have hqueue : (n.updateNeighLifetime t.srcIp).timers.queue = ((n.removeTimer t.srcIp t.srcIp noTos
            .neighbor).insertTimer .neighbor (grace .neighbor) t.srcIp).timers.queue := updateTimerQueue_queue _ _ _
        rw [timersOf, hqueue]
        exact (timersOf_set_other hip).trans (timersOf_cancel_other hip)
      · rwa [listedAs_refresh] at hn
  · exact .rests ((timersOf_of_ops .neighbor2h rfl rfl (ops_neighbor (n := n) t.srcIp)).2.2 ip) id

theorem act_refresh2h (htype : isNeighType type = true) (hfit : Fit n) {ip' : Ip} (hip' : ip' ∈ extensionIps t)
    (hnames : Names2h t ip' n) (hrefresh : refreshes t n₀ = true) (ip : Ip) :
    ActOn type ip n₀ t n (n.refreshNeigh2h ip') := by
  have hneigh : isNeighType type = true := htype
  simp only [isNeighType, Bool.or_eq_true, beq_iff_eq] at htype
  rcases htype with rfl | rfl
  · refine .rests ((timersOf_of_ops .neighbor rfl rfl (ops_neighbor2h (n := n) ip')).2.2 ip) ?_
    rw [listedAs, (refreshNeigh2h_frame ip' n).2]
    exact id
  rcases refreshNeigh2h_cases hfit.tables hfit.addressed ip' with hsame | ⟨n₁, hrenew⟩
  · exact rests_same hneigh hsame
  by_cases hip : ip = ip'
  · subst hip
    rcases renewed_refresh2h hfit.ready with hsame | hrenewed
    · exact rests_same hneigh hsame
    · exact .renews hrenewed (.inr ⟨rfl, hip', hnames⟩) hrefresh
  · refine .rests ((timersOf_renewed hrenew).2 hip) ?_
    rw [listedAs_neigh2h, listedAs_neigh2h]
    intro hmem
    obtain ⟨a, ha, rfl⟩ := List.mem_map.mp hmem
    rcases hrenew.ages a ha with ⟨-, ha⟩ | rfl
    · exact List.mem_map_of_mem ha
    · exact absurd rfl hip

theorem act_on (htype : isNeighType type = true) (hfit : Fit n) (ip : Ip) (h : NeighAct n₀ t n n') :
    ActOn type ip n₀ t n n' := by
  rcases act_cases hfit.tables h with ⟨hrest, -⟩ | ⟨hrefresh, ⟨hhas, rfl⟩ | ⟨ip', hip', hnames, rfl⟩⟩
  · by_cases hlisted : ip ∈ listedAs type n' → ip ∈ listedAs type n
    · exact .rests (hrest.timers type htype ip) hlisted
    have htimers := hrest.timers type htype ip
    simp only [isNeighType, Bool.or_eq_true, beq_iff_eq] at htype
    rcases htype with rfl | rfl
    · obtain ⟨hn, hnot⟩ := Classical.not_imp.mp hlisted
      obtain ⟨hhello, hip, hnone, hrefresh⟩ := (listed_act h hn).resolve_left hnot
      exact .meets htimers hhello ⟨rfl, hip⟩ hnone hrefresh
    · rw [listedAs_neigh2h, listedAs_neigh2h] at hlisted
      exact absurd (fun hip ↦ List.map_subset Prod.fst hrest.ages2h hip) hlisted
  · exact act_refresh htype hfit hhas hrefresh ip
  · exact act_refresh2h htype hfit hip' hnames hrefresh ip

/-- What the acts of a task mean for an address and the timers of a type. -/
structure ActsOn (type : TaskType) (ip : Ip) (n₀ : Node) (t : Task) (n n' : Node) : Prop where
  fit : Fit n'
  now : n'.now = n.now
  tasks : n'.tasks = n.tasks
  kept : timersOf type ip n ≠ [] → timersOf type ip n' ≠ []
  times : ∀ u ∈ timersOf type ip n', u ∈ timersOf type ip n ∨ u.time = n.now + grace type
  listed : ip ∈ listedAs type n' → ip ∈ listedAs type n ∨ timersOf type ip n' ≠ [] ∨
    t.type = .recvHello ∧ (type = .neighbor ∧ ip = t.srcIp) ∧ n₀.findAodvNeigh t.srcIp = none
  named : Named type ip t n' → Named type ip t n
  quiet : (refreshes t n₀ = true → ¬ Named type ip t n) →
    timersOf type ip n' = timersOf type ip n ∧ (ip ∈ listedAs type n' → ip ∈ listedAs type n)

theorem ActsOn.refl (hfit : Fit n) : ActsOn type ip n₀ t n n where
  fit := hfit
  now := rfl
  tasks := rfl
  kept := id
  times _ hu := .inl hu
  listed := .inl
  named := id
  quiet _ := ⟨rfl, id⟩

theorem act_frame (hfit : Fit n) (h : NeighAct n₀ t n n') : n'.now = n.now ∧ n'.tasks = n.tasks := by
  rcases act_cases hfit.tables h with ⟨hrest, -⟩ | ⟨-, ⟨-, rfl⟩ | ⟨ip', -, -, rfl⟩⟩
  · exact ⟨hrest.now, hrest.tasks⟩
  · exact ⟨rfl, rfl⟩
  · exact ⟨refreshNeigh2h_now ip' n, (timersOf_of_ops .neighbor rfl rfl (ops_neighbor2h (n := n) ip')).2.1⟩

theorem named_act (hfit : Fit n) (h : NeighAct n₀ t n n') (hnamed : Named type ip t n') : Named type ip t n := by
  rcases hnamed with ⟨htype, hip, hhello | hlisted⟩ | ⟨htype, hip, hnames⟩
  · exact .inl ⟨htype, hip, .inl hhello⟩
  · rcases listed_act h hlisted with hlisted | ⟨hhello, -⟩
    · exact .inl ⟨htype, hip, .inr hlisted⟩
    · exact .inl ⟨htype, hip, .inl hhello⟩
  · refine .inr ⟨htype, hip, ?_⟩
    rcases act_cases hfit.tables h with ⟨hrest, -⟩ | ⟨-, ⟨-, rfl⟩ | ⟨ip', -, -, rfl⟩⟩
    · exact hnames.of_resting hrest
    · exact hnames.of_refresh
    · exact hnames.of_refresh2h

theorem ActsOn.act {n'' : Node} (htype : isNeighType type = true) (h : ActsOn type ip n₀ t n n')
    (hact : NeighAct n₀ t n' n'') : ActsOn type ip n₀ t n n'' := by
  obtain ⟨hnow, htasks⟩ := act_frame h.fit hact
  have hon := act_on htype h.fit ip hact
  refine ⟨h.fit.act hact, hnow.trans h.now, htasks.trans h.tasks, ?_, ?_, ?_, ?_, ?_⟩
  · intro hset
    cases hon with
    | rests htimers | meets htimers => exact htimers ▸ h.kept hset
    | renews hrenew => exact hrenew.timer
  · intro u hu
    cases hon with
    | rests htimers | meets htimers => exact h.times u (htimers ▸ hu)
    | renews hrenew =>
      rcases hrenew.times u hu with hu | hu
      · exact h.times u hu
      · exact .inr (h.now ▸ hu)
  · intro hip
    cases hon with
    | rests htimers hlisted => exact htimers ▸ h.listed (hlisted hip)
    | meets _ hhello hip hnone => exact .inr (.inr ⟨hhello, hip, hnone⟩)
    | renews hrenew => exact .inr (.inl hrenew.timer)
  · exact fun hnamed ↦ h.named (named_act h.fit hact hnamed)
  · intro hquiet
    obtain ⟨htimers', hlisted'⟩ := h.quiet hquiet
    cases hon with
    | rests htimers hlisted => exact ⟨htimers.trans htimers', fun hip ↦ hlisted' (hlisted hip)⟩
    | meets _ hhello hip _ hrefresh => exact absurd (.inl ⟨hip.1, hip.2, .inl hhello⟩) (hquiet hrefresh)
    | renews _ hnamed hrefresh => exact absurd (h.named hnamed) (hquiet hrefresh)

theorem acts_on (htype : isNeighType type = true) (hfit : Fit n) (h : Acts n₀ t n n') : ActsOn type ip n₀ t n n' := by
  induction h with
  | refl => exact .refl hfit
  | tail _ hact ih => exact ih.act htype hact

end Acts

section Handlers

/-- Every address that is listed has a timer or a task that takes it from the
list, and no timer of these types is set for later than a grace ahead. -/
structure Attended (n : Node) : Prop where
  fit : Fit n
  awaited : ∀ type, isNeighType type = true → ∀ ip ∈ listedAs type n, 0 < pending (isOf type ip) n
  soon : ∀ type, isNeighType type = true → ∀ ip, ∀ u ∈ timersOf type ip n, u.time ≤ n.now + grace type

theorem Fit.acts (h : Fit n) (hacts : Acts n₀ t n n') : Fit n' := by
  induction hacts with
  | refl => exact h
  | tail _ hact ih => exact ih.act hact

theorem not_listed_of_find (hfit : Fit n) (hnone : n.findAodvNeigh ip = none) : ip ∉ listedAs .neighbor n := by
  intro hip
  obtain ⟨x, hx, heq⟩ := List.mem_map.mp hip
  exact hfit.tables.ip_ne_of_find hnone hx heq

/-- A HELLO from a stranger makes no neighbour, or one that is refreshed at once. -/
theorem recvHello_stranger {m : Hello} (hfit : Fit n) (htype : t.type = .recvHello) (hdata : t.data = some (.hello m))
    (hnone : n.findAodvNeigh t.srcIp = none) (h : n.recvHello t m = some n') :
    t.srcIp ∉ listedAs .neighbor n' ∨
      ∃ k, Fit k ∧ Fit (k.updateNeighLifetime t.srcIp) ∧ Acts n t (k.updateNeighLifetime t.srcIp) n' := by
  have hstranger := not_listed_of_find hfit hnone
  unfold recvHello at h
  split at h
  · exact .inl (Option.some.inj h ▸ hstranger)
  next hblack =>
  have hrefresh : refreshes t n = true := by simpa [refreshes, htype, hdata] using hblack
  rw [hnone] at h
  obtain ⟨⟨ok, n₁⟩, hnew, h⟩ := Option.bind_eq_some_iff.mp h
  obtain ⟨⟨ok₂, n₂⟩, hcreate, hnew⟩ := Option.bind_eq_some_iff.mp hnew
  have hmeet : NeighAct n t n n₂ := .meet htype (by simpa using hblack) hnone hcreate hrefresh
  cases ok₂ with
  | false =>
    simp only [Bool.not_false, if_true, Option.some.injEq, Prod.mk.injEq] at hnew
    obtain ⟨rfl, rfl⟩ := hnew
    have heq : n₂ = n' := Option.some.inj h
    subst heq
    rcases createAodvNeigh_spec hcreate with ⟨-, hsame⟩ | ⟨hok, -⟩
    · have htaken : listedAs .neighbor (n.takeNeigh2h t.srcIp).2.2 = listedAs .neighbor n :=
        congrArg (List.map AodvNeigh.ip) (takeNeigh2h_frame t.srcIp n).2
      have hlist : listedAs .neighbor n₂ = listedAs .neighbor n := (listedAs_same hsame).trans htaken
      exact .inl (hlist ▸ hstranger)
    · cases hok
  | true =>
    obtain ⟨n₃, hrecover, hnew⟩ := Option.bind_eq_some_iff.mp hnew
    simp only [Option.some.injEq, Prod.mk.injEq] at hnew
    obtain ⟨rfl, rfl⟩ := hnew
    have hsame := (neighSame_recoverLinks hrecover).trans
      (neighSame_of_steady (steady_redirectRoutes n₃.routing.table n₃))
    have hhas := hsame.hasNeigh (hasNeigh_createAodvNeigh hcreate)
    have hmet : Fit _ := hfit.acts (.head hmeet (.head (.same hsame) (.single .takeLoad)))
    have hgreet := @hasNeigh_modifyNeigh _ t.srcIp t.srcIp (fun x ↦ { x with loadMetric := { x.loadMetric with
      load := (n.takeNeigh2h t.srcIp).1, loadSeq := (n.takeNeigh2h t.srcIp).2.1 } }) (fun _ ↦ rfl) hhas
    exact .inr ⟨_, hmet, hmet.act (.refresh hgreet hrefresh),
      Option.some.inj h ▸ acts_refreshedHello hdata hrefresh hgreet⟩

/-- The sender of a HELLO that makes it a neighbour gets its timer. -/
theorem timer_of_meeting (hfit : Fit n) (htype : t.type = .recvHello) (hnone : n.findAodvNeigh t.srcIp = none)
    (h : n.handle t = some n') (hlisted : t.srcIp ∈ listedAs .neighbor n') : timersOf .neighbor t.srcIp n' ≠ [] := by
  rw [handle, htype] at h
  split at h
  all_goals first | (next heq _ => cases heq) | (next heq => cases heq) | skip
  · next hdata =>
    rcases recvHello_stranger hfit htype hdata hnone h with hnot | ⟨k, hk, hrefreshed, hacts⟩
    · exact absurd hlisted hnot
    · exact (acts_on rfl hrefreshed hacts).kept (renewed_refresh hk.ready).timer
  · exact absurd (Option.some.inj h ▸ hlisted) (not_listed_of_find hfit hnone)

/-- A task that takes an address from its list does so. -/
theorem not_listed_of_handle (hfit : Fit n) (hneigh : isNeighType t.type = true) (h : n.handle t = some n') :
    t.srcIp ∉ listedAs t.type n' := by
  have htype := hneigh
  simp only [isNeighType, Bool.or_eq_true, beq_iff_eq] at htype
  rcases htype with htype | htype
  · rw [handle, htype] at h
    rw [htype]
    dsimp only at h
    unfold deleteAodvNeigh at h
    intro hip
    split at h
    · have hsame : NeighSame (n.unlinkNeigh t.srcIp) n' := neighSame_of_steady (steady_genRerr h)
      rw [listedAs_same hsame, listedAs, (unlinkNeigh_frame t.srcIp n).2.1] at hip
      obtain ⟨x, hx, heq⟩ := List.mem_map.mp hip
      refine hfit.tables.neigh.key_ne_of_mem_eraseP (k := t.srcIp.toNat) (fun a ↦ ?_) hx (congrArg UInt32.toNat heq)
      simp [neighKey, UInt32.toNat_inj]
    · next hany =>
      obtain rfl := Option.some.inj h
      obtain ⟨x, hx, heq⟩ := List.mem_map.mp hip
      exact hany (List.any_eq_true.mpr ⟨x, hx, beq_iff_eq.mpr heq⟩)
  · rw [handle, htype] at h
    rw [htype]
    obtain rfl := Option.some.inj h
    intro hip
    obtain ⟨y, hy, heq⟩ := List.mem_map.mp hip
    obtain ⟨htables, hnone⟩ := hfit.tables.deleteAodvNeigh2h t.srcIp
    exact htables.ip_ne_of_find2h hnone hy heq

theorem pending_pos (htimer : timersOf type ip n ≠ []) : 0 < pending (isOf type ip) n := by
  have hlength := List.length_pos_iff.mpr htimer
  rw [pending_eq]
  omega

/-- The thread takes the task from the queue `tasks` is left of. -/
theorem Attended.thread {tasks : ClassQueue Task} (hn : Attended n) (hpop : n.tasks.pop = (some t, tasks))
    (h : { n with tasks := tasks }.handle t = some n') : Attended n' := by
  have hfit : Fit { n with tasks := tasks } :=
    ⟨hn.fit.tables.lists rfl rfl rfl, hn.fit.addressed.pop hpop, hn.fit.ready⟩
  have hacts := handle_acts h
  refine ⟨hfit.acts hacts, fun type htype ip hip ↦ ?_, fun type htype ip u hu ↦ ?_⟩
  · have hon : ActsOn type ip { n with tasks := tasks } t { n with tasks := tasks } n' := acts_on htype hfit hacts
    have hcount := pending_pop (p := isOf type ip) hpop
    rcases hon.listed hip with hlisted | htimer | ⟨hhello, ⟨rfl, rfl⟩, hnone⟩
    · have hawaited := hn.awaited type htype ip hlisted
      split at hcount
      · next hof =>
        obtain ⟨rfl, rfl⟩ := isOf_iff.mp hof
        exact absurd hip (not_listed_of_handle hfit htype h)
      · rw [hcount, Nat.add_zero, pending_eq] at hawaited
        rw [pending_eq, hon.tasks]
        rcases Nat.eq_zero_or_pos (timersOf type ip n').length with hnil | hpos
        · have hold : timersOf type ip { n with tasks := tasks } = [] := by
            by_contra hne
            exact hon.kept hne (List.length_eq_zero_iff.mp hnil)
          rw [hold] at hawaited
          simpa [hnil] using hawaited
        · omega
    · exact pending_pos htimer
    · exact pending_pos (timer_of_meeting hfit hhello hnone h hip)
  · have hon : ActsOn type ip { n with tasks := tasks } t { n with tasks := tasks } n' := acts_on htype hfit hacts
    rw [hon.now]
    rcases hon.times u hu with hu | hu
    · exact hn.soon type htype ip u hu
    · exact hu.le

theorem isUpkeep_of_isOf (htype : isNeighType type = true) (ht : isOf type ip t = true) : isUpkeep t = true := by
  obtain ⟨rfl, -⟩ := isOf_iff.mp ht
  exact isUpkeep_of_isNeighType htype

theorem Attended.step {e : Event} (hn : Attended n) (hs : n.step e = some n') : Attended n' := by
  have htables := step_tablesOrdered hn.fit.tables hs
  have haddressed := hn.fit.addressed.step hs
  by_cases he : e = .thread
  · subst he
    simp only [Node.step, threadStep] at hs
    split at hs
    · exact Option.some.inj hs ▸ hn
    · next t tasks hpop => exact hn.thread hpop hs
  cases step_neigh hs with
  | wait ms =>
    refine ⟨⟨htables, haddressed, hn.fit.ready⟩, hn.awaited, fun type htype ip u hu ↦ ?_⟩
    exact (hn.soon type htype ip u hu).trans (by change n.now + _ ≤ n.now + ms + _; omega)
  | idle hidle =>
    refine ⟨⟨htables, haddressed, hn.fit.ready.of_suffix hidle.timers.memory⟩, fun type htype ip hip ↦ ?_,
      fun type htype ip u hu ↦ ?_⟩
    · rw [pending_idle (fun _ ↦ isUpkeep_of_isOf htype) hidle]
      refine hn.awaited type htype ip ?_
      unfold listedAs at hip ⊢
      rwa [hidle.neigh, hidle.neigh2h] at hip
    · rw [timersOf_of_same type htype hidle.timers] at hu
      rw [hidle.now]
      exact hn.soon type htype ip u hu
  | signal =>
    obtain ⟨-, hnow, hneigh, hneigh2h, hqueue, -⟩ := signal_neigh n
    refine ⟨⟨htables, haddressed, hn.fit.ready.of_suffix (signal_memory n)⟩, fun type htype ip hip ↦ ?_,
      fun type htype ip u hu ↦ ?_⟩
    · rw [pending_signal]
      refine hn.awaited type htype ip ?_
      unfold listedAs at hip ⊢
      rwa [hneigh, hneigh2h] at hip
    · rw [hnow]
      refine hn.soon type htype ip u ?_
      rw [timersOf, hqueue] at hu
      exact ((List.dropWhile_sublist _).filter _).subset hu
  | thread => exact absurd rfl he

end Handlers

section Runs

/-- An address that is listed is about to be taken from its list at the time. -/
def Fading (type : TaskType) (ip : Ip) (time : ℕ) (n : Node) : Prop :=
  ip ∈ listedAs type n → (∃ u ∈ timersOf type ip n, u.time ≤ time) ∨ ∃ u ∈ n.tasks.elems, isOf type ip u = true

theorem Attended.fading (hn : Attended n) (htype : isNeighType type = true) (ip : Ip) :
    Fading type ip (n.now + grace type) n := by
  intro hip
  have hawaited := hn.awaited type htype ip hip
  rw [pending_eq] at hawaited
  rcases Nat.eq_zero_or_pos (timersOf type ip n).length with hnil | hpos
  · refine .inr (List.countP_pos_iff.mp ?_)
    omega
  · obtain ⟨u, hu⟩ := List.exists_mem_of_length_pos hpos
    exact .inl ⟨u, hu, hn.soon type htype ip u hu⟩

theorem Fading.step {e : Event} {time : ℕ} (htype : isNeighType type = true) (hfit : Fit n)
    (h : Fading type ip time n) (hquiet : Unheard type ip n e) (hs : n.step e = some n') :
    Fading type ip time n' := by
  by_cases he : e = .thread
  · subst he
    simp only [Node.step, threadStep] at hs
    split at hs
    · exact Option.some.inj hs ▸ h
    next t tasks hpop =>
    have hfit : Fit { n with tasks := tasks } := ⟨hfit.tables.lists rfl rfl rfl, hfit.addressed.pop hpop, hfit.ready⟩
    intro hip
    have hon : ActsOn type ip { n with tasks := tasks } t { n with tasks := tasks } n' :=
      acts_on htype hfit (handle_acts hs)
    obtain ⟨htimers, hlisted⟩ := hon.quiet (hquiet t tasks rfl hpop)
    rw [htimers, hon.tasks]
    rcases h (hlisted hip) with htimer | ⟨u, hu, hof⟩
    · exact .inl htimer
    · have hperm := ClassQueue.pop_perm n.tasks
      rw [hpop] at hperm
      have hmem : u ∈ t :: tasks.elems := hperm.symm.subset hu
      rcases List.mem_cons.mp hmem with rfl | hu
      · obtain ⟨rfl, rfl⟩ := isOf_iff.mp hof
        exact absurd hip (not_listed_of_handle hfit htype hs)
      · exact .inr ⟨u, hu, hof⟩
  cases step_neigh hs with
  | wait ms => exact h
  | idle hidle =>
    intro hip
    rw [timersOf_of_same type htype hidle.timers]
    have hold : ip ∈ listedAs type n := by
      unfold listedAs at hip ⊢
      rwa [hidle.neigh, hidle.neigh2h] at hip
    refine (h hold).imp_right ?_
    rintro ⟨u, hu, hof⟩
    exact ⟨u, mem_of_filter hidle.tasks.symm hu (isUpkeep_of_isOf htype hof), hof⟩
  | signal =>
    obtain ⟨-, hnow, hneigh, hneigh2h, hqueue, hperm⟩ := signal_neigh n
    intro hip
    have hold : ip ∈ listedAs type n := by
      unfold listedAs at hip ⊢
      rwa [hneigh, hneigh2h] at hip
    rcases h hold with ⟨u, hu, htime⟩ | ⟨u, hu, hof⟩
    · obtain ⟨hmem, hof⟩ := List.mem_filter.mp hu
      rw [← List.takeWhile_append_dropWhile (p := fun t : Model.Task ↦ timeBefore t.time n.now)
        (l := n.timers.queue)] at hmem
      rcases List.mem_append.mp hmem with hdue | hmem
      · exact .inr ⟨u, hperm.symm.subset (List.mem_append_left _ hdue), hof⟩
      · exact .inl ⟨u, List.mem_filter.mpr ⟨hqueue ▸ hmem, hof⟩, htime⟩
    · exact .inr ⟨u, hperm.symm.subset (List.mem_append_right _ hu), hof⟩
  | thread => exact absurd rfl he

theorem attended_init {cfg : Config} {env : Environment} (henv : ∀ b ∈ env.timerMemory, b = true) :
    Attended (Node.init cfg env) := by
  have hempty := init_neighLists cfg env
  obtain ⟨n, hqueue, -, hops⟩ := init_ops cfg env
  refine ⟨⟨init_tablesOrdered cfg env, upkeepAddressed_init cfg env, (working_init henv).ready⟩,
    fun type htype ip hip ↦ ?_, fun type htype ip u hu ↦ ?_⟩
  · unfold listedAs at hip
    rw [hempty.1, hempty.2] at hip
    cases type <;> cases hip
  · have hperiodic : isPeriodicType type = false := by
      simp only [isNeighType, Bool.or_eq_true, beq_iff_eq] at htype
      rcases htype with rfl | rfl
      · rfl
      · rfl
    rw [(timersOf_of_ops type htype hperiodic hops).2.2, timersOf, hqueue] at hu
    cases hu

theorem attended_of_run {C : Node → Event → Prop} (h : TimedReach C n) : Attended n :=
  h.induct (fun _ _ henv ↦ attended_init henv) fun _ _ _ hn _ hs ↦ hn.step hs

/-- A neighbour or 2-hop neighbour that no message has refreshed for its grace is
not listed any more once all due work is done. -/
theorem stale_neighs_given_up {es : List Event} (htype : isNeighType type = true)
    (h : TimedReach (fun _ _ ↦ True) n₀) (hrun : runs es n₀ = some n)
    (hquiet : Lockstep.Along Node.step (Unheard type ip) es n₀) (hlate : n₀.now + grace type < n.now)
    (hdone : CaughtUp n) : ip ∉ listedAs type n := by
  have hfading : ∀ (es : List Event) (k : Node), Attended k → Fading type ip (n₀.now + grace type) k →
      Lockstep.Along Node.step (Unheard type ip) es k → runs es k = some n →
      Fading type ip (n₀.now + grace type) n := by
    intro es
    induction es with
    | nil =>
      intro k _ hk _ hrun
      exact Option.some.inj hrun ▸ hk
    | cons e es ih =>
      intro k hattended hk hquiet hrun
      obtain ⟨k', hs, hrun⟩ := Option.bind_eq_some_iff.mp hrun
      exact ih k' (hattended.step hs) (hk.step htype hattended.fit hquiet.1 hs) (hquiet.2 k' hs) hrun
  have hattended := attended_of_run h
  intro hip
  rcases hfading es n₀ hattended (hattended.fading htype ip) hquiet hrun hip with ⟨u, hu, htime⟩ | ⟨u, hu, -⟩
  · have hdue := hdone.2 u (mem_timersOf.mp hu).1
    omega
  · rw [hdone.1] at hu
    cases hu

instance (n : Node) : Decidable (CaughtUp n) := inferInstanceAs (Decidable (_ ∧ _))

instance (type : TaskType) (ip : Ip) (n : Node) (e : Event) : Decidable (Unheard type ip n e) :=
  decidableAtTask (fun t _ n ↦ refreshes t n = true → ¬ Named type ip t n) n e

/-- Both fall silent. A new neighbour still names 192.168.1.2, which refreshes
neither. -/
def fallSilent : List Event :=
  helloFrom 0x0501a8c0 [0x0201a8c0] ++ [.wait 10101, .signal] ++ List.replicate 12 .thread

/-- 192.168.1.2 has named 192.168.1.3, and both are given up after 10.1 seconds. -/
theorem stale_neighs_given_up_both : ∃ n₀ n, listedAs .neighbor n₀ = [0x0201a8c0] ∧
    listedAs .neighbor2h n₀ = [0x0301a8c0] ∧ runs fallSilent n₀ = some n ∧
      0x0201a8c0 ∉ listedAs .neighbor n ∧ 0x0301a8c0 ∉ listedAs .neighbor2h n := by
  have hmeets : (runs (helloFrom 0x0201a8c0 [0x0301a8c0]) wcimNode).map (fun n ↦
      (listedAs .neighbor n, listedAs .neighbor2h n, n.now)) = some ([0x0201a8c0], [0x0301a8c0], 0) := by
    decide +kernel
  have hfalls : (runs (helloFrom 0x0201a8c0 [0x0301a8c0]) wcimNode).bind (fun n ↦ (runs fallSilent n).map fun n' ↦
      (decide (Lockstep.Along Node.step (Unheard .neighbor 0x0201a8c0) fallSilent n),
        decide (Lockstep.Along Node.step (Unheard .neighbor2h 0x0301a8c0) fallSilent n), decide (CaughtUp n'), n'.now)) =
      some (true, true, true, 10101) := by
    decide +kernel
  obtain ⟨n₀, hn₀, hfacts⟩ := Option.map_eq_some_iff.mp hmeets
  simp only [Prod.mk.injEq] at hfacts
  obtain ⟨hneigh, hneigh2h, hnow⟩ := hfacts
  rw [hn₀, Option.bind_some] at hfalls
  obtain ⟨n, hn, hfacts⟩ := Option.map_eq_some_iff.mp hfalls
  simp only [Prod.mk.injEq, decide_eq_true_eq] at hfacts
  obtain ⟨hquiet, hquiet2h, hdone, hlate⟩ := hfacts
  have hinit : TimedReach (fun _ _ ↦ True) wcimNode := .init fun _ ↦ List.not_mem_nil.elim
  have hreach : TimedReach (fun _ _ ↦ True) n₀ := hinit.of_runs hn₀
  refine ⟨n₀, n, hneigh, hneigh2h, hn, ?_, ?_⟩
  · exact stale_neighs_given_up rfl hreach hn hquiet (by rw [hnow, hlate]; decide) hdone
  · exact stale_neighs_given_up rfl hreach hn hquiet2h (by rw [hnow, hlate]; decide) hdone

end Runs

end Fbaodv.Proofs.StaleNeighs
