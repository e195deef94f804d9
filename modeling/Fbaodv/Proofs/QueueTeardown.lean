import Fbaodv.Proofs.TaskQueueRefinement
import Mathlib.Data.List.Induction

namespace Fbaodv.Proofs.QueueTeardown

open Fbaodv.Foundation Fbaodv.Model LinkedPath TaskQueue TaskQueueLinks TaskQueueRefinement

/-- `cleanup_task_queue` ends, and has freed the waiting tasks, each once and no
other. -/
def FreesWaiting (q : TaskQueue) (waiting : List Task) : Prop :=
  ∃ steps freed q', cleanupTaskQueue steps q = some (freed, q') ∧ (freed.map q.task).Perm (waiting.map some)

/-- `get_task` answers `NULL`, and all calls are answered as by an empty queue. -/
structure Empty (q : TaskQueue) : Prop where
  null : (q.getTask).map Prod.fst = some none
  calls : ∀ calls, AllFresh calls q → ∃ q', run calls q = some ((runSpec calls ClassQueue.empty).1, q')

/-- What is asked of the teardown of a queue in which these tasks wait. -/
structure TornDown (q : TaskQueue) (waiting : List Task) : Prop where
  frees : FreesWaiting q waiting
  empty : ∀ steps freed q', cleanupTaskQueue steps q = some (freed, q') → Empty q'

section Walks

variable {q q' : TaskQueue} {l : List Ptr} {freed : List Ptr} {steps : ℕ}

theorem cleanupLoop_taskEnd {p : Option Ptr} (h : cleanupLoop steps p q = some (freed, q')) :
    q'.taskEnd = q.taskEnd := by
  induction steps generalizing p q freed q' with
  | zero =>
    cases p with
    | none => exact congrArg taskEnd (Prod.mk.inj (Option.some.inj h)).2.symm
    | some p => cases h
  | succ steps ih =>
    cases p with
    | none => exact congrArg taskEnd (Prod.mk.inj (Option.some.inj h)).2.symm
    | some p =>
      obtain ⟨deadTask, -, h⟩ := Option.bind_eq_some_iff.mp h
      obtain ⟨⟨rest, q₁⟩, hrest, h⟩ := Option.bind_eq_some_iff.mp h
      obtain ⟨-, rfl⟩ := Prod.mk.inj (Option.some.inj h)
      exact (ih hrest).trans rfl

theorem cleanupLoop_mono {p : Option Ptr} {n : ℕ} (h : cleanupLoop steps p q = some (freed, q')) :
    cleanupLoop (steps + n) p q = some (freed, q') := by
  induction steps generalizing p q freed q' with
  | zero =>
    cases p with
    | none => cases n <;> exact h
    | some p => cases h
  | succ steps ih =>
    rw [Nat.succ_add]
    cases p with
    | none => exact h
    | some p =>
      obtain ⟨deadTask, hdead, h⟩ := Option.bind_eq_some_iff.mp h
      obtain ⟨⟨rest, q₁⟩, hrest, h⟩ := Option.bind_eq_some_iff.mp h
      rw [cleanupLoop, hdead, Option.bind_eq_bind, Option.bind_some, ih hrest]
      exact h

theorem cleanupLoop_alive {p : Ptr} (hp : (q.task p).isSome) : cleanupLoop (steps + 1) (some p) q =
    (cleanupLoop steps (q.next p) (q.free p)).map fun r ↦ (p :: r.1, r.2) := by
  rw [cleanupLoop, deref_some hp, Option.bind_eq_bind, Option.bind_some]
  cases cleanupLoop steps (q.next p) (q.free p) <;> rfl

/-- From the back of the queue the walk frees every waiting task, and goes on
where the `next` of `task_end` leads. -/
theorem cleanupLoop_chain {x : Ptr} {a : List Ptr} (hnd : (x :: a).Nodup)
    (halive : ∀ p ∈ x :: a, (q.task p).isSome) (hnext : BackPath q.next (x :: a)) (steps : ℕ) :
    ∃ q', cleanupLoop (steps + (x :: a).length) (x :: a).getLast? q =
      (cleanupLoop steps (q.next x) q').map fun r ↦ ((x :: a).reverse ++ r.1, r.2) := by
  induction a using List.reverseRecOn generalizing q with
  | nil =>
    exact ⟨q.free x, cleanupLoop_alive (halive x List.mem_cons_self)⟩
  | append_singleton a y ih =>
    rw [← List.cons_append] at hnd halive hnext ⊢
    obtain ⟨hrest, hlast, -⟩ := backPath_append.mp hnext
    have hy : y ∉ x :: a := not_mem_of_nodup_concat hnd
    have halive' : ∀ p ∈ x :: a, ((q.free y).task p).isSome := fun p hp ↦ by
      have hne : p ≠ y := fun heq ↦ hy (heq ▸ hp)
      have hsame : (q.free y).task p = q.task p := Function.update_of_ne hne _ _
      rw [hsame]
      exact halive p (List.mem_append_left _ hp)
    obtain ⟨q', hwalk⟩ := ih (q := q.free y) hnd.of_append_left halive' hrest
    refine ⟨q', ?_⟩
    have hprev : q.next y = (x :: a).getLast? := by
      have hz : (x :: a).getLast? = some ((x :: a).getLast (List.cons_ne_nil x a)) := List.getLast?_eq_some_getLast _
      rw [hz]
      exact hlast _ hz y rfl
    have hreverse : (x :: a ++ [y]).reverse = y :: (x :: a).reverse := List.reverse_concat
    rw [List.getLast?_append_of_ne_nil _ (List.cons_ne_nil y []), List.getLast?_singleton, List.length_append,
      List.length_singleton, ← Nat.add_assoc,
      cleanupLoop_alive (halive y (List.mem_append_right _ List.mem_cons_self)), hprev, hwalk, Option.map_map, hreverse]
    rfl

end Walks

section Teardown

variable {q q' : TaskQueue} {l freed : List Ptr} {steps : ℕ}

theorem getTask_ne_null {x : Ptr} (hend : q.taskEnd = some x) : (q.getTask).map Prod.fst ≠ some none := by
  intro h
  obtain ⟨⟨p, q'⟩, hget, hp⟩ := Option.map_eq_some_iff.mp h
  obtain rfl : p = none := hp
  unfold getTask at hget
  split at hget
  · next hsub =>
    obtain ⟨q₁, -, hget⟩ := Option.bind_eq_some_iff.mp hget
    exact hsub (Prod.mk.inj (Option.some.inj hget)).1
  · rw [if_pos (by rw [hend]; exact Option.some_ne_none x), hend] at hget
    dsimp only at hget
    split at hget
    · cases hget
    · obtain ⟨q₁, -, hget⟩ := Option.bind_eq_some_iff.mp hget
      cases hget

theorem map_some_filterMap {f : Ptr → Option Task} (h : ∀ p ∈ l, (f p).isSome) : (l.filterMap f).map some = l.map f := by
  induction l with
  | nil => rfl
  | cons p l ih =>
    obtain ⟨hp, hl⟩ := List.forall_mem_cons.mp h
    obtain ⟨t, ht⟩ := Option.isSome_iff_exists.mp hp
    rw [List.filterMap_cons_some ht, List.map_cons, List.map_cons, ih hl, ht]

/-- The waiting tasks are those of the chain. -/
theorem elems_perm {a : ClassQueue Task} (hl : Represents q l)
    (hcontrol : a.control = (l.filter q.isControlEntry).filterMap q.task)
    (hdata : a.data = (l.filter fun p ↦ !q.isControlEntry p).filterMap q.task) :
    (a.elems.map some).Perm (l.map q.task) := by
  have halive : ∀ f : Ptr → Bool, ∀ p ∈ l.filter f, (q.task p).isSome :=
    fun f p hp ↦ hl.chain.alive p (List.mem_of_mem_filter hp)
  rw [ClassQueue.elems, hcontrol, hdata, List.map_append, map_some_filterMap (halive _), map_some_filterMap (halive _),
    ← List.map_append]
  exact (List.filter_append_perm q.isControlEntry l).map q.task

theorem cleanupLoop_ne_nil {p : Ptr} (h : cleanupLoop steps (some p) q = some (freed, q')) : freed ≠ [] := by
  cases steps with
  | zero => cases h
  | succ steps =>
    obtain ⟨deadTask, -, h⟩ := Option.bind_eq_some_iff.mp h
    obtain ⟨⟨rest, q₁⟩, -, h⟩ := Option.bind_eq_some_iff.mp h
    obtain ⟨rfl, -⟩ := Prod.mk.inj (Option.some.inj h)
    exact List.cons_ne_nil deadTask rest

/-- The walk is right exactly if no stale pointer leads on from `task_end`. -/
theorem freesWaiting_iff {a : ClassQueue Task} (h : Refines q a) :
    FreesWaiting q a.elems ↔ ∀ x, q.taskEnd = some x → q.next x = none := by
  obtain ⟨l, hl, hcontrol, hdata⟩ := h
  have hperm := elems_perm hl hcontrol hdata
  cases l with
  | nil =>
    have hend : q.taskEnd = none := hl.chain.taskEnd
    have hq : q.taskQ = none := hl.chain.taskQ
    refine iff_of_true ⟨0, [], { q with taskQ := none }, ?_, hperm.symm⟩ fun x hx ↦ ?_
    · rw [cleanupTaskQueue, hq]
      rfl
    · rw [hend] at hx
      cases hx
  | cons x l =>
    have hend : q.taskEnd = some x := hl.chain.taskEnd
    have hwalk := cleanupLoop_chain (q := { q with taskQ := none }) hl.chain.nodup hl.chain.alive hl.chain.next
    rw [← hl.chain.taskQ] at hwalk
    constructor
    · rintro ⟨steps, freed, q', hcleanup, hfreed⟩ y hy
      obtain rfl := Option.some.inj (hend.symm.trans hy)
      obtain ⟨q₁, hsteps⟩ := hwalk steps
      have hlong := cleanupLoop_mono (n := (x :: l).length) hcleanup
      rw [hlong] at hsteps
      obtain ⟨⟨rest, q₂⟩, hrest, hfound⟩ := Option.map_eq_some_iff.mp hsteps.symm
      obtain ⟨rfl, -⟩ := Prod.mk.inj hfound
      dsimp only at hfreed
      have hlength := (hfreed.trans hperm).length_eq
      rw [List.length_map, List.length_append, List.length_reverse, List.length_map] at hlength
      have hnil : rest = [] := List.eq_nil_of_length_eq_zero (by omega)
      cases hnext : q.next x with
      | none => rfl
      | some p =>
        change cleanupLoop steps (q.next x) q₁ = _ at hrest
        rw [hnext] at hrest
        exact absurd hnil (cleanupLoop_ne_nil hrest)
    · intro hstale
      obtain ⟨q₁, hsteps⟩ := hwalk 0
      change _ = Option.map _ (cleanupLoop 0 (q.next x) q₁) at hsteps
      rw [hstale x hend] at hsteps
      refine ⟨_, _, _, hsteps, ?_⟩
      rw [List.append_nil]
      exact ((List.reverse_perm (x :: l)).map q.task).trans hperm.symm

theorem tornDown_iff {a : ClassQueue Task} (h : Refines q a) : TornDown q a.elems ↔ a.elems = [] := by
  obtain ⟨l, hl, hcontrol, hdata⟩ := id h
  have hperm := elems_perm hl hcontrol hdata
  constructor
  · rintro ⟨⟨steps, freed, q', hcleanup, -⟩, hempty⟩
    cases l with
    | nil => exact List.map_eq_nil_iff.mp hperm.eq_nil
    | cons x l =>
      have hend : q'.taskEnd = some x := (cleanupLoop_taskEnd hcleanup).trans hl.chain.taskEnd
      exact absurd (hempty steps freed q' hcleanup).null (getTask_ne_null hend)
  · intro hnil
    rw [hnil] at hperm
    obtain rfl : l = [] := List.map_eq_nil_iff.mp hperm.symm.eq_nil
    have hend : q.taskEnd = none := hl.chain.taskEnd
    have hsend : q.subEnd = none := hl.control.subEnd
    refine ⟨(freesWaiting_iff h).mpr fun x hx ↦ ?_, fun steps freed q' hcleanup ↦ ?_⟩
    · rw [hend] at hx
      cases hx
    · have hq : q.taskQ = none := hl.chain.taskQ
      rw [cleanupTaskQueue, hq, cleanupLoop] at hcleanup
      obtain rfl := (Prod.mk.inj (Option.some.inj hcleanup)).2
      have hq' : Refines { q with taskQ := none } ClassQueue.empty :=
        ⟨[], ⟨hl.chain.congr rfl rfl rfl rfl hq.symm, hl.control.congr ⟨rfl, rfl, rfl, rfl⟩⟩, rfl, rfl⟩
      refine ⟨?_, fun calls hfresh ↦ ?_⟩
      · simp [getTask, hsend, hend]
      · obtain ⟨q'', hrun, -⟩ := run_refines calls hq' hfresh
        exact ⟨q'', hrun⟩

end Teardown

/-- However the calls come, the queue they leave is torn down rightly exactly if
no task waits in it: the tail pointers keep leading to freed tasks, and a stale
`next` at `task_end` leads the walk to tasks that were handed out. -/
theorem cleanup_task_queue_iff (calls : List QueueCall) (h : AllFresh calls initTaskQueue) :
    ∃ q, run calls initTaskQueue = some ((runSpec calls ClassQueue.empty).1, q) ∧
      (TornDown q (runSpec calls ClassQueue.empty).2.elems ↔ (runSpec calls ClassQueue.empty).2.elems = []) ∧
      (FreesWaiting q (runSpec calls ClassQueue.empty).2.elems ↔ ∀ x, q.taskEnd = some x → q.next x = none) := by
  obtain ⟨q, hrun, hq⟩ := run_refines calls initTaskQueue_refines h
  exact ⟨q, hrun, tornDown_iff hq, freesWaiting_iff hq⟩

theorem cleanup_task_queue_served :
    let calls := [.queue 0 (createTask .recvRreq 0), .get]
    AllFresh calls initTaskQueue ∧
      ∃ q, run calls initTaskQueue = some ([some (createTask .recvRreq 0)], q) ∧ TornDown q [] := by
  intro calls
  have h : AllFresh calls initTaskQueue := ⟨rfl, trivial, trivial⟩
  obtain ⟨q, hrun, hdown, -⟩ := cleanup_task_queue_iff calls h
  exact ⟨h, q, hrun, hdown.mpr rfl⟩

/-- After the teardown of a queue with one task `get_task` hands out the freed
task. After that of one from which a task was served the walk goes on to it. -/
theorem cleanup_task_queue_waiting :
    let a := createTask .recvRreq 0
    let b := createTask .recvRrep 1
    (AllFresh [.queue 0 a] initTaskQueue ∧ ∃ q, run [.queue 0 a] initTaskQueue = some ([], q) ∧ ¬ TornDown q [a]) ∧
      AllFresh [.queue 0 a, .queue 1 b, .get] initTaskQueue ∧
      ∃ q, run [.queue 0 a, .queue 1 b, .get] initTaskQueue = some ([some a], q) ∧ ¬ FreesWaiting q [b] := by
  intro a b
  have hone : AllFresh [.queue 0 a] initTaskQueue := ⟨rfl, trivial⟩
  have htwo : AllFresh [.queue 0 a, .queue 1 b, .get] initTaskQueue := ⟨rfl, rfl, trivial, trivial⟩
  obtain ⟨q, hq, hrefines⟩ := run_refines _ initTaskQueue_refines hone
  obtain ⟨q', hq', hrefines'⟩ := run_refines _ initTaskQueue_refines htwo
  refine ⟨⟨hone, q, hq, fun h ↦ ?_⟩, htwo, q', hq', fun h ↦ ?_⟩
  · exact List.cons_ne_nil _ _ ((tornDown_iff hrefines).mp h)
  · have hstale : (run [.queue 0 a, .queue 1 b, .get] initTaskQueue).map
        (fun r ↦ (r.2.taskEnd, r.2.taskEnd.bind r.2.next)) = some (some 1, some 0) := rfl
    rw [hq'] at hstale
    obtain ⟨hend, hnext⟩ := Prod.mk.inj (Option.some.inj hstale)
    rw [hend] at hnext
    have hnull := (freesWaiting_iff hrefines').mp h 1 hend
    rw [Option.bind_some, hnull] at hnext
    cases hnext

end Fbaodv.Proofs.QueueTeardown
